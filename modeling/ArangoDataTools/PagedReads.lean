import ArangoDataTools.CursorStream
import ArangoDataTools.Dump

namespace ArangoDataTools.PagedReads
open Interaction Interaction.Program Dump CursorStream

-- `HeaderValue::to_str` takes visible ASCII and tabs only.
def visible (byte : UInt8) : Bool := (32 ≤ byte && byte < 127) || byte = 9

def digit (byte : UInt8) : Option Nat := if 48 ≤ byte ∧ byte ≤ 57 then some (byte.toNat - 48) else none

def parseU64 (text : Bytes) : Option UInt64 :=
  let digits := match text with
    | 43 :: rest => rest
    | _ => text
  if digits.isEmpty then none
  else (digits.mapM digit).bind fun digits =>
    let value := digits.foldl (fun value digit => value * 10 + digit) 0
    if value < 2^64 then some (UInt64.ofNat value) else none

def headerU64 (value : Option Bytes) : UInt64 :=
  ((value.filter fun text => text.all visible).bind parseU64).getD 0

def lowercase (byte : UInt8) : UInt8 := if 65 ≤ byte ∧ byte ≤ 90 then byte + 32 else byte

def headerBool (value : Option Bytes) : Bool :=
  value.any fun text => decide (text.map lowercase = asciiBytes "true")

-- A successful answer to a request for data: the two headers read, if they are
-- there, and the body.
structure DumpResponse where
  lastIncluded : Option Bytes := none
  checkMore : Option Bytes := none
  body : Bytes := []

def DumpResponse.chunk (response : DumpResponse) : DumpChunk :=
  {body := response.body,lastIncludedTick := headerU64 response.lastIncluded,
    hasMore := headerBool response.checkMore}

-- A server that answers every request with the next of its responses; the
-- world is their number so far.
def answering (chunks : Nat → DumpChunk) (batches : Nat → CursorBatch) : Handler Op Op.Answer Nat
  | .send _ (.replicationDumpChunk _ _ _ _), received => (.ok (chunks received),received+1)
  | .send _ (.cursorOpen _), received => (.ok (batches received),received+1)
  | .send _ (.cursorNext _), received => (.ok (batches received),received+1)
  | .send _ (.cursorDelete _), received => (.ok (),received)
  | op, received => (op.refuse,received)

variable {chunks : Nat → DumpChunk} {batches : Nat → CursorBatch}

section Dump

def asked (chunks : Nat → DumpChunk) : Nat → UInt64
  | 0 => 0
  | i+1 => (chunks i).lastIncludedTick

def Usable (chunks : Nat → DumpChunk) (i : Nat) : Prop :=
  (chunks i).lastIncludedTick ≠ 0 ∧ asked chunks i < (chunks i).lastIncludedTick

-- Whenever a response that is reached says that more data remains, its tick
-- leads on.
def Reliable (chunks : Nat → DumpChunk) : Prop :=
  ∀ i, (∀ j < i, (chunks j).hasMore = true ∧ Usable chunks j) → (chunks i).hasMore = true → Usable chunks i

-- A stream that ends without an error received an end of data last.
def DumpEnds (client : Client) (name batch : String) (size : Nat) (chunks : Nat → DumpChunk)
    (batches : Nat → CursorBatch) : Prop :=
  ∀ yielded received, run (answering chunks batches)
    (dumpDataStream client name batch size 0 []) 0 = (.ok (yielded,none),received) →
    ∃ last, received = last+1 ∧ (chunks last).hasMore = false

theorem fetched_run (client : Client) (name batch : String) (size : Nat) (tick : UInt64) (received : Nat) :
    run (answering chunks batches) (attempt (client.replicationDumpChunk name batch tick size)) received =
      (.ok (.ok (chunks received)),received+1) := by
  have answered : run (answering chunks batches) (client.replicationDumpChunk name batch tick size) received =
      (.ok (chunks received),received+1) :=
    Client.executeOn_run (fun _ _ => rfl) client client.database _ received fun err failed => by cases failed
  rw [run_attempt,answered]

theorem stream_ends (client : Client) (name batch : String) (size : Nat) (tick : UInt64) (first : Nat)
    (asks : asked chunks first = tick) (read : List Bytes) :
    ∃ yielded last, run (answering chunks batches) (dumpDataStream client name batch size tick read) first =
        (.ok (yielded,none),last+1) ∧ first ≤ last ∧
      (∀ i, first ≤ i → i < last → (chunks i).hasMore = true ∧ Usable chunks i) ∧
      ¬ ((chunks last).hasMore = true ∧ Usable chunks last) := by
  rw [dumpDataStream,run_bind_ok _ (fetched_run client name batch size tick first)]
  by_cases advances : (chunks first).hasMore = true ∧ (chunks first).lastIncludedTick ≠ 0 ∧
    tick < (chunks first).lastIncludedTick
  · simp only [dif_pos advances]
    obtain ⟨yielded,last,ran,below,followed,stopped⟩ := 
      stream_ends client name batch size (chunks first).lastIncludedTick (first+1) rfl
        (if (chunks first).body.isEmpty then read else read ++ [(chunks first).body])
    refine ⟨yielded,last,ran,by omega,?_,stopped⟩
    intro i above under
    by_cases here : i = first
    · rw [here]
      exact ⟨advances.1,advances.2.1,by rw [asks]; exact advances.2.2⟩
    · exact followed i (by omega) under
  · simp only [dif_neg advances]
    refine ⟨_,first,rfl,Nat.le_refl _,fun i above under => by omega,?_⟩
    intro goes
    obtain ⟨more,positive,grows⟩ := goes
    exact advances ⟨more,positive,by rw [← asks]; exact grows⟩
termination_by 2^64 - tick.toNat
decreasing_by
  have below := UInt64.toNat_lt (chunks first).lastIncludedTick
  have grows := UInt64.lt_iff_toNat_lt.mp advances.2.2
  omega

theorem dumpEnds_iff (client : Client) (name batch : String) (size : Nat) (chunks : Nat → DumpChunk)
    (batches : Nat → CursorBatch) :
    DumpEnds client name batch size chunks batches ↔ Reliable chunks := by
  obtain ⟨yielded,last,ran,-,followed,stopped⟩ := @stream_ends chunks batches client name batch size 0 0 rfl []
  constructor
  · intro ends i reached more
    by_contra unusable
    have here : last = i := by
      rcases Nat.lt_trichotomy last i with before | same | after
      · exact absurd (reached last before) stopped
      · exact same
      · exact absurd (followed i (Nat.zero_le _) after).2 unusable
    obtain ⟨last',same,finished⟩ := ends yielded (last+1) ran
    obtain rfl : last = last' := by omega
    rw [here,more] at finished
    cases finished
  · intro reliable yielded' received ran'
    rw [ran] at ran'
    cases ran'
    refine ⟨last,rfl,?_⟩
    cases more : (chunks last).hasMore with
    | false => rfl
    | true => exact absurd ⟨more,reliable last (fun j below => followed j (Nat.zero_le _) below) more⟩ stopped

end Dump

section Documents

def Continues (batches : Nat → CursorBatch) (i : Nat) : Prop := (batches i).hasMore = true ∧
    (batches i).id.isSome

def ReliableCursor (batches : Nat → CursorBatch) : Prop :=
  ∀ i, (∀ j < i, Continues batches j) → (batches i).hasMore = true → (batches i).id.isSome

-- The same for the stream of a cursor, however its consumer reads.
def DocumentsEnd (client : Client) (request : CursorRequest) (chunks : Nat → DumpChunk)
    (batches : Nat → CursorBatch) : Prop :=
  ∀ rounds s, Reached (answering chunks batches) (.initial (cursorTask client request rounds) 0) s → s.ended →
    (yielded s.received).2 = none → ∃ last, s.world = last+1 ∧ (batches last).hasMore = false

theorem next_run (client : Client) (id : String) (received : Nat) (out : List Item) :
    run (recording (answering chunks batches)) (attempt (client.cursorNext id)) (received,out) =
      (.ok (.ok (batches received)),(received+1,out)) := by
  have answered : run (recording (answering chunks batches)) (client.cursorNext id) (received,out) =
      (.ok (batches received),(received+1,out)) :=
    Client.executeOn_run (fun _ _ => rfl) client client.database _ _ fun err failed => by cases failed
  rw [run_attempt,answered]

theorem open_run (client : Client) (request : CursorRequest) (received : Nat) (out : List Item) :
    run (recording (answering chunks batches)) (attempt (client.cursorOpen request)) (received,out) =
      (.ok (.ok (batches received)),(received+1,out)) := by
  have answered : run (recording (answering chunks batches)) (client.cursorOpen request) (received,out) =
      (.ok (batches received),(received+1,out)) :=
    Client.executeOn_run (fun _ _ => rfl) client client.database _ _ fun err failed => by cases failed
  rw [run_attempt,answered]

def LastBatch (batches : Nat → CursorBatch) (first last : Nat) : Prop :=
  first ≤ last ∧ (∀ i, first ≤ i → i < last → Continues batches i) ∧ ¬ Continues batches last

theorem lastBatch_unique {first last other : Nat} (one : LastBatch batches first last)
    (two : LastBatch batches first other) :
    last = other := by
  rcases Nat.lt_trichotomy last other with before | same | after
  · exact absurd (two.2.1 last one.1 before) one.2.2
  · exact same
  · exact absurd (one.2.1 other two.1 after) two.2.2

theorem drive_ends (client : Client) (rounds first : Nat) (documents : List (List Value)) :
    (∃ (last : Nat) (sent : List (List Value)), last < first + rounds ∧ LastBatch batches first last ∧
      run (recording (answering chunks batches)) (driveCursor client rounds (batches first))
        (first+1,documents.map .ok) =
        (.ok true,(last+1,sent.map .ok))) ∨
    ((run (recording (answering chunks batches)) (driveCursor client rounds (batches first))
      (first+1,documents.map .ok)).1 = .ok false ∧
      ∀ i, first ≤ i → i < first + rounds → Continues batches i) := by
  induction rounds generalizing first documents with
  | zero => exact .inr ⟨rfl,fun i above under => by omega⟩
  | succ rounds ih =>
    have passed : run (ε:=Error) (recording (answering chunks batches))
        (ask (.pass (.ok (batches first).result)))
        (first+1,documents.map .ok) = (.ok true,(first+1,(documents ++ [(batches first).result]).map .ok)) := by
      unfold ask
      rw [run_perform]
      simp [recording]
    unfold driveCursor
    rw [run_bind_ok _ passed]
    simp only [if_true]
    have stops : ¬ Continues batches first → LastBatch batches first first :=
      fun stopped => ⟨Nat.le_refl _,fun i above under => by omega,stopped⟩
    cases more : (batches first).hasMore with
    | false =>
      refine .inl ⟨first,_,by omega,stops ?_,rfl⟩
      intro goes
      exact absurd goes.1 (by simp [more])
    | true =>
      simp only [if_true]
      cases id : (batches first).id with
      | none =>
        refine .inl ⟨first,_,by omega,stops ?_,rfl⟩
        intro goes
        have present := goes.2
        simp [id] at present
      | some cursor =>
        have goes : Continues batches first := ⟨more,by simp [id]⟩
        simp only
        rw [run_bind_ok _ (next_run client cursor (first+1) _)]
        rcases ih (first+1) (documents ++ [(batches first).result])
          with ⟨last,sent,below,ends,ran⟩ | ⟨unfinished,all⟩
        · refine .inl ⟨last,sent,by omega,⟨by have := ends.1; omega,?_,ends.2.2⟩,ran⟩
          intro i above under
          by_cases here : i = first
          · rw [here]; exact goes
          · exact ends.2.1 i (by omega) under
        · refine .inr ⟨unfinished,?_⟩
          intro i above under
          by_cases here : i = first
          · rw [here]; exact goes
          · exact all i (by omega) (by omega)

theorem task_ends (client : Client) (request : CursorRequest) (rounds : Nat) :
    (∃ (last : Nat) (sent : List (List Value)), last < rounds ∧ LastBatch batches 0 last ∧
      run (recording (answering chunks batches)) (cursorTask client request rounds) (0,[]) =
      (.ok true,(last+1,sent.map .ok))) ∨
    ((run (recording (answering chunks batches)) (cursorTask client request rounds) (0,[])).1 = .ok false ∧
      ∀ i, i < rounds → Continues batches i) := by
  unfold cursorTask
  rw [run_bind_ok _ (open_run client request 0 [])]
  rcases @drive_ends chunks batches client rounds 0 [] with ⟨last,sent,below,ends,ran⟩ | ⟨unfinished,all⟩
  · exact .inl ⟨last,sent,by omega,ends,ran⟩
  · exact .inr ⟨unfinished,fun i under => all i (Nat.zero_le _) (by omega)⟩

theorem documentsEnd_iff (client : Client) (request : CursorRequest) (chunks : Nat → DumpChunk)
    (batches : Nat → CursorBatch) :
    DocumentsEnd client request chunks batches ↔ ReliableCursor batches := by
  constructor
  · intro ends i reached more
    by_contra missing
    have stops : LastBatch batches 0 i :=
      ⟨Nat.zero_le _,fun j _ under => reached j under,fun goes => missing goes.2⟩
    rcases @task_ends chunks batches client request (i+1) with ⟨last,sent,-,last_,ran⟩ | ⟨-,all⟩
    · obtain ⟨s,path,ended⟩ := ended_reached (answering chunks batches) 0 [] (by rw [ran])
      have received := ended_received (answering chunks batches) path ended
      rw [ran] at received
      obtain ⟨world,items⟩ : last+1 = s.world ∧ sent.map .ok = s.received := by simpa using received
      have clean : (yielded s.received).2 = none := by
        have whole := yielded_append sent []
        rw [List.append_nil,items] at whole
        rw [whole]
        rfl
      obtain ⟨last',same,finished⟩ := ends (i+1) s path ended clean
      obtain rfl : last = last' := by omega
      rw [lastBatch_unique last_ stops,more] at finished
      cases finished
    · exact missing (all i (Nat.lt_succ_self i)).2
  · intro reliable rounds s path ended clean
    have received := ended_received (answering chunks batches) path ended
    rcases @task_ends chunks batches client request rounds with ⟨last,sent,-,last_,ran⟩ | ⟨unfinished,-⟩
    · rw [ran] at received
      obtain ⟨world,-⟩ : last+1 = s.world ∧ sent.map .ok = s.received := by simpa using received
      refine ⟨last,world.symm,?_⟩
      cases more : (batches last).hasMore with
      | false => rfl
      | true =>
        exact absurd ⟨more,reliable last (fun j below => last_.2.1 j (Nat.zero_le _) below) more⟩ last_.2.2
    · rw [received] at unfinished
      cases unfinished

end Documents

-- Over all sequences of successful responses: nothing is cut off silently
-- exactly where no response that promises more fails to say where it goes on.
theorem no_silent_truncation_iff (client : Client) (name batch : String) (size : Nat) (request : CursorRequest)
    (responses : Nat → DumpResponse) (batches : Nat → CursorBatch) :
    (DumpEnds client name batch size (fun i => (responses i).chunk) batches ↔
    Reliable fun i => (responses i).chunk) ∧
    (DocumentsEnd client request (fun i => (responses i).chunk) batches ↔ ReliableCursor batches) :=
  ⟨dumpEnds_iff client name batch size _ batches,documentsEnd_iff client request _ batches⟩

def tickless : DumpResponse := {checkMore := some (asciiBytes "true"),body := [91,93]}
def cursorless : CursorBatch := {hasMore := true}

theorem truncates_silently : ¬ ∀ client name batch size request (responses : Nat → DumpResponse) batches,
    DumpEnds client name batch size (fun i => (responses i).chunk) batches ∧
      DocumentsEnd client request (fun i => (responses i).chunk) batches := by
  intro always
  have dumped := (dumpEnds_iff _ _ _ _ _ _).mp
    (always ⟨"_system",{}⟩ "c" "1" 1 ⟨"RETURN 1",none,none,none,true⟩ (fun _ => tickless) fun _ => cursorless).1
  have usable := dumped 0 (fun j below => absurd below (Nat.not_lt_zero j)) (by decide)
  exact usable.1 rfl

end ArangoDataTools.PagedReads
