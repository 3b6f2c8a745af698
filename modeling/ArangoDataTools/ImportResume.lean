import ArangoDataTools.ImportCheckpointing
import ArangoDataTools.ImportOverwrite

namespace ArangoDataTools.ImportPipeline
open Interaction Interaction.Program

variable {Op : Type} {Ans : Op → Type} {W : Type}

-- A run over `documents` that finds `stored` in its checkpoint object.
structure Resumes (documents : List Value) (line : Value → Bytes) (stored : Option ImportCheckpoint)
    (run : ImportRun Op Ans W) : Prop where
  documents : run.documents = documents.map .ok
  toVec : run.toVec = fun document => .ok (line document)
  checkpoint : run.checkpoint = some (.ok stored)

-- Runs one after the other, each of them stopped anywhere: the batches of the last
-- one, the object it left and what all of them had acknowledged. A run must meet a
-- condition on the batches of the run before it.
inductive Session (meets : List Batch → ImportRun Op Ans W → Prop) (documents : List Value)
    (line : Value → Bytes) :
    List Batch → Option ImportCheckpoint → List (Batch × ImportResult) → Prop where
  | fresh : Session meets documents line [] none []
  | resume {run : ImportRun Op Ans W} {s : RunState run} : Session meets documents line cut stored acked →
      Resumes documents line stored run → meets cut run → Reachable run s →
      Session meets documents line run.batches s.task.stored (acked ++ acknowledged s.answered)

-- The batches a run skips are batches of the run before it.
def SkipsKnown (cut : List Batch) (run : ImportRun Op Ans W) : Prop :=
  ∀ batch ∈ run.batches, batch.index ≤ run.resumeFrom → batch ∈ cut

-- The batch holds the part of the document list that position `p` is in.
def Contains (line : Value → Bytes) (documents : List Value) (batch : Batch) (p : Nat) : Prop :=
  ∃ before chunk after, documents = before ++ chunk ++ after ∧ batch.body = jsonl line chunk ∧
    batch.documents = chunk.length ∧
    before.length ≤ p ∧ p < before.length + chunk.length

variable {documents : List Value} {line : Value → Bytes} {cut : List Batch} {stored : Option ImportCheckpoint}
  {acked : List (Batch × ImportResult)} {run : ImportRun Op Ans W} {s : RunState run}

theorem carries_contains (carries : Carries line batches documents) (inside : p < documents.length) :
    ∃ batch ∈ batches, Contains line documents batch p := by
  induction carries generalizing p with
  | nil => cases inside
  | @cons batch chunk batches documents body count _ _ ih =>
    by_cases first : p < chunk.length
    · exact ⟨batch,List.mem_cons_self,[],chunk,documents,by simp,body,count,Nat.zero_le _,by simpa using first⟩
    · have later : p - chunk.length < documents.length := by
        rw [List.length_append] at inside
        omega
      obtain ⟨other,present,before,part,after,split,content,size,low,high⟩ := ih later
      refine ⟨other,List.mem_cons_of_mem _ present,chunk ++ before,part,after,by simp [split],
        content,size,?_,?_⟩
      · rw [List.length_append]; omega
      · rw [List.length_append]; omega

theorem resumes_carries (resumes : Resumes documents line stored run) : Carries line run.batches documents := by
  unfold ImportRun.batches
  rw [resumes.documents,resumes.toVec]
  exact (intoBatches_carries run.batchConfig documents).1

theorem resumes_stored (resumes : Resumes documents line stored run) : run.stored = stored := by
  unfold ImportRun.stored
  rw [resumes.checkpoint]

theorem batches_same (present : batch ∈ run.batches) (also : other ∈ run.batches)
    (same : other.index = batch.index) : other = batch :=
  List.inj_on_of_nodup_map (intoBatches_nodup run.toVec run.documents run.batchConfig) also present same

theorem stored_acknowledged (reachable : Reachable run s) (present : batch ∈ run.batches)
    (high : run.resumeFrom < batch.index)
    (counted : batch.index ≤ (s.task.stored.getD {}).committedBatches) :
    batch ∈ (acknowledged s.answered).map Prod.fst := by
  rcases reachable_objectKept reachable with same | ⟨value,written,same⟩
  · rw [same] at counted
    exact absurd counted (Nat.not_le.mpr high)
  · rw [same] at counted
    obtain ⟨answer,acknowledged_,index⟩ :=
      (reachable_persistedBacked reachable value written).1.2 batch.index high counted
    have other := List.mem_of_mem_filter (acknowledged_wanted reachable acknowledged_)
    exact batches_same present other index ▸ List.mem_map_of_mem acknowledged_

def Spoken (cut : List Batch) (stored : Option ImportCheckpoint) (acked : List (Batch × ImportResult)) : Prop :=
  ∀ batch ∈ cut, batch.index ≤ (stored.getD {}).committedBatches → batch ∈ acked.map Prod.fst

theorem resume_spoken (spoken : Spoken cut stored acked) (resumes : Resumes documents line stored run)
    (skips : SkipsKnown cut run) (reachable : Reachable run s) :
    Spoken run.batches s.task.stored (acked ++ acknowledged s.answered) := by
  intro batch present counted
  rw [List.map_append,List.mem_append]
  by_cases low : batch.index ≤ run.resumeFrom
  · refine .inl (spoken batch (skips batch present low) ?_)
    simpa [ImportRun.resumeFrom,ImportRun.resume,resumes_stored resumes] using low
  · exact .inr (stored_acknowledged reachable present (by omega) counted)

theorem session_spoken (session : @Session Op Ans W SkipsKnown documents line cut stored acked) :
    Spoken cut stored acked := by
  induction session with
  | fresh => exact fun batch none_ => by cases none_
  | resume _ resumes skips reachable ih => exact resume_spoken ih resumes skips reachable

-- A resumed import that returns has sent every document, in this run or before.
theorem resumed_import_complete (session : @Session Op Ans W SkipsKnown documents line cut stored acked)
    (resumes : Resumes documents line stored run) (skips : SkipsKnown cut run) (reachable : Reachable run s)
    (returned : s.returned = some (.ok summary)) :
    ∀ p < documents.length, ∃ answer ∈ acked ++ acknowledged s.answered,
    Contains line documents answer.1 p := by
  intro p inside
  obtain ⟨batch,present,contains⟩ := carries_contains (resumes_carries resumes) inside
  have sent : batch ∈ (acked ++ acknowledged s.answered).map Prod.fst := by
    rw [List.map_append,List.mem_append]
    by_cases low : batch.index ≤ run.resumeFrom
    · refine .inl (session_spoken session batch (skips batch present low) ?_)
      simpa [ImportRun.resumeFrom,ImportRun.resume,resumes_stored resumes] using low
    · have wanted : batch ∈ run.wanted run.batches := List.mem_filter.mpr ⟨present,decide_eq_true (by omega)⟩
      exact .inr ((returned_acknowledged reachable returned).mem_iff.mpr wanted)
  obtain ⟨answer,acknowledged_,rfl⟩ := List.mem_map.mp sent
  exact ⟨answer,acknowledged_,contains⟩

-- Three documents sent by one worker to a sender that takes the first `taken` batches.
def threeDocuments (maxDocs : Nat) (stored : Option ImportCheckpoint) (taken : Nat) :
    ImportRun Empty (fun _ => Unit) Unit :=
  {documents := [keyed "a",keyed "b",keyed "c"].map .ok,toVec := fun document => .ok (keyLine document)
   batchConfig := {maxDocs := maxDocs},concurrency := {workers := 1,maxInFlightBytes := 2 ^ 23,adaptive := true}
   send := fun batch => lift
     (if batch.index ≤ taken then .ok {created := UInt64.ofNat batch.documents}
       else .error (.connection "reset"))
   answers := fun _ _ _ _ => True,checkpoint := some (.ok stored)}

theorem three_resumes (maxDocs : Nat) (stored : Option ImportCheckpoint) (taken : Nat) :
    Resumes [keyed "a",keyed "b",keyed "c"] keyLine stored (threeDocuments maxDocs stored taken) :=
    ⟨rfl,rfl,rfl⟩

theorem three_send (maxDocs : Nat) (stored : Option ImportCheckpoint) (taken : Nat) (batch : Batch) :
    Resolves (threeDocuments maxDocs stored taken).answers ((threeDocuments maxDocs stored taken).send batch) ()
      (if batch.index ≤ taken then .ok {created := UInt64.ofNat batch.documents}
        else .error (.connection "reset")) () := .lift

theorem three_accepted (maxDocs : Nat) (stored : Option ImportCheckpoint) (taken : Nat) (batches : List Batch)
    (low : ∀ batch ∈ batches, batch.index ≤ taken) :
    ∃ results, Accepted (threeDocuments maxDocs stored taken) batches () results () ∧
      ∀ answer ∈ results, answer.1 ∈ batches ∧
      (threeDocuments maxDocs stored taken).resumeFrom < answer.1.index := by
  induction batches with
  | nil => exact ⟨_,.nil,fun answer none_ => by cases none_⟩
  | cons batch rest ih =>
    obtain ⟨results,accepted,wanted⟩ := ih fun other later => low other (List.mem_cons_of_mem _ later)
    have later : ∀ answer ∈ results, answer.1 ∈ batch :: rest ∧
        (threeDocuments maxDocs stored taken).resumeFrom < answer.1.index :=
      fun answer present => ⟨List.mem_cons_of_mem _ (wanted answer present).1,(wanted answer present).2⟩
    by_cases high : (threeDocuments maxDocs stored taken).resumeFrom < batch.index
    · have sent := three_send maxDocs stored taken batch
      rw [if_pos (low batch List.mem_cons_self)] at sent
      refine ⟨_,.send high sent accepted,fun answer present => ?_⟩
      rcases List.mem_cons.mp present with rfl | present
      · exact ⟨List.mem_cons_self,high⟩
      · exact later answer present
    · exact ⟨results,.skip (by omega) accepted,later⟩

theorem three_interrupted : ∃ s : RunState (threeDocuments 1 none 1), Reachable _ s ∧
    acknowledged s.answered = [(⟨keyLine (keyed "a") ++ [newline],1,1⟩,{created := 1})] ∧
      1 ≤ (s.task.stored.getD {}).committedBatches := by
  let first : Batch := ⟨keyLine (keyed "a") ++ [newline],1,1⟩
  let second : Batch := ⟨keyLine (keyed "b") ++ [newline],1,2⟩
  let third : Batch := ⟨keyLine (keyed "c") ++ [newline],1,3⟩
  have stream : (threeDocuments 1 none 1).batches = [first] ++ second :: [third] := by rfl
  have accepted : Accepted (threeDocuments 1 none 1) [first] () [(first,{created := 1})] () :=
    .send (by decide) (three_send 1 none 1 first) .nil
  have refused : Resolves (threeDocuments 1 none 1).answers ((threeDocuments 1 none 1).send second)
      () (.error (.connection "reset")) () :=
    three_send 1 none 1 second
  obtain ⟨s,reachable,gone,ended,fine,answered⟩ :=
    solo_fails rfl (by decide) (by simp [threeDocuments]) stream accepted (by decide) refused
  have told : acknowledged s.answered = [(first,{created := 1})] := by rw [answered]; rfl
  refine ⟨s,reachable,told,?_⟩
  refine (ended_greatest reachable rfl ended fine).2.2 ⟨by decide,fun j above below => ?_⟩
  have start : (threeDocuments 1 none 1).resumeFrom < j := above
  obtain rfl : j = 1 := by omega
  exact ⟨_,told ▸ List.mem_singleton_self _,rfl⟩

theorem acknowledged_all (results : List (Batch × ImportResult)) :
    acknowledged (results.map fun answer => (answer.1,.ok answer.2)) = results := by
  induction results with
  | nil => rfl
  | cons answer rest ih => simp [acknowledged]

-- With batches of two, what was counted as the first batch has another extent.
theorem other_config_skips_document : ¬∀ (documents : List Value) (line : Value → Bytes) (cut : List Batch)
    (stored : Option ImportCheckpoint) (acked : List (Batch × ImportResult))
      (run : ImportRun Empty (fun _ => Unit) Unit)
    (s : RunState run) (summary : ImportSummary),
      @Session Empty (fun _ => Unit) Unit (fun _ _ => True) documents line cut stored acked →
      Resumes documents line stored run → Reachable run s → s.returned = some (.ok summary) →
      ∀ p < documents.length, ∃ answer ∈ acked ++ acknowledged s.answered,
      Contains line documents answer.1 p := by
  intro always
  obtain ⟨s,reachable,told,counted⟩ := three_interrupted
  have session : Session (fun _ _ => True) [keyed "a",keyed "b",keyed "c"] keyLine
      (threeDocuments 1 none 1).batches s.task.stored
      ([] ++ acknowledged s.answered) := .resume .fresh (three_resumes 1 none 1) trivial reachable
  let both : Batch := ⟨keyLine (keyed "a") ++ [newline] ++ keyLine (keyed "b") ++ [newline],2,1⟩
  let last : Batch := ⟨keyLine (keyed "c") ++ [newline],1,2⟩
  have stream : (threeDocuments 2 s.task.stored 2).batches = [both,last] := by rfl
  obtain ⟨results,accepted,wanted⟩ :=
    three_accepted 2 s.task.stored 2 (threeDocuments 2 s.task.stored 2).batches (by rw [stream]; decide)
  have few : ∀ answer ∈ results, answer.1 = last := by
    intro answer present
    obtain ⟨cut,high⟩ := wanted answer present
    have above : 1 < answer.1.index := Nat.lt_of_le_of_lt counted high
    rw [stream] at cut
    rcases List.mem_pair.mp cut with same | same
    · simp [same,both] at above
    · exact same
  obtain ⟨s',summary,reachable',returned,-,answered,-⟩ := 
    solo_returns rfl (by simp [threeDocuments]) (by simp [threeDocuments]) rfl accepted
  have one : ∀ answer ∈ acknowledged s.answered ++ acknowledged s'.answered,
      answer.1.documents = 1 ∧ answer.1.body ≠ keyLine (keyed "b") ++ [newline] := by
    intro answer present
    rcases List.mem_append.mp present with before | now
    · rw [told] at before
      obtain rfl := List.mem_singleton.mp before
      exact ⟨rfl,by decide⟩
    · rw [answered,acknowledged_all] at now
      rw [few answer now]
      exact ⟨rfl,by decide⟩
  obtain ⟨answer,present,before,chunk,after,split,content,size,low,high⟩ :=
    always _ _ _ _ _ _ s' summary session (three_resumes 2 s.task.stored 2) reachable' returned 1 (by decide)
  obtain ⟨single,other⟩ := one answer present
  obtain ⟨document,rfl⟩ : ∃ document, chunk = [document] := List.length_eq_one_iff.mp (size.symm.trans single)
  obtain ⟨earlier,rfl⟩ : ∃ earlier, before = [earlier] :=
    List.length_eq_one_iff.mp (by simp only [List.length_singleton] at high; omega)
  obtain ⟨-,rfl,-⟩ : keyed "a" = earlier ∧ keyed "b" = document ∧ [keyed "c"] = after := by simpa using split
  exact other (content.trans (by simp [jsonl]))

theorem interrupted_import_completes : ∃ (s : RunState (threeDocuments 1 none 1))
    (s' : RunState (threeDocuments 1 s.task.stored 3)),
    s'.returned.isSome ∧ ∀ p < 3, ∃ answer ∈ acknowledged s.answered ++ acknowledged s'.answered,
      Contains keyLine [keyed "a",keyed "b",keyed "c"] answer.1 p := by
  obtain ⟨s,reachable,-,-⟩ := three_interrupted
  have first : SkipsKnown [] (threeDocuments 1 none 1) := fun batch present low => by
    have numbered : ∀ batch ∈ (threeDocuments 1 none 1).batches, 0 < batch.index := by decide
    exact absurd low (Nat.not_le.mpr (numbered batch present))
  have session := Session.resume .fresh (three_resumes 1 none 1) first reachable
  have stream : (threeDocuments 1 s.task.stored 3).batches = (threeDocuments 1 none 1).batches := rfl
  obtain ⟨results,accepted,-⟩ :=
    three_accepted 1 s.task.stored 3 (threeDocuments 1 s.task.stored 3).batches (by rw [stream]; decide)
  obtain ⟨s',summary,reachable',returned,-⟩ :=
    solo_returns rfl (by simp [threeDocuments]) (by simp [threeDocuments]) rfl accepted
  exact ⟨s,s',by simp [returned],
    resumed_import_complete session (three_resumes 1 s.task.stored 3)
      (fun batch present _ => stream ▸ present) reachable' returned⟩

end ArangoDataTools.ImportPipeline
