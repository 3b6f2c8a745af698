import ArangoDataTools.ImportDelivery
import ArangoDataTools.Interleaving

namespace ArangoDataTools.ImportPipeline
open Interaction Interaction.Program Tally

-- A request is processed at once, whether or not its answer comes back: with the
-- overwrite parameter the collection is truncated before the documents go in.
inductive ImportServer (documentsOf : Bytes → List Value) : (op : Op) → List Value → op.Answer →
    List Value → Prop where
  | processed (database : String) (options : ImportOptions) (body : Bytes) (w : List Value)
      (answer : Except Error ImportResult) :
      ImportServer documentsOf (.send database (.importDocuments options body)) w answer
        ((if options.overwrite then [] else w) ++ documentsOf body)
  | lost (database : String) (options : ImportOptions) (body : Bytes) (w : List Value) (err : Error) :
      ImportServer documentsOf (.send database (.importDocuments options body)) w (.error err) w
  | count (counter : Counter) (w : List Value) : ImportServer documentsOf (.count counter) w () w

-- A run into a collection of such a server.
structure CollectionImport where
  sender : ArangoBatchSender
  documents : List Value
  line : Value → Bytes
  documentsOf : Bytes → List Value
  batchConfig : BatchConfig
  concurrency : ConcurrencyConfig

def CollectionImport.run (c : CollectionImport) : ImportRun Op Op.Answer (List Value) :=
  {documents := c.documents.map .ok,toVec := fun document => .ok (c.line document),batchConfig := c.batchConfig
   concurrency := c.concurrency,send := c.sender.send,answers := ImportServer c.documentsOf}

-- What is known of the server's reader: it takes the documents of a body apart.
def CollectionImport.Decodes (c : CollectionImport) : Prop :=
  ∀ chunk, chunk <:+: c.documents → c.documentsOf (jsonl c.line chunk) = chunk

def accepted : (op : Op) → op.Answer → Bool
  | .send _ _,answer => answer.toBool
  | _,_ => false

-- What a send does: it repeats one request, and `true` is the phase after a
-- request the server has answered for.
def importing (options : ImportOptions) (body : Bytes) : Protocol Op Op.Answer Bool :=
  {permits := fun _ op => (∃ counter, op = .count counter) ∨ ∃ database,
    op = .send database (.importDocuments options body)
   advance := fun written op answer => written || accepted op answer}

def AfterWrite (result : Except Error ImportResult) (written : Bool) : Prop :=
  result.toBool = true → written = true

section Sender
variable {options : ImportOptions} {body : Bytes}

theorem record_importing (policy : RetryPolicy) (counter : Counter) (written : Bool) :
    Follows (importing options body) (fun _ _ => True)
      (policy.record (fun counter => ask (.count counter)) counter) written := by
  unfold RetryPolicy.record
  split
  · exact ⟨.inl ⟨counter,rfl⟩,fun _ => trivial⟩
  · trivial

theorem recordFailure_importing (policy : RetryPolicy) (err : Error) (written : Bool) :
    Follows (importing options body) (fun _ _ => True)
      (policy.recordFailure (fun counter => ask (.count counter)) err) written := by
  unfold RetryPolicy.recordFailure
  split
  · exact record_importing policy _ written
  · trivial

theorem retryLoop_importing (policy : RetryPolicy) (database : String) (left : Nat) (written : Bool) :
    Follows (importing options body) AfterWrite
      (retryLoop policy (fun counter => ask (.count counter))
        (ask (.send database (.importDocuments options body))) left) written := by
  have failed : ∀ (err : Error) written, Follows (importing options body) AfterWrite
      ((policy.recordFailure (fun counter => ask (.count counter)) err).bind fun _ =>
      (fail err : Tool ImportResult)) written :=
    fun err written => follows_seq (recordFailure_importing policy err written)
      (fun _ _ _ ok => by cases ok) (fun _ _ _ ok => by cases ok)
  have permitted : ∀ written,
      (importing options body).permits written (.send database (.importDocuments options body)) :=
      fun _ => .inr ⟨database,rfl⟩
  induction left generalizing written with
  | zero =>
    refine ⟨permitted written,fun answer => ?_⟩
    cases answer with
    | ok result => exact fun _ => by simp [importing,accepted,Except.toBool]
    | error err => exact failed err _
  | succ left ih =>
    have again : ∀ (err : Error) written, Follows (importing options body) AfterWrite
        ((policy.recordFailure (fun counter => ask (.count counter)) err).bind fun _ =>
          if err.isRetryable then (policy.record (fun counter => ask (.count counter)) .retries).bind fun _ =>
            retryLoop policy (fun counter => ask (.count counter))
              (ask (.send database (.importDocuments options body))) left
          else (fail err : Tool ImportResult)) written := by
      intro err written
      refine follows_seq (recordFailure_importing policy err written) (fun _ later _ => ?_)
        (fun _ _ _ ok => by cases ok)
      split
      · exact follows_seq (record_importing policy _ later) (fun _ last _ => ih last)
          (fun _ _ _ ok => by cases ok)
      · exact fun ok => by cases ok
    refine ⟨permitted written,fun answer => ?_⟩
    cases answer with
    | ok result => exact fun _ => by simp [importing,accepted,Except.toBool]
    | error err => exact again err _

theorem send_importing (sender : ArangoBatchSender) (batch : Batch) :
    Follows (importing sender.options batch.body) AfterWrite (sender.send batch) false := by
  unfold ArangoBatchSender.send
  have request : Follows (importing sender.options batch.body)
      (fun result written => ∃ inner, result = .ok inner ∧ AfterWrite inner written)
      (attempt (sender.client.importDocuments sender.options batch.body)) false := by
    refine follows_attempt (follows_mono (fun result written after => ⟨result,rfl,after⟩) ?_)
    unfold Client.importDocuments
    split
    · exact fun ok => by cases ok
    · exact retryLoop_importing _ _ _ _
  refine follows_seq request ?_ ?_
  · rintro value written ⟨inner,same,after⟩
    cases same
    cases value with
    | ok result => exact after
    | error err => exact fun ok => by cases ok
  · rintro err written ⟨inner,same,-⟩
    cases same

end Sender

variable {c : CollectionImport} {s s' : RunState c.run}

def Landed (s : RunState c.run) : Prop := ∃ batch ∈ s.sent, s.world = c.documentsOf batch.body

def Phase.Sends (options : ImportOptions) (landed : Prop) : Phase Op Op.Answer → Prop
  | sending held program => ∃ written,
      Follows (importing options held.batch.body) AfterWrite program written ∧ (written = true → landed)
  | _ => True

structure Overwrites (s : RunState c.run) : Prop where
  sends : ∀ i, (s.workers i).phase.Sends c.sender.options (Landed s)
  answers : acknowledged s.answered ≠ [] → Landed s

theorem sends_mono {phase : Phase Op Op.Answer} (sends : phase.Sends options landed)
    (implies : landed → landed') :
    phase.Sends options landed' := by
  cases phase with
  | sending held program =>
    obtain ⟨written,follows,before⟩ := sends
    exact ⟨written,follows,fun now => implies (before now)⟩
  | _ => trivial

theorem sends_at (sends : ∀ i, (s.workers i).phase.Sends options landed) (held : s.workers i = worker) :
    worker.phase.Sends options landed := held ▸ sends i

theorem sending_sent (reachable : Reachable c.run s)
    (held : s.workers i = ⟨.sending taken program,summary⟩) : taken.batch ∈ s.sent := by
  obtain ⟨-,answered⟩ := reachable_ledger (fun other => if other = taken.batch then 1 else 0) reachable
  simp only [weigh_count] at answered
  have own : 0 < tally (fun w : Worker Op Op.Answer => w.phase.inSend fun other => if other =
      taken.batch then 1 else 0) s.workers :=
    tally_pos_iff.mpr ⟨i,by simp [held,Phase.inSend]⟩
  exact List.count_pos_iff.mp (by omega)

theorem request_landed {batch : Batch} (on : c.sender.options.overwrite = true) (present : batch ∈ s.sent)
    (permitted : (importing c.sender.options batch.body).permits written op)
    (answered : ImportServer c.documentsOf op s.world answer world) :
    (accepted op answer = true → ∃ batch ∈ s.sent, world = c.documentsOf batch.body) ∧
      (Landed s → ∃ batch ∈ s.sent, world = c.documentsOf batch.body) := by
  rcases permitted with ⟨counter,rfl⟩ | ⟨database,rfl⟩
  · cases answered
    exact ⟨fun no => by simp [accepted] at no,id⟩
  · cases answered with
    | processed => exact ⟨fun _ => ⟨_,present,by simp [on]⟩,fun _ => ⟨_,present,by simp [on]⟩⟩
    | lost => exact ⟨fun no => by simp [accepted,Except.toBool] at no,id⟩

theorem opening_overwrites (world : List Value) (now : Nat) : Overwrites (opening c.run world now) :=
  ⟨fun _ => trivial,fun some_ => (some_ rfl).elim⟩

theorem step_overwrites (on : c.sender.options.overwrite = true) (before : Reachable c.run s)
    (step : Step c.run s s')
    (overwrites : Overwrites s) : Overwrites s' := by
  obtain ⟨sends,answers⟩ := overwrites
  have same : ∀ {i old} {new : Worker Op Op.Answer}, s.workers i = old →
      (old.phase.Sends c.sender.options (Landed s) → new.phase.Sends c.sender.options (Landed s)) →
      ∀ j, (Function.update s.workers i new j).phase.Sends c.sender.options (Landed s) := fun held keeps =>
    forall_update (fun w : Worker Op Op.Answer => w.phase.Sends c.sender.options (Landed s)) held keeps sends
  cases step with
  | skip | take | finish | acquire | push | giveUp | closeReceiver | checkpoint | finally_ =>
      exact ⟨sends,answers⟩
  | lock held _ | receive held _ | leave held _ _ | register held | wait held _ | wake held _ | record _ _ held
  | succeed held | die held | report held _ _ | unheard held _ | join _ held | joinFailed _ held =>
    exact ⟨same held fun _ => trivial,answers⟩
  | @enter _ _ taken _ _ held room =>
    have grown : Landed s → ∃ batch ∈ s.sent ++ [taken.batch], s.world = c.documentsOf batch.body := by
      rintro ⟨batch,present,content⟩
      exact ⟨batch,List.mem_append_left _ present,content⟩
    refine ⟨?_,fun some_ => grown (answers some_)⟩
    exact forall_update (fun w : Worker Op Op.Answer => w.phase.Sends c.sender.options _) held
      (fun _ => ⟨false,send_importing c.sender taken.batch,by simp⟩) fun j => sends_mono (sends j) grown
  | call held answered =>
    obtain ⟨written,follows,landed⟩ := sends_at sends held
    obtain ⟨now,kept⟩ := request_landed on (sending_sent before held) follows.1 answered
    refine ⟨?_,fun some_ => kept (answers some_)⟩
    refine forall_update (fun w : Worker Op Op.Answer => w.phase.Sends c.sender.options _) held
      (fun _ => ⟨_,follows.2 _,fun either => ?_⟩) fun j => sends_mono (sends j) kept
    rcases Bool.or_eq_true_iff.mp either with earlier | accepted
    · exact kept (landed earlier)
    · exact now accepted
  | @answer _ _ _ outcome _ held =>
    obtain ⟨written,follows,landed⟩ := sends_at sends held
    refine ⟨same held fun _ => trivial,fun some_ => ?_⟩
    cases outcome with
    | ok result => exact landed (follows rfl)
    | error err => exact answers (by simpa using some_)

theorem reachable_overwrites (on : c.sender.options.overwrite = true)
    (reachable : Reachable c.run s) : Overwrites s :=
  reachable_induction opening_overwrites
    (fun _ _ before overwrites step => step_overwrites on before step overwrites) reachable

theorem collection_carries (c : CollectionImport) : Carries c.line c.run.batches c.documents :=
  (intoBatches_carries c.batchConfig c.documents).1

theorem collection_wanted (c : CollectionImport) : c.run.wanted c.run.batches = c.run.batches := by
  refine List.filter_eq_self.mpr fun batch present => ?_
  have numbered : batch.index ∈ List.range' 1 c.run.batches.length :=
    intoBatches_indices c.run.toVec c.run.documents c.run.batchConfig ▸ List.mem_map_of_mem present
  have first : 1 ≤ batch.index := (List.mem_range'_1.mp numbered).1
  exact decide_eq_true first

theorem returned_landed (on : c.sender.options.overwrite = true) (reachable : Reachable c.run s)
    (returned : s.returned = some (.ok summary)) (some_ : c.run.batches ≠ []) :
    ∃ batch ∈ c.run.batches, s.world = c.documentsOf batch.body := by
  have answered := returned_acknowledged reachable returned
  rw [collection_wanted] at answered
  have landed : Landed s := (reachable_overwrites on reachable).answers fun none_ =>
      some_ (by simpa [none_] using answered)
  obtain ⟨batch,present,content⟩ := landed
  exact ⟨batch,collection_wanted c ▸ (sent_wanted reachable).subset present,content⟩

-- An overwriting import keeps its documents exactly when one request carries them all.
theorem overwrite_keeps_all_iff (c : CollectionImport) (s : RunState c.run)
    (on : c.sender.options.overwrite = true)
    (distinct : c.documents.Nodup) (decodes : c.Decodes) (reachable : Reachable c.run s)
    (returned : s.returned = some (.ok summary)) :
    (∀ document ∈ c.documents, document ∈ s.world) ↔ Fits c.line c.batchConfig c.documents := by
  have carries := collection_carries c
  have landed := returned_landed on reachable returned
  rw [← intoBatches_single_iff]
  change _ ↔ c.run.batches.length ≤ 1
  constructor
  · intro all
    by_contra several
    obtain ⟨batch,present,content⟩ := landed fun none_ => by simp [none_] at several
    obtain ⟨chunk,body,part,document,inside,missing⟩ := carries_misses carries distinct present (by omega)
    rw [body,decodes chunk part] at content
    exact missing (content ▸ all document inside)
  · intro one document inside
    generalize c.run.batches = batches at carries landed one
    match batches with
    | [] => simp [carries_empty carries] at inside
    | [batch] =>
      obtain ⟨other,present,content⟩ := landed (by simp)
      obtain rfl := List.mem_singleton.mp present
      rw [content,carries_single carries,decodes _ (List.infix_refl _)]
      exact inside
    | _ :: _ :: _ => simp at one

theorem send_resolves {documentsOf : Bytes → List Value} (sender : ArangoBatchSender)
    (named : sender.options.collection ≠ "")
    (batch : Batch) (result : ImportResult) (w : List Value) :
    Resolves (ImportServer documentsOf) (sender.send batch) w (.ok result)
      ((if sender.options.overwrite then [] else w) ++ documentsOf batch.body) := by
  unfold ArangoBatchSender.send Client.importDocuments
  rw [if_neg named]
  unfold Client.execute Client.executeOn retry
  cases sender.client.retry.maxAttempts - 1 with
  | zero => exact .call _ _ (.ok result) _ (.processed ..) (@Resolves.lift _ _ _ _ (.ok _) _)
  | succ left => exact .call _ _ (.ok result) _ (.processed ..) (@Resolves.lift _ _ _ _ (.ok _) _)

def keyed (key : String) : Value := .object [("_key",.string key)]
def keyLine (document : Value) : Bytes := match document.get "_key" with
  | some (.string key) => asciiBytes "\x7b\"_key\":\"" ++ asciiBytes key ++ asciiBytes "\"\x7d"
  | _ => asciiBytes "null"

-- Two documents, both in one batch or each in its own.
def twoDocuments (maxDocs : Nat) : CollectionImport :=
  {sender := ⟨{database := "db"},{collection := "docs",overwrite := true}⟩,
    documents := [keyed "a",keyed "b"],line := keyLine
   documentsOf := fun body => (body.splitOn newline).filterMap fun line =>
     if line = keyLine (keyed "a") then some (keyed "a") else if line = keyLine (keyed "b") then
       some (keyed "b") else none
   batchConfig := {maxDocs := maxDocs},concurrency :=
     {workers := 1,maxInFlightBytes := 2 ^ 23,adaptive := true}}

theorem two_distinct (maxDocs : Nat) : (twoDocuments maxDocs).documents.Nodup := by
  change [keyed "a",keyed "b"].Nodup
  simp [keyed]

theorem two_decodes (maxDocs : Nat) : (twoDocuments maxDocs).Decodes := by
  intro chunk part
  have chunks : chunk = [] ∨ chunk = [keyed "a"] ∨ chunk = [keyed "a",keyed "b"] ∨ chunk = [keyed "b"] := by
    have part : chunk <:+: [keyed "a",keyed "b"] := part
    simp only [List.infix_cons_iff,List.prefix_cons_iff,List.infix_nil,List.prefix_nil] at part
    obtain (rfl | ⟨_,rfl,rfl | ⟨_,rfl,rfl⟩⟩) | (rfl | ⟨_,rfl,rfl⟩) | rfl := part <;> simp
  rcases chunks with rfl | rfl | rfl | rfl <;> rfl

theorem two_accepted (maxDocs : Nat) : ∀ {batches : List Batch}, (∀ batch ∈ batches, 0 < batch.index) → ∀ w,
    ∃ results, Accepted (twoDocuments maxDocs).run batches w results
      (batches.foldl (fun _ batch => (twoDocuments maxDocs).documentsOf batch.body) w) := by
  intro batches
  induction batches with
  | nil => exact fun _ w => ⟨_,.nil⟩
  | cons batch rest ih =>
    intro numbered w
    have sent := @send_resolves (twoDocuments maxDocs).documentsOf (twoDocuments maxDocs).sender
        (by simp [twoDocuments]) batch {} w
    obtain ⟨results,more⟩ := ih (fun other later => numbered other (List.mem_cons_of_mem _ later))
        ((twoDocuments maxDocs).documentsOf batch.body)
    exact ⟨_,.send (numbered batch List.mem_cons_self) sent more⟩

theorem two_batches_lose_document : ¬∀ (c : CollectionImport) (s : RunState c.run) (summary : ImportSummary),
    c.sender.options.overwrite = true → c.documents.Nodup → c.Decodes → Reachable c.run s →
    s.returned = some (.ok summary) →
      ∀ document ∈ c.documents, document ∈ s.world := by
  intro always
  obtain ⟨results,accepted⟩ := @two_accepted 1 (twoDocuments 1).run.batches (by decide) []
  obtain ⟨s,summary,reachable,returned,world,-⟩ :=
    solo_returns rfl (by decide) (by simp [twoDocuments,CollectionImport.run]) rfl accepted
  have all := always (twoDocuments 1) s summary rfl (two_distinct 1)
      (two_decodes 1) reachable returned (keyed "a") List.mem_cons_self
  rw [world] at all
  have last : (twoDocuments 1).run.batches.foldl
      (fun _ batch => (twoDocuments 1).documentsOf batch.body) [] = [keyed "b"] := by rfl
  simp [last,keyed] at all

theorem one_batch_keeps_all : ∃ s : RunState (twoDocuments 2).run, s.returned.isSome ∧
    ∀ document ∈ (twoDocuments 2).documents, document ∈ s.world := by
  obtain ⟨results,accepted⟩ := @two_accepted 2 (twoDocuments 2).run.batches (by decide) []
  obtain ⟨s,summary,reachable,returned,-⟩ :=
    solo_returns rfl (by decide) (by simp [twoDocuments,CollectionImport.run]) rfl accepted
  refine ⟨s,by simp [returned],?_⟩
  exact (overwrite_keeps_all_iff (twoDocuments 2) s rfl (two_distinct 2)
    (two_decodes 2) reachable returned).mpr (by decide)

end ArangoDataTools.ImportPipeline
