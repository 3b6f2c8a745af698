import ArangoDataTools.ImportResume

namespace ArangoDataTools.ImportPipeline
open Interaction Interaction.Program

variable {Op : Type} {Ans : Op → Type} {W : Type}

-- The end of the import command: rejected documents make it fail, whatever else went well.
def importCommand (returned : Except Error ImportSummary) : Except Error Unit := match returned with
  | .error err => .error err
  | .ok summary =>
    if summary.errors > 0 then
      .error (.config s!"{summary.errors} document(s) were rejected by the server") else .ok ()

-- What the server did with one document of a batch.
inductive Outcome where
  | created | updated | ignored | rejected
  deriving DecidableEq, Repr

def Outcome.Accepted (outcome : Outcome) : Prop := outcome ≠ .rejected

-- An answer counts what was done with the documents of its batch, one after the other.
structure Tells (answer : Batch × ImportResult) (verdict : Batch × List Outcome) : Prop where
  batch : verdict.1 = answer.1
  all : verdict.2.length = answer.1.documents
  created : answer.2.created.toNat = verdict.2.count .created
  updated : answer.2.updated.toNat = verdict.2.count .updated
  ignored : answer.2.ignored.toNat = verdict.2.count .ignored
  errors : answer.2.errors.toNat = verdict.2.count .rejected

def rejections (verdicts : List (Batch × List Outcome)) : Nat :=
  (verdicts.map fun verdict => verdict.2.count .rejected).sum

-- Runs of the identical command one after the other, each of them stopped anywhere:
-- the checkpoint object the last one left, and what was done with the documents sent.
inductive Imports (meets : (run : ImportRun Op Ans W) → RunState run → Prop) (config : BatchConfig)
    (documents : List Value)
    (line : Value → Bytes) : Option ImportCheckpoint → List (Batch × List Outcome) → Prop where
  | fresh : Imports meets config documents line none []
  | again {run : ImportRun Op Ans W} {s : RunState run} : Imports meets config documents line stored judged →
      Resumes documents line stored run → run.batchConfig = config → Reachable run s → meets run s →
      List.Forall₂ Tells (acknowledged s.answered) verdicts →
      Imports meets config documents line s.task.stored (judged ++ verdicts)

-- No checkpoint that was written counts a batch with rejected documents.
def WritesClean (run : ImportRun Op Ans W) (s : RunState run) : Prop :=
  ∀ value ∈ s.task.persisted, ∀ answer ∈ acknowledged s.answered,
    answer.1.index ≤ value.committedBatches → answer.2.errors = 0

-- The document at position `p` of the list is the one at position `k` of the batch.
def Placed (line : Value → Bytes) (documents : List Value) (batches : List Batch) (batch : Batch)
    (p k : Nat) : Prop :=
  ∃ earlier later before chunk after, batches = earlier ++ batch :: later ∧
    documents = before ++ chunk ++ after ∧
    Carries line earlier before ∧ batch.body = jsonl line chunk ∧ batch.documents = chunk.length ∧
    p = before.length + k ∧ k < chunk.length

def Decided (line : Value → Bytes) (documents : List Value) (batches : List Batch)
    (verdict : Batch × List Outcome) (p : Nat)
    (outcome : Outcome) : Prop :=
  ∃ k, Placed line documents batches verdict.1 p k ∧ verdict.2[k]? = some outcome

variable {config : BatchConfig} {documents : List Value} {line : Value → Bytes}
  {stored : Option ImportCheckpoint}
  {judged verdicts : List (Batch × List Outcome)} {run : ImportRun Op Ans W} {s : RunState run}

theorem carries_placed (carries : Carries line batches documents) (inside : p < documents.length) :
    ∃ batch ∈ batches, ∃ k, Placed line documents batches batch p k := by
  induction carries generalizing p with
  | nil => cases inside
  | @cons batch chunk batches documents body count some_ carries ih =>
    by_cases first : p < chunk.length
    · exact ⟨batch,List.mem_cons_self,p,[],batches,[],chunk,documents,rfl,rfl,.nil,body,count,
        (Nat.zero_add p).symm,first⟩
    · have later : p - chunk.length < documents.length := by
        rw [List.length_append] at inside
        omega
      obtain ⟨other,present,k,earlier,rest,before,part,after,place,split,carried,content,size,
          position,room⟩ := ih later
      refine ⟨other,List.mem_cons_of_mem _ present,k,batch :: earlier,rest,chunk ++ before,part,after,?_,?_,
        .cons body count some_ carried,content,size,?_,room⟩
      · rw [place,List.cons_append]
      · rw [split,List.append_assoc,List.append_assoc,List.append_assoc]
      · rw [List.length_append]
        omega

def Taken (judged : List (Batch × List Outcome)) (batch : Batch) : Prop :=
  ∃ verdict ∈ judged, verdict.1 = batch ∧ verdict.2.length = batch.documents ∧ .rejected ∉ verdict.2

theorem taken_more (taken : Taken judged batch) (verdicts : List (Batch × List Outcome)) :
    Taken (judged ++ verdicts) batch := by
  obtain ⟨verdict,present,told⟩ := taken
  exact ⟨verdict,List.mem_append_left _ present,told⟩

theorem tells_clean {answer : Batch × ImportResult} {verdict : Batch × List Outcome}
    (tells : Tells answer verdict) :
    answer.2.errors = 0 ↔ .rejected ∉ verdict.2 := by
  rw [← List.count_eq_zero,← tells.errors]
  exact UInt64.toNat_inj.symm

theorem told_verdict (told : List.Forall₂ Tells answers verdicts) (present : answer ∈ answers) :
    ∃ verdict ∈ verdicts, Tells answer verdict := by
  induction told with
  | nil => cases present
  | @cons first verdict rest others tells _ ih =>
    rcases List.mem_cons.mp present with rfl | later
    · exact ⟨verdict,List.mem_cons_self,tells⟩
    · obtain ⟨other,found,tells⟩ := ih later
      exact ⟨other,List.mem_cons_of_mem _ found,tells⟩

theorem told_taken (told : List.Forall₂ Tells answers verdicts) (present : answer ∈ answers)
    (clean : answer.2.errors = 0) :
    Taken verdicts answer.1 := by
  obtain ⟨verdict,inside,tells⟩ := told_verdict told present
  exact ⟨verdict,inside,tells.batch,tells.all,(tells_clean tells).mp clean⟩

theorem taken_decided (taken : Taken judged batch) (placed : Placed line documents batches batch p k) :
    ∃ verdict ∈ judged, ∃ outcome : Outcome, Decided line documents batches verdict p outcome ∧
    outcome.Accepted := by
  obtain ⟨verdict,present,rfl,all,clean⟩ := taken
  have inside : k < verdict.2.length := by
    obtain ⟨_,_,_,_,_,-,-,-,-,count,-,room⟩ := placed
    omega
  refine ⟨verdict,present,verdict.2[k],⟨k,placed,List.getElem?_eq_getElem inside⟩,fun rejected => clean ?_⟩
  exact rejected ▸ List.getElem_mem inside

def Counts (batches : List Batch) (stored : Option ImportCheckpoint)
    (judged : List (Batch × List Outcome)) : Prop :=
  ∀ batch ∈ batches, batch.index ≤ (stored.getD {}).committedBatches → Taken judged batch

def stream (config : BatchConfig) (documents : List Value) (line : Value → Bytes) : List Batch :=
  (intoBatches (fun document => .ok (line document)) (documents.map .ok) config).1

theorem resumes_stream (resumes : Resumes documents line stored run) (fixed : run.batchConfig = config) :
    run.batches = stream config documents line := by
  unfold ImportRun.batches stream
  rw [resumes.documents,resumes.toVec,fixed]

theorem resumes_resumeFrom (resumes : Resumes documents line stored run) : run.resumeFrom =
    (stored.getD {}).committedBatches := by
  rw [ImportRun.resumeFrom,ImportRun.resume,resumes_stored resumes]

theorem stream_numbered (present : batch ∈ stream config documents line) : 0 < batch.index := by
  have numbered : batch.index ∈ List.range' 1 (stream config documents line).length :=
    intoBatches_indices _ _ config ▸ List.mem_map_of_mem present
  exact (List.mem_range'_1.mp numbered).1

theorem again_counts (counts : Counts (stream config documents line) stored judged)
    (resumes : Resumes documents line stored run)
    (fixed : run.batchConfig = config) (reachable : Reachable run s) (clean : WritesClean run s)
    (told : List.Forall₂ Tells (acknowledged s.answered) verdicts) :
    Counts (stream config documents line) s.task.stored (judged ++ verdicts) := by
  intro batch present counted
  by_cases low : batch.index ≤ run.resumeFrom
  · exact taken_more (counts batch present (resumes_resumeFrom resumes ▸ low)) verdicts
  · rcases reachable_objectKept reachable with same | ⟨value,written,same⟩
    · rw [same] at counted
      exact absurd counted low
    · rw [same] at counted
      obtain ⟨answer,acknowledged_,index⟩ :=
        (reachable_persistedBacked reachable value written).1.2 batch.index (by omega) counted
      have other := List.mem_of_mem_filter (acknowledged_wanted reachable acknowledged_)
      obtain rfl : answer.1 = batch := batches_same (resumes_stream resumes fixed ▸ present) other index
      obtain ⟨verdict,found,fine⟩ :=
        told_taken told acknowledged_ (clean value written answer acknowledged_ counted)
      exact ⟨verdict,List.mem_append_right _ found,fine⟩

theorem imports_counts (imports : @Imports Op Ans W WritesClean config documents line stored judged) :
    Counts (stream config documents line) stored judged := by
  induction imports with
  | fresh => exact fun batch present counted => absurd counted (Nat.not_le.mpr (stream_numbered present))
  | again _ resumes fixed reachable clean told ih => exact again_counts ih resumes fixed reachable clean told

theorem command_succeeds (succeeded : importCommand returned = .ok ()) : ∃ summary,
    returned = .ok summary ∧ summary.errors = 0 := by
  cases returned with
  | error err => cases succeeded
  | ok summary =>
    refine ⟨summary,rfl,UInt64.le_zero_iff.mp (UInt64.not_lt.mp fun rejected => ?_)⟩
    rw [importCommand,if_pos rejected] at succeeded
    cases succeeded

theorem told_errors (told : List.Forall₂ Tells answers verdicts) :
    (ImportSummary.totals answers).errors = UInt64.ofNat (rejections verdicts) := by
  induction told with
  | nil => rfl
  | @cons answer verdict answers verdicts tells _ ih =>
    change answer.2.errors + (ImportSummary.totals answers).errors =
      UInt64.ofNat (verdict.2.count .rejected + rejections verdicts)
    rw [ih,UInt64.ofNat_add,← tells.errors,UInt64.ofNat_toNat]

theorem returned_clean (reachable : Reachable run s) (returned : s.returned = some (.ok summary))
    (none_ : summary.errors = 0)
    (told : List.Forall₂ Tells (acknowledged s.answered) verdicts) (few : rejections verdicts < 2 ^ 64)
    (present : answer ∈ acknowledged s.answered) : answer.2.errors = 0 := by
  have total : UInt64.ofNat (rejections verdicts) = 0 := by
    rw [← told_errors told,← returned_totals reachable returned]
    exact none_
  have clean : rejections verdicts = 0 := by
    have counted := congrArg UInt64.toNat total
    rwa [UInt64.toNat_ofNat',Nat.mod_eq_of_lt few] at counted
  obtain ⟨verdict,inside,tells⟩ := told_verdict told present
  refine (tells_clean tells).mpr (List.count_eq_zero.mp ?_)
  exact List.sum_eq_zero_iff.mp clean _
    (List.mem_map_of_mem (f:=fun verdict => verdict.2.count .rejected) inside)

-- When no checkpoint written by the runs before counts a rejected document, a run
-- that succeeds leaves every document of the list accepted.
theorem accepted_unless_rejection_counted (config : BatchConfig) (documents : List Value) (line : Value → Bytes)
    (stored : Option ImportCheckpoint) (judged verdicts : List (Batch × List Outcome))
      (run : ImportRun Op Ans W) (s : RunState run)
    (returned : Except Error ImportSummary)
      (imports : @Imports Op Ans W WritesClean config documents line stored judged)
    (resumes : Resumes documents line stored run) (fixed : run.batchConfig = config)
      (reachable : Reachable run s)
    (ended : s.returned = some returned) (told : List.Forall₂ Tells (acknowledged s.answered) verdicts)
    (few : rejections verdicts < 2 ^ 64) (succeeded : importCommand returned = .ok ()) :
    ∀ p < documents.length, ∃ verdict ∈ judged ++ verdicts, ∃ outcome : Outcome,
      Decided line documents run.batches verdict p outcome ∧ outcome.Accepted := by
  intro p inside
  obtain ⟨summary,rfl,none_⟩ := command_succeeds succeeded
  obtain ⟨batch,present,k,placed⟩ := carries_placed (resumes_carries resumes) inside
  refine taken_decided ?_ placed
  by_cases low : batch.index ≤ run.resumeFrom
  · refine taken_more (imports_counts imports batch ?_ ?_) verdicts
    · exact resumes_stream resumes fixed ▸ present
    · exact resumes_resumeFrom resumes ▸ low
  · have wanted : batch ∈ run.wanted run.batches := List.mem_filter.mpr ⟨present,decide_eq_true (by omega)⟩
    obtain ⟨answer,acknowledged_,rfl⟩ :=
      List.mem_map.mp ((returned_acknowledged reachable ended).mem_iff.mpr wanted)
    obtain ⟨verdict,found,fine⟩ :=
      told_taken told acknowledged_ (returned_clean reachable ended none_ told few acknowledged_)
    exact ⟨verdict,List.mem_append_right _ found,fine⟩

-- Batches of one document, for a sender whose server answers as `reply` says.
def repliedImport (documents : List Value) (stored : Option ImportCheckpoint)
    (reply : Batch → Except Error ImportResult) :
    ImportRun Empty (fun _ => Unit) Unit :=
  {documents := documents.map .ok,toVec := fun document => .ok (keyLine document)
   batchConfig := {maxDocs := 1},concurrency := {workers := 1,maxInFlightBytes := 2 ^ 23,adaptive := true}
   send := fun batch => lift (reply batch),answers := fun _ _ _ _ => True,checkpoint := some (.ok stored)}

def firstBatch : Batch := ⟨keyLine (keyed "a") ++ [newline],1,1⟩
def secondBatch : Batch := ⟨keyLine (keyed "b") ++ [newline],1,2⟩

section Replied
variable {documents : List Value} {stored : Option ImportCheckpoint} {reply : Batch → Except Error ImportResult}

theorem replied_resumes : Resumes documents keyLine stored (repliedImport documents stored reply) :=
  ⟨rfl,rfl,rfl⟩

theorem replied_sends (same : reply batch = outcome) : Resolves (repliedImport documents stored reply).answers
    ((repliedImport documents stored reply).send batch) () outcome () := same ▸ .lift

theorem replied_fits : (repliedImport documents stored reply).batchConfig.maxBytes ≤
    (repliedImport documents stored reply).concurrency.maxInFlightBytes := by simp [repliedImport]

theorem replied_loads (err : Error) : (repliedImport documents stored reply).checkpoint ≠
    some (.error err) := nofun

theorem replied_counted {s : RunState (repliedImport documents stored reply)} (reachable : Reachable _ s)
    (ended : s.task.phase = .ended) (fine : s.task.failedWrites = 0) :
    IsGreatest {k | Covered (repliedImport documents stored reply) s.answered k}
      (s.task.stored.getD {}).committedBatches :=
  (ended_greatest reachable rfl ended fine).2

end Replied

-- The rejected document is counted, so the next run has nothing to send.
theorem rejected_document_forgotten : ¬∀ (config : BatchConfig) (documents : List Value) (line : Value → Bytes)
    (stored : Option ImportCheckpoint) (judged verdicts : List (Batch × List Outcome))
      (run : ImportRun Empty (fun _ => Unit) Unit)
    (s : RunState run) (returned : Except Error ImportSummary),
    @Imports Empty (fun _ => Unit) Unit (fun _ _ => True) config documents line stored judged →
      Resumes documents line stored run → run.batchConfig = config → Reachable run s →
      s.returned = some returned →
      List.Forall₂ Tells (acknowledged s.answered) verdicts → importCommand returned = .ok () →
      ∀ p < documents.length, ∃ verdict ∈ judged ++ verdicts, ∃ outcome : Outcome,
        Decided line documents run.batches verdict p outcome ∧ outcome.Accepted := by
  intro always
  have refused : Accepted (repliedImport [keyed "a"] none fun _ => .ok {errors := 1}) [firstBatch]
      () [(firstBatch,{errors := 1})] () :=
    .send (Nat.le_refl 1) (replied_sends rfl) .nil
  obtain ⟨s,summary,reachable,returned,-,answered,fine⟩ :=
    solo_returns rfl replied_fits replied_loads rfl refused
  have told : List.Forall₂ Tells (acknowledged s.answered) [(firstBatch,[.rejected])] := by
    rw [answered]
    exact .cons ⟨rfl,rfl,rfl,rfl,rfl,rfl⟩ .nil
  have imports := @Imports.again _ _ _ (fun _ _ => True) _ _ _ _ _ _ _ _ .fresh replied_resumes rfl
      reachable trivial told
  have counted : 1 ≤ (s.task.stored.getD {}).committedBatches := by
    obtain ⟨-,-,ended,-⟩ := (reachable_orderly reachable).returned _ returned
    refine (replied_counted reachable ended fine).2 ⟨Nat.zero_le 1,fun j above below => ?_⟩
    obtain rfl : j = 1 := Nat.le_antisymm below above
    exact ⟨(firstBatch,{errors := 1}),answered ▸ List.mem_singleton_self _,rfl⟩
  have nothing : Accepted (repliedImport [keyed "a"] s.task.stored fun _ => .ok {}) [firstBatch] ()
      [] () := .skip counted .nil
  obtain ⟨s',summary',reachable',returned',-,answered',-⟩ :=
    solo_returns rfl replied_fits replied_loads rfl nothing
  have clean : summary' = {} := by
    rw [returned_totals reachable' returned',answered']
    rfl
  obtain ⟨verdict,present,outcome,⟨k,-,found⟩,accepted⟩ :=
    always _ _ _ _ _ [] _ s' _ imports replied_resumes rfl reachable' returned'
    (answered' ▸ .nil) (clean ▸ rfl) 0 Nat.zero_lt_one
  obtain rfl : verdict = (firstBatch,[.rejected]) := by simpa using present
  exact accepted (List.mem_singleton.mp (List.mem_of_getElem? found))

def firstOnly (batch : Batch) : Except Error ImportResult :=
  if batch.index = 1 then .ok {created := 1} else .error (.connection "reset")

-- The second batch is lost on the way; the next run sends it.
theorem interrupted_import_accepted : ∃ (s : RunState (repliedImport [keyed "a",keyed "b"] none firstOnly))
    (s' : RunState (repliedImport [keyed "a",keyed "b"] s.task.stored fun _ => .ok {created := 1})),
    s'.returned.isSome ∧
      ∀ p < 2, ∃ verdict ∈ [(firstBatch,[Outcome.created]),(secondBatch,[Outcome.created])],
        ∃ outcome : Outcome, Decided keyLine [keyed "a",keyed "b"]
          [firstBatch,secondBatch] verdict p outcome ∧ outcome.Accepted := by
  have first : Accepted (repliedImport [keyed "a",keyed "b"] none firstOnly) [firstBatch] ()
      [(firstBatch,{created := 1})] () :=
    .send (Nat.le_refl 1) (replied_sends rfl) .nil
  have refused : Resolves (repliedImport [keyed "a",keyed "b"] none firstOnly).answers
      ((repliedImport [keyed "a",keyed "b"] none firstOnly).send secondBatch) ()
        (.error (.connection "reset")) () := replied_sends rfl
  have stream : (repliedImport [keyed "a",keyed "b"] none firstOnly).batches = [firstBatch] ++
      secondBatch :: [] := rfl
  obtain ⟨s,reachable,-,ended,fine,answered⟩ :=
    solo_fails rfl replied_fits replied_loads stream first Nat.zero_lt_two refused
  have acked : acknowledged s.answered = [(firstBatch,{created := 1})] := answered ▸ rfl
  have told : List.Forall₂ Tells (acknowledged s.answered) [(firstBatch,[.created])] := by
    rw [acked]
    exact .cons ⟨rfl,rfl,rfl,rfl,rfl,rfl⟩ .nil
  have clean : WritesClean _ s := by
    intro value _ answer present _
    rw [acked,List.mem_singleton] at present
    rw [present]
  have imports := Imports.again .fresh replied_resumes rfl reachable clean told
  obtain ⟨⟨-,covered⟩,greatest⟩ := replied_counted reachable ended fine
  have counted : 1 ≤ (s.task.stored.getD {}).committedBatches := by
    refine greatest ⟨Nat.zero_le 1,fun j above below => ?_⟩
    obtain rfl : j = 1 := Nat.le_antisymm below above
    exact ⟨(firstBatch,{created := 1}),acked ▸ List.mem_singleton_self _,rfl⟩
  have pending : (s.task.stored.getD {}).committedBatches < 2 := by
    refine Nat.lt_of_not_le fun more => ?_
    obtain ⟨answer,present,index⟩ := covered 2 Nat.zero_lt_two more
    rw [acked,List.mem_singleton] at present
    rw [present] at index
    cases index
  have second : Accepted (repliedImport [keyed "a",keyed "b"] s.task.stored fun _ =>
      .ok {created := 1}) [firstBatch,secondBatch] ()
      [(secondBatch,{created := 1})] () := .skip counted (.send pending (replied_sends rfl) .nil)
  obtain ⟨s',summary,reachable',returned,-,answered',-⟩ :=
    solo_returns rfl replied_fits replied_loads rfl second
  have fine' : summary.errors = 0 := by
    rw [returned_totals reachable' returned,answered']
    rfl
  refine ⟨s,s',returned ▸ rfl,accepted_unless_rejection_counted {maxDocs := 1}
    [keyed "a",keyed "b"] keyLine _ [(firstBatch,[.created])]
    [(secondBatch,[.created])] _ s' _ imports replied_resumes rfl reachable' returned ?_ (by decide) ?_⟩
  · rw [answered']
    exact .cons ⟨rfl,rfl,rfl,rfl,rfl,rfl⟩ .nil
  · rw [importCommand,fine',if_neg UInt64.not_lt_zero]

end ArangoDataTools.ImportPipeline
