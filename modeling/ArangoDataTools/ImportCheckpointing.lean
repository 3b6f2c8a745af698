import Mathlib.Order.Bounds.Basic
import ArangoDataTools.ImportDelivery

namespace ArangoDataTools.ImportPipeline
open Interaction Interaction.Program Tally

variable {Op : Type} {Ans : Op → Type} {W : Type} {run : ImportRun Op Ans W} {s s' : RunState run}

def sizesOf (batches : List Batch) (j : Nat) : Nat × Nat :=
  ((batches.find? fun batch => batch.index = j).map fun batch => (batch.documents,batch.byteLen)).getD (0,0)

def ImportRun.sizes (run : ImportRun Op Ans W) (j : Nat) : Nat × Nat := sizesOf run.batches j

def between (low high : Nat) (batches : List Batch) : List Batch :=
  batches.filter fun batch => low < batch.index ∧ batch.index ≤ high

section Sizes
variable {batches : List Batch}

theorem sizesOf_cons (batch : Batch) (rest : List Batch) (j : Nat) :
    sizesOf (batch :: rest) j = if batch.index = j then (batch.documents,batch.byteLen)
      else sizesOf rest j := by
  by_cases same : batch.index = j <;> simp [sizesOf,same]

theorem sizesOf_absent (absent : j ∉ batches.map Batch.index) : sizesOf batches j = (0,0) := by
  induction batches with
  | nil => rfl
  | cons batch rest ih =>
    simp only [List.map_cons,List.mem_cons,not_or] at absent
    rw [sizesOf_cons,if_neg (Ne.symm absent.1),ih absent.2]

theorem sizesOf_mem (distinct : (batches.map Batch.index).Nodup) (present : batch ∈ batches) :
    sizesOf batches batch.index = (batch.documents,batch.byteLen) := by
  induction batches with
  | nil => cases present
  | cons first rest ih =>
    obtain ⟨fresh,distinct⟩ := List.nodup_cons.mp distinct
    rcases List.mem_cons.mp present with rfl | later
    · simp [sizesOf_cons]
    · have apart : first.index ≠ batch.index := fun same => fresh (same ▸ List.mem_map_of_mem later)
      rw [sizesOf_cons,if_neg apart,ih distinct later]

theorem sum_sizes (measure : Nat × Nat → Nat) (zero : measure (0,0) = 0)
    (distinct : (batches.map Batch.index).Nodup) (low high : Nat) :
    ∑ j ∈ Finset.Ioc low high, measure (sizesOf batches j) =
      ((between low high batches).map fun batch => measure (batch.documents,batch.byteLen)).sum := by
  induction batches with
  | nil => simp [sizesOf,between,zero]
  | cons first rest ih =>
    obtain ⟨fresh,distinct⟩ := List.nodup_cons.mp distinct
    have split : ∀ j, measure (sizesOf (first :: rest) j) =
        (if first.index = j then measure (first.documents,first.byteLen) else 0) + measure
          (sizesOf rest j) := by
      intro j
      rw [sizesOf_cons]
      by_cases same : first.index = j
      · rw [if_pos same,if_pos same,← same,sizesOf_absent fresh,zero,Nat.add_zero]
      · rw [if_neg same,if_neg same,Nat.zero_add]
    simp only [split,Finset.sum_add_distrib,Finset.sum_ite_eq,Finset.mem_Ioc,ih distinct]
    by_cases inside : low < first.index ∧ first.index ≤ high <;> simp [between,inside]

end Sizes

def Phase.untold (weight : BatchDone → Nat) : Phase Op Ans → Nat
  | recording held (.ok _) | notifying held (.ok _) | reporting held => weight (Batch.done_ held.batch)
  | _ => 0

def tell (weight : BatchDone → Nat) (reports : List BatchDone) : Nat := (reports.map weight).sum

@[simp] theorem tell_nil (weight : BatchDone → Nat) : tell weight [] = 0 := rfl
@[simp] theorem tell_cons (weight : BatchDone → Nat) (done_ : BatchDone) (rest : List BatchDone) :
    tell weight (done_ :: rest) = weight done_ + tell weight rest := List.sum_cons
@[simp] theorem tell_append (weight : BatchDone → Nat) (first second : List BatchDone) :
    tell weight (first ++ second) = tell weight first + tell weight second := by simp [tell]

def reportsOf (answered : List (Batch × Except Error ImportResult)) : List BatchDone :=
  (acknowledged answered).map fun answer => Batch.done_ answer.1

def Heard (weight : BatchDone → Nat) (workers : Fin n → Worker Op Ans)
    (answered : List (Batch × Except Error ImportResult))
    (task : CheckpointTask) : Prop :=
  tell weight (reportsOf answered) =
    tally (fun w => w.phase.untold weight) workers + tell weight task.reports + tell weight task.received

section Heard
variable {weight : BatchDone → Nat} {workers : Fin n → Worker Op Ans} {task : CheckpointTask}

theorem untold_update (held : workers i = old) (new : Worker Op Ans) :
    tally (fun w => w.phase.untold weight) (Function.update workers i new) + old.phase.untold weight =
      tally (fun w => w.phase.untold weight) workers + new.phase.untold weight :=
  @tally_update _ _ _ _ _ _ (fun w : Worker Op Ans => w.phase.untold weight) _ _ _ held new

theorem heard_put {new : Worker Op Ans} (held : workers i = old)
    (same : new.phase.untold weight = old.phase.untold weight)
    (kept : Heard weight workers answered task) :
    Heard weight (Function.update workers i new) answered task := by
  have moved := @untold_update _ _ _ weight _ _ _ held new
  unfold Heard at kept ⊢
  omega

theorem heard_answer (held : workers i = ⟨.sending taken program,summary⟩) (outcome : Except Error ImportResult)
    (kept : Heard weight workers answered task) :
    Heard weight (Function.update workers i ⟨.recording taken outcome,summary⟩)
      (answered ++ [(taken.batch,outcome)]) task := by
  have moved := @untold_update _ _ _ weight _ _ _ held ⟨.recording taken outcome,summary⟩
  cases outcome with
  | ok result =>
    simp only [Heard,reportsOf,acknowledged_ok,List.map_append,List.map_cons,List.map_nil,
      tell_append,tell_cons,tell_nil,Phase.untold]
      at moved kept ⊢
    omega
  | error err =>
    simp only [Heard,reportsOf,acknowledged_error,Phase.untold] at moved kept ⊢
    omega

theorem heard_record {outcome : Except Error ImportResult}
    (held : workers i = ⟨.recording taken outcome,summary⟩)
    (kept : Heard weight workers answered task) :
    Heard weight (Function.update workers i ⟨.notifying taken outcome,summary⟩) answered task := by
  cases outcome with
  | ok result => exact heard_put held rfl kept
  | error err => exact heard_put held rfl kept

theorem heard_report (held : workers i = ⟨.reporting taken,summary⟩)
    (kept : Heard weight workers answered task) :
    Heard weight (Function.update workers i ⟨.locking,summary⟩) answered
      {task with reports := task.reports ++ [Batch.done_ taken.batch]} := by
  have moved := @untold_update _ _ _ weight _ _ _ held ⟨.locking,summary⟩
  simp only [Heard,tell_append,tell_cons,tell_nil,Phase.untold] at moved kept ⊢
  omega

end Heard

def TaskLast (s : RunState run) : Prop :=
  run.checkpoint.isSome → s.task.phase = .lastWriting ∨ s.task.phase = .ended → s.AllGone ∧ s.task.reports = []

theorem step_taskLast (step : Step run s s') (last : TaskLast s) : TaskLast s' := by
  intro on stopped
  cases step with
  | skip | take | finish | acquire | push | giveUp | closeReceiver | finally_ => exact last on stopped
  | lock held _ | receive held _ | leave held _ _ | register held | enter held _ | wait held _ | wake held _ | call held _
  | answer held | record _ _ held | succeed held | die held | unheard held _ | join _ held | joinFailed _ held =>
    exact ⟨forall_update (fun w : Worker Op Ans => w.phase.Gone) held (by simp [Phase.Gone]) (last on stopped).1,(last on stopped).2⟩
  | report held _ _ => exact (not_allGone held (fun gone => gone) (last on stopped).1).elim
  | checkpoint moved => cases moved with
    | receive due phase next =>
      simp only [CheckpointTask.absorb] at stopped
      split at stopped <;> simp at stopped
    | write landed fine phase honest => simp [CheckpointTask.persist] at stopped
    | close phase empty gone => exact ⟨gone,empty⟩
    | lastWrite landed fine phase honest => exact last on (.inl phase)

theorem step_heard (weight : BatchDone → Nat) (on : run.checkpoint.isSome) (last : TaskLast s) (step : Step run s s')
    (kept : Heard weight s.workers s.answered s.task) : Heard weight s'.workers s'.answered s'.task := by
  cases step with
  | skip | take | finish | acquire | push | giveUp | closeReceiver | finally_ => exact kept
  | lock held _ | receive held _ | leave held _ _ | register held | enter held _ | wait held _ | wake held _ | call held _
  | succeed held | die held | join _ held | joinFailed _ held => exact heard_put held rfl kept
  | answer held => exact heard_answer held _ kept
  | record _ _ held => exact heard_record held kept
  | report held _ _ => exact heard_report held kept
  | unheard held stopped => exact (not_allGone held (fun gone => gone) (last on (.inr stopped)).1).elim
  | checkpoint moved => cases moved with
    | receive due phase next =>
      simp only [Heard,CheckpointTask.absorb,next,tell_append,tell_cons,tell_nil] at kept ⊢
      omega
    | write | close | lastWrite => exact kept

theorem reachable_taskLast (reachable : Reachable run s) : TaskLast s := by
  refine reachable_induction ?_ (fun _ _ _ last step => step_taskLast step last) reachable
  intro world now on stopped
  simp [opening,on] at stopped

theorem reachable_heard (weight : BatchDone → Nat) (on : run.checkpoint.isSome) (reachable : Reachable run s) :
    Heard weight s.workers s.answered s.task := by
  refine reachable_induction ?_
    (fun _ _ before kept step => step_heard weight on (reachable_taskLast before) step kept) reachable
  intro world now
  simp [Heard,opening,reportsOf,acknowledged,tally_zero,Phase.untold]

theorem tell_count (done_ : BatchDone) (reports : List BatchDone) :
    tell (fun other => if other = done_ then 1 else 0) reports = reports.count done_ :=
    indicator_sum done_ reports

theorem report_acknowledged (reachable : Reachable run s) (on : run.checkpoint.isSome)
    (present : done_ ∈ s.task.reports ∨ done_ ∈ s.task.received) :
    ∃ answer ∈ acknowledged s.answered, Batch.done_ answer.1 = done_ := by
  have heard := reachable_heard (fun other => if other = done_ then 1 else 0) on reachable
  simp only [Heard,tell_count] at heard
  have some_ : 0 < (reportsOf s.answered).count done_ := by
    rcases present with waiting | received
    · have := List.count_pos_iff.mpr waiting
      omega
    · have := List.count_pos_iff.mpr received
      omega
  simpa [reportsOf] using List.count_pos_iff.mp some_

theorem acknowledged_sizes (reachable : Reachable run s) (present : answer ∈ acknowledged s.answered) :
    run.sizes answer.1.index = (answer.1.documents,answer.1.byteLen) :=
  sizesOf_mem (intoBatches_nodup run.toVec run.documents run.batchConfig)
    (List.mem_of_mem_filter (acknowledged_wanted reachable present))

def Tracks (s : RunState run) : Prop :=
  s.task.tracker.Follows run.resume run.sizes s.task.received ∧
    s.task.tracker.pending[s.task.tracker.nextExpected]? = none

def TaskOff (s : RunState run) : Prop := run.checkpoint.isSome = false → s.task.phase = .ended

theorem reachable_taskOff (reachable : Reachable run s) : TaskOff s := by
  refine reachable_induction ?_ ?_ reachable
  · intro world now off
    simp [opening,off]
  · intro s s' _ ended step off
    have stopped := ended off
    cases step with
    | checkpoint moved => cases moved with
      | receive _ phase | write _ _ phase | close phase | lastWrite _ _ phase => cases phase.symm.trans stopped
    | _ => exact stopped

theorem task_on (reachable : Reachable run s) (going : s.task.phase ≠ .ended) : run.checkpoint.isSome := by
  by_contra off
  exact going (reachable_taskOff reachable (by simpa using off))

theorem reachable_tracks (reachable : Reachable run s) : Tracks s := by
  refine reachable_induction ?_ ?_ reachable
  · intro world now
    exact ⟨Tracker.start_follows _ _,by simp [opening,Tracker.start]⟩
  · intro s s' before tracks step
    cases step with
    | checkpoint moved => cases moved with
      | @receive _ done_ rest due phase next =>
        have on := task_on before (by simp [phase])
        obtain ⟨answer,present,rfl⟩ := report_acknowledged before on (.inl (next ▸ List.mem_cons_self))
        exact Tracker.absorb_follows tracks.1 (acknowledged_sizes before present)
      | write | lastWrite =>
        obtain ⟨⟨next,floor,unbroken,documents,bytes,pending,kept⟩,drained⟩ := tracks
        exact ⟨⟨next,floor,unbroken,documents,bytes,pending,kept⟩,drained⟩
      | close => exact tracks
    | _ => exact tracks

-- Every batch from the resume point up to `k` was acknowledged in this run.
def Covered (run : ImportRun Op Ans W) (answered : List (Batch × Except Error ImportResult)) (k : Nat) : Prop :=
  run.resumeFrom ≤ k ∧ ∀ j, run.resumeFrom < j → j ≤ k → ∃ answer ∈ acknowledged answered, answer.1.index = j

def Backed (run : ImportRun Op Ans W) (answered : List (Batch × Except Error ImportResult))
    (value : ImportCheckpoint) : Prop :=
  Covered run answered value.committedBatches ∧
  value.documentsCommitted = run.resume.documentsCommitted +
    ((between run.resumeFrom value.committedBatches run.batches).map Batch.documents).sum ∧
  value.bytesCommitted = run.resume.bytesCommitted +
    ((between run.resumeFrom value.committedBatches run.batches).map Batch.byteLen).sum

theorem tracked_backed (reachable : Reachable run s) (on : run.checkpoint.isSome) :
    Backed run s.answered s.task.tracker.state := by
  obtain ⟨follows,-⟩ := reachable_tracks reachable
  have distinct := intoBatches_nodup run.toVec run.documents run.batchConfig
  refine ⟨⟨follows.floor,?_⟩,?_,?_⟩
  · intro j above below
    obtain ⟨done_,received,rfl⟩ := List.mem_map.mp (follows.unbroken j above below)
    obtain ⟨answer,present,rfl⟩ := report_acknowledged reachable on (.inr received)
    exact ⟨answer,present,rfl⟩
  · exact follows.documents.trans (congrArg _ (sum_sizes Prod.fst rfl distinct _ _))
  · exact follows.bytes.trans (congrArg _ (sum_sizes Prod.snd rfl distinct _ _))

theorem step_acknowledged (step : Step run s s') (present : answer ∈ acknowledged s.answered) :
    answer ∈ acknowledged s'.answered := by
  cases step with
  | @answer _ _ _ outcome _ _ => cases outcome with
    | ok result => simp [present]
    | error err => simpa using present
  | _ => exact present

theorem step_backed (step : Step run s s') (backed : Backed run s.answered value) :
    Backed run s'.answered value := by
  refine ⟨⟨backed.1.1,fun j above below => ?_⟩,backed.2⟩
  obtain ⟨answer,present,same⟩ := backed.1.2 j above below
  exact ⟨answer,step_acknowledged step present,same⟩

def PersistedBacked (s : RunState run) : Prop := ∀ value ∈ s.task.persisted, Backed run s.answered value

theorem reachable_persistedBacked (reachable : Reachable run s) : PersistedBacked s := by
  refine reachable_induction ?_ ?_ reachable
  · intro world now value written
    cases written
  · intro s s' before backed step value written
    refine step_backed step ?_
    cases step with
    | checkpoint moved => cases moved with
      | receive | close => exact backed value written
      | write landed fine phase _ | lastWrite landed fine phase _ =>
        cases landed with
        | false => exact backed value written
        | true =>
          rcases List.mem_append.mp written with earlier | now
          · exact backed value earlier
          · obtain rfl := List.mem_singleton.mp now
            exact tracked_backed before (task_on before (by simp [phase]))
    | _ => exact backed value written

def ObjectKept (s : RunState run) : Prop := s.task.stored = run.stored ∨ ∃ value ∈ s.task.persisted,
    s.task.stored = some value

theorem reachable_objectKept (reachable : Reachable run s) : ObjectKept s := by
  refine reachable_induction (fun world now => .inl rfl) ?_ reachable
  intro s s' _ kept step
  cases step with
  | checkpoint moved => cases moved with
    | write landed | lastWrite landed => cases landed with
      | true => exact .inr ⟨s.task.tracker.state,List.mem_append_right _ (List.mem_singleton_self _),rfl⟩
      | false => exact kept
    | receive | close => exact kept
  | _ => exact kept

def Stored (s : RunState run) : Prop :=
  (s.task.phase = .ended → s.task.tracker.dirty = false) ∧
  (s.task.failedWrites = 0 → s.task.tracker.dirty = false → s.task.stored.getD {} = s.task.tracker.state)

theorem reachable_stored (reachable : Reachable run s) : Stored s := by
  refine reachable_induction ?_ ?_ reachable
  · intro world now
    exact ⟨fun _ => rfl,fun _ _ => rfl⟩
  · intro s s' before stored step
    cases step with
    | checkpoint moved => cases moved with
      | receive due phase next =>
        refine ⟨fun ended => ?_,fun none_ clean => ?_⟩
        · simp only [CheckpointTask.absorb] at ended
          split at ended <;> cases ended
        · obtain ⟨same,earlier⟩ := Tracker.absorb_clean clean
          exact (stored.2 none_ earlier).trans same.symm
      | write landed fine phase honest | lastWrite landed fine phase honest =>
        refine ⟨fun _ => rfl,fun none_ _ => ?_⟩
        cases fine with
        | false => simp [CheckpointTask.persist] at none_
        | true => simp [CheckpointTask.persist,honest rfl,Tracker.written]
      | close phase empty gone =>
        refine ⟨fun ended => ?_,stored.2⟩
        by_cases dirty : s.task.tracker.dirty
        · simp [dirty] at ended
        · simpa using dirty
    | _ => exact stored

theorem gone_untold (gone : s.AllGone) (weight : BatchDone → Nat) :
    tally (fun w : Worker Op Ans => w.phase.untold weight) s.workers = 0 := by
  refine tally_zero fun i => ?_
  have left := gone i
  cases phase : (s.workers i).phase with
  | ended | joined => rfl
  | _ => simp [phase,Phase.Gone] at left

theorem ended_heard (reachable : Reachable run s) (on : run.checkpoint.isSome) (ended : s.task.phase = .ended)
    (present : answer ∈ acknowledged s.answered) : Batch.done_ answer.1 ∈ s.task.received := by
  obtain ⟨gone,silent⟩ := reachable_taskLast reachable on (.inr ended)
  have heard := reachable_heard (fun other => if other = Batch.done_ answer.1 then 1 else 0) on reachable
  have none_ := gone_untold gone fun other => if other = Batch.done_ answer.1 then 1 else 0
  simp only [Heard,silent,tell_count,List.count_nil] at heard
  have told : 0 < (reportsOf s.answered).count (Batch.done_ answer.1) :=
    List.count_pos_iff.mpr (List.mem_map_of_mem present)
  exact List.count_pos_iff.mp (by omega)

theorem ended_greatest (reachable : Reachable run s) (on : run.checkpoint.isSome)
    (ended : s.task.phase = .ended)
    (fine : s.task.failedWrites = 0) : Backed run s.answered (s.task.stored.getD {}) ∧
      IsGreatest {k | Covered run s.answered k} (s.task.stored.getD {}).committedBatches := by
  obtain ⟨clean,stored⟩ := reachable_stored reachable
  have backed := tracked_backed reachable on
  rw [stored fine (clean ended)]
  refine ⟨backed,backed.1,?_⟩
  rintro k ⟨-,covered⟩
  obtain ⟨follows,drained⟩ := reachable_tracks reachable
  refine Tracker.follows_greatest follows drained k fun j above below => ?_
  obtain ⟨answer,present,rfl⟩ := covered j above below
  exact List.mem_map_of_mem (ended_heard reachable on ended present)

-- A checkpoint speaks for acknowledged batches only, and the one a run leaves
-- behind for as many of them as it can.
theorem checkpoint_claims_sent (run : ImportRun Op Ans W) (s : RunState run) (reachable : Reachable run s) :
    (∀ value ∈ s.task.persisted, Backed run s.answered value) ∧
      ∀ result, s.returned = some result → run.checkpoint.isSome → s.task.failedWrites = 0 →
        Backed run s.answered (s.task.stored.getD {}) ∧
          IsGreatest {k | Covered run s.answered k} (s.task.stored.getD {}).committedBatches := by
  refine ⟨reachable_persistedBacked reachable,?_⟩
  intro result returned on fine
  obtain ⟨-,-,ended,-⟩ := (reachable_orderly reachable).returned _ returned
  exact ended_greatest reachable on ended fine

def checkpointedRun : ImportRun Empty (fun _ => Unit) Unit := {sampleRun with checkpoint := some (.ok none)}

theorem checkpointed_accepted : Accepted checkpointedRun checkpointedRun.batches ()
    [(⟨[49,10],1,1⟩,{created := 1}),(⟨[49,10],1,2⟩,{created := 1})] () :=
  .send (by decide) (@Resolves.lift _ _ _ _ (.ok _) _)
    (.send (by decide) (@Resolves.lift _ _ _ _ (.ok _) _) .nil)

theorem checkpointed_run_claims_all : ∃ s : RunState checkpointedRun, s.returned.isSome ∧
    IsGreatest {k | Covered checkpointedRun s.answered k} (s.task.stored.getD {}).committedBatches := by
  obtain ⟨s,summary,reachable,returned,-,-,fine⟩ :=
    solo_returns rfl (by decide) (by simp [checkpointedRun]) rfl checkpointed_accepted
  exact ⟨s,by simp [returned],((checkpoint_claims_sent checkpointedRun s reachable).2 _ returned rfl fine).2⟩

end ArangoDataTools.ImportPipeline
