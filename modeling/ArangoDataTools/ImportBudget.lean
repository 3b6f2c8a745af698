import ArangoDataTools.ImportProgress

namespace ArangoDataTools

theorem intoBatchesFrom_nonempty {δ : Type} (toVec : δ → Except Error Bytes) (config : BatchConfig)
    (documents : List (Except Error δ)) {b : Batcher} (filled : 0 < b.count → 0 < b.body.length) :
    ∀ batch ∈ (intoBatchesFrom toVec config b documents).1, 0 < batch.byteLen := by
  have added : ∀ (b : Batcher) (line : Bytes), 0 < (b.add line).body.length := by
    intro b line
    simp [Batcher.add]
  induction documents generalizing b with
  | nil =>
    intro batch yielded
    simp only [intoBatchesFrom] at yielded
    split at yielded
    · rename_i some_
      obtain rfl := List.mem_singleton.mp yielded
      exact filled some_
    · cases yielded
  | cons document rest ih =>
    intro batch yielded
    cases document with
    | error err => simp [intoBatchesFrom] at yielded
    | ok document =>
      cases rendered : toVec document with
      | error err => simp [intoBatchesFrom,rendered] at yielded
      | ok line =>
        simp only [intoBatchesFrom,rendered,List.mem_append] at yielded
        rcases yielded with now | later
        · rcases b.take_cases config line with ⟨taken,-⟩ | ⟨taken,-⟩ | ⟨taken,some_,-⟩ | ⟨taken,some_,-⟩ <;>
            simp only [taken,List.mem_cons,List.not_mem_nil,or_false] at now
          · subst now
            exact added b line
          · subst now
            exact filled some_
          · rcases now with rfl | rfl
            · exact filled some_
            · exact added b.flushed line
        · refine ih ?_ batch later
          rcases b.take_cases config line with ⟨taken,-⟩ | ⟨taken,-⟩ | ⟨taken,-⟩ | ⟨taken,-⟩ <;> rw [taken]
          · exact fun _ => added b line
          · exact fun some_ => absurd some_ (Nat.lt_irrefl 0)
          · exact fun _ => added b.flushed line
          · exact fun some_ => absurd some_ (Nat.lt_irrefl 0)

namespace ImportPipeline
open Interaction Interaction.Program Tally

variable {Op : Type} {Ans : Op → Type} {W : Type} {run : ImportRun Op Ans W} {s s' : RunState run}

def Phase.held : Phase Op Ans → List Held
  | gating held | checking held _ | waiting held _ | sending held _ | recording held _ | notifying held _ | reporting held => [held]
  | _ => []

-- What is queued in the channel or held by a worker.
def State.inFlight {n : Nat} (s : State n Op Ans W) : List Held :=
  s.queue ++ (List.finRange n).flatMap fun i => (s.workers i).phase.held

def Producer.batches : Producer → List Batch
  | reading rest => rest
  | acquiring batch rest => batch :: rest
  | passing held rest => held.batch :: rest
  | closed => []

def Producer.held : Producer → List Held
  | passing held _ => [held]
  | _ => []

def ImportRun.Stocks (run : ImportRun Op Ans W) (held : Held) : Prop :=
  held.permits = run.permits held.batch ∧ held.batch ∈ run.batches

structure Stocked (s : RunState run) : Prop where
  ahead : ∀ batch ∈ s.producer.batches, batch ∈ run.batches
  passing : ∀ held ∈ s.producer.held, run.Stocks held
  queue : ∀ held ∈ s.queue, run.Stocks held
  workers : ∀ i, ∀ held ∈ (s.workers i).phase.held, run.Stocks held

theorem opening_stocked (world : W) (now : Nat) : Stocked (opening run world now) :=
  ⟨fun _ inside => inside,by simp [opening,Producer.held],by simp [opening],by simp [opening,Phase.held]⟩

theorem stocked_put {workers : Fin n → Worker Op Ans} {new : Worker Op Ans} (held : workers i = old)
    (kept : ∀ taken ∈ new.phase.held, taken ∈ old.phase.held)
      (stocked : ∀ i, ∀ taken ∈ (workers i).phase.held, run.Stocks taken) :
    ∀ j, ∀ taken ∈ (Function.update workers i new j).phase.held, run.Stocks taken :=
  forall_update (fun w : Worker Op Ans => ∀ taken ∈ w.phase.held, run.Stocks taken) held
    (fun stocks taken present => stocks taken (kept taken present)) stocked

theorem step_stocked (step : Step run s s') (stocked : Stocked s) : Stocked s' := by
  obtain ⟨ahead,passing,queue,workers⟩ := stocked
  cases step with
  | skip at_ _ =>
    rw [at_] at ahead
    exact ⟨fun batch inside => ahead batch (List.mem_cons_of_mem _ inside),by simp [Producer.held],queue,workers⟩
  | take at_ _ =>
    rw [at_] at ahead
    exact ⟨ahead,by simp [Producer.held],queue,workers⟩
  | finish at_ => exact ⟨by simp [Producer.batches],by simp [Producer.held],queue,workers⟩
  | acquire at_ _ =>
    rw [at_] at ahead
    refine ⟨ahead,?_,queue,workers⟩
    intro held same
    obtain rfl := List.mem_singleton.mp same
    exact ⟨rfl,ahead _ List.mem_cons_self⟩
  | push at_ _ _ =>
    rw [at_] at ahead passing
    refine ⟨fun batch inside => ahead batch (List.mem_cons_of_mem _ inside),by simp [Producer.held],?_,workers⟩
    intro held queued
    rcases List.mem_append.mp queued with before | now
    · exact queue held before
    · exact passing held now
  | giveUp at_ _ => exact ⟨by simp [Producer.batches],by simp [Producer.held],queue,workers⟩
  | receive held next =>
    rw [next] at queue
    refine ⟨ahead,passing,fun taken inside => queue taken (List.mem_cons_of_mem _ inside),?_⟩
    refine forall_update (fun w : Worker Op Ans => ∀ taken ∈ w.phase.held, run.Stocks taken) held ?_ workers
    intro _ taken same
    obtain rfl := List.mem_singleton.mp same
    exact queue _ List.mem_cons_self
  | lock held _ | leave held _ _ | register held | enter held _ | wait held _ | wake held _ | call held _ | answer held
  | record _ _ held | succeed held | die held | report held _ _ | unheard held _ | join _ held | joinFailed _ held =>
    exact ⟨ahead,passing,queue,stocked_put held (by simp [Phase.held]) workers⟩
  | closeReceiver _ _ => exact ⟨ahead,passing,by simp,workers⟩
  | checkpoint _ | finally_ _ _ _ _ => exact ⟨ahead,passing,queue,workers⟩

theorem reachable_stocked (reachable : Reachable run s) : Stocked s :=
  reachable_induction opening_stocked (fun _ _ _ stocked step => step_stocked step stocked) reachable

theorem held_permits (phase : Phase Op Ans) : (phase.held.map Held.permits).sum = phase.permits := by
  cases phase <;> simp [Phase.held,Phase.permits]

theorem inFlight_permits (s : State n Op Ans W) :
    (s.inFlight.map Held.permits).sum = (s.queue.map Held.permits).sum + tally
      (fun w => w.phase.permits) s.workers := by
  have workers : (((List.finRange n).flatMap fun i => (s.workers i).phase.held).map Held.permits).sum =
      tally (fun w => w.phase.permits) s.workers := by
    rw [tally,Fin.sum_univ_def]
    induction List.finRange n with
    | nil => rfl
    | cons i rest ih =>
      rw [List.flatMap_cons,List.map_append,List.sum_append,ih,held_permits,List.map_cons,List.sum_cons]
  rw [State.inFlight,List.map_append,List.sum_append,workers]

theorem inFlight_stocks (reachable : Reachable run s) (inside : held ∈ s.inFlight) : run.Stocks held := by
  have stocked := reachable_stocked reachable
  rcases List.mem_append.mp inside with queued | working
  · exact stocked.queue held queued
  · obtain ⟨i,-,working⟩ := List.mem_flatMap.mp working
    exact stocked.workers i held working

def bytes (held : List Held) : Nat := (held.map fun taken => taken.batch.byteLen).sum
def largest (batches : List Batch) : Nat := (batches.map Batch.byteLen).foldr max 0

theorem le_largest {batches : List Batch} (inside : batch ∈ batches) : batch.byteLen ≤ largest batches := by
  induction batches with
  | nil => cases inside
  | cons first rest ih =>
    have head : largest (first :: rest) = max first.byteLen (largest rest) := rfl
    rcases List.mem_cons.mp inside with rfl | inside
    · omega
    · have below := ih inside
      omega

theorem alone_of_sum {α : Type} (weight : α → Nat) {a : α} {items : List α}
    (some_ : ∀ item ∈ items, 0 < weight item)
    (inside : a ∈ items) (whole : (items.map weight).sum ≤ weight a) : items = [a] := by
  obtain ⟨before,after,rfl⟩ := List.append_of_mem inside
  simp only [List.map_append,List.map_cons,List.sum_append,List.sum_cons] at whole
  have nothing : ∀ rest : List α, (∀ item ∈ rest, 0 < weight item) → (rest.map weight).sum = 0 → rest = [] := by
    intro rest some_ zero
    cases rest with
    | nil => rfl
    | cons item rest =>
      have first := some_ item List.mem_cons_self
      simp only [List.map_cons,List.sum_cons] at zero
      omega
  obtain rfl := nothing before (fun item present => some_ item (by simp [present])) (by omega)
  obtain rfl := nothing after (fun item present => some_ item (by simp [present])) (by omega)
  rfl

theorem in_flight_bounded (run : ImportRun Op Ans W) (s : RunState run) (reachable : Reachable run s) :
    (s.inFlight.map fun held => run.permits held.batch).sum ≤ run.concurrency.maxInFlightBytes ∧
    (1 ≤ run.concurrency.maxInFlightBytes → (∀ batch ∈ run.batches, batch.byteLen ≤ 2 ^ 32 - 1) →
      bytes s.inFlight ≤ max run.concurrency.maxInFlightBytes (largest run.batches) ∧
      ∀ held ∈ s.inFlight, run.concurrency.maxInFlightBytes < held.batch.byteLen → s.inFlight = [held]) := by
  have taken : (s.inFlight.map fun held => run.permits held.batch).sum ≤ run.concurrency.maxInFlightBytes := by
    have own : (s.inFlight.map fun held => run.permits held.batch) = s.inFlight.map Held.permits :=
      List.map_congr_left fun held inside => (inFlight_stocks reachable inside).1.symm
    have kept := (reachable_flowing reachable).permits
    have total : run.totalPermits ≤ run.concurrency.maxInFlightBytes := Nat.min_le_left _ _
    unfold PermitsKept at kept
    rw [own,inFlight_permits]
    omega
  refine ⟨taken,fun some_ small => ?_⟩
  have alone : ∀ held ∈ s.inFlight, run.concurrency.maxInFlightBytes < held.batch.byteLen →
      s.inFlight = [held] := by
    intro held inside beyond
    refine alone_of_sum (fun held => run.permits held.batch) ?_ inside ?_
    · intro other present
      have some_ := intoBatchesFrom_nonempty run.toVec run.batchConfig run.documents (b := {})
          (fun absurd_ => absurd_)
        _ (inFlight_stocks reachable present).2
      simp only [ImportRun.permits,permitsFor]
      omega
    · have fits := small _ (inFlight_stocks reachable inside).2
      refine le_trans taken ?_
      simp only [ImportRun.permits,permitsFor]
      omega
  refine ⟨?_,alone⟩
  by_cases oversized : ∃ held ∈ s.inFlight, run.concurrency.maxInFlightBytes < held.batch.byteLen
  · obtain ⟨held,inside,beyond⟩ := oversized
    have below := le_largest (inFlight_stocks reachable inside).2
    rw [alone held inside beyond]
    simp only [bytes,List.map_cons,List.map_nil,List.sum_cons,List.sum_nil]
    omega
  · push Not at oversized
    have exact_ : (s.inFlight.map fun held => run.permits held.batch) = s.inFlight.map fun held =>
        held.batch.byteLen := by
      refine List.map_congr_left fun held inside => ?_
      have fits := small _ (inFlight_stocks reachable inside).2
      have below := oversized held inside
      simp only [ImportRun.permits,permitsFor]
      omega
    rw [bytes,← exact_]
    exact le_trans taken (Nat.le_max_left _ _)

def tightBatch : Batch := ⟨[110,117,108,108,10],1,1⟩
def tightState (producer : Producer) (available : Nat) (queue : List Held) : RunState tightRun :=
  {opening tightRun () 0 with producer := producer,available := available,queue := queue}
def tightQueued : RunState tightRun := tightState (.reading []) 0 [⟨tightBatch,1⟩]

theorem tightQueued_reachable : Reachable tightRun tightQueued := by
  have taken : Step tightRun (opening tightRun () 0) (tightState (.acquiring tightBatch []) 1 []) :=
    .take rfl (by decide)
  have acquired : Step tightRun (tightState (.acquiring tightBatch []) 1 [])
      (tightState (.passing ⟨tightBatch,1⟩ []) 0 []) :=
    .acquire rfl (by decide)
  have pushed : Step tightRun (tightState (.passing ⟨tightBatch,1⟩ []) 0 []) tightQueued :=
    .push rfl rfl (by decide)
  exact ⟨(),0,_,rfl,((Relation.ReflTransGen.refl.tail taken).tail acquired).tail pushed⟩

theorem tight_batch_alone : bytes tightQueued.inFlight ≤ max 1 (largest tightRun.batches) ∧
    ∀ held ∈ tightQueued.inFlight, 1 < held.batch.byteLen → tightQueued.inFlight = [held] :=
  (in_flight_bounded tightRun tightQueued tightQueued_reachable).2 (by decide) (by
    intro batch inside
    obtain rfl : batch = tightBatch := List.mem_singleton.mp inside
    decide)

end ImportPipeline
end ArangoDataTools
