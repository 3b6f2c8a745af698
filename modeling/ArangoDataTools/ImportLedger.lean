import ArangoDataTools.Tally
import ArangoDataTools.ImportPipeline

namespace ArangoDataTools.ImportPipeline
open Interaction Interaction.Program Tally

variable {Op : Type} {Ans : Op → Type} {W : Type} {run : ImportRun Op Ans W} {s s' : RunState run}

-- Batches are counted with a weight: every batch of the stream beyond the resume
-- point is in exactly one place, whatever it weighs.
def weigh (weight : Batch → Nat) (batches : List Batch) : Nat := (batches.map weight).sum

@[simp] theorem weigh_nil (weight : Batch → Nat) : weigh weight [] = 0 := rfl
@[simp] theorem weigh_cons (weight : Batch → Nat) (batch : Batch) (rest : List Batch) :
    weigh weight (batch :: rest) = weight batch + weigh weight rest := List.sum_cons
@[simp] theorem weigh_append (weight : Batch → Nat) (first second : List Batch) :
    weigh weight (first ++ second) = weigh weight first + weigh weight second := by simp [weigh]

namespace Phase
variable (weight : Batch → Nat)

def unsent : Phase Op Ans → Nat
  | gating held | checking held _ | waiting held _ => weight held.batch
  | _ => 0

def inSend : Phase Op Ans → Nat
  | sending held _ => weight held.batch
  | _ => 0

end Phase

def Producer.ahead (run : ImportRun Op Ans W) (weight : Batch → Nat) : Producer → Nat
  | reading rest => weigh weight (run.wanted rest)
  | acquiring batch rest => weight batch + weigh weight (run.wanted rest)
  | passing held rest => weight held.batch + weigh weight (run.wanted rest)
  | closed => 0

def Balanced (run : ImportRun Op Ans W) (weight : Batch → Nat) (producer : Producer) (queue : List Held)
    (workers : Fin n → Worker Op Ans) (sent dropped : List Batch)
      (answered : List (Batch × Except Error ImportResult)) : Prop :=
  weigh weight (run.wanted run.batches) =
    producer.ahead run weight + weigh weight (queue.map Held.batch) + tally
      (fun w => w.phase.unsent weight) workers +
      weigh weight sent + weigh weight dropped ∧
  weigh weight sent = tally (fun w => w.phase.inSend weight) workers + weigh weight (answered.map Prod.fst)

def Ledger (weight : Batch → Nat) (s : RunState run) : Prop :=
  Balanced run weight s.producer s.queue s.workers s.sent s.dropped s.answered

theorem opening_ledger (weight : Batch → Nat) (world : W) (now : Nat) :
    Ledger weight (opening run world now) := by
  constructor
  · simp [opening,Producer.ahead,tally_zero,Phase.unsent]
  · simp [opening,tally_zero,Phase.inSend]

section Moves
variable {weight : Batch → Nat} {workers : Fin n → Worker Op Ans}

theorem balanced_put {new : Worker Op Ans} (held : workers i = old)
    (unsent : new.phase.unsent weight = old.phase.unsent weight)
      (inSend : new.phase.inSend weight = old.phase.inSend weight)
    (balanced : Balanced run weight producer queue workers sent dropped answered) :
    Balanced run weight producer queue (Function.update workers i new) sent dropped answered := by
  have left := @tally_same _ _ _ _ _ _ (fun w : Worker Op Ans => w.phase.unsent weight) _ _ _ _ held unsent
  have right := @tally_same _ _ _ _ _ _ (fun w : Worker Op Ans => w.phase.inSend weight) _ _ _ _ held inSend
  exact ⟨left ▸ balanced.1,right ▸ balanced.2⟩

theorem unsent_update (held : workers i = old) (new : Worker Op Ans) :
    tally (fun w => w.phase.unsent weight) (Function.update workers i new) + old.phase.unsent weight =
      tally (fun w => w.phase.unsent weight) workers + new.phase.unsent weight :=
  @tally_update _ _ _ _ _ _ (fun w : Worker Op Ans => w.phase.unsent weight) _ _ _ held new

theorem inSend_update (held : workers i = old) (new : Worker Op Ans) :
    tally (fun w => w.phase.inSend weight) (Function.update workers i new) + old.phase.inSend weight =
      tally (fun w => w.phase.inSend weight) workers + new.phase.inSend weight :=
  @tally_update _ _ _ _ _ _ (fun w : Worker Op Ans => w.phase.inSend weight) _ _ _ held new

theorem balanced_receive (held : workers i = ⟨.receiving,summary⟩)
    (balanced : Balanced run weight producer (taken :: rest) workers sent dropped answered) :
    Balanced run weight producer rest (Function.update workers i ⟨.gating taken,summary⟩) sent
      dropped answered := by
  have moved := @unsent_update _ _ _ weight _ _ _ held ⟨.gating taken,summary⟩
  have still := @inSend_update _ _ _ weight _ _ _ held ⟨.gating taken,summary⟩
  simp only [Balanced,Phase.unsent,Phase.inSend,List.map_cons,weigh_cons] at moved still balanced ⊢
  omega

theorem balanced_enter (held : workers i = ⟨.checking taken seen,summary⟩)
    (program : Program Op Ans Error ImportResult)
    (balanced : Balanced run weight producer queue workers sent dropped answered) :
    Balanced run weight producer queue (Function.update workers i ⟨.sending taken program,summary⟩)
      (sent ++ [taken.batch])
      dropped answered := by
  have moved := @unsent_update _ _ _ weight _ _ _ held ⟨.sending taken program,summary⟩
  have entered := @inSend_update _ _ _ weight _ _ _ held ⟨.sending taken program,summary⟩
  simp only [Balanced,Phase.unsent,Phase.inSend,weigh_append,weigh_cons,weigh_nil] at moved entered balanced ⊢
  omega

theorem balanced_answer (held : workers i = ⟨.sending taken program,summary⟩)
    (outcome : Except Error ImportResult)
    (balanced : Balanced run weight producer queue workers sent dropped answered) :
    Balanced run weight producer queue
      (Function.update workers i ⟨.recording taken outcome,summary⟩) sent dropped
      (answered ++ [(taken.batch,outcome)]) := by
  have still := @unsent_update _ _ _ weight _ _ _ held ⟨.recording taken outcome,summary⟩
  have left := @inSend_update _ _ _ weight _ _ _ held ⟨.recording taken outcome,summary⟩
  simp only [Balanced,Phase.unsent,Phase.inSend,List.map_append,List.map_cons,List.map_nil,
    weigh_append,weigh_cons,weigh_nil]
    at still left balanced ⊢
  omega

end Moves

theorem wanted_low {batch : Batch} (low : batch.index ≤ run.resumeFrom) (rest : List Batch) :
    run.wanted (batch :: rest) = run.wanted rest := by simp [ImportRun.wanted,low]
theorem wanted_high {batch : Batch} (high : run.resumeFrom < batch.index) (rest : List Batch) :
    run.wanted (batch :: rest) = batch :: run.wanted rest := by simp [ImportRun.wanted,high]

theorem step_ledger (weight : Batch → Nat) (step : Step run s s') (ledger : Ledger weight s) : Ledger weight s' := by
  cases step with
  | skip at_ low =>
    simp only [Ledger,Balanced,at_,Producer.ahead,wanted_low low] at ledger ⊢
    exact ledger
  | take at_ high =>
    simp only [Ledger,Balanced,at_,Producer.ahead,wanted_high high,weigh_cons] at ledger ⊢
    exact ledger
  | finish at_ =>
    simp only [Ledger,Balanced,at_,Producer.ahead,ImportRun.wanted,List.filter_nil,weigh_nil] at ledger ⊢
    exact ledger
  | acquire at_ room =>
    simp only [Ledger,Balanced,at_,Producer.ahead] at ledger ⊢
    exact ledger
  | push at_ _ _ =>
    simp only [Ledger,Balanced,at_,Producer.ahead,List.map_append,List.map_cons,List.map_nil,weigh_append,weigh_cons,weigh_nil]
      at ledger ⊢
    omega
  | giveUp at_ _ =>
    simp only [Ledger,Balanced,at_,Producer.ahead,weigh_append,weigh_cons] at ledger ⊢
    omega
  | receive held next => exact balanced_receive held (next ▸ ledger)
  | enter held _ => exact balanced_enter held _ ledger
  | answer held => exact balanced_answer held _ ledger
  | lock held _ | leave held _ _ | register held | wait held _ | wake held _ | call held _ | record _ _ held | succeed held
  | die held | report held _ _ | unheard held _ | join _ held | joinFailed _ held => exact balanced_put held rfl rfl ledger
  | closeReceiver _ _ =>
    simp only [Ledger,Balanced,List.map_nil,weigh_append,weigh_nil] at ledger ⊢
    omega
  | checkpoint _ => exact ledger
  | finally_ _ _ _ _ => exact ledger

theorem reachable_ledger (weight : Batch → Nat) (reachable : Reachable run s) : Ledger weight s :=
  reachable_induction (opening_ledger weight)
    (fun _ _ _ ledger step => step_ledger weight step ledger) reachable

-- What the server acknowledged, and how many sends it refused.
def acknowledged (answered : List (Batch × Except Error ImportResult)) : List (Batch × ImportResult) :=
  answered.filterMap fun answer => match answer with
    | (batch,.ok result) => some (batch,result)
    | _ => none

def refused (answered : List (Batch × Except Error ImportResult)) : Nat :=
  (answered.map fun answer => match answer.2 with | .ok _ => 0 | .error _ => 1).sum

@[simp] theorem acknowledged_ok (answered : List (Batch × Except Error ImportResult))
    (batch : Batch) (result : ImportResult) :
    acknowledged (answered ++ [(batch,.ok result)]) = acknowledged answered ++
      [(batch,result)] := by simp [acknowledged]
@[simp] theorem acknowledged_error (answered : List (Batch × Except Error ImportResult))
    (batch : Batch) (err : Error) :
    acknowledged (answered ++ [(batch,.error err)]) = acknowledged answered := by simp [acknowledged]
@[simp] theorem refused_ok (answered : List (Batch × Except Error ImportResult)) (batch : Batch)
    (result : ImportResult) :
    refused (answered ++ [(batch,.ok result)]) = refused answered := by simp [refused]
@[simp] theorem refused_error (answered : List (Batch × Except Error ImportResult)) (batch : Batch)
    (err : Error) :
    refused (answered ++ [(batch,.error err)]) = refused answered + 1 := by simp [refused]

namespace Phase

def unrecorded : Phase Op Ans → ImportSummary
  | recording held (.ok result) | notifying held (.ok result) => .share held.batch result
  | _ => 0

def failing : Phase Op Ans → Nat
  | recording _ (.error _) | notifying _ (.error _) | ended (.error _) | joined (.error _) => 1
  | _ => 0

def merged (summary : ImportSummary) : Phase Op Ans → ImportSummary
  | joined (.ok ()) => summary
  | _ => 0

end Phase

-- The summaries of the workers account for every acknowledged batch, the failing
-- workers for every refused one, and the total for every worker joined.
def Counted (workers : Fin n → Worker Op Ans) (answered : List (Batch × Except Error ImportResult))
    (total : ImportSummary) : Prop :=
  tally (fun w => w.summary + w.phase.unrecorded) workers = .totals (acknowledged answered) ∧
  tally (fun w => w.phase.failing) workers = refused answered ∧
  tally (fun w => w.phase.merged w.summary) workers = total

section Counted
variable {workers : Fin n → Worker Op Ans}

theorem counted_put {new : Worker Op Ans} (held : workers i = old)
    (recorded : new.summary + new.phase.unrecorded = old.summary + old.phase.unrecorded)
    (failing : new.phase.failing = old.phase.failing)
      (merged : new.phase.merged new.summary = old.phase.merged old.summary)
    (counted : Counted workers answered total) : Counted (Function.update workers i new) answered total := by
  obtain ⟨first,second,third⟩ := counted
  refine ⟨?_,?_,?_⟩
  · exact (@tally_same _ _ _ _ _ _ (fun w : Worker Op Ans => w.summary + w.phase.unrecorded) _ _ _ _
      held recorded).trans first
  · exact (@tally_same _ _ _ _ _ _ (fun w : Worker Op Ans => w.phase.failing) _ _ _ _ held failing).trans second
  · exact (@tally_same _ _ _ _ _ _ (fun w : Worker Op Ans => w.phase.merged w.summary) _ _ _ _ held
      merged).trans third

theorem counted_answer (held : workers i = ⟨.sending taken program,summary⟩)
    (outcome : Except Error ImportResult)
    (counted : Counted workers answered total) :
    Counted (Function.update workers i ⟨.recording taken outcome,summary⟩)
      (answered ++ [(taken.batch,outcome)]) total := by
  obtain ⟨first,second,third⟩ := counted
  have gain := @tally_gain _ _ _ _ _ _ (fun w : Worker Op Ans => w.summary + w.phase.unrecorded) _ _
      _ ⟨.recording taken outcome,summary⟩
    (Phase.unrecorded (.recording taken outcome : Phase Op Ans)) held (by simp [Phase.unrecorded])
  have fails := @tally_gain _ _ _ _ _ _ (fun w : Worker Op Ans => w.phase.failing) _ _ _
      ⟨.recording taken outcome,summary⟩
    (Phase.failing (.recording taken outcome : Phase Op Ans)) held (by simp [Phase.failing])
  refine ⟨gain.trans ?_,fails.trans ?_,?_⟩
  · rw [first]
    cases outcome with
    | ok result => simp [Phase.unrecorded,ImportSummary.totals_append]
    | error err => simp [Phase.unrecorded]
  · rw [second]
    cases outcome with
    | ok result => simp [Phase.failing]
    | error err => simp [Phase.failing]
  · exact (@tally_same _ _ _ _ _ _ (fun w : Worker Op Ans => w.phase.merged w.summary) _ _ _ _ held
      (by rfl)).trans third

theorem counted_record {outcome : Except Error ImportResult}
    (held : workers i = ⟨.recording taken outcome,summary⟩)
    (counted : Counted workers answered total) :
    Counted (Function.update workers i ⟨.notifying taken outcome,summary⟩) answered total := by
  cases outcome with
  | ok result => exact counted_put held rfl rfl rfl counted
  | error err => exact counted_put held rfl rfl rfl counted

theorem counted_join (held : workers i = ⟨.ended (.ok ()),summary⟩) (counted : Counted workers answered total) :
    Counted (Function.update workers i ⟨.joined (.ok ()),summary⟩) answered (total.merge summary) := by
  obtain ⟨first,second,third⟩ := counted
  have gain := @tally_gain _ _ _ _ _ _ (fun w : Worker Op Ans => w.phase.merged w.summary) _ _ _
      ⟨.joined (.ok ()),summary⟩ summary
    held (by simp [Phase.merged])
  refine ⟨?_,?_,?_⟩
  · exact (@tally_same _ _ _ _ _ _ (fun w : Worker Op Ans => w.summary + w.phase.unrecorded) _ _ _ _
      held (by rfl)).trans first
  · exact (@tally_same _ _ _ _ _ _ (fun w : Worker Op Ans => w.phase.failing) _ _ _ _ held
      (by rfl)).trans second
  · rw [gain,third,ImportSummary.merge_eq]

end Counted

theorem step_counted (step : Step run s s') (counted : Counted s.workers s.answered s.summary) :
    Counted s'.workers s'.answered s'.summary := by
  cases step with
  | skip | take | finish | acquire | push | giveUp | closeReceiver | checkpoint | finally_ => exact counted
  | lock held _ | receive held _ | leave held _ _ | register held | enter held _ | wait held _ | wake held _ | call held _
  | die held | report held _ _ | unheard held _ | joinFailed _ held => exact counted_put held rfl rfl rfl counted
  | record _ _ held => exact counted_record held counted
  | answer held => exact counted_answer held _ counted
  | succeed held =>
    refine counted_put held ?_ rfl rfl counted
    simp [Phase.unrecorded,ImportSummary.record_eq]
  | join _ held => exact counted_join held counted

end ArangoDataTools.ImportPipeline
