import ArangoDataTools.Tally
import ArangoDataTools.ImportPipeline

namespace ArangoDataTools.ImportPipeline
open Interaction Interaction.Program Tally

variable {Op : Type} {Ans : Op → Type} {W : Type} {run : ImportRun Op Ans W} {s s' : RunState run}

namespace Phase

def Exited : Phase Op Ans → Prop
  | ended (.ok _) | joined (.ok _) => True
  | _ => False

def Failed : Phase Op Ans → Prop
  | ended (.error _) | joined (.error _) => True
  | _ => False

theorem gone_cases {phase : Phase Op Ans} (gone : phase.Gone) : phase.Exited ∨ phase.Failed := by
  cases phase with
  | ended result | joined result => cases result with
    | ok value => exact .inl trivial
    | error err => exact .inr trivial
  | _ => exact gone.elim

end Phase

theorem not_allGone {worker : Worker Op Ans} (held : s.workers i = worker)
    (active : ¬worker.phase.Gone) : ¬s.AllGone :=
  fun gone => active (held ▸ gone i)

def SomeFailed (s : RunState run) : Prop := ∃ i, (s.workers i).phase.Failed

theorem step_failed (step : Step run s s') (failed : SomeFailed s) : SomeFailed s' := by
  cases step with
  | skip | take | finish | acquire | push | giveUp | closeReceiver | checkpoint | finally_ => exact failed
  | lock held _ | receive held _ | leave held _ _ | register held | enter held _ | wait held _ | wake held _ | call held _
  | answer held | record _ _ held | succeed held | die held | report held _ _ | unheard held _ | join _ held | joinFailed _ held =>
    exact exists_update (fun w : Worker Op Ans => w.phase.Failed) held (by simp [Phase.Failed]) failed

-- A worker leaves its loop without an error only when the channel is empty and the
-- producer has dropped its end.
def ExitsLast (s : RunState run) : Prop := ∀ i, (s.workers i).phase.Exited → s.producer = .closed ∧ s.queue = []

theorem step_exits (step : Step run s s') (exits : ExitsLast s) : ExitsLast s' := by
  have early : s.producer ≠ .closed → ∀ i, ¬(s.workers i).phase.Exited := fun open_ i exited => open_ (exits i exited).1
  cases step with
  | skip at_ | take at_ | finish at_ | acquire at_ | push at_ | giveUp at_ =>
    exact fun i exited => (early (by simp [at_]) i exited).elim
  | receive held next =>
    have none_ : ∀ i, ¬(s.workers i).phase.Exited := fun i exited => by simpa [next] using (exits i exited).2
    exact fun i exited => (forall_update (fun w : Worker Op Ans => ¬w.phase.Exited) held (by simp [Phase.Exited]) none_ i exited).elim
  | leave held empty closed => exact fun _ _ => ⟨closed,empty⟩
  | lock held _ | register held | enter held _ | wait held _ | wake held _ | call held _ | answer held | record _ _ held
  | succeed held | die held | report held _ _ | unheard held _ | join _ held | joinFailed _ held =>
    exact forall_update (fun w : Worker Op Ans => w.phase.Exited → s.producer = .closed ∧ s.queue = []) held (by simp [Phase.Exited]) exits
  | closeReceiver => exact fun i exited => ⟨(exits i exited).1,rfl⟩
  | checkpoint | finally_ => exact exits

def ReceiverLast (s : RunState run) : Prop := s.receiver = false → s.AllGone ∧ s.queue = []

theorem step_receiver (step : Step run s s') (receiver : ReceiverLast s) : ReceiverLast s' := by
  cases step with
  | skip | take | finish | acquire | giveUp | checkpoint | finally_ => exact receiver
  | push _ open_ _ => exact fun shut => by simp [open_] at shut
  | receive _ next => exact fun shut => by simpa [next] using (receiver shut).2
  | lock held _ | leave held _ _ | register held | enter held _ | wait held _ | wake held _ | call held _
  | answer held | record _ _ held | succeed held | die held | report held _ _ | unheard held _ | join _ held | joinFailed _ held =>
    exact fun shut => ⟨forall_update (fun w : Worker Op Ans => w.phase.Gone) held
      (by simp [Phase.Gone]) (receiver shut).1,(receiver shut).2⟩
  | closeReceiver _ gone => exact fun _ => ⟨gone,rfl⟩

def DropsExcused (s : RunState run) : Prop := s.dropped ≠ [] → SomeFailed s

theorem all_gone_failed (some_ : 0 < run.concurrency.workers) (gone : s.AllGone)
    (none_ : ∀ i, ¬(s.workers i).phase.Exited) :
    SomeFailed s :=
  ⟨⟨0,some_⟩,(Phase.gone_cases (gone _)).resolve_left (none_ _)⟩

theorem dropped_after (some_ : 0 < run.concurrency.workers) (exits : ExitsLast s) (receiver : ReceiverLast s)
    (step : Step run s s') : s'.dropped = s.dropped ∨ SomeFailed s := by
  cases step with
  | giveUp at_ shut =>
    exact .inr (all_gone_failed some_ (receiver shut).1 fun i exited => by simpa [at_] using (exits i exited).1)
  | closeReceiver open_ gone =>
    by_cases empty : s.queue = []
    · exact .inl (by simp [empty])
    · exact .inr (all_gone_failed some_ gone fun i exited => empty (exits i exited).2)
  | _ => exact .inl rfl

theorem step_drops (some_ : 0 < run.concurrency.workers) (exits : ExitsLast s) (receiver : ReceiverLast s)
    (step : Step run s s') (drops : DropsExcused s) : DropsExcused s' := by
  intro lost
  rcases dropped_after some_ exits receiver step with same | failed
  · exact step_failed step (drops (same ▸ lost))
  · exact step_failed step failed

-- What `join_next` has collected so far and what is returned from it.
def ErrorKept (s : RunState run) : Prop := s.producer = .closed → s.firstError = none →
    run.ending = none ∨ SomeFailed s

theorem step_error (some_ : 0 < run.concurrency.workers) (exits : ExitsLast s) (receiver : ReceiverLast s)
    (step : Step run s s') (kept : ErrorKept s) : ErrorKept s' := by
  intro closed none_
  cases step with
  | finish _ => exact .inl none_
  | giveUp at_ shut =>
    exact .inr (all_gone_failed (s:=s) some_ (receiver shut).1 fun i exited => by simpa [at_] using (exits i exited).1)
  | joinFailed _ held => cases found : s.firstError <;> simp [found] at none_
  | skip | take | acquire | push => cases closed
  | closeReceiver | checkpoint | finally_ => exact kept closed none_
  | lock held _ | receive held _ | leave held _ _ | register held | enter held _ | wait held _ | wake held _ | call held _
  | answer held | record _ _ held | succeed held | die held | report held _ _ | unheard held _ | join _ held =>
    exact (kept closed none_).imp_right (exists_update (fun w : Worker Op Ans => w.phase.Failed) held (by simp [Phase.Failed]))

def JoinsKept (s : RunState run) : Prop :=
  ∀ i, (s.workers i).phase.IsJoined → s.producer = .closed ∧ (s.firstError = none → (s.workers i).phase.Exited)

theorem step_joins (step : Step run s s') (joins : JoinsKept s) : JoinsKept s' := by
  have early : s.producer ≠ .closed → ∀ i, ¬(s.workers i).phase.IsJoined := fun open_ i joined => open_ (joins i joined).1
  cases step with
  | skip at_ | take at_ | finish at_ | acquire at_ | push at_ | giveUp at_ =>
    exact fun i joined => (early (by simp [at_]) i joined).elim
  | closeReceiver | checkpoint | finally_ => exact joins
  | lock held _ | receive held _ | leave held _ _ | register held | enter held _ | wait held _ | wake held _ | call held _
  | answer held | record _ _ held | succeed held | die held | report held _ _ | unheard held _ =>
    exact forall_update (fun w : Worker Op Ans => w.phase.IsJoined → s.producer = .closed ∧ (s.firstError = none → w.phase.Exited))
      held (by simp [Phase.IsJoined]) joins
  | join closed held =>
    exact forall_update (fun w : Worker Op Ans => w.phase.IsJoined → s.producer = .closed ∧ (s.firstError = none → w.phase.Exited))
      held (by simp [Phase.IsJoined,Phase.Exited,closed]) joins
  | @joinFailed _ _ err _ closed held =>
    have failed : s.firstError.or (some err) ≠ none := by cases s.firstError <;> simp
    have before : ∀ i, (s.workers i).phase.IsJoined → s.producer = .closed ∧ (s.firstError.or (some err) = none → (s.workers i).phase.Exited) :=
      fun i joined => ⟨closed,fun none_ => (failed none_).elim⟩
    exact forall_update (fun w : Worker Op Ans => w.phase.IsJoined → s.producer = .closed ∧ (s.firstError.or (some err) = none → w.phase.Exited))
      held (fun _ _ => ⟨closed,fun none_ => (failed none_).elim⟩) before

def ReturnedLast (s : RunState run) : Prop := ∀ result, s.returned = some result →
  s.producer = .closed ∧ (∀ i, (s.workers i).phase.IsJoined) ∧ s.task.phase = .ended ∧ result = s.result

theorem step_returned (step : Step run s s') (returned : ReturnedLast s) : ReturnedLast s' := by
  have running : ∀ i worker, s.workers i = worker → ¬worker.phase.IsJoined → ∀ result, s.returned ≠ some result := by
    rintro i worker rfl unjoined result some_
    exact unjoined ((returned result some_).2.1 i)
  intro result some_
  cases step with
  | skip at_ | take at_ | finish at_ | acquire at_ | push at_ | giveUp at_ => simpa [at_] using (returned result some_).1
  | lock held _ | receive held _ | leave held _ _ | register held | enter held _ | wait held _ | wake held _ | call held _
  | answer held | record _ _ held | succeed held | die held | report held _ _ | unheard held _ | join _ held | joinFailed _ held =>
    exact (running _ _ held (by simp [Phase.IsJoined]) result some_).elim
  | closeReceiver => exact returned result some_
  | checkpoint moved =>
    have ended := (returned result some_).2.2.1
    cases moved with
    | receive _ phase _ | write _ _ phase _ | close phase _ _ | lastWrite _ _ phase _ => simp [phase] at ended
  | finally_ _ closed joined ended =>
    obtain rfl : s.result = result := by simpa using some_
    exact ⟨closed,joined,ended,rfl⟩

structure Orderly (s : RunState run) : Prop where
  exits : ExitsLast s
  receiver : ReceiverLast s
  drops : DropsExcused s
  error : ErrorKept s
  joins : JoinsKept s
  returned : ReturnedLast s

theorem opening_orderly (world : W) (now : Nat) : Orderly (opening run world now) := by
  constructor
  · exact fun i exited => exited.elim
  · exact fun shut => by cases shut
  · exact fun lost => (lost rfl).elim
  · exact fun closed => by cases closed
  · exact fun i joined => joined.elim
  · exact fun result some_ => by cases some_

theorem step_orderly (some_ : 0 < run.concurrency.workers) (orderly : Orderly s)
    (step : Step run s s') : Orderly s' :=
  ⟨step_exits step orderly.exits,step_receiver step orderly.receiver,
   step_drops some_ orderly.exits orderly.receiver step orderly.drops,
   step_error some_ orderly.exits orderly.receiver step orderly.error,
   step_joins step orderly.joins,step_returned step orderly.returned⟩

theorem reachable_orderly (reachable : Reachable run s) : Orderly s :=
  reachable_induction opening_orderly
    (fun _ _ before orderly step => step_orderly (reachable_workers before) orderly step) reachable

end ArangoDataTools.ImportPipeline
