import ArangoDataTools.Client

namespace ArangoDataTools.CursorStream
open Interaction Interaction.Program

abbrev Item := Except Error (List Value)

def prefetch : Nat := 2

-- The task spawned by `document_stream`, from the loop on. `rounds` bounds the
-- batches it may hold in turn; `false` is the answer of a bound reached too early.
def driveCursor (client : Client) : Nat → CursorBatch → Tool Bool
  | 0, _ => done false
  | rounds+1, batch => (ask (.pass (.ok batch.result))).bind fun accepted =>
    if accepted then
      if batch.hasMore then
        match batch.id with
        | none => done true
        | some id => (attempt (client.cursorNext id)).bind fun
          | .ok next => driveCursor client rounds next
          | .error err => (ask (.pass (.error err))).bind fun _ => done true
      else done true
    else
      match batch.id with
      | none => done true
      | some id => (attempt (client.cursorDelete id)).bind fun _ => done true

def cursorTask (client : Client) (request : CursorRequest) (rounds : Nat) : Tool Bool :=
  (attempt (client.cursorOpen request)).bind fun
    | .ok batch => driveCursor client rounds batch
    | .error err => (ask (.pass (.error err))).bind fun _ => done true

def yielded : List Item → List Value × Option Error
  | [] => ([],none)
  | .error err :: _ => ([],some err)
  | .ok documents :: rest => (documents ++ (yielded rest).1,(yielded rest).2)

theorem yielded_append (documents : List (List Value)) (rest : List Item) :
    yielded (documents.map .ok ++ rest) = (documents.flatten ++ (yielded rest).1,(yielded rest).2) := by
  induction documents with
  | nil => rfl
  | cons head tail ih => simp [yielded,ih,List.append_assoc]

-- The task, the bounded channel and the consumer. Dropping the stream closes
-- the channel, so the task's next `send` is refused.
structure State (W : Type) where
  task : Tool Bool
  queue : List Item
  received : List Item
  dropped : Bool
  world : W

section Run
variable {W : Type} (handle : Handler Op Op.Answer W)

inductive Step : State W → State W → Prop where
  | perform {op : Op} {next : op.Answer → Tool Bool}
      (head : s.task = .call op next) (other : ∀ item, op ≠ .pass item) :
      Step s {s with task := next (handle op s.world).1,world := (handle op s.world).2}
  | pass {item : Item} {next : (Op.pass item).Answer → Tool Bool} (head : s.task = .call (.pass item) next)
      (live : s.dropped = false) (room : s.queue.length < prefetch) :
      Step s {s with task := next true,queue := s.queue ++ [item]}
  | refused {item : Item} {next : (Op.pass item).Answer → Tool Bool} (head : s.task = .call (.pass item) next)
      (gone : s.dropped = true) : Step s {s with task := next false}
  | receive (live : s.dropped = false) (waiting : s.queue = item :: rest) :
      Step s {s with queue := rest,received := s.received ++ [item]}
  | drop (live : s.dropped = false) : Step s {s with queue := [],dropped := true}

inductive Reached (start : State W) : State W → Prop where
  | start : Reached start start
  | step : Reached start s → Step handle s next → Reached start next

theorem Reached.trans {start middle s : State W} (first : Reached handle start middle)
    (second : Reached handle middle s) : Reached handle start s := by
  induction second with
  | start => exact first
  | step _ step ih => exact .step ih step

def State.initial (task : Tool Bool) (world : W) : State W := ⟨task,[],[],false,world⟩

def State.ended (s : State W) : Prop := s.task = done true ∧ s.queue = [] ∧ s.dropped = false

def recording : Handler Op Op.Answer (W × List Item)
  | .pass item, (w,out) => (true,(w,out ++ [item]))
  | op, (w,out) => ((handle op w).1,((handle op w).2,out))

theorem recording_other {op : Op} (other : ∀ item, op ≠ .pass item) (w : W) (out : List Item) :
    recording handle op (w,out) = ((handle op w).1,((handle op w).2,out)) := by
  cases op with
  | pass item => exact absurd rfl (other item)
  | _ => rfl

-- Everything received and queued so far is a beginning of what the task alone
-- would have sent, whatever the interleaving with the consumer.
theorem step_recorded {s next : State W} (step : Step handle s next) (live : next.dropped = false) :
    run (recording handle) next.task (next.world,next.received ++ next.queue) =
      run (recording handle) s.task (s.world,s.received ++ s.queue) := by
  cases step with
  | perform head other => rw [head,run_call,recording_other handle other]
  | pass head _ _ => rw [head,run_call]; simp [recording]
  | refused head gone => exact absurd live (by simp [gone])
  | receive _ waiting => simp [waiting]
  | drop _ => cases live

theorem step_live {s next : State W} (step : Step handle s next) (live : next.dropped = false) :
    s.dropped = false := by
  cases step with
  | drop alive => exact alive
  | _ => exact live

theorem reached_recorded {start s : State W} (path : Reached handle start s) (live : s.dropped = false) :
    run (recording handle) s.task (s.world,s.received ++ s.queue) =
      run (recording handle) start.task (start.world,start.received ++ start.queue) := by
  induction path with
  | start => rfl
  | step path step ih => rw [step_recorded handle step live,ih (step_live handle step live)]

theorem ended_received {task : Tool Bool} {s : State W} (path : Reached handle (.initial task w) s)
    (ended : s.ended) :
    run (recording handle) task (w,[]) = (.ok true,(s.world,s.received)) := by
  obtain ⟨finished,empty,live⟩ := ended
  have recorded := reached_recorded handle path live
  rw [finished,empty] at recorded
  simpa [State.initial] using recorded.symm

theorem ended_reached {task : Tool Bool} (w : W) (received : List Item)
    (finishes : (run (recording handle) task (w,received)).1 = .ok true) :
    ∃ s, Reached handle ⟨task,[],received,false,w⟩ s ∧ s.ended := by
  induction task generalizing w received with
  | done value =>
    simp only [run_done,Except.ok.injEq] at finishes
    subst value
    exact ⟨_,.start,rfl,rfl,rfl⟩
  | fail error => cases finishes
  | call op next ih =>
    by_cases passing : ∃ item, op = .pass item
    · obtain ⟨item,rfl⟩ := passing
      have sent : Step handle ⟨.call (.pass item) next,[],received,false,w⟩
          ⟨next true,[item],received,false,w⟩ :=
        .pass rfl rfl (by simp [prefetch])
      have taken : Step handle ⟨next true,[item],received,false,w⟩ ⟨next true,[],received ++ [item],false,w⟩ :=
        .receive rfl rfl
      obtain ⟨s,path,ended⟩ := ih true w (received ++ [item]) (by simpa [recording] using finishes)
      exact ⟨s,Reached.trans handle (.step (.step .start sent) taken) path,ended⟩
    · have other : ∀ item, op ≠ .pass item := fun item equal => passing ⟨item,equal⟩
      rw [run_call,recording_other handle other] at finishes
      obtain ⟨s,path,ended⟩ := ih _ _ received finishes
      have performed : Step handle ⟨.call op next,[],received,false,w⟩
          ⟨next (handle op w).1,[],received,false,(handle op w).2⟩ := .perform rfl other
      exact ⟨s,Reached.trans handle (.step .start performed) path,ended⟩

end Run
end ArangoDataTools.CursorStream
