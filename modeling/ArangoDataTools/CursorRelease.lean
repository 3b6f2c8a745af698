import ArangoDataTools.ClientRuns
import ArangoDataTools.CursorStream

namespace ArangoDataTools.CursorRelease
open Interaction Interaction.Program CursorStream ClientRuns

-- A request and the answer to it, one for each attempt.
structure Sent where
  request : Request
  answer : Except Error request.Response

def Sent.batch : Sent → Option CursorBatch
  | ⟨.cursorOpen _,.ok batch⟩ => some batch
  | ⟨.cursorNext _,.ok batch⟩ => some batch
  | _ => none

def logged (log : List Sent) : (op : Op) → op.Answer → List Sent
  | .send _ request,answer => log ++ [⟨request,answer⟩]
  | _,_ => log

section Logs

variable (log : List Sent)

def batches : List CursorBatch := log.filterMap Sent.batch

def Opened : Prop := ∃ sent ∈ log, ∃ request batch, sent = ⟨.cursorOpen request,.ok batch⟩

def Deleted (id : String) : Prop := ∃ answer, (⟨.cursorDelete id,answer⟩ : Sent) ∈ log

-- No cursor was opened, the last response was the last of its cursor, or the cursor was
-- asked to go.
def Released : Prop := ¬ Opened log ∨ ∃ batch, (batches log).getLast? = some batch ∧
  (batch.hasMore = false ∨ ∃ id, batch.id = some id ∧ Deleted log id)

-- A response that promises more names its cursor.
def Carrying : Prop := ∀ batch ∈ batches log, batch.hasMore = true → batch.id.isSome

-- The last request fetched a batch and was refused.
def FetchFailed : Prop := ∃ before id err, log = before ++ [⟨.cursorNext id,.error err⟩]

end Logs

def Heard : Answering Op Op.Answer (List Sent) := fun op log answer log' => log' = logged log op answer

variable {log log' : List Sent} {client : Client} {batch : CursorBatch} {database : String} {request : Request}

theorem heard_still : ∀ (counter : Counter) (w : List Sent) (answer : (Op.count counter).Answer)
    (w' : List Sent),
    Heard (.count counter) w answer w' → w' = w := fun _ _ _ _ same => same

theorem execute_logged {result : Except Error request.Response}
    (runs : Runs Heard (client.executeOn database request) log (lift result) log') :
    ∃ errs : List Error, log' = log ++ errs.map (fun err => ⟨request,.error err⟩) ++ [⟨request,result⟩] := by
  obtain ⟨middle,refusals,answered⟩ := executeOn_tries client heard_still runs
  have tried : ∃ errs : List Error, middle = log ++ errs.map fun err => ⟨request,.error err⟩ := by
    clear answered runs
    induction refusals with
    | none => exact ⟨[],by simp⟩
    | @again err _ _ _ step _ ih =>
      obtain ⟨errs,rfl⟩ := ih
      exact ⟨err :: errs,by rw [step]; simp [logged]⟩
  obtain ⟨errs,rfl⟩ := tried
  exact ⟨errs,answered⟩

theorem attempt_logged {outcome : Except Error request.Response}
    (runs : Runs Heard (attempt (client.executeOn database request)) log (done outcome) log') :
    ∃ errs : List Error, log' = log ++ errs.map (fun err => ⟨request,.error err⟩) ++ [⟨request,outcome⟩] :=
  execute_logged (attempt_lift runs)

theorem delete_logged {id : String} {outcome : Except Error Unit}
    (runs : Runs Heard (attempt (client.cursorDelete id)) log (done outcome) log') :
    ∃ (errs : List Error) (answer : Except Error Unit),
      log' = log ++ errs.map (fun err => ⟨.cursorDelete id,.error err⟩) ++ [⟨.cursorDelete id,answer⟩] := by
  obtain ⟨answer,middle,asked,ended⟩ := runs_bind_lift (attempt_lift runs) fun _ _ => attempt_unfailing
  obtain ⟨errs,step⟩ := attempt_logged asked
  suffices same : log' = middle from ⟨errs,answer,by rw [same,step]⟩
  -- Whether or not the answer is taken for a success, nothing more is asked.
  cases answer with
  | ok value => exact (runs_done ended).2
  | error err =>
    cases err with
    | http code message context =>
      by_cases gone : code = 404
      · simp only [if_pos gone] at ended
        exact (runs_done ended).2
      · simp only [if_neg gone] at ended
        exact (runs_fail ended).2
    | _ => exact (runs_fail ended).2

theorem batches_refused (errs : List Error) :
    batches (errs.map fun err => (⟨request,.error err⟩ : Sent)) = [] := by
  unfold batches
  rw [List.filterMap_map,List.filterMap_eq_nil_iff]
  intro err _
  cases request <;> rfl

theorem batches_append (first second : List Sent) : batches (first ++ second) = batches first ++
    batches second :=
  List.filterMap_append

-- The task holds a cursor: the last request was answered with `batch`.
structure Held (log : List Sent) (batch : CursorBatch) : Prop where
  last : ∃ before sent, log = before ++ [sent] ∧ sent.batch = some batch
  opened : Opened log
  kept : ∀ id, ¬ Deleted log id

theorem Held.batches_last (held : Held log batch) : (batches log).getLast? = some batch := by
  obtain ⟨before,sent,rfl,carried⟩ := held.last
  have single : batches [sent] = [batch] := by simp [batches,carried]
  rw [batches_append,single,List.getLast?_concat]

theorem not_fetchFailed {before : List Sent} {sent : Sent}
    (other : ∀ id err, sent ≠ ⟨.cursorNext id,.error err⟩) :
    ¬ FetchFailed (before ++ [sent]) := by
  rintro ⟨front,id,err,same⟩
  have last := congrArg List.getLast? same
  simp only [List.getLast?_concat,Option.some.injEq] at last
  exact other id err last

theorem Held.not_fetchFailed (held : Held log batch) : ¬ FetchFailed log := by
  obtain ⟨before,sent,rfl,carried⟩ := held.last
  apply CursorRelease.not_fetchFailed
  rintro id err rfl
  cases carried

theorem Held.released (held : Held log batch) (final : batch.hasMore = false) : Released log ↔
    ¬ FetchFailed log :=
  iff_of_true (.inr ⟨batch,held.batches_last,.inl final⟩) held.not_fetchFailed

theorem Held.unnamed (held : Held log batch) (carrying : Carrying log) (none : batch.id = none) :
    Released log ↔ ¬ FetchFailed log := by
  have final : batch.hasMore = false := by
    rw [Bool.eq_false_iff]
    intro more
    have named := carrying batch (List.mem_of_getLast? held.batches_last) more
    rw [none] at named
    cases named
  exact held.released final

theorem Held.deleted (held : Held log batch) {id : String} (named : batch.id = some id) {errs : List Error}
    {answer : Except Error Unit}
      (step : log' = log ++ errs.map (fun err => ⟨.cursorDelete id,.error err⟩) ++
        [⟨.cursorDelete id,answer⟩]) :
    Released log' ↔ ¬ FetchFailed log' := by
  subst step
  have quiet : batches [(⟨.cursorDelete id,answer⟩ : Sent)] = [] := rfl
  refine iff_of_true (.inr ⟨batch,?_,.inr ⟨id,named,answer,by simp⟩⟩) (CursorRelease.not_fetchFailed (by simp))
  rw [batches_append,batches_append,batches_refused errs,quiet,List.append_nil,List.append_nil]
  exact held.batches_last

theorem Held.fetching (held : Held log batch) {id : String} {errs : List Error}
    {answer : Except Error CursorBatch}
    (step : log' = log ++ errs.map (fun err => ⟨.cursorNext id,.error err⟩) ++ [⟨.cursorNext id,answer⟩]) :
    Opened log' ∧ ∀ id, ¬ Deleted log' id := by
  obtain ⟨sent,among,request,batch,same⟩ := held.opened
  subst step
  refine ⟨⟨sent,by simp [among],request,batch,same⟩,?_⟩
  rintro other ⟨_,among⟩
  exact held.kept other ⟨_,by simpa using among⟩

theorem Held.fetched (held : Held log batch) {id : String} {errs : List Error} {next : CursorBatch}
    (step : log' = log ++ errs.map (fun err => ⟨.cursorNext id,.error err⟩) ++ [⟨.cursorNext id,.ok next⟩]) :
    Held log' next :=
  ⟨⟨_,_,step,rfl⟩,(held.fetching step).1,(held.fetching step).2⟩

theorem Held.failed (held : Held log batch) (more : batch.hasMore = true) {id : String}
    {errs : List Error} {err : Error}
    (step : log' = log ++ errs.map (fun err => ⟨.cursorNext id,.error err⟩) ++ [⟨.cursorNext id,.error err⟩]) :
    Released log' ↔ ¬ FetchFailed log' := by
  obtain ⟨opened,kept⟩ := held.fetching step
  have last : (batches log').getLast? = some batch := by
    have quiet : batches [(⟨.cursorNext id,.error err⟩ : Sent)] = [] := rfl
    rw [step,batches_append,batches_append,batches_refused errs,quiet,List.append_nil,List.append_nil]
    exact held.batches_last
  refine iff_of_false ?_ (not_not_intro ⟨_,id,err,step⟩)
  rintro (unopened | ⟨other,is_last,final | ⟨name,_,gone⟩⟩)
  · exact unopened opened
  · rw [last,Option.some.injEq] at is_last
    rw [← is_last,more] at final
    cases final
  · exact kept name gone

theorem driveCursor_releases (rounds : Nat) (held : Held log batch)
    (runs : Runs Heard (driveCursor client rounds batch) log (done true) log') (carrying : Carrying log') :
    Released log' ↔ ¬ FetchFailed log' := by
  induction rounds generalizing log batch with
  | zero => cases (runs_done runs).1
  | succ rounds ih =>
    obtain ⟨accepted,_,passed,rest⟩ := runs_bind_done runs
    obtain rfl : _ = log := perform_answers passed
    cases accepted with
    | false =>
      cases named : batch.id with
      | none =>
        simp only [named] at rest
        obtain ⟨-,rfl⟩ := runs_done rest
        exact held.unnamed carrying named
      | some id =>
        simp only [named] at rest
        obtain ⟨outcome,_,asked,ended⟩ := runs_bind_done rest
        obtain ⟨-,rfl⟩ := runs_done ended
        obtain ⟨errs,answer,step⟩ := delete_logged asked
        exact held.deleted named step
    | true =>
      simp only [if_true] at rest
      by_cases more : batch.hasMore = true
      · rw [if_pos more] at rest
        cases named : batch.id with
        | none =>
          simp only [named] at rest
          obtain ⟨-,rfl⟩ := runs_done rest
          exact held.unnamed carrying named
        | some id =>
          simp only [named] at rest
          obtain ⟨outcome,_,asked,continued⟩ := runs_bind_done rest
          obtain ⟨errs,step⟩ := attempt_logged asked
          cases outcome with
          | ok next => exact ih (held.fetched step) continued
          | error err =>
            obtain ⟨_,_,told,ended⟩ := runs_bind_done continued
            obtain ⟨-,rfl⟩ := runs_done ended
            obtain rfl : log' = _ := perform_answers told
            exact held.failed more step
      · rw [if_neg more] at rest
        obtain ⟨-,rfl⟩ := runs_done rest
        exact held.released (by simpa using more)

theorem cursorTask_releases {opening : CursorRequest} (rounds : Nat)
    (runs : Runs Heard (cursorTask client opening rounds) [] (done true) log) (carrying : Carrying log) :
    Released log ↔ ¬ FetchFailed log := by
  obtain ⟨outcome,_,asked,continued⟩ := runs_bind_done runs
  obtain ⟨errs,step⟩ := attempt_logged asked
  cases outcome with
  | ok batch =>
    refine driveCursor_releases rounds ⟨⟨_,_,step,rfl⟩,⟨_,?_,opening,batch,rfl⟩,?_⟩ continued carrying
    · simp [step]
    · rintro id ⟨answer,among⟩
      simp [step] at among
  | error err =>
    obtain ⟨_,_,told,ended⟩ := runs_bind_done continued
    obtain ⟨-,rfl⟩ := runs_done ended
    obtain rfl : log = _ := perform_answers told
    subst step
    refine iff_of_true (.inl ?_) (not_fetchFailed (by simp))
    rintro ⟨sent,among,request,batch,rfl⟩
    simp at among

section Run

variable {W : Type} (handle : Handler Op Op.Answer W)

-- The server with a record of what it was sent.
def logging : Handler Op Op.Answer (W × List Sent)
  | op,(w,log) => ((handle op w).1,((handle op w).2,logged log op (handle op w).1))

variable {handle}

theorem step_heard {s next : State (W × List Sent)} (step : Step (logging handle) s next) :
    Runs Heard s.task s.world.2 next.task next.world.2 := by
  cases step with
  | perform head other => rw [head]; exact .call _ _ _ _ rfl (.here _ _)
  | pass head live room => rw [head]; exact .call _ _ _ _ rfl (.here _ _)
  | refused head gone => rw [head]; exact .call _ _ _ _ rfl (.here _ _)
  | receive live waiting => exact .here _ _
  | drop live => exact .here _ _

theorem reached_heard {start s : State (W × List Sent)} (path : Reached (logging handle) start s) :
    Runs Heard start.task start.world.2 s.task s.world.2 := by
  induction path with
  | start => exact .here _ _
  | step _ step ih => exact runs_trans ih (step_heard step)

end Run

-- However its steps fall among the consumer's, the task that has ended left no
-- cursor open exactly if it did not end at a fetch that was refused.
theorem released_iff_fetched {W : Type} (handle : Handler Op Op.Answer W) (client : Client)
    (opening : CursorRequest)
    (rounds : Nat) (w : W) (s : State (W × List Sent))
    (path : Reached (logging handle) (.initial (cursorTask client opening rounds) (w,[])) s)
    (ended : s.task = done true) (carrying : Carrying s.world.2) : Released s.world.2 ↔
    ¬ FetchFailed s.world.2 := by
  have runs := reached_heard path
  rw [ended] at runs
  exact cursorTask_releases rounds runs carrying

-- A cursor whose batches all promise more, read from a server that fails at the next fetch or does not.
def endless (fails : Bool) : Handler Op Op.Answer Unit
  | .send _ (.cursorOpen _),_ => (.ok {hasMore := true,id := some "1"},())
  | .send _ (.cursorNext _),_ =>
      (if fails then .error (.http 500 "internal error" {}) else .ok {hasMore := true,id := some "1"},())
  | .send _ (.cursorDelete _),_ => (.ok (),())
  | op,_ => (op.refuse,())

def reader : Client := {database := "app"}

def reading : CursorRequest := {query := "FOR d IN c RETURN d"}

-- The consumer takes one batch and drops the stream while the task has fetched the next.
theorem dropped_stream_released : ∃ s,
    Reached (logging (endless false)) (.initial (cursorTask reader reading 2) ((),[])) s ∧
    s.task = done true ∧ batches s.world.2 =
    [{hasMore := true,id := some "1"},{hasMore := true,id := some "1"}] ∧
      Released s.world.2 := by
  have opened : Reached (logging (endless false)) (.initial (cursorTask reader reading 2) ((),[])) _ :=
    .step .start (.perform rfl nofun)
  have passed := opened.step (.pass rfl rfl (by decide))
  have received := passed.step (.receive rfl rfl)
  have fetched := received.step (.perform rfl nofun)
  have dropped := fetched.step (.drop rfl)
  have refused := dropped.step (.refused rfl rfl)
  have deleted := refused.step (.perform rfl nofun)
  have carrying : Carrying [⟨.cursorOpen reading,.ok {hasMore := true,id := some "1"}⟩,
      ⟨.cursorNext "1",.ok {hasMore := true,id := some "1"}⟩,⟨.cursorDelete "1",.ok ()⟩] := by
    simp [Carrying,batches,Sent.batch]
  refine ⟨_,deleted,rfl,rfl,(released_iff_fetched _ reader reading 2 () _ deleted rfl carrying).mpr ?_⟩
  exact @not_fetchFailed [_,_] _ nofun

theorem refused_fetch_leaves_cursor : ∃ s,
    Reached (logging (endless true)) (.initial (cursorTask reader reading 2) ((),[])) s ∧ s.task = done true ∧
      Carrying s.world.2 ∧ ¬ Released s.world.2 := by
  obtain ⟨s,path,ended⟩ := @ended_reached _ (logging (endless true)) (cursorTask reader reading 2)
      ((),[]) [] rfl
  have log : s.world = ((),[⟨.cursorOpen reading,.ok {hasMore := true,id := some "1"}⟩,
      ⟨.cursorNext "1",.error (.http 500 "internal error" {})⟩]) :=
    (congrArg (fun result => result.2.1) (ended_received _ path ended)).symm
  refine ⟨s,path,ended.1,?_,?_⟩
  · rw [log]
    simp [Carrying,batches,Sent.batch]
  · have last : batches s.world.2 = [{hasMore := true,id := some "1"}] := by rw [log]; rfl
    rw [Released,last,log]
    simp [Opened,Deleted]

end ArangoDataTools.CursorRelease
