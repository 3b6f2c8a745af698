import ArangoDataTools.Client
import ArangoDataTools.Triples

namespace ArangoDataTools.ClientRuns
open Interaction Interaction.Program

variable {W : Type} {answers : Answering Op Op.Answer W} {w w' : W} {database : String} {request : Request}

theorem executeOn_answered (client : Client) {value : request.Response}
    (step : answers (.send database request) w (.ok value) w') :
    Runs answers (client.executeOn database request) w (done value) w' := by
  have sent : Runs answers (ask (.send database request)) w (done (.ok value)) w' :=
    .call _ _ _ _ step (.here _ _)
  unfold Client.executeOn retry
  cases client.retry.maxAttempts - 1 with
  | zero => exact runs_then sent (.here _ _)
  | succ left => exact runs_then sent (.here _ _)

theorem executeOn_refused (client : Client) {err : Error} (final : err.isRetryable = false)
    (step : answers (.send database request) w (.error err) w')
      (counts : ∀ counter, answers (.count counter) w' () w') :
    Runs answers (client.executeOn database request) w (fail err) w' := by
  have sent : Runs answers (ask (.send database request)) w (done (.error err)) w' :=
    .call _ _ _ _ step (.here _ _)
  have counted : Runs answers (client.retry.recordFailure (fun counter => ask (.count counter)) err)
      w' (done ()) w' := by
    unfold RetryPolicy.recordFailure RetryPolicy.record
    split
    · split
      · exact .call _ _ _ _ (counts .serverErrors) (.here _ _)
      · exact .here _ _
    · exact .here _ _
  unfold Client.executeOn retry
  cases client.retry.maxAttempts - 1 with
  | zero => exact runs_then sent (runs_then counted (.here _ _))
  | succ left =>
    apply runs_then sent
    apply runs_then counted
    rw [if_neg (by simp [final])]
    exact .here _ _

section Retried

theorem triple_retryLoop {start failed always : W → Prop} {post : α → W → Prop}
    {op : Tool (Except Error α)} (policy : RetryPolicy)
    (attempt : Triple answers start op (fun answer w => match answer with
      | .ok value => post value w
      | .error _ => failed w) failed always)
    (counting : ∀ counter, Triple answers failed (ask (.count counter)) (fun _ => failed) failed always)
    (again : ∀ w, failed w → start w) (returned : ∀ value w, post value w → always w)
      (kept : ∀ w, failed w → always w) (left : Nat) :
    Triple answers start (retryLoop policy (fun counter => ask (.count counter)) op left) post
      failed always := by
  have recording : ∀ counter,
      Triple answers failed (policy.record (fun counter => ask (.count counter)) counter)
        (fun _ => failed) failed
      always := by
    intro counter
    unfold RetryPolicy.record
    split
    · exact counting counter
    · exact triple_done (fun _ holds => holds) kept
  have noting : ∀ err, Triple answers failed
      (policy.recordFailure (fun counter => ask (.count counter)) err) (fun _ => failed) failed
      always := by
    intro err
    unfold RetryPolicy.recordFailure
    split
    · exact recording .serverErrors
    · exact triple_done (fun _ holds => holds) kept
  induction left with
  | zero =>
    apply triple_bind attempt
    intro answer
    cases answer with
    | ok value => exact triple_done (fun _ holds => holds) (returned value)
    | error err => exact triple_bind (noting err) fun _ => triple_fail (fun _ holds => holds) kept
  | succ left ih =>
    apply triple_bind attempt
    intro answer
    cases answer with
    | ok value => exact triple_done (fun _ holds => holds) (returned value)
    | error err =>
      apply triple_bind (noting err)
      intro _
      by_cases transient : err.isRetryable = true
      · rw [if_pos transient]
        exact triple_bind (recording .retries) fun _ =>
          triple_weaken ih again (fun _ _ holds => holds) (fun _ holds => holds) fun _ holds => holds
      · rw [if_neg transient]
        exact triple_fail (fun _ holds => holds) kept

end Retried

section Told
variable {policy : RetryPolicy}

theorem record_unfailing {counter : Counter} {err : Error} :
    ¬ Runs answers (policy.record (fun counter => ask (.count counter)) counter) w (fail err) w' := by
  intro runs
  unfold RetryPolicy.record at runs
  split at runs
  · exact perform_unfailing runs
  · cases (runs_done runs).1

theorem recordFailure_unfailing {failure err : Error} :
    ¬ Runs answers (policy.recordFailure (fun counter => ask (.count counter)) failure) w (fail err) w' := by
  intro runs
  unfold RetryPolicy.recordFailure at runs
  split at runs
  · exact record_unfailing runs
  · cases (runs_done runs).1

theorem record_same (still : ∀ counter w answer w', answers (.count counter) w answer w' → w' = w)
    {counter : Counter}
    (runs : Runs answers (policy.record (fun counter => ask (.count counter)) counter) w
      (done ()) w') : w' = w := by
  unfold RetryPolicy.record at runs
  split at runs
  · exact still _ _ _ _ (perform_answers runs)
  · exact (runs_done runs).2

theorem recordFailure_same
    (still : ∀ counter w answer w', answers (.count counter) w answer w' → w' = w) {failure : Error}
    (runs : Runs answers (policy.recordFailure (fun counter => ask (.count counter)) failure) w
      (done ()) w') : w' = w := by
  unfold RetryPolicy.recordFailure at runs
  split at runs
  · exact record_same still runs
  · exact (runs_done runs).2

inductive Refusals (answers : Answering Op Op.Answer W) (database : String) (request : Request) :
    W → W → Prop where
  | none {w : W} : Refusals answers database request w w
  | again {err : Error} {w middle w' : W} : answers (.send database request) w (.error err) middle →
      Refusals answers database request middle w' →
      Refusals answers database request w w'

theorem retryLoop_tries (still : ∀ counter w answer w', answers (.count counter) w answer w' → w' = w)
    {result : Except Error request.Response} (left : Nat)
    (runs : Runs answers (retryLoop policy (fun counter => ask (.count counter))
      (ask (.send database request)) left) w
      (lift result) w') : ∃ middle, Refusals answers database request w middle ∧
      answers (.send database request) middle result w' := by
  have ended : ∀ {answer : Except Error request.Response} {w after : W},
      answers (.send database request) w answer after →
      lift (ε:=Error) result = (lift answer : Tool request.Response) →
        ∃ middle, Refusals answers database request w middle ∧
        answers (.send database request) middle result after := by
    intro answer w after step same
    cases result with
    | ok value =>
      cases answer with
      | ok other => cases same; exact ⟨w,.none,step⟩
      | error err => cases same
    | error err =>
      cases answer with
      | ok other => cases same
      | error other => cases same; exact ⟨w,.none,step⟩
  induction left generalizing w with
  | zero =>
    obtain ⟨answer,middle,sent,rest⟩ := runs_bind_lift runs fun _ _ => perform_unfailing
    have step := perform_answers sent
    cases answer with
    | ok value =>
      obtain ⟨same,rfl⟩ := runs_done rest
      exact ended step same
    | error err =>
      obtain ⟨_,after,counting,failed⟩ := runs_bind_lift rest fun _ _ => recordFailure_unfailing
      obtain ⟨same,rfl⟩ := runs_fail failed
      rw [recordFailure_same still counting]
      exact ended step same
  | succ left ih =>
    obtain ⟨answer,middle,sent,rest⟩ := runs_bind_lift runs fun _ _ => perform_unfailing
    have step := perform_answers sent
    cases answer with
    | ok value =>
      obtain ⟨same,rfl⟩ := runs_done rest
      exact ended step same
    | error err =>
      obtain ⟨_,after,counting,failed⟩ := runs_bind_lift rest fun _ _ => recordFailure_unfailing
      obtain rfl := recordFailure_same still counting
      by_cases transient : err.isRetryable = true
      · rw [if_pos transient] at failed
        obtain ⟨_,again,recorded,more⟩ := runs_bind_lift failed fun _ _ => record_unfailing
        obtain rfl := record_same still recorded
        obtain ⟨last,refusals,answered⟩ := ih more
        exact ⟨last,.again step refusals,answered⟩
      · rw [if_neg transient] at failed
        obtain ⟨same,rfl⟩ := runs_fail failed
        exact ended step same

theorem executeOn_tries (client : Client)
    (still : ∀ counter w answer w', answers (.count counter) w answer w' → w' = w)
    {result : Except Error request.Response}
      (runs : Runs answers (client.executeOn database request) w (lift result) w') :
    ∃ middle, Refusals answers database request w middle ∧ answers (.send database request) middle result w' :=
  retryLoop_tries still _ runs

theorem executeOn_told (client : Client)
    (still : ∀ counter w answer w', answers (.count counter) w answer w' → w' = w)
    {result : Except Error request.Response}
      (runs : Runs answers (client.executeOn database request) w (lift result) w') :
    ∃ middle, answers (.send database request) middle result w' := by
  obtain ⟨middle,-,answered⟩ := executeOn_tries client still runs
  exact ⟨middle,answered⟩

end Told
end ArangoDataTools.ClientRuns
