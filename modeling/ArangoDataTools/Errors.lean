import ArangoDataTools.Interaction

namespace ArangoDataTools
open Interaction Interaction.Program

structure ErrorContext where
  collection : Option String := none
  objectPath : Option String := none
  byteRange : Option (Nat × Nat) := none
  batch : Option Nat := none
  serverResponse : Option String := none
  deriving DecidableEq, Repr

-- The kinds `is_retryable` tells apart; every other `std::io::ErrorKind` is `other`.
inductive IoErrorKind where
  | timedOut | interrupted | connectionReset | connectionAborted | brokenPipe | wouldBlock | other
  deriving DecidableEq, Repr

inductive Error where
  | config (message : String)
  | connection (message : String)
  | http (status : Nat) (message : String) (context : ErrorContext)
  | io (kind : IoErrorKind) (message : String)
  | storage (message : String)
  | alreadyExists (path : String)
  | parse (message : String) (line column : Option Nat)
  | serialization (message : String)
  | checkpoint (message : String)
  | cancelled
  deriving DecidableEq, Repr

def ErrorContext.display (context : ErrorContext) : String :=
  let parts :=
    (context.collection.map ("collection=" ++ ·)).toList ++
    (context.objectPath.map ("path=" ++ ·)).toList ++
    (context.byteRange.map fun range => s!"bytes={range.1}-{range.2}").toList ++
    (context.batch.map fun batch => s!"batch={batch}").toList ++
    (context.serverResponse.map ("response=" ++ ·)).toList
  if parts.isEmpty then "" else " [" ++ ", ".intercalate parts ++ "]"

namespace Error

def display : Error → String
  | config message => "configuration error: " ++ message
  | connection message => "connection error: " ++ message
  | http status message context => s!"HTTP {status}: {message}" ++ context.display
  | io _ message => message
  | storage message => "storage error: " ++ message
  | alreadyExists path => "object already exists: " ++ path
  | parse message _ _ => "parse error: " ++ message
  | serialization message => "serialization error: " ++ message
  | checkpoint message => "checkpoint error: " ++ message
  | cancelled => "operation cancelled"

def isServerError : Error → Bool
  | http .. => true
  | _ => false

def isRetryable : Error → Bool
  | connection _ => true
  | io kind _ => match kind with
    | .timedOut | .interrupted | .connectionReset | .connectionAborted | .brokenPipe | .wouldBlock => true
    | .other => false
  | http status _ _ => status == 429 || status == 502 || status == 503 || status == 504
  | _ => false

end Error

-- `policy.stats`: the shared counters are updated through operations of the
-- interface, so several retry loops may share them.
inductive Counter where
  | retries | serverErrors
  deriving DecidableEq, Repr

structure RetryPolicy where
  maxAttempts : Nat := 5
  stats : Bool := false
  deriving DecidableEq, Repr

section Retry
variable {Op : Type} {Ans : Op → Type} {α : Type}

def RetryPolicy.record (policy : RetryPolicy) (count : Counter → Program Op Ans Error Unit)
    (counter : Counter) :
    Program Op Ans Error Unit :=
  if policy.stats then count counter else done ()

def RetryPolicy.recordFailure (policy : RetryPolicy) (count : Counter → Program Op Ans Error Unit)
    (err : Error) :
    Program Op Ans Error Unit :=
  if err.isServerError then policy.record count .serverErrors else done ()

-- `left` attempts remain after this one; none left is `attempt >= max_attempts`.
-- The backoff sleep changes nothing but the time and is not an operation here.
def retryLoop (policy : RetryPolicy) (count : Counter → Program Op Ans Error Unit)
    (op : Program Op Ans Error (Except Error α)) : Nat → Program Op Ans Error α
  | 0 => op.bind fun
    | .ok value => done value
    | .error err => (policy.recordFailure count err).bind fun _ => fail err
  | left+1 => op.bind fun
    | .ok value => done value
    | .error err => (policy.recordFailure count err).bind fun _ =>
      if err.isRetryable then
        (policy.record count .retries).bind fun _ => retryLoop policy count op left
      else fail err

def retry (policy : RetryPolicy) (count : Counter → Program Op Ans Error Unit)
    (op : Program Op Ans Error (Except Error α)) : Program Op Ans Error α :=
  retryLoop policy count op (policy.maxAttempts - 1)

variable {W : Type} {handle : Handler Op Ans W} {count : Counter → Program Op Ans Error Unit}
  {op : Program Op Ans Error (Except Error α)}

theorem recordFailure_quiet (quiet : ∀ counter w, run handle (count counter) w = (.ok (),w))
    (policy : RetryPolicy)
    (err : Error) (w : W) : run handle (policy.recordFailure count err) w = (.ok (),w) := by
  unfold RetryPolicy.recordFailure RetryPolicy.record
  split
  · split
    · exact quiet .serverErrors w
    · rfl
  · rfl

theorem retryLoop_ok {policy : RetryPolicy} (attempt : run handle op w = (.ok (.ok value),w')) (left : Nat) :
    run handle (retryLoop policy count op left) w = (.ok value,w') := by
  cases left with
  | zero => unfold retryLoop; rw [run_bind_ok handle attempt]; rfl
  | succ left => unfold retryLoop; rw [run_bind_ok handle attempt]; rfl

theorem retryLoop_last (quiet : ∀ counter w, run handle (count counter) w = (.ok (),w)) {policy : RetryPolicy}
    (attempt : run handle op w = (.ok (.error err),w')) :
    run handle (retryLoop policy count op 0) w = (.error err,w') := by
  unfold retryLoop
  rw [run_bind_ok handle attempt,run_bind_ok handle (recordFailure_quiet quiet policy err w')]
  rfl

theorem retryLoop_fatal (quiet : ∀ counter w, run handle (count counter) w = (.ok (),w)) {policy : RetryPolicy}
    (attempt : run handle op w = (.ok (.error err),w')) (final : err.isRetryable = false) (left : Nat) :
    run handle (retryLoop policy count op left) w = (.error err,w') := by
  cases left with
  | zero => exact retryLoop_last quiet attempt
  | succ left =>
    unfold retryLoop
    rw [run_bind_ok handle attempt,run_bind_ok handle (recordFailure_quiet quiet policy err w')]
    simp [final]

theorem retryLoop_again (quiet : ∀ counter w, run handle (count counter) w = (.ok (),w)) {policy : RetryPolicy}
    (attempt : run handle op w = (.ok (.error err),w')) (transient : err.isRetryable = true) (left : Nat) :
    run handle (retryLoop policy count op (left+1)) w = run handle (retryLoop policy count op left) w' := by
  have recorded : run handle (policy.record count .retries) w' = (.ok (),w') := by
    unfold RetryPolicy.record
    split
    · exact quiet .retries w'
    · rfl
  rw [retryLoop,run_bind_ok handle attempt,run_bind_ok handle (recordFailure_quiet quiet policy err w')]
  simp only [transient,if_true]
  rw [run_bind_ok handle recorded]

theorem recordFailure_still (still : ∀ counter w w', Cut handle (count counter) w w' → w' = w)
    (policy : RetryPolicy)
    (err : Error) (cut : Cut handle (policy.recordFailure count err) w w') : w' = w := by
  unfold RetryPolicy.recordFailure RetryPolicy.record at cut
  split at cut
  · split at cut
    · exact still .serverErrors w w' cut
    · exact cut_done handle cut
  · exact cut_done handle cut

theorem retryLoop_cut (quiet : ∀ counter w, run handle (count counter) w = (.ok (),w))
    (still : ∀ counter w w', Cut handle (count counter) w w' → w' = w) {policy : RetryPolicy}
    (attempt : run handle op w = (.ok answer,after)) (settled : ∀ err, answer = .error err →
    err.isRetryable = false)
    (left : Nat) (cut : Cut handle (retryLoop policy count op left) w w') : Cut handle op w w' ∨
    w' = after := by
  have decided : ∀ (rest : Error → Program Op Ans Error α),
      (∀ err, err.isRetryable = false → rest err = fail err) →
      ∀ {w'}, Cut handle (match answer with
        | .ok value => done value
        | .error err => (policy.recordFailure count err).bind fun _ => rest err) after w' → w' = after := by
    intro rest final w' cut
    cases answer with
    | ok value => exact cut_done handle cut
    | error err =>
      rcases (cut_bind handle).mp cut with recording | ⟨_,middle,recorded,later⟩
      · exact recordFailure_still still policy err recording
      · rw [recordFailure_quiet quiet] at recorded
        cases recorded
        rw [final err (settled err rfl)] at later
        exact cut_fail handle later
  cases left with
  | zero =>
    rw [retryLoop] at cut
    rcases (cut_bind handle).mp cut with inside | ⟨value,middle,ran,later⟩
    · exact .inl inside
    · rw [attempt] at ran
      cases ran
      exact .inr (decided fail (fun _ _ => rfl) later)
  | succ left =>
    rw [retryLoop] at cut
    rcases (cut_bind handle).mp cut with inside | ⟨value,middle,ran,later⟩
    · exact .inl inside
    · rw [attempt] at ran
      cases ran
      refine .inr (decided (fun err => if err.isRetryable then
        (policy.record count .retries).bind fun _ => retryLoop policy count op left else fail err) ?_ later)
      intro err final
      simp [final]

end Retry
end ArangoDataTools
