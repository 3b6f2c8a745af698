import Mathlib.Order.Bounds.Basic
import ArangoDataTools.Errors
import ArangoDataTools.Interleaving
import ArangoDataTools.Tally

namespace ArangoDataTools.RetryAccounts
open Interaction Interaction.Program Tally

inductive Op where
  | request
  | count (counter : Counter)

abbrev Op.Answer (α : Type) : Op → Type
  | request => Except Error α
  | count _ => Unit

-- One call of `retry`; `RetryStats` is reached through the counting operations.
def count {α : Type} (counter : Counter) : Program Op (Op.Answer α) Error Unit := perform (Op.count counter)
def request {α : Type} : Program Op (Op.Answer α) Error (Except Error α) := perform Op.request
def retrying {α : Type} (policy : RetryPolicy) : Program Op (Op.Answer α) Error α := retry policy count request

-- What the server and the shared counters hold. `fetch_add` wraps at 64 bits.
structure Shared (ι : Type) where
  attempts : ι → Nat
  retries : UInt64
  serverErrors : UInt64

structure Account (α : Type) where
  seen : List (Except Error α) := []
  retries : Nat := 0
  serverErrors : Nat := 0

section Loop
variable {α : Type}

def reported : Except Error α → Bool
  | .ok _ => false
  | .error err => err.isServerError

-- The k-th outcome is the last one `retry` asks for.
def Ends (policy : RetryPolicy) (k : Nat) : Except Error α → Prop
  | .ok _ => True
  | .error err => err.isRetryable = false ∨ k = max 1 policy.maxAttempts

def accounting : Protocol Op (Op.Answer α) (Account α) where
  permits _ _ := True
  advance q
    | .request, outcome => {q with seen := q.seen ++ [outcome]}
    | .count .retries, _ => {q with retries := q.retries + 1}
    | .count .serverErrors, _ => {q with serverErrors := q.serverErrors + 1}

structure Retried (policy : RetryPolicy) (q : Account α) : Prop where
  continued : ∀ k outcome, q.seen[k]? = some outcome → ¬Ends policy (k+1) outcome
  retries : q.retries = q.seen.length
  serverErrors : q.serverErrors = q.seen.countP reported

structure Accounted (policy : RetryPolicy) (result : Except Error α) (q : Account α) : Prop where
  last : q.seen.getLast? = some result
  ends : Ends policy q.seen.length result
  continued : ∀ k outcome, k+1 < q.seen.length → q.seen[k]? = some outcome → ¬Ends policy (k+1) outcome
  retries : q.retries = q.seen.length - 1
  serverErrors : q.serverErrors = q.seen.countP reported

variable {policy : RetryPolicy} {q : Account α} {outcome : Except Error α}

theorem attempted_accounts (retried : Retried policy q)
    (ends : Ends policy (q.seen.length+1) outcome) {errors : Nat}
    (errorsAre : errors = (q.seen ++ [outcome]).countP reported) :
    Accounted policy outcome {q with seen := q.seen ++ [outcome],serverErrors := errors} where
  last := by simp
  ends := by simpa using ends
  continued := by
    intro k earlier before at_
    have inside : k < q.seen.length := by simpa using before
    rw [List.getElem?_append_left inside] at at_
    exact retried.continued k earlier at_
  retries := by simpa using retried.retries
  serverErrors := errorsAre

theorem attempted_retried (retried : Retried policy q)
    (goesOn : ¬Ends policy (q.seen.length+1) outcome) {errors : Nat}
    (errorsAre : errors = (q.seen ++ [outcome]).countP reported) :
    Retried policy {q with seen := q.seen ++ [outcome],serverErrors := errors,retries := q.retries + 1} where
  continued := by
    intro k earlier at_
    by_cases inside : k < q.seen.length
    · rw [List.getElem?_append_left inside] at at_
      exact retried.continued k earlier at_
    · have bound : k < (q.seen ++ [outcome]).length := (List.getElem?_eq_some_iff.mp at_).1
      have equal : k = q.seen.length := by
        rw [List.length_append,List.length_singleton] at bound
        omega
      subst equal
      rw [List.getElem?_concat_length] at at_
      cases at_
      exact goesOn
  retries := by simpa using retried.retries
  serverErrors := errorsAre

theorem recordFailure_follows (shared : policy.stats = true) {post : Except Error α → Account α → Prop}
    {rest : Program Op (Op.Answer α) Error α} (err : Error)
    (follows : Follows accounting post rest
      {q with serverErrors := (if err.isServerError then q.serverErrors + 1 else q.serverErrors)}) :
    Follows accounting post ((policy.recordFailure count err).bind fun _ => rest) q := by
  unfold RetryPolicy.recordFailure RetryPolicy.record
  cases server : err.isServerError with
  | true =>
    simp only [server,if_true] at follows
    simp only [if_true,shared]
    exact ⟨trivial,fun _ => follows⟩
  | false =>
    simp only [server,if_neg Bool.false_ne_true] at follows
    simpa using follows

theorem entered_failure (retried : Retried policy q) (err : Error) :
    (if err.isServerError then q.serverErrors + 1 else q.serverErrors) =
    (q.seen ++ [Except.error err]).countP reported := by
  rw [List.countP_append,List.countP_singleton,retried.serverErrors]
  cases server : err.isServerError <;> simp [reported,server]

theorem entered_success (retried : Retried policy q) (value : α) :
    q.serverErrors = (q.seen ++ [Except.ok value]).countP reported := by
  rw [List.countP_append,List.countP_singleton,retried.serverErrors]
  rfl

-- `left` attempts may follow the one that comes next.
theorem retryLoop_follows (shared : policy.stats = true) (left : Nat) (retried : Retried policy q)
    (remaining : q.seen.length + 1 + left = max 1 policy.maxAttempts) :
    Follows accounting (Accounted policy) (retryLoop policy count request left) q := by
  induction left generalizing q with
  | zero =>
    refine ⟨trivial,fun outcome => ?_⟩
    cases outcome with
    | ok value =>
      have ends : Ends policy (q.seen.length+1) (.ok value) := trivial
      exact attempted_accounts retried ends (entered_success retried value)
    | error err =>
      have ends : Ends policy (q.seen.length+1) (.error err : Except Error α) := .inr remaining
      exact recordFailure_follows shared err (attempted_accounts retried ends (entered_failure retried err))
  | succ left ih =>
    refine ⟨trivial,fun outcome => ?_⟩
    cases outcome with
    | ok value =>
      have ends : Ends policy (q.seen.length+1) (.ok value) := trivial
      exact attempted_accounts retried ends (entered_success retried value)
    | error err =>
      refine recordFailure_follows shared err ?_
      split
      · next transient =>
        have goesOn : ¬Ends policy (q.seen.length+1) (.error err : Except Error α) := by
          rintro (fatal | last)
          · exact Bool.false_ne_true (fatal.symm.trans transient)
          · omega
        unfold RetryPolicy.record
        rw [if_pos shared]
        refine ⟨trivial,fun _ => ih (attempted_retried retried goesOn (entered_failure retried err)) ?_⟩
        change (q.seen ++ [_]).length + 1 + left = _
        rw [List.length_append,List.length_singleton]
        omega
      · next final =>
        have ends : Ends policy (q.seen.length+1) (.error err : Except Error α) := .inl (by simpa using final)
        exact attempted_accounts retried ends (entered_failure retried err)

theorem retry_follows (policy : RetryPolicy) (shared : policy.stats = true) :
    Follows accounting (Accounted policy) (retrying (α:=α) policy) {} := by
  have retried : Retried policy ({} : Account α) := ⟨by simp,rfl,rfl⟩
  refine retryLoop_follows shared (policy.maxAttempts - 1) retried ?_
  change 0 + 1 + (policy.maxAttempts - 1) = _
  omega

end Loop

section Sharing
variable {ι α : Type} [DecidableEq ι] (outcomes : ι → Nat → Except Error α)

def respond (i : ι) : Handler Op (Op.Answer α) (Shared ι)
  | .request, w =>
    (outcomes i (w.attempts i + 1),{w with attempts := Function.update w.attempts i (w.attempts i + 1)})
  | .count .retries, w => ((),{w with retries := w.retries + 1})
  | .count .serverErrors, w => ((),{w with serverErrors := w.serverErrors + 1})

def answering : Environment ι Op (Op.Answer α) (Shared ι) :=
  fun i op w answer after => respond outcomes i op w = (answer,after)

abbrev Loops (ι α : Type) := Pool ι Op (Op.Answer α) Error α (Shared ι) (Account α)

-- No loop is dropped before it returns.
def Undropped (_ : Loops ι α) : Event ι Op (Op.Answer α) → Prop
  | .call .. => True
  | .stop _ => False

def sharing (policies : ι → RetryPolicy) (retries serverErrors : UInt64) : Loops ι α :=
  ⟨fun i => retrying (policies i),fun _ => {},⟨fun _ => 0,retries,serverErrors⟩⟩

structure Books [Fintype ι] (retries serverErrors : UInt64) (s : Loops ι α) : Prop where
  seen : ∀ i, (s.phases i).seen = (List.range' 1 (s.world.attempts i)).map (outcomes i)
  retries : s.world.retries = retries + UInt64.ofNat (tally Account.retries s.phases)
  serverErrors : s.world.serverErrors = serverErrors + UInt64.ofNat (tally Account.serverErrors s.phases)

variable {outcomes} [Fintype ι] {policies : ι → RetryPolicy} {retries serverErrors : UInt64}
  {s next : Loops ι α}

section Wrapped
variable {start held : UInt64} {before after : Nat}

theorem wrapped_same (holds : held = start + UInt64.ofNat before) (same : after = before) :
    held = start + UInt64.ofNat after := by
  rw [same]
  exact holds

theorem wrapped_gain (holds : held = start + UInt64.ofNat before) (gain : after = before + 1) :
    held + 1 = start + UInt64.ofNat after := by
  rw [gain,holds,UInt64.ofNat_add,UInt64.add_assoc]
  rfl

end Wrapped

theorem books_step (books : Books outcomes retries serverErrors s) {event : Event ι Op (Op.Answer α)}
    (alive : Undropped s event) (step : PoolStep (answering outcomes) accounting s event next) :
    Books outcomes retries serverErrors next := by
  obtain ⟨seen,retried,reported⟩ := books
  cases step with
  | stop head => exact absurd alive id
  | @call i op rest answer w head answered =>
    cases op with
    | request =>
      cases answered
      refine ⟨?_,?_,?_⟩
      · intro j
        by_cases equal : j = i
        · subst j
          simp only [Function.update_self,accounting,seen i,List.range'_1_concat,List.map_append,
            List.map_singleton]
          rw [Nat.add_comm]
        · simpa [equal] using seen j
      · exact wrapped_same retried (tally_same rfl rfl)
      · exact wrapped_same reported (tally_same rfl rfl)
    | count counter =>
      have kept : ∀ j, (Function.update s.phases i
          (accounting.advance (s.phases i) (.count counter) answer) j).seen =
          (s.phases j).seen := by
        intro j
        by_cases equal : j = i
        · subst j
          rw [Function.update_self]
          cases counter <;> rfl
        · rw [Function.update_of_ne equal]
      cases counter with
      | retries =>
        cases answered
        refine ⟨fun j => (kept j).trans (seen j),?_,?_⟩
        · exact wrapped_gain retried (tally_gain rfl rfl)
        · exact wrapped_same reported (tally_same rfl rfl)
      | serverErrors =>
        cases answered
        refine ⟨fun j => (kept j).trans (seen j),?_,?_⟩
        · exact wrapped_same retried (tally_same rfl rfl)
        · exact wrapped_gain reported (tally_gain rfl rfl)

theorem books_reached (path : PoolReached (answering outcomes) accounting Undropped
    (sharing policies retries serverErrors) s) :
    Books outcomes retries serverErrors s := by
  induction path with
  | start =>
    exact ⟨fun _ => rfl,wrapped_same (UInt64.add_zero retries).symm (tally_zero fun _ => rfl),
      wrapped_same (UInt64.add_zero serverErrors).symm (tally_zero fun _ => rfl)⟩
  | step _ alive step ih => exact books_step ih alive step

end Sharing

section Counting
variable {α : Type} {policy : RetryPolicy} {outcomes : Nat → Except Error α} {q : Account α}
  {result : Except Error α} {n : Nat}

-- How many attempts a loop makes: up to the first outcome that ends it.
def Attempts (policy : RetryPolicy) (outcomes : Nat → Except Error α) : Nat → Prop :=
  IsLeast {k | 1 ≤ k ∧ Ends policy k (outcomes k)}

def reportedAmong (outcomes : Nat → Except Error α) (n : Nat) : Nat :=
  (List.range' 1 n).countP fun k => reported (outcomes k)

theorem attempts_exist (policy : RetryPolicy) (outcomes : Nat → Except Error α) : ∃ n,
    Attempts policy outcomes n := by
  classical
  have some_ : ∃ k, 1 ≤ k ∧ Ends policy k (outcomes k) := by
    refine ⟨max 1 policy.maxAttempts,by omega,?_⟩
    cases outcomes (max 1 policy.maxAttempts) with
    | ok value => trivial
    | error err => exact .inr rfl
  exact ⟨Nat.find some_,Nat.isLeast_find some_⟩

theorem attempts_accounted (accounted : Accounted policy result q)
    (seen : q.seen = (List.range' 1 n).map outcomes) :
    Attempts policy outcomes n ∧ result = outcomes n ∧ q.retries = n - 1 ∧
    q.serverErrors = reportedAmong outcomes n := by
  obtain ⟨last,ends,continued,retries,serverErrors⟩ := accounted
  have length : q.seen.length = n := by simp [seen]
  cases n with
  | zero =>
    rw [seen] at last
    cases last
  | succ n =>
    have result_ : result = outcomes (n+1) := by
      rw [seen,List.range'_1_concat,List.map_append,List.map_singleton,List.getLast?_concat,
        Nat.add_comm] at last
      exact (Option.some.inj last).symm
    refine ⟨⟨⟨Nat.le_add_left _ _,?_⟩,?_⟩,result_,?_,?_⟩
    · rw [← result_,← length]
      exact ends
    · intro k ⟨positive,stops⟩
      by_contra before
      obtain ⟨k,rfl⟩ : ∃ j, k = j+1 := ⟨k-1,by omega⟩
      refine continued k (outcomes (k+1)) (by omega) ?_ stops
      rw [seen,List.getElem?_map,List.getElem?_range' (by omega),Option.map_some,Nat.one_mul,Nat.add_comm]
    · rw [retries,length]
    · rw [serverErrors,seen,List.countP_map]
      rfl

end Counting

section Sharing
variable {ι α : Type} [DecidableEq ι] {outcomes : ι → Nat → Except Error α} {policies : ι → RetryPolicy}
  {retries serverErrors : UInt64} {s : Loops ι α}

theorem concluded_accounts (shared : ∀ i, (policies i).stats = true)
    (path : PoolReached (answering outcomes) accounting Undropped
      (sharing policies retries serverErrors) s) {i : ι}
    {result : Except Error α} (concluded : (s.threads i).conclusion = some result) :
    Accounted (policies i) result (s.phases i) := by
  have followed : Follows accounting (Accounted (policies i)) (s.threads i) (s.phases i) :=
    followed_reached (fun _ _ alive => alive) (fun i => retry_follows (policies i) (shared i)) path i
  cases head : s.threads i with
  | done value =>
    rw [head] at followed concluded
    cases concluded
    exact followed
  | fail err =>
    rw [head] at followed concluded
    cases concluded
    exact followed
  | call op rest =>
    rw [head] at concluded
    cases concluded

end Sharing

-- Several loops over one `RetryStats`, their operations in any order.
theorem retry_accounts {ι α : Type} [DecidableEq ι] [Fintype ι] (policies : ι → RetryPolicy)
    (shared : ∀ i, (policies i).stats = true)
    (outcomes : ι → Nat → Except Error α) (retries serverErrors : UInt64) :
    ∃ n : ι → Nat, (∀ i, Attempts (policies i) (outcomes i) (n i)) ∧
      ∀ s, PoolReached (answering outcomes) accounting Undropped (sharing policies retries serverErrors) s →
        (∀ i result, (s.threads i).conclusion = some result → s.world.attempts i = n i ∧
        result = outcomes i (n i)) ∧
        ((∀ i, ∃ result, (s.threads i).conclusion = some result) →
          s.world.retries = retries + UInt64.ofNat (∑ i, (n i - 1)) ∧
          s.world.serverErrors = serverErrors + UInt64.ofNat (∑ i, reportedAmong (outcomes i) (n i))) ∧
        ∃ ended, PoolReached (answering outcomes) accounting Undropped s ended ∧
          ∀ i, ∃ result, (ended.threads i).conclusion = some result := by
  choose n least using fun i => attempts_exist (policies i) (outcomes i)
  refine ⟨n,least,fun s path => ?_⟩
  have books := books_reached path
  have exact_ {i : ι} {result : Except Error α} (concluded : (s.threads i).conclusion = some result) :
      s.world.attempts i = n i ∧ result = outcomes i (n i) ∧ (s.phases i).retries = n i - 1 ∧
        (s.phases i).serverErrors = reportedAmong (outcomes i) (n i) := by
    obtain ⟨made,rest⟩ := attempts_accounted (concluded_accounts shared path concluded) (books.seen i)
    have equal : s.world.attempts i = n i := made.unique (least i)
    rw [equal] at rest
    exact ⟨equal,rest⟩
  refine ⟨fun i result concluded => ⟨(exact_ concluded).1,(exact_ concluded).2.1⟩,fun ended => ⟨?_,?_⟩,?_⟩
  · refine wrapped_same books.retries (Finset.sum_congr rfl fun i _ => ?_)
    obtain ⟨result,concluded⟩ := ended i
    exact (exact_ concluded).2.2.1.symm
  · refine wrapped_same books.serverErrors (Finset.sum_congr rfl fun i _ => ?_)
    obtain ⟨result,concluded⟩ := ended i
    exact (exact_ concluded).2.2.2.symm
  · exact pool_ends (fun i => Finset.mem_toList.mpr (Finset.mem_univ i)) (fun i op w => rfl)
      (fun _ _ _ _ => trivial) s

-- One loop is answered 503 and then succeeds; the other may try only once.
def twoPolicies : Bool → RetryPolicy
  | true => {maxAttempts := 3,stats := true}
  | false => {maxAttempts := 0,stats := true}

def twoOutcomes : Bool → Nat → Except Error Nat
  | true, k => if k = 1 then .error (.http 503 "busy" {}) else .ok 7
  | false, _ => .error (.connection "reset")

theorem two_loops_account : ∃ s, PoolReached (answering twoOutcomes) accounting Undropped
    (sharing twoPolicies 0 0) s ∧
    (∀ i, ∃ result, (s.threads i).conclusion = some result) ∧ s.world.retries = 1 ∧
    s.world.serverErrors = 1 := by
  obtain ⟨n,least,runs⟩ := retry_accounts twoPolicies (fun i => by cases i <;> rfl) twoOutcomes 0 0
  have busy : Attempts (twoPolicies true) (twoOutcomes true) 2 := by
    refine ⟨⟨by decide,trivial⟩,?_⟩
    intro k ⟨positive,ends⟩
    by_contra before
    obtain rfl : k = 1 := by omega
    rcases ends with fatal | last
    · cases fatal
    · cases last
  have once : Attempts (twoPolicies false) (twoOutcomes false) 1 :=
    ⟨⟨Nat.le_refl 1,.inr rfl⟩,fun _ stops => stops.1⟩
  obtain ⟨s,path,ended⟩ := (runs _ .start).2.2
  obtain ⟨retries,serverErrors⟩ := (runs s path).2.1 ended
  refine ⟨s,path,ended,?_,?_⟩
  · rw [retries,Fintype.sum_bool,(least true).unique busy,(least false).unique once]
    rfl
  · rw [serverErrors,Fintype.sum_bool,(least true).unique busy,(least false).unique once]
    rfl

end ArangoDataTools.RetryAccounts
