import Mathlib.Algebra.GroupWithZero.Nat
import ArangoDataTools.Errors

namespace ArangoDataTools

def defaultSlowThreshold : Nat := 5 * 10 ^ 9
def defaultRecoverAfter : Nat := 10 * 10 ^ 9

structure AdaptiveConfig where
  enabled : Bool
  maxConcurrency : Nat
  minConcurrency : Nat
  slowThreshold : Nat
  recoverAfter : Nat
  deriving DecidableEq, Repr

def AdaptiveConfig.new (enabled : Bool) (workers : Nat) : AdaptiveConfig :=
  {enabled := enabled,maxConcurrency := max workers 1,minConcurrency := 1,slowThreshold := defaultSlowThreshold,
   recoverAfter := defaultRecoverAfter}

-- The guarded fields of the limiter, and the number of `notify_waiters` calls on
-- `slot_available` so far: a waiter registered before one of them is woken by it.
structure AdaptiveLimiter where
  limit : Nat
  inFlight : Nat := 0
  lastCongestion : Nat
  minLimitSeen : Nat
  rateLimited429 : Nat := 0
  rateLimited503 : Nat := 0
  slowSends : Nat := 0
  rttSum : Nat := 0
  rttCount : Nat := 0
  notified : Nat := 0
  deriving DecidableEq, Repr

namespace AdaptiveLimiter

def new (config : AdaptiveConfig) (now : Nat) : AdaptiveLimiter :=
  let start := max (max config.maxConcurrency config.minConcurrency) 1
  {limit := start,lastCongestion := now,minLimitSeen := start}

def notifyWaiters (l : AdaptiveLimiter) : AdaptiveLimiter := {l with notified := l.notified + 1}
def claim (l : AdaptiveLimiter) : AdaptiveLimiter := {l with inFlight := l.inFlight + 1}

def throttle (config : AdaptiveConfig) (now : Nat) (l : AdaptiveLimiter) : AdaptiveLimiter :=
  if config.enabled then
    let reduced := max (l.limit / 2) config.minConcurrency
    {l with limit := reduced,minLimitSeen := min l.minLimitSeen reduced,lastCongestion := now}
  else l

def maybeRecover (config : AdaptiveConfig) (now : Nat) (l : AdaptiveLimiter) : AdaptiveLimiter :=
  if config.enabled = false ∨ config.maxConcurrency ≤ l.limit then l
  else if now - l.lastCongestion ≥ config.recoverAfter
    then notifyWaiters {l with limit := l.limit + 1,lastCongestion := now}
    else l

-- `record_success` and `record_error` up to the end of the critical section; the
-- `notify_waiters` after it is a step of its own.
def recordSuccess (config : AdaptiveConfig) (rtt now : Nat) (l : AdaptiveLimiter) : AdaptiveLimiter :=
  let released := {l with inFlight := l.inFlight - 1,rttSum := l.rttSum + rtt,rttCount := l.rttCount + 1}
  if config.enabled ∧ rtt ≥ config.slowThreshold then
    throttle config now {released with slowSends := released.slowSends + 1}
  else maybeRecover config now released

def recordError (config : AdaptiveConfig) (status : Option Nat) (now : Nat) (l : AdaptiveLimiter) :
    AdaptiveLimiter :=
  let released := {l with inFlight := l.inFlight - 1}
  match status with
  | none => released
  | some code =>
    if code = 429 then throttle config now {released with rateLimited429 := released.rateLimited429 + 1}
    else if 502 ≤ code ∧ code ≤ 504 then
      throttle config now {released with rateLimited503 := released.rateLimited503 + 1}
    else released

def InRange (config : AdaptiveConfig) (l : AdaptiveLimiter) : Prop :=
  config.minConcurrency ≤ l.limit ∧ l.limit ≤ max (max config.maxConcurrency config.minConcurrency) 1

theorem new_inRange (config : AdaptiveConfig) (now : Nat) : (new config now).InRange config := by
  simp only [InRange,new]; omega

theorem throttle_inRange {config : AdaptiveConfig} {l : AdaptiveLimiter} (range : l.InRange config)
    (now : Nat) :
    (throttle config now l).InRange config := by
  obtain ⟨floor,top⟩ := range
  by_cases on : config.enabled
  · simp only [InRange,throttle,on,if_true]; omega
  · simp only [InRange,throttle,on]; exact ⟨floor,top⟩

theorem maybeRecover_inRange {config : AdaptiveConfig} {l : AdaptiveLimiter}
    (range : l.InRange config) (now : Nat) :
    (maybeRecover config now l).InRange config := by
  unfold maybeRecover
  split
  · exact range
  · rename_i below
    obtain ⟨floor,top⟩ := range
    split
    · simp only [InRange,notifyWaiters]; omega
    · exact ⟨floor,top⟩

@[simp] theorem throttle_inFlight (config : AdaptiveConfig) (now : Nat) (l : AdaptiveLimiter) :
    (throttle config now l).inFlight = l.inFlight := by unfold throttle; split <;> rfl
@[simp] theorem throttle_notified (config : AdaptiveConfig) (now : Nat) (l : AdaptiveLimiter) :
    (throttle config now l).notified = l.notified := by unfold throttle; split <;> rfl
@[simp] theorem maybeRecover_inFlight (config : AdaptiveConfig) (now : Nat) (l : AdaptiveLimiter) :
    (maybeRecover config now l).inFlight = l.inFlight := by
  unfold maybeRecover notifyWaiters
  split
  · rfl
  · split <;> rfl
theorem maybeRecover_notified (config : AdaptiveConfig) (now : Nat) (l : AdaptiveLimiter) :
    l.notified ≤ (maybeRecover config now l).notified := by
  unfold maybeRecover notifyWaiters
  split
  · exact Nat.le_refl _
  · split <;> simp

-- What every recording does: it gives its slot back, stays in range and loses no
-- notification.
structure Releases (config : AdaptiveConfig) (l next : AdaptiveLimiter) : Prop where
  inFlight : next.inFlight = l.inFlight - 1
  notified : l.notified ≤ next.notified
  range : l.InRange config → next.InRange config

theorem recordSuccess_releases (config : AdaptiveConfig) (rtt now : Nat) (l : AdaptiveLimiter) :
    Releases config l (recordSuccess config rtt now l) := by
  unfold recordSuccess
  by_cases slow : config.enabled ∧ rtt ≥ config.slowThreshold
  · simp only [if_pos slow]
    exact ⟨by simp,by simp,fun range => by apply throttle_inRange; exact range⟩
  · simp only [if_neg slow]
    exact ⟨by simp,maybeRecover_notified config now
      {l with inFlight := l.inFlight - 1,rttSum := l.rttSum + rtt,rttCount := l.rttCount + 1},
      fun range => by apply maybeRecover_inRange; exact range⟩

theorem recordError_releases (config : AdaptiveConfig) (status : Option Nat) (now : Nat) (l : AdaptiveLimiter) :
    Releases config l (recordError config status now l) := by
  cases status with
  | none => exact ⟨rfl,Nat.le_refl _,id⟩
  | some code =>
    unfold recordError
    by_cases limited : code = 429
    · simp only [if_pos limited]
      exact ⟨by simp,by simp,fun range => by apply throttle_inRange; exact range⟩
    · by_cases unavailable : 502 ≤ code ∧ code ≤ 504
      · simp only [if_neg limited,if_pos unavailable]
        exact ⟨by simp,by simp,fun range => by apply throttle_inRange; exact range⟩
      · simp only [if_neg limited,if_neg unavailable]
        exact ⟨rfl,Nat.le_refl _,id⟩

end AdaptiveLimiter
end ArangoDataTools
