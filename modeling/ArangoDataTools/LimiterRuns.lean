import Mathlib.Logic.Relation
import Mathlib.Order.Bounds.Basic
import ArangoDataTools.ImportLimiter

namespace ArangoDataTools.AdaptiveLimiter

-- One pass of the loop of `acquire` under the lock; without a slot it waits for a notification.
def acquire (l : AdaptiveLimiter) : Option AdaptiveLimiter := if l.inFlight < l.limit then
    some l.claim else none

inductive Event where
  | acquire
  | recordSuccess (rtt : Nat)
  | recordError (status : Option Nat)
  | notifyWaiters

def Congests (config : AdaptiveConfig) : Event → Prop
  | .recordSuccess rtt => config.slowThreshold ≤ rtt
  | .recordError (some code) => code = 429 ∨ 502 ≤ code ∧ code ≤ 504
  | _ => False

inductive Adjusts (config : AdaptiveConfig) (event : Event) (now : Nat) (l next : AdaptiveLimiter) : Prop where
  | keeps : next.limit = l.limit → next.lastCongestion = l.lastCongestion →
      next.minLimitSeen = l.minLimitSeen → Adjusts config event now l next
  | halves : config.enabled = true → Congests config event →
      next.limit = max (l.limit / 2) config.minConcurrency →
      next.lastCongestion = now → next.minLimitSeen = min l.minLimitSeen next.limit →
      Adjusts config event now l next
  | grows : config.enabled = true → l.limit < config.maxConcurrency →
      config.recoverAfter ≤ now - l.lastCongestion →
      next.limit = l.limit + 1 → next.lastCongestion = now → next.minLimitSeen = l.minLimitSeen →
      Adjusts config event now l next

section Records
variable {config : AdaptiveConfig} {l released : AdaptiveLimiter} {event : Event} {now : Nat}

theorem throttle_adjusts (congests : Congests config event) (limit : released.limit = l.limit)
    (last : released.lastCongestion = l.lastCongestion) (seen : released.minLimitSeen = l.minLimitSeen) :
    Adjusts config event now l (throttle config now released) := by
  unfold throttle
  split
  · next enabled => exact .halves enabled congests (by rw [← limit]) rfl (by rw [← seen])
  · exact .keeps limit last seen

theorem maybeRecover_adjusts (limit : released.limit = l.limit)
    (last : released.lastCongestion = l.lastCongestion)
    (seen : released.minLimitSeen = l.minLimitSeen) :
    Adjusts config event now l (maybeRecover config now released) := by
  unfold maybeRecover
  split
  · exact .keeps limit last seen
  · next below =>
    have enabled : config.enabled = true := by
      cases on : config.enabled with
      | true => rfl
      | false => exact absurd (.inl on) below
    split
    · next quiet => exact .grows enabled (by omega) (by omega) (congrArg (· + 1) limit) rfl seen
    · exact .keeps limit last seen

theorem recordSuccess_adjusts (rtt : Nat) : Adjusts config (.recordSuccess rtt) now l
    (recordSuccess config rtt now l) := by
  unfold recordSuccess
  dsimp only
  split
  · next slow => exact throttle_adjusts slow.2 rfl rfl rfl
  · exact maybeRecover_adjusts rfl rfl rfl

theorem recordError_adjusts (status : Option Nat) : Adjusts config (.recordError status) now l
    (recordError config status now l) := by
  unfold recordError
  dsimp only
  split
  · exact .keeps rfl rfl rfl
  · split
    · next limited => exact throttle_adjusts (.inl limited) rfl rfl rfl
    · split
      · next unavailable => exact throttle_adjusts (.inr unavailable) rfl rfl rfl
      · exact .keeps rfl rfl rfl

end Records

-- A limiter in use, with what an observer has seen of it: the slots granted and recorded,
-- the limits held so far, and when the limit last changed.
structure Governed where
  limiter : AdaptiveLimiter
  granted : Nat := 0
  recorded : Nat := 0
  limits : List Nat
  changed : Nat
  clock : Nat

namespace Governed

def start (config : AdaptiveConfig) (now : Nat) : Governed :=
  {limiter := .new config now,limits := [(AdaptiveLimiter.new config now).limit],changed := now,clock := now}

def moves (s : Governed) (now : Nat) (next : AdaptiveLimiter) : Governed :=
  {s with limiter := next,limits := next.limit :: s.limits,clock := now
          changed := if next.limit = s.limiter.limit then s.changed else now}

-- A record call gives back a slot that an `acquire` was granted and that was not given back.
inductive Step (config : AdaptiveConfig) : Governed → Event → Nat → Governed → Prop where
  | acquire {s : Governed} : s.clock ≤ now → s.limiter.acquire = some next →
      Step config s .acquire now {s.moves now next with granted := s.granted + 1}
  | waits {s : Governed} : s.clock ≤ now → s.limiter.acquire = none →
      Step config s .acquire now {s with clock := now}
  | recordSuccess {s : Governed} : s.clock ≤ now → s.recorded < s.granted →
      Step config s (.recordSuccess rtt) now
        {s.moves now (s.limiter.recordSuccess config rtt now) with recorded := s.recorded + 1}
  | recordError {s : Governed} : s.clock ≤ now → s.recorded < s.granted →
      Step config s (.recordError status) now
        {s.moves now (s.limiter.recordError config status now) with recorded := s.recorded + 1}
  | notifyWaiters {s : Governed} : s.clock ≤ now →
      Step config s .notifyWaiters now (s.moves now s.limiter.notifyWaiters)

inductive Reached (config : AdaptiveConfig) : Governed → Prop where
  | start (now : Nat) : Reached config (start config now)
  | step {s s' : Governed} : Reached config s → Step config s event now s' → Reached config s'

structure Limits (config : AdaptiveConfig) (l : AdaptiveLimiter) (limits : List Nat)
    (changed clock : Nat) : Prop where
  floor : config.minConcurrency ≤ l.limit
  top : l.limit ≤ config.maxConcurrency
  seen : IsLeast {limit | limit ∈ limits} l.minLimitSeen
  held : l.limit ∈ limits
  pinned : config.enabled = false → l.limit = config.maxConcurrency
  changed : changed ≤ l.lastCongestion
  past : l.lastCongestion ≤ clock

structure Sound (config : AdaptiveConfig) (s : Governed) : Prop where
  limits : Limits config s.limiter s.limits s.changed s.clock
  slots : s.limiter.inFlight + s.recorded = s.granted

-- What a step may do to the limit and to the slots.
structure Moves (config : AdaptiveConfig) (s : Governed) (event : Event) (now : Nat)
    (s' : Governed) : Prop where
  limit : s'.limiter.limit = s.limiter.limit ∨
    (Congests config event ∧ s'.limiter.limit = max (s.limiter.limit / 2) config.minConcurrency) ∨
    (s'.limiter.limit = s.limiter.limit + 1 ∧ s.changed + config.recoverAfter ≤ now)
  granted : s'.granted = s.granted ∨ (s'.granted = s.granted + 1 ∧ s.limiter.inFlight < s.limiter.limit)
  recorded : s'.recorded = s.recorded ∨
    (s'.recorded = s.recorded + 1 ∧ s'.limiter.inFlight + 1 = s.limiter.inFlight)

variable {config : AdaptiveConfig} {l next : AdaptiveLimiter} {s s' : Governed} {event : Event}
  {limits : List Nat} {now : Nat}

theorem acquire_claims (acquired : l.acquire = some next) : l.inFlight < l.limit ∧ next = l.claim := by
  unfold AdaptiveLimiter.acquire at acquired
  split at acquired
  · next free => exact ⟨free,(Option.some.inj acquired).symm⟩
  · cases acquired

theorem start_limits (some_ : 1 ≤ config.minConcurrency)
    (ordered : config.minConcurrency ≤ config.maxConcurrency) (now : Nat) :
    Sound config (start config now) := by
  have top : (AdaptiveLimiter.new config now).limit = config.maxConcurrency := by
    show max (max config.maxConcurrency config.minConcurrency) 1 = config.maxConcurrency
    omega
  refine ⟨⟨?_,?_,⟨List.mem_singleton_self _,?_⟩,List.mem_singleton_self _,fun _ => top,
    Nat.le_refl _,Nat.le_refl _⟩,rfl⟩
  · exact ordered.trans top.ge
  · exact top.le
  · intro limit held
    exact (List.mem_singleton.mp held).ge

theorem seen_moves (seen : IsLeast {limit | limit ∈ limits} l.minLimitSeen) (next : Nat) :
    IsLeast {limit | limit ∈ next :: limits} (min l.minLimitSeen next) := by
  constructor
  · rcases Nat.le_total l.minLimitSeen next with below | above
    · rw [Nat.min_eq_left below]
      exact List.mem_cons_of_mem _ seen.1
    · rw [Nat.min_eq_right above]
      exact List.mem_cons_self
  · intro limit held
    rcases List.mem_cons.mp held with rfl | earlier
    · exact Nat.min_le_right _ _
    · exact (Nat.min_le_left _ _).trans (seen.2 earlier)

theorem limits_move (sound : Limits config s.limiter s.limits s.changed s.clock) (later : s.clock ≤ now)
    (adjusts : Adjusts config event now s.limiter next) :
    Limits config (s.moves now next).limiter (s.moves now next).limits (s.moves now next).changed
      (s.moves now next).clock := by
  have least := seen_moves sound.seen next.limit
  have below : s.limiter.minLimitSeen ≤ s.limiter.limit := sound.seen.2 sound.held
  have floor := sound.floor
  have top := sound.top
  have past := sound.past
  have changed := sound.changed
  cases adjusts with
  | keeps limit last seen =>
    refine ⟨limit ▸ floor,limit ▸ top,?_,List.mem_cons_self,fun off => limit.trans (sound.pinned off),?_,?_⟩
    · rw [limit,Nat.min_eq_left below,← seen,← limit] at least
      exact least
    · simp only [moves,if_pos limit,last]
      exact changed
    · simp only [moves,last]
      omega
  | halves on congests limit last seen =>
    refine ⟨?_,?_,?_,List.mem_cons_self,fun off => absurd (on.symm.trans off) (by simp),?_,?_⟩
    · simp only [moves]
      omega
    · simp only [moves]
      omega
    · rw [← seen] at least
      exact least
    · simp only [moves,last]
      split <;> omega
    · simp only [moves,last]
      omega
  | grows on room quiet limit last seen =>
    refine ⟨?_,?_,?_,List.mem_cons_self,fun off => absurd (on.symm.trans off) (by simp),?_,?_⟩
    · simp only [moves]
      omega
    · simp only [moves]
      omega
    · rw [Nat.min_eq_left (by omega),← seen] at least
      exact least
    · simp only [moves,last]
      split <;> omega
    · simp only [moves,last]
      omega

theorem limit_moves (sound : Limits config s.limiter s.limits s.changed s.clock) (later : s.clock ≤ now)
    (adjusts : Adjusts config event now s.limiter next) : next.limit = s.limiter.limit ∨
      (Congests config event ∧ next.limit = max (s.limiter.limit / 2) config.minConcurrency) ∨
      (next.limit = s.limiter.limit + 1 ∧ s.changed + config.recoverAfter ≤ now) := by
  have past := sound.past
  have changed := sound.changed
  cases adjusts with
  | keeps limit _ _ => exact .inl limit
  | halves _ congests limit _ _ => exact .inr (.inl ⟨congests,limit⟩)
  | grows _ _ quiet limit _ _ => exact .inr (.inr ⟨limit,by omega⟩)

theorem step_sound (sound : Sound config s) (step : Step config s event now s') : Sound config s' ∧
    Moves config s event now s' := by
  obtain ⟨limits,slots⟩ := sound
  cases step with
  | acquire later acquired =>
    obtain ⟨free,rfl⟩ := acquire_claims acquired
    have adjusts : Adjusts config .acquire now s.limiter s.limiter.claim := .keeps rfl rfl rfl
    have claimed : s.limiter.claim.inFlight + s.recorded = s.granted + 1 := by
      show s.limiter.inFlight + 1 + s.recorded = s.granted + 1
      omega
    exact ⟨⟨limits_move limits later adjusts,claimed⟩,.inl rfl,.inr ⟨rfl,free⟩,.inl rfl⟩
  | waits later _ =>
    exact ⟨⟨⟨limits.floor,limits.top,limits.seen,limits.held,limits.pinned,limits.changed,
      limits.past.trans later⟩,slots⟩,
      .inl rfl,.inl rfl,.inl rfl⟩
  | @recordSuccess _ rtt _ later held =>
    have adjusts := @recordSuccess_adjusts config s.limiter now rtt
    have given := (recordSuccess_releases config rtt now s.limiter).inFlight
    have released : (s.limiter.recordSuccess config rtt now).inFlight + (s.recorded + 1) = s.granted := by omega
    exact ⟨⟨limits_move limits later adjusts,released⟩,limit_moves limits later adjusts,.inl rfl,
      .inr ⟨rfl,by simp only [moves]; omega⟩⟩
  | @recordError _ status _ later held =>
    have adjusts := @recordError_adjusts config s.limiter now status
    have given := (recordError_releases config status now s.limiter).inFlight
    have released : (s.limiter.recordError config status now).inFlight + (s.recorded + 1) =
        s.granted := by omega
    exact ⟨⟨limits_move limits later adjusts,released⟩,limit_moves limits later adjusts,.inl rfl,
      .inr ⟨rfl,by simp only [moves]; omega⟩⟩
  | notifyWaiters later =>
    have adjusts : Adjusts config .notifyWaiters now s.limiter s.limiter.notifyWaiters := .keeps rfl rfl rfl
    exact ⟨⟨limits_move limits later adjusts,slots⟩,.inl rfl,.inl rfl,.inl rfl⟩

theorem reached_sound (some_ : 1 ≤ config.minConcurrency)
    (ordered : config.minConcurrency ≤ config.maxConcurrency)
    (reached : Reached config s) : Sound config s := by
  induction reached with
  | start now => exact start_limits some_ ordered now
  | step _ step ih => exact (step_sound ih step).1

-- The governor in every state it can reach, and what every next event does to it.
theorem limiter_governs (config : AdaptiveConfig) (some_ : 1 ≤ config.minConcurrency)
    (ordered : config.minConcurrency ≤ config.maxConcurrency) (s : Governed) (reached : Reached config s) :
    Sound config s ∧ ∀ event now s', Step config s event now s' → Moves config s event now s' := by
  have sound := reached_sound some_ ordered reached
  exact ⟨sound,fun event now s' step => (step_sound sound step).2⟩

-- Two workers: a slot is taken, the server answers 503, and the limit is halved.
theorem halved_limit_governed : ∃ s : Governed, s.limiter.limit = 1 ∧
    Sound (.new true 2) s ∧ ∀ event now s', Step (.new true 2) s event now s' →
    Moves (.new true 2) s event now s' :=
  ⟨_,by rfl,limiter_governs (.new true 2) (by decide) (by decide) _
    (.step (.step (.start 0) (.acquire (Nat.zero_le 5) rfl))
      (@Step.recordError _ _ (some 503) _ (Nat.le_refl 5) Nat.zero_lt_one))⟩

end Governed
end ArangoDataTools.AdaptiveLimiter
