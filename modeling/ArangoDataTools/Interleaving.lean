import Mathlib.Logic.Function.Basic
import ArangoDataTools.Interaction

namespace Interaction
open Program

variable {Op : Type} {Ans : Op → Type} {ε α β W Q ι : Type}

-- A protocol says which operations a party may perform in each phase and which
-- phase its own operations and their answers lead to.
structure Protocol (Op : Type) (Ans : Op → Type) (Q : Type) where
  permits : Q → Op → Prop
  advance : Q → (op : Op) → Ans op → Q

def Follows (protocol : Protocol Op Ans Q) (post : Except ε α → Q → Prop) : Program Op Ans ε α → Q → Prop
  | done value, q => post (.ok value) q
  | fail error, q => post (.error error) q
  | call op next, q => protocol.permits q op ∧
      ∀ answer, Follows protocol post (next answer) (protocol.advance q op answer)

theorem follows_mono {protocol : Protocol Op Ans Q} {post weaker : Except ε α → Q → Prop}
    (implies : ∀ result q, post result q → weaker result q) {p : Program Op Ans ε α} {q : Q}
    (follows : Follows protocol post p q) : Follows protocol weaker p q := by
  induction p generalizing q with
  | done value => exact implies _ _ follows
  | fail error => exact implies _ _ follows
  | call op next ih => exact ⟨follows.1,fun answer => ih answer (follows.2 answer)⟩

theorem follows_bind {protocol : Protocol Op Ans Q} {post : Except ε β → Q → Prop}
    {p : Program Op Ans ε α} {f : α → Program Op Ans ε β} {q : Q}
    (follows : Follows protocol (fun result q => match result with
      | .ok value => Follows protocol post (f value) q
      | .error error => post (.error error) q) p q) : Follows protocol post (p.bind f) q := by
  induction p generalizing q with
  | done value => exact follows
  | fail error => exact follows
  | call op next ih => exact ⟨follows.1,fun answer => ih answer (follows.2 answer)⟩

theorem follows_seq {protocol : Protocol Op Ans Q} {middle : Except ε α → Q → Prop}
    {post : Except ε β → Q → Prop}
    {p : Program Op Ans ε α} {f : α → Program Op Ans ε β} {q : Q} (first : Follows protocol middle p q)
    (rest : ∀ value q, middle (.ok value) q → Follows protocol post (f value) q)
    (failed : ∀ error q, middle (.error error) q → post (.error error) q) :
    Follows protocol post (p.bind f) q := by
  apply follows_bind
  apply follows_mono _ first
  intro result q holds
  cases result with
  | ok value => exact rest value q holds
  | error error => exact failed error q holds

theorem follows_attempt {protocol : Protocol Op Ans Q} {post : Except ε (Except ε α) → Q → Prop}
    {p : Program Op Ans ε α} {q : Q}
    (follows : Follows protocol (fun result => post (.ok result)) p q) :
    Follows protocol post (attempt p) q := by
  induction p generalizing q with
  | done value => exact follows
  | fail error => exact follows
  | call op next ih => exact ⟨follows.1,fun answer => ih answer (follows.2 answer)⟩

-- Several parties over one world. The environment knows whose operation it
-- answers and may answer in more than one way, which is how failures enter.
abbrev Environment (ι Op : Type) (Ans : Op → Type) (W : Type) := ι → (op : Op) → W → Ans op → W → Prop

structure Pool (ι : Type) (Op : Type) (Ans : Op → Type) (ε α W Q : Type) where
  threads : ι → Program Op Ans ε α
  phases : ι → Q
  world : W

inductive Event (ι : Type) (Op : Type) (Ans : Op → Type) where
  | call (party : ι) (op : Op) (answer : Ans op)
  | stop (party : ι)

def Event.party : Event ι Op Ans → ι
  | call i _ _ => i
  | stop i => i

section Pool
variable [DecidableEq ι] (environment : Environment ι Op Ans W) (protocol : Protocol Op Ans Q)
  (allowed : Pool ι Op Ans ε α W Q → Event ι Op Ans → Prop)

-- One operation of one party, or the death of a party that still had
-- operations to perform. The phase is bookkeeping: no step reads it.
inductive PoolStep : Pool ι Op Ans ε α W Q → Event ι Op Ans → Pool ι Op Ans ε α W Q → Prop where
  | call {s : Pool ι Op Ans ε α W Q} {i : ι} {op : Op} {next : Ans op → Program Op Ans ε α}
      {answer : Ans op} {w : W}
      (head : s.threads i = .call op next) (answered : environment i op s.world answer w) :
      PoolStep s (.call i op answer)
        ⟨Function.update s.threads i (next answer),
          Function.update s.phases i (protocol.advance (s.phases i) op answer),w⟩
  | stop {s : Pool ι Op Ans ε α W Q} {i : ι} {op : Op} {next : Ans op → Program Op Ans ε α} {error : ε}
      (head : s.threads i = .call op next) :
      PoolStep s (.stop i) {s with threads := Function.update s.threads i (.fail error)}

-- Runs whose every step meets `allowed` in the state it starts from.
inductive PoolReached (start : Pool ι Op Ans ε α W Q) : Pool ι Op Ans ε α W Q → Prop where
  | start : PoolReached start start
  | step {s : Pool ι Op Ans ε α W Q} {event : Event ι Op Ans} (path : PoolReached start s)
      (meets : allowed s event)
      (step : PoolStep environment protocol s event next) : PoolReached start next

def Following (s : Pool ι Op Ans ε α W Q) : Prop :=
  ∀ i, Follows protocol (fun _ _ => True) (s.threads i) (s.phases i)

variable {environment protocol allowed}

theorem PoolReached.trans {start middle s : Pool ι Op Ans ε α W Q}
    (first : PoolReached environment protocol allowed start middle)
    (second : PoolReached environment protocol allowed middle s) :
    PoolReached environment protocol allowed start s := by
  induction second with
  | start => exact first
  | step _ meets step ih => exact .step ih meets step

theorem following_step {s next : Pool ι Op Ans ε α W Q} (following : Following protocol s)
    (step : PoolStep environment protocol s event next) : Following protocol next := by
  cases step with
  | @call i op rest answer w head answered =>
    intro j
    by_cases equal : j = i
    · subst j
      have own := following i
      rw [head] at own
      simpa using own.2 answer
    · simpa [equal] using following j
  | @stop i op rest error head =>
    intro j
    by_cases equal : j = i
    · subst j; simp [Follows]
    · simpa [equal] using following j

omit [DecidableEq ι] in
theorem following_permits {s : Pool ι Op Ans ε α W Q} (following : Following protocol s)
    (head : s.threads i = .call op next) : protocol.permits (s.phases i) op := by
  have own := following i
  rw [head] at own
  exact own.1

theorem following_reached {start s : Pool ι Op Ans ε α W Q} (following : Following protocol start)
    (path : PoolReached environment protocol allowed start s) : Following protocol s := by
  induction path with
  | start => exact following
  | step path _ step ih => exact following_step ih step

theorem pool_invariant {invariant : Pool ι Op Ans ε α W Q → Prop} {start s : Pool ι Op Ans ε α W Q}
    (initially : invariant start) (following : Following protocol start)
    (kept : ∀ {s event next}, Following protocol s → invariant s → allowed s event →
      PoolStep environment protocol s event next → invariant next)
    (path : PoolReached environment protocol allowed start s) : invariant s := by
  induction path with
  | start => exact initially
  | step path meets step ih => exact kept (following_reached following path) ih meets step

theorem followed_reached {posts : ι → Except ε α → Q → Prop} {start s : Pool ι Op Ans ε α W Q}
    (alive : ∀ s i, ¬allowed s (.stop i))
      (followed : ∀ i, Follows protocol (posts i) (start.threads i) (start.phases i))
    (path : PoolReached environment protocol allowed start s) :
    ∀ i, Follows protocol (posts i) (s.threads i) (s.phases i) := by
  induction path with
  | start => exact followed
  | step path meets step ih =>
    cases step with
    | @call i op rest answer w head answered =>
      intro j
      by_cases equal : j = i
      · subst j
        have own := ih i
        rw [head] at own
        simpa using own.2 answer
      · simpa [equal] using ih j
    | @stop i op rest error head => exact absurd meets (alive _ i)

-- One party alone: after `count` of its operations under a handler.
def advanceBy (protocol : Protocol Op Ans Q) (handle : Handler Op Ans W) :
    Nat → Program Op Ans ε α → Q → W → Program Op Ans ε α × Q × W
  | count+1, call op next, q, w =>
    advanceBy protocol handle count (next (handle op w).1) (protocol.advance q op (handle op w).1)
      (handle op w).2
  | _, p, q, w => (p,q,w)

def Pool.alone (protocol : Protocol Op Ans Q) (handle : Handler Op Ans W) (i : ι) (count : Nat)
    (s : Pool ι Op Ans ε α W Q) : Pool ι Op Ans ε α W Q :=
  let after := advanceBy protocol handle count (s.threads i) (s.phases i) s.world
  ⟨Function.update s.threads i after.1,Function.update s.phases i after.2.1,after.2.2⟩

theorem pool_alone {handle : Handler Op Ans W} {i : ι}
    (answers : ∀ op w, environment i op w (handle op w).1 (handle op w).2)
    (free : ∀ s op answer, allowed s (.call i op answer)) (count : Nat) (s : Pool ι Op Ans ε α W Q) :
    PoolReached environment protocol allowed s (s.alone protocol handle i count) := by
  have stays : ∀ s : Pool ι Op Ans ε α W Q,
      (⟨Function.update s.threads i (s.threads i),Function.update s.phases i (s.phases i),
      s.world⟩ : Pool ι Op Ans ε α W Q) = s := by
    intro s
    simp only [Function.update_eq_self]
  induction count generalizing s with
  | zero =>
    unfold Pool.alone advanceBy
    rw [stays]
    exact .start
  | succ count ih =>
    cases head : s.threads i with
    | done value =>
      unfold Pool.alone
      rw [head]
      unfold advanceBy
      rw [← head,stays]
      exact .start
    | fail error =>
      unfold Pool.alone
      rw [head]
      unfold advanceBy
      rw [← head,stays]
      exact .start
    | call op next =>
      have first : PoolStep environment protocol s (.call i op (handle op s.world).1) _ :=
        .call head (answers op s.world)
      have rest := ih ⟨Function.update s.threads i (next (handle op s.world).1),
        Function.update s.phases i (protocol.advance (s.phases i) op (handle op s.world).1),
        (handle op s.world).2⟩
      refine PoolReached.trans (.step .start (free _ _ _) first) ?_
      unfold Pool.alone
      rw [head]
      simpa [Pool.alone,advanceBy] using rest

-- The outcome of a program that has ended.
def Program.conclusion : Program Op Ans ε α → Option (Except ε α)
  | done value => some (.ok value)
  | fail error => some (.error error)
  | call _ _ => none

omit [DecidableEq ι] in
theorem advanceBy_ends (handle : Handler Op Ans W) (p : Program Op Ans ε α) (q : Q) (w : W) :
    ∃ count result, (advanceBy protocol handle count p q w).1.conclusion = some result := by
  induction p generalizing q w with
  | done value => exact ⟨0,.ok value,rfl⟩
  | fail error => exact ⟨0,.error error,rfl⟩
  | call op next ih =>
    obtain ⟨count,result,ended⟩ := ih (handle op w).1 (protocol.advance q op (handle op w).1) (handle op w).2
    exact ⟨count+1,result,ended⟩

theorem pool_ends {handle : ι → Handler Op Ans W} {parties : List ι} (every : ∀ i, i ∈ parties)
    (answers : ∀ i op w, environment i op w (handle i op w).1 (handle i op w).2)
    (free : ∀ s i op answer, allowed s (.call i op answer)) (s : Pool ι Op Ans ε α W Q) :
    ∃ next, PoolReached environment protocol allowed s next ∧ ∀ i, ∃ result,
    (next.threads i).conclusion = some result := by
  have some_ : ∃ next, PoolReached environment protocol allowed s next ∧
      ∀ i ∈ parties, ∃ result, (next.threads i).conclusion = some result := by
    clear every
    induction parties with
    | nil => exact ⟨s,.start,by simp⟩
    | cons i parties ih =>
      obtain ⟨middle,path,ended⟩ := ih
      obtain ⟨count,result,last⟩ : ∃ count result,
          (advanceBy protocol (handle i) count (middle.threads i)
            (middle.phases i) middle.world).1.conclusion = some result :=
        advanceBy_ends (handle i) _ _ _
      refine ⟨middle.alone protocol (handle i) i count,
        path.trans (pool_alone (answers i) (fun s => free s i) count middle),?_⟩
      intro j listed
      by_cases equal : j = i
      · subst j
        exact ⟨result,by simpa [Pool.alone] using last⟩
      · obtain ⟨result,held⟩ := ended j ((List.mem_cons.mp listed).resolve_left equal)
        exact ⟨result,by simpa [Pool.alone,equal] using held⟩
  obtain ⟨next,path,ended⟩ := some_
  exact ⟨next,path,fun i => ended i (every i)⟩

end Pool
end Interaction
