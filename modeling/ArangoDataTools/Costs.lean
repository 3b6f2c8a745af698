import ArangoDataTools.Answering
import ArangoDataTools.Interleaving

namespace Interaction
open Program

variable {Op : Type} {Ans : Op → Type} {ε α β ι W : Type} {price : Op → Nat} {n m : Nat}

-- Whatever it is answered, the operations of the program cost `n` at most.
def Costs (price : Op → Nat) : Program Op Ans ε α → Nat → Prop
  | done _, _ | fail _, _ => True
  | call op next, n => price op ≤ n ∧ ∀ answer, Costs price (next answer) (n - price op)

section Rules
variable {p : Program Op Ans ε α} {f : α → Program Op Ans ε β}

theorem costs_mono (costs : Costs price p n) (more : n ≤ m) : Costs price p m := by
  induction p generalizing n m with
  | done value => trivial
  | fail error => trivial
  | call op next ih => exact ⟨Nat.le_trans costs.1 more,fun answer =>
      ih answer (costs.2 answer) (Nat.sub_le_sub_right more _)⟩

theorem costs_bind (first : Costs price p n) (rest : ∀ value, Costs price (f value) m) :
    Costs price (p.bind f) (n + m) := by
  induction p generalizing n with
  | done value => exact costs_mono (rest value) (Nat.le_add_left m n)
  | fail error => trivial
  | call op next ih =>
    refine ⟨Nat.le_trans first.1 (Nat.le_add_right n m),fun answer => ?_⟩
    have moved : n + m - price op = n - price op + m := Nat.sub_add_comm first.1
    rw [moved]
    exact ih answer (first.2 answer)

theorem costs_attempt (costs : Costs price p n) : Costs price (attempt p) n := by
  induction p generalizing n with
  | done value => trivial
  | fail error => trivial
  | call op next ih => exact ⟨costs.1,fun answer => ih answer (costs.2 answer)⟩

theorem costs_lift (result : Except ε α) (n : Nat) : Costs price (lift result : Program Op Ans ε α) n := by
  cases result <;> trivial

theorem costs_perform (op : Op) : Costs price (perform op : Program Op Ans ε (Ans op)) (price op) :=
  ⟨Nat.le_refl _,fun _ => trivial⟩

end Rules

section Ledger

def spent (price : Op → Nat) : List Op → Nat
  | [] => 0
  | op :: rest => price op + spent price rest

theorem spent_append (performed : List Op) (op : Op) : spent price (performed ++ [op]) =
    spent price performed + price op := by
  induction performed with
  | nil => exact Nat.add_comm _ _
  | cons first rest ih =>
    rw [List.cons_append,spent,ih,spent]
    exact (Nat.add_assoc _ _ _).symm

-- Each party's operations in the order it performed them.
def logging : Protocol Op Ans (List Op) where
  permits _ _ := True
  advance performed op _ := performed ++ [op]

variable [DecidableEq ι] {environment : Environment ι Op Ans W}
  {allowed : Pool ι Op Ans ε α W (List Op) → Event ι Op Ans → Prop}
  {start s : Pool ι Op Ans ε α W (List Op)} {i : ι}

theorem recorded_reached {keeps : List Op → Program Op Ans ε α → Prop}
    (initially : keeps (start.phases i) (start.threads i))
    (kept : ∀ performed op next answer, keeps performed (.call op next) →
    keeps (performed ++ [op]) (next answer))
    (stopped : ∀ performed p error, keeps performed p → keeps performed (.fail error))
    (path : PoolReached environment logging allowed start s) : keeps (s.phases i) (s.threads i) := by
  induction path with
  | start => exact initially
  | step path _ step ih =>
    cases step with
    | @call j op rest answer w head answered =>
      by_cases equal : i = j
      · subst equal
        rw [head] at ih
        simpa [logging] using kept _ op rest answer ih
      · simpa [equal] using ih
    | @stop j op rest error head =>
      by_cases equal : i = j
      · subst equal
        simpa using stopped _ _ error ih
      · simpa [equal] using ih

theorem costs_reached (costs : Costs price (start.threads i) n) (empty : start.phases i = [])
    (path : PoolReached environment logging allowed start s) : spent price (s.phases i) ≤ n := by
  have within := @recorded_reached _ _ _ _ _ _ _ environment allowed start s i
    (fun performed p => spent price performed ≤ n ∧ Costs price p (n - spent price performed)) ?_ ?_ ?_ path
  · exact within.1
  · rw [empty]
    exact ⟨Nat.zero_le n,costs⟩
  · rintro performed op next answer ⟨under,rest⟩
    rw [spent_append]
    have affordable := rest.1
    refine ⟨by omega,?_⟩
    rw [← Nat.sub_sub]
    exact rest.2 answer
  · exact fun performed p error within => ⟨within.1,trivial⟩

theorem only_reached {kind : Op → Prop} (only : Only kind (start.threads i)) (empty : start.phases i = [])
    (path : PoolReached environment logging allowed start s) : ∀ op ∈ s.phases i, kind op := by
  have within := @recorded_reached _ _ _ _ _ _ _ environment allowed start s i
    (fun performed p => (∀ op ∈ performed, kind op) ∧ Only kind p) ?_ ?_ ?_ path
  · exact within.1
  · rw [empty]
    exact ⟨by simp,only⟩
  · rintro performed op next answer ⟨listed,rest⟩
    refine ⟨fun other member => ?_,rest.2 answer⟩
    rcases List.mem_append.mp member with earlier | last
    · exact listed other earlier
    · rw [List.mem_singleton.mp last]
      exact rest.1
  · exact fun performed p error within => ⟨within.1,trivial⟩

end Ledger
end Interaction
