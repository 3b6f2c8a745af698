import Mathlib.Algebra.BigOperators.Fin
import Mathlib.Algebra.Order.BigOperators.Group.Finset

namespace Tally

variable {ι α M : Type} [Fintype ι] [AddCommMonoid M]

def tally (weight : α → M) (pool : ι → α) : M := ∑ i, weight (pool i)

theorem tally_zero {weight : α → M} {pool : ι → α} (empty : ∀ i, weight (pool i) = 0) : tally weight pool = 0 :=
  Finset.sum_eq_zero fun i _ => empty i

theorem tally_pos_iff {weight : α → Nat} {pool : ι → α} : 0 < tally weight pool ↔ ∃ i, 0 < weight (pool i) := by
  unfold tally
  constructor
  · intro some_
    by_contra none_
    push Not at none_
    exact some_.ne' (tally_zero fun i => Nat.le_zero.mp (none_ i))
  · rintro ⟨i,some_⟩
    exact lt_of_lt_of_le some_
      (Finset.single_le_sum (fun j _ => Nat.zero_le (weight (pool j))) (Finset.mem_univ i))

theorem indicator_sum [DecidableEq α] (a : α) (items : List α) :
    (items.map fun item => if item = a then 1 else 0).sum = items.count a := by
  induction items with
  | nil => rfl
  | cons first rest ih =>
    rw [List.map_cons,List.sum_cons,ih,List.count_cons]
    by_cases equal : first = a <;> simp [equal,Nat.add_comm]

section Update
variable [DecidableEq ι] {weight : α → M} {pool : ι → α} {i : ι} {old : α}

def others (weight : α → M) (pool : ι → α) (i : ι) : M := ∑ j ∈ Finset.univ.erase i, weight (pool j)

theorem tally_split (held : pool i = old) : tally weight pool = weight old + others weight pool i := by
  rw [← held]
  exact (Finset.add_sum_erase _ (fun j => weight (pool j)) (Finset.mem_univ i)).symm

theorem others_update (new : α) : others weight (Function.update pool i new) i = others weight pool i := by
  refine Finset.sum_congr rfl fun j apart => ?_
  rw [Function.update_of_ne (Finset.ne_of_mem_erase apart)]

theorem tally_update (held : pool i = old) (new : α) :
    tally weight (Function.update pool i new) + weight old = tally weight pool + weight new := by
  rw [tally_split (Function.update_self i new pool),others_update,tally_split held]
  ac_rfl

theorem tally_gain {new : α} {share : M} (held : pool i = old) (gain : weight new = weight old + share) :
    tally weight (Function.update pool i new) = tally weight pool + share := by
  rw [tally_split (Function.update_self i new pool),others_update,tally_split held,gain]
  ac_rfl

theorem tally_same {new : α} (held : pool i = old) (same : weight new = weight old) :
    tally weight (Function.update pool i new) = tally weight pool := by
  rw [tally_gain held (same.trans (add_zero _).symm),add_zero]

omit [Fintype ι] in
theorem forall_update (P : α → Prop) {pool : ι → α} {new : α} (held : pool i = old) (keeps : P old → P new)
    (all : ∀ j, P (pool j)) (j : ι) : P (Function.update pool i new j) := by
  by_cases equal : j = i
  · subst equal
    rw [Function.update_self]
    exact keeps (held ▸ all j)
  · rw [Function.update_of_ne equal]
    exact all j

omit [Fintype ι] in
theorem exists_update (P : α → Prop) {pool : ι → α} {new : α} (held : pool i = old) (keeps : P old → P new)
    (some_ : ∃ j, P (pool j)) : ∃ j, P (Function.update pool i new j) := by
  obtain ⟨j,holds⟩ := some_
  by_cases equal : j = i
  · subst equal
    exact ⟨j,by rw [Function.update_self]; exact keeps (held ▸ holds)⟩
  · exact ⟨j,by rw [Function.update_of_ne equal]; exact holds⟩

end Update
end Tally
