import Mathlib.Data.List.Induction
import Mathlib.Data.List.Infix

namespace Greedy

variable {α : Type} {reaches : List α → Prop} {piece other : List α} {pieces others : List (List α)}
  {rest more : List α}

def Early (reaches : List α → Prop) (piece : List α) : Prop :=
  ∀ before last, piece = before ++ [last] → before ≠ [] → ¬ reaches before

-- The shortest piece that reaches the mark.
structure Cut (reaches : List α → Prop) (piece : List α) : Prop where
  some_ : piece ≠ []
  reached : reaches piece
  early : Early reaches piece

def Grows (reaches : List α → Prop) : Prop := ∀ part whole, part <:+: whole → reaches part → reaches whole

theorem early_whole (grows : Grows reaches) (cut : piece ≠ [] ∧ reaches piece) {before : List α}
    (early : Early reaches (before ++ piece ++ more)) : more = [] := by
  obtain ⟨some_,reached⟩ := cut
  rcases List.eq_nil_or_concat' more with none_ | ⟨front,last,rfl⟩
  · exact none_
  · have within : piece <:+: before ++ piece ++ front := ⟨before,front,rfl⟩
    exact absurd (grows _ _ within reached) (early _ last (by simp) (by simp [some_]))

theorem cuts_same (grows : Grows reaches) (first : ∀ piece ∈ pieces, Cut reaches piece)
    (second : ∀ piece ∈ others, Cut reaches piece)
    (size : pieces.length = others.length)
      (same : pieces.flatten ++ rest = others.flatten ++ more) : pieces = others := by
  induction pieces generalizing others with
  | nil => exact (List.length_eq_zero_iff.mp size.symm).symm
  | cons piece pieces ih =>
    cases others with
    | nil => cases size
    | cons other others =>
      obtain ⟨cut,later⟩ := List.forall_mem_cons.mp first
      obtain ⟨cut',later'⟩ := List.forall_mem_cons.mp second
      rw [List.flatten_cons,List.flatten_cons,List.append_assoc,List.append_assoc] at same
      have alike : piece = other := by
        rcases List.append_eq_append_iff.mp same with ⟨tail,rfl,-⟩ | ⟨tail,rfl,-⟩
        · have none_ := @early_whole _ _ _ tail grows ⟨cut.some_,cut.reached⟩ [] cut'.early
          rw [none_,List.append_nil]
        · have none_ := @early_whole _ _ _ tail grows ⟨cut'.some_,cut'.reached⟩ [] cut.early
          rw [none_,List.append_nil]
      subst alike
      rw [ih later later' (Nat.succ_inj.mp size) (List.append_cancel_left same)]

theorem early_behind (grows : Grows reaches) (first : ∀ piece ∈ pieces, Cut reaches piece)
    (second : ∀ piece ∈ others, Early reaches piece)
    (size : pieces.length = others.length) (same : pieces.flatten ++ rest = others.flatten ++ more) :
    ∃ ahead, pieces.flatten = others.flatten ++ ahead := by
  induction pieces using List.reverseRecOn generalizing others rest more with
  | nil =>
    obtain rfl := List.length_eq_zero_iff.mp size.symm
    exact ⟨[],rfl⟩
  | append_singleton pieces piece ih =>
    rcases List.eq_nil_or_concat' others with rfl | ⟨others,other,rfl⟩
    · simp at size
    · rw [List.flatten_append,List.flatten_singleton,List.flatten_append,List.flatten_singleton] at same ⊢
      obtain ⟨ahead,behind⟩ := ih (fun piece member => first piece (List.mem_append_left _ member))
        (fun piece member => second piece (List.mem_append_left _ member)) (by simpa using size)
        (by rw [List.append_assoc,List.append_assoc] at same; exact same)
      have cut := first piece (by simp)
      have left : (ahead ++ piece) ++ rest = other ++ more := by
        rw [behind] at same
        exact List.append_cancel_left (by simpa only [List.append_assoc] using same)
      rw [behind,List.append_assoc]
      rcases List.append_eq_append_iff.mp left with ⟨tail,covered,-⟩ | ⟨tail,covered,-⟩
      · have early := second other (by simp)
        rw [covered] at early
        have none_ := early_whole grows ⟨cut.some_,cut.reached⟩ early
        exact ⟨[],by rw [covered,none_]; simp⟩
      · exact ⟨tail,by rw [covered,List.append_assoc]⟩

theorem replaced_cut (grows : Grows reaches) (first : ∀ piece ∈ pieces, Cut reaches piece)
    (cut : Cut reaches piece)
    (second : ∀ piece ∈ others, Early reaches piece) (early : Early reaches other)
      (size : pieces.length = others.length)
    (same : pieces.flatten ++ piece = others.flatten ++ other) : Cut reaches other := by
  obtain ⟨ahead,behind⟩ := early_behind grows first second size same
  rw [behind,List.append_assoc] at same
  have covered : other = ahead ++ piece := (List.append_cancel_left same).symm
  subst covered
  exact ⟨List.append_ne_nil_of_right_ne_nil _ cut.some_,grows _ _ ⟨ahead,[],by simp⟩ cut.reached,early⟩

end Greedy
