import Mathlib.Data.List.DropRight
import Mathlib.Data.List.Infix
import Mathlib.Data.List.TakeWhile
import ArangoDataTools.Segments

namespace Segments

section FirstCut
variable {α : Type} [DecidableEq α] {d before after text : List α}

def splitOnce (d : List α) : List α → Option (List α × List α)
  | [] => none
  | c :: rest =>
    if d <+: c :: rest then some ([],(c :: rest).drop d.length)
    else (splitOnce d rest).map fun parts => (c :: parts.1,parts.2)

def First (d : List α) : List α → Prop
  | [] => True
  | c :: rest => ¬ d <+: c :: rest ++ d ∧ First d rest

omit [DecidableEq α] in
theorem prefix_before {tail : List α} : d <+: before ++ d ++ tail ↔ d <+: before ++ d := by
  have bound : d.length ≤ (before ++ d).length := by
    rw [List.length_append]
    exact Nat.le_add_left _ _
  exact ⟨fun starts => List.prefix_of_prefix_length_le starts (List.prefix_append _ _) bound,
    fun starts => starts.trans (List.prefix_append _ _)⟩

theorem splitOnce_iff (some_ : d ≠ []) : splitOnce d text = some (before,after) ↔
    text = before ++ d ++ after ∧ First d before := by
  induction text generalizing before with
  | nil =>
    refine ⟨fun cut => (by cases cut),fun ⟨whole,_⟩ => ?_⟩
    have empty := congrArg List.length whole
    simp only [List.length_nil,List.length_append] at empty
    exact absurd (List.length_eq_zero_iff.mp (by omega)) some_
  | cons c rest ih =>
    rw [splitOnce]
    split
    · rename_i starts
      obtain ⟨tail,whole⟩ := starts
      rw [← whole,List.drop_left]
      constructor
      · intro cut
        cases cut
        exact ⟨rfl,trivial⟩
      · rintro ⟨parts,first⟩
        cases before with
        | nil => exact congrArg (fun tail => some ([],tail)) (List.append_cancel_left parts)
        | cons b before =>
          have starts : d <+: b :: before ++ d ++ after := parts ▸ List.prefix_append d tail
          exact absurd (prefix_before.mp starts) first.1
    · rename_i different
      constructor
      · intro cut
        obtain ⟨parts,split,same⟩ := Option.map_eq_some_iff.mp cut
        cases same
        obtain ⟨rfl,first⟩ := ih.mp split
        exact ⟨rfl,fun starts => different (prefix_before.mpr starts),first⟩
      · rintro ⟨whole,first⟩
        cases before with
        | nil => exact absurd ⟨after,whole.symm⟩ different
        | cons b before =>
          obtain ⟨rfl,later⟩ := List.cons.inj whole
          rw [ih.mpr ⟨later,first.2⟩]
          rfl

omit [DecidableEq α] in
theorem first_single {d : α} : First [d] before ↔ d ∉ before := by
  induction before with
  | nil => exact ⟨fun _ => List.not_mem_nil,fun _ => trivial⟩
  | cons c rest ih =>
    rw [First,ih,List.mem_cons,not_or,List.cons_append,List.cons_prefix_cons]
    exact and_congr_left fun _ => not_congr (and_iff_left List.nil_prefix)

omit [DecidableEq α] in
theorem first_pair {c d : α} (apart : d ≠ c) : First [c,d] before ↔ ¬ [c,d] <:+: before := by
  induction before with
  | nil => exact ⟨fun _ within => by simpa using List.IsInfix.length_le within,fun _ => trivial⟩
  | cons b rest ih =>
    rw [First,ih,List.infix_cons_iff,not_or]
    refine and_congr_left fun _ => not_congr ⟨fun starts => ?_,fun starts => ?_⟩
    · rw [List.cons_append,List.cons_prefix_cons] at starts
      cases rest with
      | nil => exact absurd (List.cons_prefix_cons.mp starts.2).1 apart
      | cons x rest => exact List.cons_prefix_cons.mpr ⟨starts.1,List.cons_prefix_cons.mpr
          ⟨(List.cons_prefix_cons.mp starts.2).1,List.nil_prefix⟩⟩
    · exact starts.trans (List.prefix_append _ _)

end FirstCut

section Within
variable {α : Type} {d : α} {word : List α}

theorem infix_apart {one two : List α} (avoids : d ∉ word) (within : word <:+: one ++ d :: two) :
    word <:+: one ∨ word <:+: two := by
  obtain ⟨before,after,whole⟩ := within
  rcases List.append_eq_append_iff.mp whole with ⟨gap,rfl,-⟩ | ⟨gap,left,right⟩
  · exact .inl ⟨before,gap,rfl⟩
  · cases gap with
    | nil =>
      rw [List.append_nil] at left
      exact .inl ⟨before,[],by rw [List.append_nil,left]⟩
    | cons c gap =>
      obtain ⟨rfl,rfl⟩ := List.cons.inj right
      rcases List.append_eq_append_iff.mp left with ⟨part,-,rfl⟩ | ⟨part,-,split⟩
      · exact absurd (List.mem_append_right _ List.mem_cons_self) avoids
      · cases part with
        | nil =>
          obtain rfl : d :: gap = word := split
          exact absurd List.mem_cons_self avoids
        | cons c part =>
          obtain ⟨-,rfl⟩ := List.cons.inj split
          exact .inr ⟨part,after,rfl⟩

theorem infix_join {segments : List (List α)} (avoids : d ∉ word) (some_ : word ≠ [])
    (within : word <:+: join d segments) :
    ∃ segment ∈ segments, word <:+: segment := by
  induction segments with
  | nil => exact absurd (List.infix_nil.mp within) some_
  | cons segment rest ih =>
    cases rest with
    | nil => exact ⟨segment,List.mem_cons_self,by simpa [join] using within⟩
    | cons next rest =>
      rw [join_cons segment (List.cons_ne_nil next rest)] at within
      rcases infix_apart avoids within with first | later
      · exact ⟨segment,List.mem_cons_self,first⟩
      · obtain ⟨found,member,inside⟩ := ih later
        exact ⟨found,List.mem_cons_of_mem _ member,inside⟩

end Within

section Trimmed
variable {α : Type} {p : α → Bool} {text : List α}

theorem strip_idempotent (p : α → Bool) (text : List α) :
    (((text.dropWhile p).rdropWhile p).dropWhile p).rdropWhile p = (text.dropWhile p).rdropWhile p := by
  have begun : ((text.dropWhile p).rdropWhile p).dropWhile p = (text.dropWhile p).rdropWhile p := by
    obtain ⟨tail,whole⟩ := List.rdropWhile_prefix p (l := text.dropWhile p)
    cases stripped : (text.dropWhile p).rdropWhile p with
    | nil => rfl
    | cons c rest =>
      rw [stripped] at whole
      have visible := List.head?_dropWhile_not p text
      rw [← whole] at visible
      change p c = false at visible
      exact List.dropWhile_cons_of_neg (by rw [visible]; exact Bool.false_ne_true)
  rw [begun]
  exact List.rdropWhile_idempotent p _

end Trimmed
end Segments
