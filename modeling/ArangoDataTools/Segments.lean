import Mathlib.Data.List.Basic

namespace Segments

variable {α : Type} {d : α}

def join (d : α) (segments : List (List α)) : List α := [d].intercalate segments

section Join

theorem join_cons (segment : List α) {segments : List (List α)} (some_ : segments ≠ []) :
    join d (segment :: segments) = segment ++ d :: join d segments := by
  obtain ⟨head,tail,rfl⟩ := List.exists_cons_of_ne_nil some_
  simp [join,List.intercalate_cons_cons]

theorem join_append {one two : List (List α)} (some_ : one ≠ []) (more : two ≠ []) :
    join d (one ++ two) = join d one ++ d :: join d two := by
  induction one with
  | nil => exact absurd rfl some_
  | cons segment rest ih =>
    cases rest with
    | nil =>
      rw [List.cons_append,List.nil_append,join_cons segment more]
      simp [join]
    | cons next rest =>
      have later := ih (List.cons_ne_nil next rest)
      rw [List.cons_append,join_cons segment (by simp),later,
        join_cons segment (List.cons_ne_nil next rest),List.append_assoc]
      rfl

theorem map_join {β : Type} {f : α → β} {segments : List (List α)} (some_ : segments ≠ []) :
    (join d segments).map f = join (f d) (segments.map (List.map f)) := by
  induction segments with
  | nil => exact absurd rfl some_
  | cons segment rest ih =>
    cases rest with
    | nil => simp [join]
    | cons next rest =>
      rw [join_cons segment (List.cons_ne_nil next rest),List.map_append,List.map_cons,
        ih (List.cons_ne_nil next rest)]
      exact (join_cons _ (by simp)).symm

theorem mem_join {segments : List (List α)} {c : α} (member : c ∈ join d segments) : c = d ∨
    ∃ segment ∈ segments, c ∈ segment := by
  induction segments with
  | nil => cases member
  | cons segment rest ih =>
    cases rest with
    | nil => exact .inr ⟨segment,List.mem_cons_self,by simpa [join] using member⟩
    | cons next rest =>
      rw [join_cons segment (List.cons_ne_nil next rest)] at member
      rcases List.mem_append.mp member with first | later
      · exact .inr ⟨segment,List.mem_cons_self,first⟩
      · rcases List.mem_cons.mp later with same | last
        · exact .inl same
        · refine (ih last).imp_right ?_
          intro ⟨s,inside,here⟩
          exact ⟨s,List.mem_cons_of_mem segment inside,here⟩

theorem join_within {segments : List (List α)} {segment : List α} (member : segment ∈ segments) :
    segment <:+: join d segments := by
  induction segments with
  | nil => cases member
  | cons first rest ih =>
    cases rest with
    | nil => simp_all [join]
    | cons next rest =>
      rw [join_cons first (List.cons_ne_nil next rest)]
      rcases List.mem_cons.mp member with rfl | later
      · exact (List.prefix_append _ _).isInfix
      · exact (ih later).trans ⟨first ++ [d],[],by simp⟩

end Join

variable [BEq α] [LawfulBEq α]

theorem join_split (text : List α) : join d (text.splitOn d) = text := List.intercalate_splitOn d

theorem split_join {segments : List (List α)} (whole : ∀ segment ∈ segments, d ∉ segment)
    (some_ : segments ≠ []) :
    (join d segments).splitOn d = segments := List.splitOn_intercalate d whole some_

theorem split_within {text segment : List α} (member : segment ∈ text.splitOn d) : segment <:+: text := by
  have within := @join_within α d _ _ member
  rwa [join_split] at within

theorem split_append (one two : List α) : (one ++ d :: two).splitOn d = one.splitOn d ++ two.splitOn d :=
  List.splitOn_append_cons_self one two

theorem split_joined {texts : List (List α)} (some_ : texts ≠ []) : (join d texts).splitOn d =
    texts.flatMap (·.splitOn d) := by
  induction texts with
  | nil => exact absurd rfl some_
  | cons text rest ih =>
    cases rest with
    | nil => simp [join]
    | cons next rest =>
      rw [join_cons text (List.cons_ne_nil next rest),split_append,ih (List.cons_ne_nil next rest)]
      rfl

theorem split_whole (text : List α) : ∀ segment ∈ text.splitOn d, d ∉ segment := by
  induction text with
  | nil => simp
  | cons c rest ih =>
    obtain ⟨head,tail,parts⟩ := List.exists_cons_of_ne_nil (List.splitOn_ne_nil d rest)
    intro segment member
    rw [List.splitOn_cons_eq_if_modifyHead,parts] at member
    rw [parts] at ih
    by_cases cut : (c == d) = true
    · rw [if_pos cut] at member
      rcases List.mem_cons.mp member with rfl | later
      · exact List.not_mem_nil
      · exact ih segment later
    · rw [if_neg cut,List.modifyHead_cons] at member
      rcases List.mem_cons.mp member with rfl | later
      · rw [List.mem_cons]
        rintro (same | inside)
        · exact cut (by simp [same])
        · exact ih head List.mem_cons_self inside
      · exact ih segment (List.mem_cons_of_mem _ later)

theorem split_flatten (text : List α) : (text.splitOn d).flatten = text.filter fun c => c != d := by
  induction text with
  | nil => simp
  | cons c rest ih =>
    obtain ⟨head,tail,parts⟩ := List.exists_cons_of_ne_nil (List.splitOn_ne_nil d rest)
    rw [List.splitOn_cons_eq_if_modifyHead]
    rw [parts] at ih ⊢
    by_cases cut : (c == d) = true
    · rw [if_pos cut,List.filter_cons_of_neg (by simpa using cut),← ih]
      rfl
    · rw [if_neg cut,List.filter_cons_of_pos (by simpa using cut),← ih]
      rfl

theorem split_first {text : List α} (starts : ∀ c, text.head? = some c → c ≠ d) (some_ : text ≠ []) :
    ∃ head tail, text.splitOn d = head :: tail ∧ head ≠ [] := by
  cases text with
  | nil => exact absurd rfl some_
  | cons c rest =>
    obtain ⟨head,tail,parts⟩ := List.exists_cons_of_ne_nil (List.splitOn_ne_nil d rest)
    refine ⟨c :: head,tail,?_,by simp⟩
    rw [List.splitOn_cons_eq_if_modifyHead,parts,if_neg (by simpa using starts c rfl)]
    rfl

theorem empty_inside {text : List α} (starts : ∀ c, text.head? = some c → c ≠ d)
    (ends : ∀ c, text.getLast? = some c → c ≠ d)
    (some_ : text ≠ []) (empty : [] ∈ text.splitOn d) (rest : List α) : [] ∈ (text ++ rest).splitOn d := by
  obtain ⟨before,after,parts⟩ := List.append_of_mem empty
  have left : before ≠ [] := by
    rintro rfl
    obtain ⟨head,tail,split,first⟩ := split_first starts some_
    rw [parts] at split
    exact first (List.cons.inj split).1.symm
  have right : after ≠ [] := by
    rintro rfl
    have whole := @join_split α d _ _ text
    rw [parts,join_append left (by simp)] at whole
    apply ends d _ rfl
    rw [← whole]
    simp [join]
  have cut : text = join d before ++ d :: ([] ++ d :: join d after) := by
    rw [← @join_split α d _ _ text,parts,join_append left (by simp),join_cons [] right]
  rw [cut,List.append_assoc,List.cons_append,split_append,List.append_assoc,List.cons_append,split_append]
  simp

section Cut

def cut (d : α) : List α → List α × Option (List α)
  | [] => ([],none)
  | c :: rest => if c == d then ([],some rest) else (c :: (cut d rest).1,(cut d rest).2)

def tail (d : α) : Option (List α) → List α
  | none => []
  | some rest => d :: rest

theorem cut_tail {before : List α} (none_ : d ∉ before) (after : Option (List α)) :
    cut d (before ++ tail d after) = (before,after) := by
  induction before with
  | nil =>
    cases after with
    | none => rfl
    | some rest => simp [tail,cut]
  | cons c rest ih =>
    have ⟨other,later⟩ := not_or.mp fun here => none_ (List.mem_cons.mpr here)
    rw [List.cons_append,cut,if_neg (by simpa using Ne.symm other),ih later]

theorem cut_before (text : List α) : d ∉ (cut d text).1 := by
  fun_induction cut d text with
  | case1 => exact List.not_mem_nil
  | case2 c rest same => exact List.not_mem_nil
  | case3 c rest other ih =>
    rw [List.mem_cons]
    rintro (same | later)
    · exact other (by simp [same])
    · exact ih later

theorem cut_joined (text : List α) : (cut d text).1 ++ tail d (cut d text).2 = text := by
  fun_induction cut d text with
  | case1 => rfl
  | case2 c rest same => rw [eq_of_beq same]; rfl
  | case3 c rest other ih => rw [List.cons_append,ih]

theorem cut_inside {before : List α} (some_ : d ∈ before) (after : List α) :
    ∃ first later, cut d (before ++ after) = (first,some (later ++ after)) := by
  obtain ⟨first,later,rfl,none_⟩ := List.eq_append_cons_of_mem some_
  refine ⟨first,later,?_⟩
  rw [List.append_assoc,List.cons_append]
  exact cut_tail none_ (some (later ++ after))

end Cut

end Segments
