import Mathlib.Data.List.Sort

namespace StableOrder

variable {α κ : Type}

section Firsts
variable [BEq α] [LawfulBEq α]

def appendNew (seen : List α) (item : α) : List α := if item ∈ seen then seen else seen ++ [item]

theorem appendNew_firsts (items seen : List α) :
    items.foldl appendNew seen = seen ++ (items.filter fun item => item ∉ seen).eraseDups := by
  induction items generalizing seen with
  | nil => simp
  | cons item rest ih =>
    rw [List.foldl_cons,ih,appendNew]
    by_cases known : item ∈ seen
    · simp [known]
    · have later : (rest.filter fun other => other ∉ seen ++ [item]) =
          (rest.filter fun other => other ∉ seen).filter fun other => !other == item := by
        rw [List.filter_filter]
        apply List.filter_congr
        intro other _
        by_cases same : other = item <;> simp [same,known]
      rw [if_neg known,later,List.filter_cons_of_pos (by simpa using known),List.eraseDups_cons]
      simp

theorem firsts_eq (items : List α) : items.foldl appendNew [] = items.eraseDups := by
  simp [appendNew_firsts]

theorem appendNew_nodup (items : List α) {seen : List α} (distinct : seen.Nodup) :
    (items.foldl appendNew seen).Nodup := by
  induction items generalizing seen with
  | nil => exact distinct
  | cons item rest ih =>
    apply ih
    unfold appendNew
    split
    · exact distinct
    · exact List.Nodup.append distinct (List.nodup_singleton _) (List.disjoint_singleton.mpr ‹_›)

theorem firsts_nodup (items : List α) : items.eraseDups.Nodup := by
  rw [← firsts_eq]
  exact appendNew_nodup items List.nodup_nil

theorem firsts_map {β : Type} [BEq β] [LawfulBEq β] (f : α → β) (items : List α) :
    (items.eraseDups.map f).eraseDups = (items.map f).eraseDups := by
  have steps : ∀ seen : List α, ((items.foldl appendNew seen).map f).foldl appendNew [] =
      (items.map f).foldl appendNew ((seen.map f).foldl appendNew []) := by
    induction items with
    | nil => exact fun _ => rfl
    | cons item rest ih =>
      intro seen
      rw [List.foldl_cons,ih,List.map_cons,List.foldl_cons]
      congr 1
      by_cases known : item ∈ seen
      · have listed : f item ∈ (seen.map f).foldl appendNew [] := by
          rw [firsts_eq,List.mem_eraseDups]
          exact List.mem_map_of_mem known
        rw [appendNew,if_pos known,appendNew,if_pos listed]
      · rw [appendNew,if_neg known]
        simp
  rw [← firsts_eq items,← firsts_eq,← firsts_eq]
  exact steps []

end Firsts

section Ranks
variable [BEq κ] [LawfulBEq κ]

theorem orderedInsert_class (rank : α → Nat) (item : α) (items : List α) (n : Nat) :
    (items.orderedInsert (fun one two => rank one ≤ rank two) item).filter (fun one => rank one = n) =
      (item :: items).filter fun one => rank one = n := by
  induction items with
  | nil => rfl
  | cons one rest ih =>
    by_cases before : rank item ≤ rank one
    · rw [List.orderedInsert_cons_of_le (fun one two => rank one ≤ rank two) _ before]
    · rw [List.orderedInsert_of_not_le (fun one two => rank one ≤ rank two) _ before,List.filter_cons,ih]
      by_cases here : rank one = n
      · have apart : rank item ≠ n := by omega
        simp [here,apart]
      · simp [here,List.filter_cons]

theorem insertionSort_class (rank : α → Nat) (items : List α) (n : Nat) :
    (items.insertionSort fun one two => rank one ≤ rank two).filter (fun one => rank one = n) =
      items.filter fun one => rank one = n := by
  induction items with
  | nil => rfl
  | cons item rest ih => rw [List.insertionSort_cons,orderedInsert_class,List.filter_cons,List.filter_cons,ih]

theorem ordered_split (p : α → Bool) {items : List α}
    (ordered : items.Pairwise fun one two => p two = true → p one = true) :
    items = items.filter p ++ items.filter fun item => !p item := by
  induction items with
  | nil => rfl
  | cons item rest ih =>
    obtain ⟨first,ordered⟩ := List.pairwise_cons.mp ordered
    cases held : p item with
    | true =>
      rw [List.filter_cons_of_pos held,List.filter_cons_of_neg (by simp [held]),List.cons_append,← ih ordered]
    | false =>
      have none_ : ∀ one ∈ item :: rest, p one = false := by
        intro one member
        rcases List.mem_cons.mp member with rfl | later
        · exact held
        · cases high : p one with
          | true => rw [first one later high] at held; cases held
          | false => rfl
      rw [List.filter_eq_nil_iff.mpr fun one member => by simp [none_ one member],
        List.filter_eq_self.mpr fun one member => by simp [none_ one member]]
      rfl

theorem ordered_classes (key : α → κ) {classes : List κ} {items : List α} (distinct : classes.Nodup)
    (known : ∀ item ∈ items, key item ∈ classes)
    (ordered : items.Pairwise fun one two => classes.idxOf (key one) ≤ classes.idxOf (key two)) :
    items = classes.flatMap fun c => items.filter fun item => key item == c := by
  induction classes generalizing items with
  | nil =>
    cases items with
    | nil => rfl
    | cons item rest => cases known item List.mem_cons_self
  | cons c rest ih =>
    obtain ⟨fresh,distinct⟩ := List.nodup_cons.mp distinct
    have split := ordered_split (fun item => key item == c) (ordered.imp fun {one two} le => by
      intro first
      have second : key two = c := eq_of_beq first
      rw [second,List.idxOf_cons_self,Nat.le_zero] at le
      by_contra other
      rw [List.idxOf_cons_ne _ fun same => other (by simp [same])] at le
      cases le)
    have others : ∀ item ∈ items.filter (fun item => !(key item == c)), key item ≠ c := by
      intro item member
      simpa using (List.mem_filter.mp member).2
    have later := @ih (items.filter fun item => !(key item == c)) distinct (by
      intro item member
      rcases List.mem_cons.mp (known item (List.mem_of_mem_filter member)) with same | listed
      · exact absurd same (others item member)
      · exact listed) (by
      apply List.Pairwise.imp_of_mem _ (ordered.filter _)
      intro one two first second le
      rwa [List.idxOf_cons_ne _ (others one first).symm,
        List.idxOf_cons_ne _ (others two second).symm,Nat.succ_le_succ_iff] at le)
    rw [List.flatMap_cons]
    conv_lhs => rw [split,later]
    congr 1
    apply List.flatMap_congr
    intro d member
    rw [List.filter_filter]
    apply List.filter_congr
    intro item _
    by_cases here : key item = d
    · have apart : d ≠ c := fun same => fresh (same ▸ member)
      simp [here,apart]
    · simp [here]

theorem insertionSort_classes (rank : α → Nat) (key : α → κ) {classes : List κ} {items : List α}
    (distinct : classes.Nodup)
    (known : ∀ item ∈ items, key item ∈ classes)
      (ranked : ∀ item ∈ items, rank item = classes.idxOf (key item)) :
    items.insertionSort (fun one two => rank one ≤ rank two) = classes.flatMap fun c =>
      items.filter fun item => key item == c := by
  let sorted := items.insertionSort fun one two => rank one ≤ rank two
  have same : ∀ item, item ∈ sorted ↔ item ∈ items := fun item => (List.perm_insertionSort _ items).mem_iff
  have rising : sorted.Pairwise fun one two => rank one ≤ rank two := by
    have total : Std.Total fun one two : α => rank one ≤ rank two := ⟨fun one two => Nat.le_total _ _⟩
    have transitive : IsTrans α fun one two => rank one ≤ rank two := ⟨fun _ _ _ => Nat.le_trans⟩
    exact List.pairwise_insertionSort _ items
  have parts := @ordered_classes α κ _ _ key classes sorted distinct
      (fun item member => known item ((same item).mp member))
    (rising.imp_of_mem fun {one two} first second le => by
      rwa [ranked one ((same one).mp first),ranked two ((same two).mp second)] at le)
  have class_ : ∀ c ∈ classes, ∀ items' : List α, (∀ item ∈ items', item ∈ items) →
      (items'.filter fun item => key item == c) = items'.filter fun item => rank item = classes.idxOf c := by
    intro c listed items' inside
    apply List.filter_congr
    intro item member
    rw [ranked item (inside item member),Bool.eq_iff_iff,beq_iff_eq,decide_eq_true_iff]
    exact (List.idxOf_inj (known item (inside item member))).symm
  change sorted = _
  rw [parts]
  apply List.flatMap_congr
  intro c listed
  rw [class_ c listed sorted fun item member => (same item).mp member,
    class_ c listed items fun _ member => member]
  exact insertionSort_class rank items _

end Ranks
end StableOrder
