import Std.Data.ExtTreeMap
import Mathlib.Data.List.Dedup
import Mathlib.Data.List.Nodup
import Mathlib.Data.List.Perm.Subperm

abbrev FirstWrite (α β V : Type) [Ord α] [Ord β] : Type := Std.ExtTreeMap α (Std.ExtTreeMap β V)

namespace FirstWrite
variable {α β V : Type} [Ord α] [Std.TransOrd α] [Ord β] [Std.TransOrd β]

def find (store : FirstWrite α β V) (group : α) (key : β) : Option V :=
  store[group]?.bind fun entries => entries[key]?

def put (store : FirstWrite α β V) (group : α) (key : β) (value : V) : FirstWrite α β V :=
  store.insert group ((store[group]?.getD ∅).insertIfNew key value)

def modify (store : FirstWrite α β V) (group : α) (key : β) (change : V → V) : FirstWrite α β V :=
  Std.ExtTreeMap.modify store group fun entries => entries.modify key change

abbrev Write (α β V : Type) : Type := (α × β) × V

def puts (store : FirstWrite α β V) (writes : List (Write α β V)) : FirstWrite α β V :=
  writes.foldl (fun store write => store.put write.1.1 write.1.2 write.2) store

variable {store : FirstWrite α β V} {group other : α} {key name : β} {value first : V}
  {writes more : List (Write α β V)}

theorem find_empty : find (∅ : FirstWrite α β V) group key = none := by simp [find]

theorem find_group (store : FirstWrite α β V) (group : α) (key : β) : (store[group]?.getD ∅)[key]? =
    store.find group key := by
  unfold find
  cases store[group]? <;> simp

theorem find_modify_self {change : V → V} : (store.modify group key change).find group key =
    (store.find group key).map change := by
  unfold find modify
  rw [Std.ExtTreeMap.getElem?_modify_self]
  cases store[group]? with
  | none => rfl
  | some entries => exact Std.ExtTreeMap.getElem?_modify_self

theorem puts_append : store.puts (writes ++ more) = (store.puts writes).puts more := List.foldl_append

section Lookup
variable [Std.LawfulEqOrd α] [Std.LawfulEqOrd β]

theorem find_put_self : (store.put group key value).find group key =
    some ((store.find group key).getD value) := by
  have own : (store.put group key value).find group key =
      ((store[group]?.getD ∅).insertIfNew key value)[key]? := by
    simp [put,find]
  rw [own,Std.ExtTreeMap.getElem?_insertIfNew,← find_group]
  by_cases present : key ∈ store[group]?.getD ∅
  · simp [present]
  · simp [present]

theorem find_put_other (apart : ¬(group = other ∧ key = name)) :
    (store.put group key value).find other name = store.find other name := by
  by_cases groups : group = other
  · subst groups
    have keys : key ≠ name := fun same => apart ⟨rfl,same⟩
    have own : (store.put group key value).find group name =
        ((store[group]?.getD ∅).insertIfNew key value)[name]? := by
      simp [put,find]
    rw [own,Std.ExtTreeMap.getElem?_insertIfNew,← find_group]
    simp [keys]
  · simp [put,find,Std.ExtTreeMap.getElem?_insert,groups]

theorem find_put_kept (present : store.find group key = some first) (other : α) (name : β) (value : V) :
    (store.put other name value).find group key = some first := by
  by_cases same : other = group ∧ name = key
  · obtain ⟨rfl,rfl⟩ := same
    rw [find_put_self,present]
    rfl
  · rw [find_put_other same,present]

theorem put_present (present : store.find group key = some first) : store.put group key value = store := by
  unfold find at present
  cases entries : store[group]? with
  | none => simp [entries] at present
  | some docs =>
    rw [entries,Option.bind_some] at present
    have held : key ∈ docs := by
      rw [Std.ExtTreeMap.mem_iff_isSome_getElem?,present]
      rfl
    have same : docs.insertIfNew key value = docs := by
      refine Std.ExtTreeMap.ext_getElem? fun name => ?_
      rw [Std.ExtTreeMap.getElem?_insertIfNew]
      simp [held]
    refine Std.ExtTreeMap.ext_getElem? fun other => ?_
    rw [put,Std.ExtTreeMap.getElem?_insert,entries]
    by_cases groups : group = other
    · subst groups
      simp [same,entries]
    · simp [groups]

theorem find_modify_other {change : V → V} (apart : ¬(group = other ∧ key = name)) :
    (store.modify group key change).find other name = store.find other name := by
  unfold find modify
  rw [Std.ExtTreeMap.getElem?_modify]
  by_cases groups : group = other
  · subst groups
    have keys : key ≠ name := fun same => apart ⟨rfl,same⟩
    cases store[group]? with
    | none => simp
    | some entries => simp [Std.ExtTreeMap.getElem?_modify,keys]
  · simp [groups]

end Lookup

section Writes
variable [Std.LawfulEqOrd α] [Std.LawfulEqOrd β]

def Written (store : FirstWrite α β V) (write : Write α β V) : Prop :=
  ∃ first, store.find write.1.1 write.1.2 = some first

theorem find_puts_kept (present : store.find group key = some first) (writes : List (Write α β V)) :
    (store.puts writes).find group key = some first := by
  induction writes generalizing store with
  | nil => exact present
  | cons write rest ih => exact ih (find_put_kept present _ _ _)

theorem written_puts {write : Write α β V} (held : write ∈ writes) : Written (store.puts writes) write := by
  induction writes generalizing store with
  | nil => simp at held
  | cons next rest ih =>
    rcases List.mem_cons.mp held with rfl | held
    · exact ⟨_,find_puts_kept find_put_self _⟩
    · exact ih held

theorem puts_written (written : ∀ write ∈ writes, Written store write) : store.puts writes = store := by
  induction writes with
  | nil => rfl
  | cons write rest ih =>
    obtain ⟨first,present⟩ := written write List.mem_cons_self
    have same : store.puts (write :: rest) = (store.put write.1.1 write.1.2 write.2).puts rest := rfl
    rw [same,put_present present]
    exact ih fun write held => written write (List.mem_cons_of_mem _ held)

theorem find_puts_from (found : (store.puts writes).find group key = some value) :
    store.find group key = some value ∨ ((group,key),value) ∈ writes := by
  induction writes generalizing store with
  | nil => exact .inl found
  | cons write rest ih =>
    rcases ih found with before | after
    · by_cases same : write.1.1 = group ∧ write.1.2 = key
      · obtain ⟨⟨other,name⟩,made⟩ := write
        obtain ⟨rfl,rfl⟩ := same
        have self : (store.put other name made).find other name = some value := before
        rw [find_put_self] at self
        cases present : store.find other name with
        | none =>
          rw [present] at self
          obtain rfl := Option.some.inj self
          exact .inr List.mem_cons_self
        | some first =>
          rw [present] at self
          exact .inl self
      · exact .inl (by rwa [find_put_other same] at before)
    · exact .inr (List.mem_cons_of_mem _ after)

def Consistent (writes : List (Write α β V)) : Prop := ∀ one ∈ writes, ∀ two ∈ writes,
    one.1 = two.1 → one.2 = two.2

theorem find_puts_iff (consistent : Consistent writes) :
    (puts ∅ writes).find group key = some value ↔ ((group,key),value) ∈ writes := by
  constructor
  · intro found
    exact (find_puts_from found).resolve_left (by simp [find_empty])
  · intro held
    obtain ⟨first,found⟩ := @written_puts _ _ _ _ _ _ _ ∅ _ _ _ _ held
    have made := (find_puts_from found).resolve_left (by simp [find_empty])
    have same : first = value := consistent _ made _ held rfl
    rw [← same]
    exact found

end Writes

section Extensionality

def Tidy (store : FirstWrite α β V) : Prop :=
  ∀ (group : α) (entries : Std.ExtTreeMap β V), store[group]? = some entries → entries ≠ ∅

omit [Std.TransOrd β] in
theorem tidy_empty : Tidy (∅ : FirstWrite α β V) := by simp [Tidy]

theorem tidy_put (tidy : Tidy store) (group : α) (key : β) (value : V) : Tidy (store.put group key value) := by
  intro other entries found
  rw [put,Std.ExtTreeMap.getElem?_insert] at found
  split at found
  · obtain rfl := Option.some.inj found
    intro empty
    have held : key ∈ (store[group]?.getD ∅).insertIfNew key value := by simp
    rw [empty] at held
    exact Std.ExtTreeMap.not_mem_empty held
  · exact tidy other entries found

theorem tidy_puts (tidy : Tidy store) (writes : List (Write α β V)) : Tidy (store.puts writes) := by
  induction writes generalizing store with
  | nil => exact tidy
  | cons write rest ih => exact ih (tidy_put tidy _ _ _)

theorem exists_entry {entries : Std.ExtTreeMap β V} (filled : entries ≠ ∅) :
    ∃ (key : β) (value : V), entries[key]? = some value := by
  obtain ⟨key,held⟩ := Classical.not_forall.mp fun absent =>
      filled (Std.ExtTreeMap.eq_empty_iff_forall_not_mem.mpr absent)
  have some := Std.ExtTreeMap.mem_iff_isSome_getElem?.mp (Classical.not_not.mp held)
  exact ⟨key,Option.isSome_iff_exists.mp some⟩

variable [Std.LawfulEqOrd α] [Std.LawfulEqOrd β]

omit [Std.LawfulEqOrd α] in
theorem group_same {one two : FirstWrite α β V} {entries : Std.ExtTreeMap β V} (tidy : Tidy one)
    (same : ∀ group key, one.find group key = two.find group key)
      (found : one[group]? = some entries) : two[group]? = some entries := by
  have keys : ∀ key, entries[key]? = two.find group key := by
    intro key
    rw [← same]
    simp [find,found]
  obtain ⟨key,value,entry⟩ := exists_entry (tidy group entries found)
  rw [keys] at entry
  cases other : two[group]? with
  | none => simp [find,other] at entry
  | some entries' =>
    congr 1
    refine Std.ExtTreeMap.ext_getElem? fun key => ?_
    rw [keys]
    simp [find,other]

theorem tidy_ext {one two : FirstWrite α β V} (tidy : Tidy one) (tidy' : Tidy two)
    (same : ∀ group key, one.find group key = two.find group key) : one = two := by
  refine Std.ExtTreeMap.ext_getElem? fun group => Option.ext fun entries => ?_
  exact ⟨group_same tidy same,group_same tidy' fun group key => (same group key).symm⟩

theorem puts_same (consistent : Consistent writes) (same : ∀ write, write ∈ writes ↔ write ∈ more) :
    puts ∅ writes = puts ∅ more := by
  have consistent' : Consistent more :=
    fun one held two held' => consistent one ((same one).mpr held) two ((same two).mpr held')
  refine tidy_ext (tidy_puts tidy_empty _) (tidy_puts tidy_empty _) fun group key => Option.ext fun value => ?_
  rw [find_puts_iff consistent,find_puts_iff consistent',same]

end Extensionality
section Places
variable [Std.LawfulEqOrd α] [Std.LawfulEqOrd β] {place : α × β}

def places (store : FirstWrite α β V) : List (α × β) :=
  store.toList.flatMap fun group => group.2.toList.map fun entry => (group.1,entry.1)

theorem mem_places : place ∈ store.places ↔ ∃ value, store.find place.1 place.2 = some value := by
  constructor
  · intro held
    obtain ⟨group,inside,held⟩ := List.mem_flatMap.mp held
    obtain ⟨entry,inside',rfl⟩ := List.mem_map.mp held
    have found := Std.ExtTreeMap.mem_toList_iff_getElem?_eq_some.mp inside
    have found' := Std.ExtTreeMap.mem_toList_iff_getElem?_eq_some.mp inside'
    exact ⟨entry.2,by simp [find,found,found']⟩
  · intro ⟨value,found⟩
    obtain ⟨entries,group,entry⟩ := Option.bind_eq_some_iff.mp found
    refine List.mem_flatMap.mpr ⟨(place.1,entries),Std.ExtTreeMap.mem_toList_iff_getElem?_eq_some.mpr group,?_⟩
    exact List.mem_map.mpr ⟨(place.2,value),Std.ExtTreeMap.mem_toList_iff_getElem?_eq_some.mpr entry,rfl⟩

theorem places_nodup : store.places.Nodup := by
  refine List.nodup_flatMap.mpr ⟨fun group _ => ?_,?_⟩
  · refine List.pairwise_map.mpr (Std.ExtTreeMap.distinct_keys_toList.imp fun apart same => apart ?_)
    rw [Prod.mk.injEq] at same
    rw [same.2]
    exact Std.ReflCmp.compare_self
  · refine Std.ExtTreeMap.distinct_keys_toList.imp fun apart => ?_
    intro place held held'
    obtain ⟨_,_,rfl⟩ := List.mem_map.mp held
    obtain ⟨_,_,same⟩ := List.mem_map.mp held'
    rw [Prod.mk.injEq] at same
    rw [same.1] at apart
    exact apart Std.ReflCmp.compare_self

theorem mem_places_puts : place ∈ (puts ∅ writes).places ↔ place ∈ writes.map Prod.fst := by
  rw [mem_places,List.mem_map]
  constructor
  · intro ⟨value,found⟩
    exact ⟨_,(find_puts_from found).resolve_left (by simp [find_empty]),rfl⟩
  · intro ⟨write,held,same⟩
    subst same
    exact written_puts held

theorem places_puts_length [DecidableEq (α × β)] : (puts ∅ writes).places.length =
    (writes.map Prod.fst).dedup.length := by
  refine List.Perm.length_eq
    ((List.perm_ext_iff_of_nodup places_nodup (List.nodup_dedup _)).mpr fun place => ?_)
  rw [mem_places_puts,List.mem_dedup]

end Places
end FirstWrite
