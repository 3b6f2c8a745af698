import ArangoDataTools.StableOrder
import ArangoDataTools.RestoreAttempt

namespace ArangoDataTools.RestoreOrder
open Restore StableOrder
open RestoreAttempt (groupKey add_key addToGroup_keys)
open RestoreRefusal (mem_databaseOrder mem_sortUnits)

def mentions (artifacts : List Artifact) : List (Option String × String) :=
  artifacts.filterMap fun artifact => artifact.collection.map fun name => (artifact.database,name)

def partsOf (artifacts : List Artifact) (key : Option String × String) : List String :=
  (artifacts.filter fun artifact => artifact.kind = .data ∧ artifact.collection = some key.2 ∧
    artifact.database = key.1).map Artifact.path

def documentsFirst (units : List RestoreUnit) : List RestoreUnit :=
  (units.filter fun unit => !unit.2.isEdge) ++ units.filter fun unit => unit.2.isEdge

-- What the order of a restore is to be: one unit for each collection, the
-- databases and then the collections of a kind by first appearance.
structure Ordered (manifest : Manifest) (units sorted : List RestoreUnit) : Prop where
  appearing : units.map (fun unit => groupKey unit.1) = (mentions manifest.artifacts).eraseDups
  once : (sorted.map fun unit => groupKey unit.1).Nodup
  named : ∀ key, key ∈ sorted.map (fun unit => groupKey unit.1) ↔ key ∈ mentions manifest.artifacts
  nested : sorted = ((mentions manifest.artifacts).map Prod.fst).eraseDups.flatMap fun database =>
    documentsFirst (units.filter fun unit => unit.1.database = database)
  parts : ∀ unit ∈ sorted, unit.1.dataPaths = partsOf manifest.artifacts (groupKey unit.1)

section Groups

theorem mentions_append (one two : List Artifact) : mentions (one ++ two) = mentions one ++
    mentions two := List.filterMap_append

theorem partsOf_append (one two : List Artifact) (key : Option String × String) :
    partsOf (one ++ two) key = partsOf one key ++ partsOf two key := by
  simp [partsOf]

theorem partsOf_unnamed {artifacts : List Artifact} {key : Option String × String}
    (absent : key ∉ mentions artifacts) :
    partsOf artifacts key = [] := by
  unfold partsOf
  rw [List.map_eq_nil_iff,List.filter_eq_nil_iff]
  intro artifact member held
  have named := (of_decide_eq_true held).2
  apply absent
  apply List.mem_filterMap.mpr
  refine ⟨artifact,member,?_⟩
  rw [named.1,named.2]
  rfl

theorem addToGroup_appends (artifact : Artifact) (name : String) (groups : List CollectionGroup) :
    (addToGroup artifact name groups).map groupKey = appendNew (groups.map groupKey) (artifact.database,name) :=
  addToGroup_keys artifact name groups

theorem groupArtifacts_appends (artifacts : List Artifact) (groups : List CollectionGroup) :
    (groupArtifacts artifacts groups).map groupKey = (mentions artifacts).foldl appendNew
      (groups.map groupKey) := by
  induction artifacts generalizing groups with
  | nil => rfl
  | cons artifact rest ih =>
    unfold groupArtifacts mentions
    cases named : artifact.collection with
    | none =>
      rw [List.filterMap_cons_none (by rw [named]; rfl)]
      exact ih groups
    | some name =>
      rw [List.filterMap_cons_some (b:=(artifact.database,name)) (by rw [named]; rfl),
        List.foldl_cons,← addToGroup_appends]
      exact ih (addToGroup artifact name groups)

theorem grouped_firsts (manifest : Manifest) :
    (groupByCollection manifest).map groupKey = (mentions manifest.artifacts).eraseDups := by
  rw [← firsts_eq]
  exact groupArtifacts_appends manifest.artifacts []

theorem addToGroup_members (artifact : Artifact) (name : String) {groups : List CollectionGroup}
    (distinct : (groups.map groupKey).Nodup)
    {group : CollectionGroup} (member : group ∈ addToGroup artifact name groups) :
    (group ∈ groups ∧ groupKey group ≠ (artifact.database,name)) ∨
    ∃ base, (base ∈ groups ∨ base = ⟨name,artifact.database,"",[]⟩ ∧
    (artifact.database,name) ∉ groups.map groupKey) ∧
      groupKey base = (artifact.database,name) ∧ group = base.add artifact := by
  induction groups with
  | nil => exact .inr ⟨_,.inr ⟨rfl,by simp⟩,rfl,List.mem_singleton.mp member⟩
  | cons head rest ih =>
    obtain ⟨fresh,distinct⟩ := List.nodup_cons.mp distinct
    unfold addToGroup at member
    by_cases same : head.name = name ∧ head.database = artifact.database
    · have key : groupKey head = (artifact.database,name) := by rw [groupKey,same.1,same.2]
      rw [if_pos same] at member
      rcases List.mem_cons.mp member with here | later
      · exact .inr ⟨head,.inl List.mem_cons_self,key,here⟩
      · refine .inl ⟨List.mem_cons_of_mem _ later,?_⟩
        intro equal
        exact fresh (List.mem_map.mpr ⟨group,later,equal.trans key.symm⟩)
    · have key : groupKey head ≠ (artifact.database,name) := by
        intro equal
        exact same ⟨congrArg Prod.snd equal,congrArg Prod.fst equal⟩
      rw [if_neg same] at member
      rcases List.mem_cons.mp member with here | later
      · exact .inl ⟨here ▸ List.mem_cons_self,here ▸ key⟩
      · rcases ih distinct later with ⟨listed,apart⟩ | ⟨base,origin,own,added⟩
        · exact .inl ⟨List.mem_cons_of_mem _ listed,apart⟩
        · refine .inr ⟨base,?_,own,added⟩
          rcases origin with listed | ⟨new,absent⟩
          · exact .inl (List.mem_cons_of_mem _ listed)
          · refine .inr ⟨new,?_⟩
            rw [List.map_cons,List.mem_cons]
            rintro (equal | found)
            · exact key equal.symm
            · exact absent found

theorem add_parts (artifact : Artifact) (name : String) (named : artifact.collection = some name)
    {group : CollectionGroup}
    (key : groupKey group = (artifact.database,name)) :
    (group.add artifact).dataPaths = group.dataPaths ++ partsOf [artifact] (groupKey group) := by
  unfold CollectionGroup.add partsOf
  cases kind : artifact.kind <;> simp [kind,named,key]

theorem partsOf_other {artifact : Artifact} {name : String}
    (named : artifact.collection = some name) {key : Option String × String}
    (apart : key ≠ (artifact.database,name)) : partsOf [artifact] key = [] := by
  apply partsOf_unnamed
  simpa [mentions,named] using apart

theorem grouped_parts (rest : List Artifact) {seen : List Artifact} {groups : List CollectionGroup}
    (distinct : (groups.map groupKey).Nodup) (known : ∀ key ∈ mentions seen, key ∈ groups.map groupKey)
    (parts : ∀ group ∈ groups, group.dataPaths = partsOf seen (groupKey group)) :
    ∀ group ∈ groupArtifacts rest groups, group.dataPaths = partsOf (seen ++ rest) (groupKey group) := by
  induction rest generalizing seen groups with
  | nil => simpa [groupArtifacts] using parts
  | cons artifact rest ih =>
    rw [show seen ++ artifact :: rest = (seen ++ [artifact]) ++ rest by simp]
    unfold groupArtifacts
    cases named : artifact.collection with
    | none =>
      have unnamed : ∀ key, key ∉ mentions [artifact] := by simp [mentions,named]
      apply ih distinct
      · intro key member
        rw [mentions_append] at member
        exact (List.mem_append.mp member).elim (known key) fun own => absurd own (unnamed key)
      · intro group member
        rw [partsOf_append,partsOf_unnamed (unnamed _),List.append_nil]
        exact parts group member
    | some name =>
      have keys := addToGroup_appends artifact name groups
      apply ih
      · rw [keys]
        exact appendNew_nodup [_] distinct
      · intro key member
        rw [keys,appendNew]
        rw [mentions_append] at member
        rcases List.mem_append.mp member with earlier | own
        · split
          · exact known key earlier
          · exact List.mem_append_left _ (known key earlier)
        · have same : key = (artifact.database,name) := by simpa [mentions,named] using own
          rw [same]
          split
          · assumption
          · exact List.mem_append_right _ List.mem_cons_self
      · intro group member
        rw [partsOf_append]
        rcases addToGroup_members artifact name distinct member with ⟨listed,apart⟩ | ⟨base,origin,key,rfl⟩
        · rw [partsOf_other named apart,List.append_nil]
          exact parts group listed
        · rw [add_key,add_parts artifact name named key]
          congr 1
          rcases origin with listed | ⟨rfl,absent⟩
          · exact parts base listed
          · rw [partsOf_unnamed fun mentioned => absent (key ▸ known _ mentioned)]

end Groups

section Sorting

theorem databaseOrder_firsts (units : List RestoreUnit) (order : List (Option String)) :
    databaseOrder units order = (units.map fun unit => unit.1.database).foldl appendNew order := by
  induction units generalizing order with
  | nil => rfl
  | cons unit rest ih => exact ih _


def kinds (order : List (Option String)) : List (Option String × Bool) :=
  order.flatMap fun database => [(database,false),(database,true)]

theorem kinds_nodup {order : List (Option String)} (distinct : order.Nodup) : (kinds order).Nodup := by
  apply List.nodup_flatMap.mpr
  refine ⟨fun _ _ => by simp,?_⟩
  apply distinct.imp
  intro one two apart kind first second
  simp only [List.mem_cons,List.not_mem_nil,or_false] at first second
  rcases first with rfl | rfl <;> rcases second with same | same <;> exact apart (congrArg Prod.fst same)

theorem mem_kinds {order : List (Option String)} {database : Option String} {edge : Bool} :
    (database,edge) ∈ kinds order ↔ database ∈ order := by
  cases edge <;> simp [kinds]

theorem kinds_idxOf {order : List (Option String)} {database : Option String}
    (listed : database ∈ order) (edge : Bool) :
    (kinds order).idxOf (database,edge) = 2 * order.idxOf database + if edge then 1 else 0 := by
  induction order with
  | nil => cases listed
  | cons head rest ih =>
    change ((head,false) :: (head,true) :: kinds rest).idxOf (database,edge) = _
    by_cases here : database = head
    · cases edge <;> simp [here]
    · have later := ih ((List.mem_cons.mp listed).resolve_left here)
      have apart : ∀ edge' : Bool, (head,edge') ≠ (database,edge) :=
        fun _ same => here (congrArg Prod.fst same).symm
      rw [List.idxOf_cons_ne _ (apart false),List.idxOf_cons_ne _ (apart true),
        List.idxOf_cons_ne _ (Ne.symm here),later]
      omega

theorem sortUnits_nested (units : List RestoreUnit) :
    sortUnits units = (units.map fun unit => unit.1.database).eraseDups.flatMap fun database =>
      documentsFirst (units.filter fun unit => unit.1.database = database) := by
  let order := databaseOrder units []
  have firsts : order = (units.map fun unit => unit.1.database).eraseDups :=
    (databaseOrder_firsts units []).trans (firsts_eq _)
  have listed : ∀ unit ∈ units, unit.1.database ∈ order :=
    fun unit member => (mem_databaseOrder units [] _).mpr (.inr ⟨unit,member,rfl⟩)
  have distinct : order.Nodup := by
    rw [firsts]
    exact firsts_nodup _
  have classes := insertionSort_classes (unitRank order)
      (fun unit : RestoreUnit => (unit.1.database,unit.2.isEdge))
    (kinds_nodup distinct) (fun unit member => mem_kinds.mpr (listed unit member))
    fun unit member => (kinds_idxOf (listed unit member) unit.2.isEdge).symm
  change units.insertionSort _ = _
  rw [classes,kinds,List.flatMap_assoc,← firsts]
  apply List.flatMap_congr
  intro database _
  rw [List.flatMap_cons,List.flatMap_cons,List.flatMap_nil,List.append_nil,documentsFirst,
    List.filter_filter,List.filter_filter]
  congr 1 <;>
  · apply List.filter_congr
    intro unit _
    rw [Bool.eq_iff_iff]
    cases unit.2.isEdge <;> simp

theorem sorted_ordered {manifest : Manifest} {units : List RestoreUnit}
    (grouped : units.map Prod.fst = groupByCollection manifest) :
    Ordered manifest units (sortUnits units) := by
  have appearing : units.map (fun unit => groupKey unit.1) = (mentions manifest.artifacts).eraseDups := by
    rw [← grouped_firsts,← grouped,List.map_map]
    rfl
  have same :=
    (List.perm_insertionSort (fun one two => unitRank (databaseOrder units []) one ≤ unitRank
      (databaseOrder units []) two)
    units).map fun unit => groupKey unit.1
  refine ⟨appearing,?_,?_,?_,?_⟩
  · apply same.nodup_iff.mpr
    rw [appearing]
    exact firsts_nodup (mentions manifest.artifacts)
  · intro key
    rw [sortUnits,same.mem_iff,appearing,List.mem_eraseDups]
  · have databases : (units.map fun unit => unit.1.database) =
        (mentions manifest.artifacts).eraseDups.map Prod.fst := by
      rw [← appearing,List.map_map]
      rfl
    rw [sortUnits_nested,databases,firsts_map]
  · intro unit member
    have group : unit.1 ∈ groupByCollection manifest := by
      rw [← grouped]
      exact List.mem_map_of_mem ((mem_sortUnits units unit).mp member)
    exact @grouped_parts manifest.artifacts [] [] List.nodup_nil (by simp [mentions]) (by simp) unit.1 group

end Sorting
end ArangoDataTools.RestoreOrder
