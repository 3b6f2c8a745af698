import ArangoDataTools.RestoreServer

namespace ArangoDataTools.RestorePlan
open Interaction Interaction.Program Restore RestoreServer

-- One resumable restore: what it was started with, what it reads from the
-- dump and the decoded contents of the data objects.
structure Restoration where
  codec : Codec
  client : Client
  store : Nat
  options : RestoreOptions
  checkpoint : ObjectRef
  plan : Plan
  bodies : String → Bytes

namespace Restoration
variable (r : Restoration)

def program (reporting : Bool) : Tool RestoreSummary :=
  runRestoreWithProgress r.codec r.client r.store r.options reporting

def unitKey (unit : RestoreUnit) : Key :=
  ((targetClient r.client r.options unit.1.database).database,unit.1.name)
def viewKey (view : ViewArtifact) : Key := ((targetClient r.client r.options view.database).database,view.name)

def linkedViews : List ViewArtifact := r.plan.views.filter fun view => !view.isSearchAlias
def aliasViews : List ViewArtifact := r.plan.views.filter ViewArtifact.isSearchAlias

def ids : List String :=
  r.linkedViews.map viewUnitId ++ r.plan.units.map (fun unit => unitId unit.1) ++ r.aliasViews.map viewUnitId

def checkpointOf (completed : List String) : RestoreCheckpoint := ⟨r.plan.manifest.fingerprint,completed⟩

def loaded (unit : RestoreUnit) : CollectionState :=
  ⟨unit.2.parameters,unit.1.dataPaths.map r.bodies,unit.2.indexes.filter fun index => !isImplicit index⟩

-- The collections of `units` a run that starts with `recorded` drops.
def droppedAmong (recorded : List String) (units : List RestoreUnit) (key : Key) : Bool :=
  r.options.overwrite && units.any fun unit => decide (r.unitKey unit = key) &&
    !decide (unitId unit.1 ∈ recorded)

end Restoration

def freshState (unit : RestoreUnit) : CollectionState := ⟨unit.2.parameters,[],[]⟩
def viewBody (view : ViewArtifact) : Value := (view.definition.remove "id").remove "globallyUniqueId"
def viewState (view : ViewArtifact) : ViewState := ⟨viewBody view,viewLinks (viewBody view)⟩

def dumpPaths (manifest : Manifest) : List String :=
  Restore.manifestName :: manifest.artifacts.map Artifact.path

def Plain (name : String) : Prop := ':' ∉ name.toList
def PlainDatabase (database : Option String) : Prop := ∀ name, database = some name → name ≠ "" ∧ Plain name

-- A dump that reads back whole, over names a server accepts, and a checkpoint
-- object of its own.
structure Valid (r : Restoration) (w : World) : Prop where
  configured : r.options.checkpoint = some r.checkpoint
  reads : run handle (readPlan r.codec r.store) w = (.ok r.plan,w)
  data : ∀ unit ∈ r.plan.units, ∀ path ∈ unit.1.dataPaths,
    run handle (readData r.codec r.store r.plan.manifest path) w = (.ok (r.bodies path),w)
  apart : ∀ path ∈ dumpPaths r.plan.manifest, r.checkpoint ≠ ⟨r.store,path⟩
  unitNames : ∀ unit ∈ r.plan.units, nameOf unit.2.parameters = some unit.1.name
  viewNames : ∀ view ∈ r.plan.views, nameOf view.definition = some view.name
  unitKeys : (r.plan.units.map r.unitKey).Nodup
  viewKeys : (r.plan.views.map r.viewKey).Nodup
  plainUnits : ∀ unit ∈ r.plan.units, Plain unit.1.name ∧ PlainDatabase unit.1.database
  plainViews : ∀ view ∈ r.plan.views, PlainDatabase view.database

-- What is read back from a checkpoint this restore writes.
def SavesCheckpoints (r : Restoration) : Prop :=
  ∀ completed, completed <+: r.ids →
    r.codec.checkpointFromJson (r.codec.checkpointToJson (r.checkpointOf completed)) =
    .ok (r.checkpointOf completed)

section Names

theorem append_split {α : Type} {mark : α} {one two three four : List α} (plain : mark ∉ one)
    (other : mark ∉ two)
    (equal : one ++ mark :: three = two ++ mark :: four) : one = two ∧ three = four := by
  induction one generalizing two with
  | nil =>
    cases two with
    | nil => simpa using equal
    | cons head tail =>
      simp only [List.nil_append,List.cons_append,List.cons.injEq] at equal
      exact absurd (by simp [equal.1]) other
  | cons head tail ih =>
    cases two with
    | nil =>
      simp only [List.nil_append,List.cons_append,List.cons.injEq] at equal
      exact absurd (by simp [equal.1]) plain
    | cons head' tail' =>
      simp only [List.cons_append,List.cons.injEq] at equal
      obtain ⟨rfl,rest⟩ := equal
      obtain ⟨rfl,same⟩ := ih (fun member => plain (List.mem_cons_of_mem _ member))
        (fun member => other (List.mem_cons_of_mem _ member)) rest
      exact ⟨rfl,same⟩

theorem split_plain {one two three four : String} (plain : Plain one) (other : Plain two)
    (equal : one ++ "::" ++ three = two ++ "::" ++ four) : one = two ∧ three = four := by
  have chars : one.toList ++ ':' :: ':' :: three.toList = two.toList ++ ':' :: ':' :: four.toList := by
    have same := congrArg String.toList equal
    simpa [String.toList_append] using same
  have parts := append_split plain other chars
  refine ⟨String.toList_inj.mp parts.1,String.toList_inj.mp ?_⟩
  simpa using parts.2

theorem database_plain {database : Option String} (plain : PlainDatabase database) :
    Plain (database.getD "") := by
  cases database with
  | none => simp [Plain]
  | some name => exact (plain name rfl).2

theorem database_same {one two : Option String} (plain : PlainDatabase one) (other : PlainDatabase two)
    (equal : one.getD "" = two.getD "") : one = two := by
  cases one with
  | none =>
    cases two with
    | none => rfl
    | some name => exact absurd equal.symm (other name rfl).1
  | some name =>
    cases two with
    | none => exact absurd equal (plain name rfl).1
    | some name' => rw [show name = name' from equal]

variable {r : Restoration} {w : World}

theorem unitKey_inj (valid : Valid r w) {one two : RestoreUnit} (member : one ∈ r.plan.units)
    (other : two ∈ r.plan.units)
    (equal : r.unitKey one = r.unitKey two) : one = two :=
  List.inj_on_of_nodup_map valid.unitKeys member other equal

theorem viewKey_inj (valid : Valid r w) {one two : ViewArtifact} (member : one ∈ r.plan.views)
    (other : two ∈ r.plan.views)
    (equal : r.viewKey one = r.viewKey two) : one = two :=
  List.inj_on_of_nodup_map valid.viewKeys member other equal

theorem unitId_inj (valid : Valid r w) {one two : RestoreUnit} (member : one ∈ r.plan.units)
    (other : two ∈ r.plan.units)
    (equal : unitId one.1 = unitId two.1) : one = two := by
  have plain := (valid.plainUnits one member).2
  have plain' := (valid.plainUnits two other).2
  obtain ⟨databases,names⟩ := split_plain (database_plain plain) (database_plain plain') equal
  apply unitKey_inj valid member other
  unfold Restoration.unitKey
  rw [database_same plain plain' databases,names]

theorem viewUnitId_inj (valid : Valid r w) {one two : ViewArtifact} (member : one ∈ r.plan.views)
    (other : two ∈ r.plan.views) (equal : viewUnitId one = viewUnitId two) : one = two := by
  have plain := valid.plainViews one member
  have plain' := valid.plainViews two other
  have spread : ∀ view : ViewArtifact, viewUnitId view = view.database.getD "" ++ "::" ++
      ("view::" ++ view.name) := by
    intro view
    apply String.toList_inj.mp
    simp [viewUnitId,String.toList_append]
  rw [spread,spread] at equal
  obtain ⟨databases,names⟩ := split_plain (database_plain plain) (database_plain plain') equal
  have names : one.name = two.name := by
    apply String.toList_inj.mp
    have same := congrArg String.toList names
    simpa [String.toList_append] using same
  apply viewKey_inj valid member other
  unfold Restoration.viewKey
  rw [database_same plain plain' databases,names]

theorem viewUnitId_ne (valid : Valid r w) {view : ViewArtifact} {unit : RestoreUnit}
    (member : view ∈ r.plan.views)
    (other : unit ∈ r.plan.units) : viewUnitId view ≠ unitId unit.1 := by
  intro equal
  have spread : viewUnitId view = view.database.getD "" ++ "::" ++ ("view::" ++ view.name) := by
    apply String.toList_inj.mp
    simp [viewUnitId,String.toList_append]
  rw [spread] at equal
  obtain ⟨plain,database⟩ := valid.plainUnits unit other
  obtain ⟨_,names⟩ := split_plain (database_plain (valid.plainViews view member))
      (database_plain database) equal
  apply plain
  rw [← names]
  simp [String.toList_append]

theorem ids_nodup (valid : Valid r w) : r.ids.Nodup := by
  have views : (r.plan.views.map viewUnitId).Nodup := by
    apply List.Nodup.map_on _ (List.Nodup.of_map _ valid.viewKeys)
    intro one member two other equal
    exact viewUnitId_inj valid member other equal
  have units : (r.plan.units.map fun unit => unitId unit.1).Nodup := by
    apply List.Nodup.map_on _ (List.Nodup.of_map _ valid.unitKeys)
    intro one member two other equal
    exact unitId_inj valid member other equal
  have linked : (r.linkedViews.map viewUnitId).Nodup := views.sublist (List.filter_sublist.map _)
  have aliases : (r.aliasViews.map viewUnitId).Nodup := views.sublist (List.filter_sublist.map _)
  unfold Restoration.ids
  rw [List.nodup_append,List.nodup_append]
  refine ⟨⟨linked,units,?_⟩,aliases,?_⟩
  · intro id first other second equal
    subst equal
    obtain ⟨view,member,rfl⟩ := List.mem_map.mp first
    obtain ⟨unit,present,same⟩ := List.mem_map.mp second
    exact viewUnitId_ne valid (List.mem_of_mem_filter member) present same.symm
  · intro id first other second equal
    subst equal
    obtain ⟨view,member,rfl⟩ := List.mem_map.mp second
    obtain ⟨member,kind⟩ := List.mem_filter.mp member
    rcases List.mem_append.mp first with linked | unit
    · obtain ⟨view',member',same⟩ := List.mem_map.mp linked
      obtain ⟨member',kind'⟩ := List.mem_filter.mp member'
      rw [viewUnitId_inj valid member' member same] at kind'
      simp [kind] at kind'
    · obtain ⟨unit,present,same⟩ := List.mem_map.mp unit
      exact viewUnitId_ne valid member present same.symm

end Names
section Reading
variable {store : Nat} {paths : List String}

structure ReadsOnly (store : Nat) (paths : List String) (p : Tool α) : Prop where
  stays : ∀ w w', Cut handle p w w' → w' = w
  agrees : ∀ w w', (∀ path ∈ paths, w.objects ⟨store,path⟩ = w'.objects ⟨store,path⟩) →
    (run handle p w).1 = (run handle p w').1

theorem ReadsOnly.still {p : Tool α} (reads : ReadsOnly store paths p) (w : World) : (run handle p w).2 = w :=
  reads.stays w _ (cut_run handle p w)

theorem readsOnly_lift (result : Except Error α) : ReadsOnly store paths (lift result) := by
  cases result with
  | ok value => exact ⟨fun _ _ cut => cut_done handle cut,fun _ _ _ => rfl⟩
  | error err => exact ⟨fun _ _ cut => cut_fail handle cut,fun _ _ _ => rfl⟩

theorem readsOnly_bind {p : Tool α} {f : α → Tool β} (first : ReadsOnly store paths p)
    (rest : ∀ value, ReadsOnly store paths (f value)) : ReadsOnly store paths (p.bind f) := by
  have returned : ∀ w value, (run handle p w).1 = .ok value →
      run handle (p.bind f) w = run handle (f value) w := by
    intro w value ended
    have ran : run handle p w = (.ok value,w) := Prod.ext ended (first.still w)
    rw [run_bind,ran]
  have failed : ∀ w err, (run handle p w).1 = .error err → run handle (p.bind f) w = (.error err,w) := by
    intro w err ended
    have ran : run handle p w = (.error err,w) := Prod.ext ended (first.still w)
    rw [run_bind,ran]
  constructor
  · intro w w' cut
    rcases (cut_bind handle).mp cut with inside | ⟨value,middle,ran,later⟩
    · exact first.stays w w' inside
    · have still := first.still w
      rw [ran] at still
      rw [(rest value).stays middle w' later]
      exact still
  · intro w w' same
    have alike := first.agrees w w' same
    cases ended : (run handle p w').1 with
    | ok value =>
      rw [returned w value (alike.trans ended),returned w' value ended]
      exact (rest value).agrees w w' same
    | error err => rw [failed w err (alike.trans ended),failed w' err ended]

theorem readsOnly_get {path : String} (listed : path ∈ paths) :
    ReadsOnly store paths (⟨store,path⟩ : ObjectRef).get := by
  have answer : ∀ w : World, run handle (⟨store,path⟩ : ObjectRef).get w =
      run handle (lift (handle (.get ⟨store,path⟩) w).1) (handle (.get ⟨store,path⟩) w).2 := by
    intro w
    unfold ObjectRef.get ask
    rw [run_bind_ok handle (run_perform handle _ w)]
  constructor
  · intro w w' cut
    unfold ObjectRef.get ask at cut
    have asked : (handle (.get ⟨store,path⟩) w).2 = w := by
      simp only [handle]
      split <;> rfl
    rcases (cut_bind handle).mp cut with inside | ⟨value,middle,ran,later⟩
    · rcases cut_perform handle inside with same | moved
      · exact same
      · exact moved.trans asked
    · cases ran
      cases answered : (handle (.get ⟨store,path⟩) w).1 with
      | ok bytes =>
        rw [answered] at later
        exact (cut_done handle later).trans asked
      | error err =>
        rw [answered] at later
        exact (cut_fail handle later).trans asked
  · intro w w' same
    rw [answer,answer]
    simp only [handle,same path listed]
    split <;> rfl

theorem readsOnly_object (codec : Codec) {path : String} (listed : path ∈ paths) (compression : Compression) :
    ReadsOnly store paths (readObject codec store path compression) :=
  readsOnly_bind (readsOnly_get listed) fun _ => readsOnly_lift _

theorem readsOnly_units (codec : Codec) (groups : List CollectionGroup)
    (listed : ∀ group ∈ groups, group.structurePath = "" ∨ group.structurePath ∈ paths) :
    ReadsOnly store paths (readUnits codec store groups) := by
  induction groups with
  | nil => exact readsOnly_lift (.ok [])
  | cons group rest ih =>
    unfold readUnits readStructure
    apply readsOnly_bind
    · split
      · exact readsOnly_lift (.error _)
      · rename_i named
        rcases listed group List.mem_cons_self with empty | present
        · exact absurd empty named
        · exact readsOnly_bind (readsOnly_object codec present .none) fun _ =>
            readsOnly_bind (readsOnly_lift _) fun _ => readsOnly_lift _
    · intro structure_
      exact readsOnly_bind (ih fun group member => listed group (List.mem_cons_of_mem _ member)) fun _ =>
        readsOnly_lift (.ok _)

theorem readsOnly_views (codec : Codec) (artifacts : List Artifact)
    (listed : ∀ artifact ∈ artifacts, artifact.path ∈ paths) :
    ReadsOnly store paths (readViews codec store artifacts) := by
  induction artifacts with
  | nil => exact readsOnly_lift (.ok [])
  | cons artifact rest ih =>
    have later := ih fun artifact member => listed artifact (List.mem_cons_of_mem _ member)
    unfold readViews
    split
    · apply readsOnly_bind (readsOnly_object codec (listed artifact List.mem_cons_self) .none)
      intro bytes
      apply readsOnly_bind (readsOnly_lift _)
      intro definition
      split
      · exact readsOnly_lift (.error _)
      · exact readsOnly_bind later fun _ => readsOnly_lift (.ok _)
    · exact later

def GroupListed (paths : List String) (group : CollectionGroup) : Prop :=
  (group.structurePath = "" ∨ group.structurePath ∈ paths) ∧ ∀ path ∈ group.dataPaths, path ∈ paths

theorem add_listed {artifact : Artifact} {group : CollectionGroup} (listed : GroupListed paths group)
    (present : artifact.path ∈ paths) : GroupListed paths (group.add artifact) := by
  unfold CollectionGroup.add
  cases artifact.kind with
  | structureDef => exact ⟨.inr present,listed.2⟩
  | data =>
    refine ⟨listed.1,?_⟩
    intro path member
    rcases List.mem_append.mp member with earlier | last
    · exact listed.2 path earlier
    · rw [List.mem_singleton.mp last]
      exact present
  | metadata => exact listed
  | view => exact listed

theorem addToGroup_listed {artifact : Artifact} {name : String} {groups : List CollectionGroup}
    (listed : ∀ group ∈ groups, GroupListed paths group) (present : artifact.path ∈ paths) :
    ∀ group ∈ addToGroup artifact name groups, GroupListed paths group := by
  induction groups with
  | nil =>
    intro group member
    rw [List.mem_singleton.mp member]
    exact add_listed ⟨.inl rfl,by simp⟩ present
  | cons head rest ih =>
    intro group member
    unfold addToGroup at member
    split at member
    · rcases List.mem_cons.mp member with rfl | later
      · exact add_listed (listed head List.mem_cons_self) present
      · exact listed group (List.mem_cons_of_mem _ later)
    · rcases List.mem_cons.mp member with rfl | later
      · exact listed group List.mem_cons_self
      · exact ih (fun group member => listed group (List.mem_cons_of_mem _ member)) group later

theorem groupArtifacts_listed {artifacts : List Artifact} {groups : List CollectionGroup}
    (listed : ∀ group ∈ groups, GroupListed paths group) (present : ∀ artifact ∈ artifacts,
    artifact.path ∈ paths) :
    ∀ group ∈ groupArtifacts artifacts groups, GroupListed paths group := by
  induction artifacts generalizing groups with
  | nil => exact listed
  | cons artifact rest ih =>
    have later := fun artifact member => present artifact (List.mem_cons_of_mem _ member)
    unfold groupArtifacts
    cases artifact.collection with
    | none => exact ih listed later
    | some name => exact ih (addToGroup_listed listed (present artifact List.mem_cons_self)) later

theorem group_listed {manifest : Manifest} {group : CollectionGroup}
    (member : group ∈ groupByCollection manifest) :
    GroupListed (dumpPaths manifest) group := by
  apply groupArtifacts_listed (by simp) _ group member
  intro artifact present
  exact List.mem_cons_of_mem _ (List.mem_map.mpr ⟨artifact,present,rfl⟩)

theorem readUnits_groups {codec : Codec} {groups : List CollectionGroup} {w w' : World}
    (ran : run handle (readUnits codec store groups) w = (.ok units,w')) : units.map Prod.fst = groups := by
  induction groups generalizing units w w' with
  | nil => cases ran; rfl
  | cons group rest ih =>
    unfold readUnits at ran
    obtain ⟨structure_,middle,_,ran⟩ := run_bind_inv handle ran
    obtain ⟨others,last,later,ran⟩ := run_bind_inv handle ran
    cases ran
    rw [List.map_cons,ih later]

theorem readPlan_inv {codec : Codec} {plan : Plan} {w w' : World}
    (ran : run handle (readPlan codec store) w = (.ok plan,w')) :
    (run handle (readManifest codec store) w).1 = .ok plan.manifest ∧
      ∃ units, units.map Prod.fst = groupByCollection plan.manifest ∧ plan.units = sortUnits units := by
  unfold readPlan at ran
  obtain ⟨manifest,one,first,ran⟩ := run_bind_inv handle ran
  obtain ⟨_,two,_,ran⟩ := run_bind_inv handle ran
  obtain ⟨units,three,grouped,ran⟩ := run_bind_inv handle ran
  obtain ⟨views,four,_,ran⟩ := run_bind_inv handle ran
  cases ran
  rw [first]
  exact ⟨rfl,units,readUnits_groups grouped,rfl⟩

theorem readsOnly_plan (codec : Codec) (manifest : Manifest) : ReadsOnly store (dumpPaths manifest)
    ((lift (validate manifest)).bind fun _ =>
      (readUnits codec store (groupByCollection manifest)).bind fun units =>
      (readViews codec store manifest.artifacts).bind fun views =>
        done (⟨manifest,sortUnits units,databaseOrder units [],views⟩ : Plan)) := by
  apply readsOnly_bind (readsOnly_lift _)
  intro _
  apply readsOnly_bind (readsOnly_units codec _ fun group member => (group_listed member).1)
  intro units
  apply readsOnly_bind (readsOnly_views codec _ fun artifact member =>
    List.mem_cons_of_mem _ (List.mem_map.mpr ⟨artifact,member,rfl⟩))
  intro views
  exact readsOnly_lift (.ok _)

theorem readPlan_same {codec : Codec} {plan : Plan} {w w' : World}
    (ran : run handle (readPlan codec store) w = (.ok plan,w))
    (same : ∀ path ∈ dumpPaths plan.manifest, w.objects ⟨store,path⟩ = w'.objects ⟨store,path⟩) :
    run handle (readPlan codec store) w' = (.ok plan,w') := by
  have listed : Restore.manifestName ∈ dumpPaths plan.manifest := List.mem_cons_self
  have first : ReadsOnly store (dumpPaths plan.manifest) (readManifest codec store) :=
    readsOnly_bind (readsOnly_object codec listed .none) fun _ => readsOnly_lift _
  have read := (readPlan_inv ran).1
  have opened : ∀ v : World, (run handle (readManifest codec store) v).1 = .ok plan.manifest →
      run handle (readManifest codec store) v = (.ok plan.manifest,v) :=
    fun v result => Prod.ext result (first.still v)
  have rest : ReadsOnly store (dumpPaths plan.manifest) _ := readsOnly_plan codec plan.manifest
  unfold readPlan at ran ⊢
  rw [run_bind_ok handle (opened w read)] at ran
  rw [run_bind_ok handle (opened w' (by rw [← first.agrees w w' same]; exact read))]
  apply Prod.ext
  · rw [← rest.agrees w w' same,ran]
  · exact rest.still w'

theorem units_listed {r : Restoration} {w : World} (valid : Valid r w) {unit : RestoreUnit}
    (member : unit ∈ r.plan.units) :
    GroupListed (dumpPaths r.plan.manifest) unit.1 := by
  obtain ⟨_,units,groups,sorted⟩ := readPlan_inv valid.reads
  apply group_listed
  rw [← groups]
  rw [sorted] at member
  exact List.mem_map.mpr ⟨unit,(List.mem_insertionSort _).mp member,rfl⟩

theorem readData_same {r : Restoration} {w w' : World} (valid : Valid r w) {unit : RestoreUnit} {path : String}
    (member : unit ∈ r.plan.units) (listed : path ∈ unit.1.dataPaths)
    (same : ∀ object, object ≠ r.checkpoint → w'.objects object = w.objects object) :
    run handle (readData r.codec r.store r.plan.manifest path) w' = (.ok (r.bodies path),w') := by
  have present := (units_listed valid member).2 path listed
  have reads : ReadsOnly r.store (dumpPaths r.plan.manifest) (readData r.codec r.store r.plan.manifest path) :=
    readsOnly_object r.codec present _
  have agree : ∀ path ∈ dumpPaths r.plan.manifest, w.objects ⟨r.store,path⟩ = w'.objects ⟨r.store,path⟩ :=
    fun path member => (same _ (valid.apart path member).symm).symm
  apply Prod.ext
  · rw [← reads.agrees w w' agree,valid.data unit member path listed]
  · exact reads.still w'

end Reading
end ArangoDataTools.RestorePlan
