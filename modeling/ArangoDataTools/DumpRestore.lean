import ArangoDataTools.RestoreRun

namespace ArangoDataTools.DumpRestore
open Interaction Interaction.Program Dump DumpClaim DumpRun Restore RestoreRun

-- What the text and byte codecs make of the objects of this dump.
structure ReadsBack (b : Backup) : Prop where
  plain : ∀ bytes, b.codec.decode .none bytes = .ok bytes
  packed : ∀ bytes, b.codec.decode b.options.compression
    (b.codec.encode b.options.compression bytes) = .ok bytes
  manifest : b.codec.manifestFromJson (b.codec.manifestToJson b.manifest) = .ok b.manifest
  structures : ∀ unit ∈ b.collections,
    b.codec.fromSlice (b.codec.toVecPretty (structureValue unit.2)) = .ok (structureValue unit.2)
  views : ∀ view ∈ b.views, b.codec.fromSlice (b.codec.toVecPretty view) = .ok view

section Groups
variable {b : Backup}

def groupOf (b : Backup) (unit : String × InventoryCollection) : CollectionGroup :=
  ⟨unit.1,none,structurePath b.target unit.1,[dataPath b.target b.options.compression unit.1]⟩

theorem groupArtifacts_append (one two : List Artifact) (groups : List CollectionGroup) :
    groupArtifacts (one ++ two) groups = groupArtifacts two (groupArtifacts one groups) := by
  induction one generalizing groups with
  | nil => rfl
  | cons artifact rest ih =>
    simp only [List.cons_append,groupArtifacts]
    cases artifact.collection with
    | none => exact ih groups
    | some name => exact ih _

theorem addToGroup_new (artifact : Artifact) {name : String} {groups : List CollectionGroup}
    (absent : ∀ group ∈ groups, group.name ≠ name) :
    addToGroup artifact name groups =
    groups ++ [CollectionGroup.add artifact ⟨name,artifact.database,"",[]⟩] := by
  induction groups with
  | nil => rfl
  | cons group rest ih =>
    have differs := absent group List.mem_cons_self
    unfold addToGroup
    rw [if_neg fun same => differs same.1,ih fun group member => absent group (List.mem_cons_of_mem _ member)]
    rfl

theorem addToGroup_last (artifact : Artifact) {groups : List CollectionGroup} (last : CollectionGroup)
    (absent : ∀ group ∈ groups, group.name ≠ last.name) (database : last.database = artifact.database) :
    addToGroup artifact last.name (groups ++ [last]) = groups ++ [last.add artifact] := by
  induction groups with
  | nil => simp [addToGroup,database]
  | cons group rest ih =>
    have differs := absent group List.mem_cons_self
    rw [List.cons_append]
    unfold addToGroup
    rw [if_neg fun same => differs same.1,ih fun group member => absent group (List.mem_cons_of_mem _ member)]
    rfl

theorem group_collections {collections : List (String × InventoryCollection)}
    (distinct : (collections.map Prod.fst).Nodup)
    {groups : List CollectionGroup} (absent : ∀ group ∈ groups, group.name ∉ collections.map Prod.fst) :
    groupArtifacts (collections.flatMap b.collectionArtifacts) groups = groups ++ collections.map
      (groupOf b) := by
  induction collections generalizing groups with
  | nil => simp [groupArtifacts]
  | cons unit rest ih =>
    obtain ⟨single,distinct⟩ := List.nodup_cons.mp distinct
    have others : ∀ group ∈ groups, group.name ≠ unit.1 :=
      fun group member same => absent group member (by simp [same])
    have started := addToGroup_new (b.structureArtifact unit.1 unit.2) others
    have ended := addToGroup_last (b.dataArtifact unit.1)
      (CollectionGroup.add (b.structureArtifact unit.1 unit.2) ⟨unit.1,none,"",[]⟩) others rfl
    have both : groupArtifacts (b.collectionArtifacts unit) groups = groups ++ [groupOf b unit] := by
      simp only [Backup.collectionArtifacts,groupArtifacts,Backup.structureArtifact,Backup.dataArtifact]
      unfold Backup.structureArtifact at started
      rw [started]
      exact ended
    rw [List.flatMap_cons,groupArtifacts_append,both,ih distinct]
    · simp
    · intro group member
      rcases List.mem_append.mp member with earlier | last
      · exact fun listed => absent group earlier (List.mem_cons_of_mem _ listed)
      · rw [List.mem_singleton.mp last]
        exact single

theorem group_views (views : List Value) (groups : List CollectionGroup) :
    groupArtifacts (views.map b.viewArtifact) groups = groups := by
  induction views with
  | nil => rfl
  | cons view rest ih => exact ih

theorem groups_dumped (distinct : (b.collections.map Prod.fst).Nodup) :
    groupByCollection b.manifest = b.collections.map (groupOf b) := by
  unfold groupByCollection
  change groupArtifacts b.artifacts [] = _
  unfold Backup.artifacts
  rw [groupArtifacts_append,group_collections distinct (by simp),group_views,List.nil_append]

end Groups
section Read
variable {b : Backup} {w : Recorded}

def unitOf (b : Backup) (unit : String × InventoryCollection) : RestoreUnit :=
  (groupOf b unit,{parameters := unit.2.parameters,indexes := unit.2.indexes,isEdge := unit.2.isEdge})
def viewOf (view : Value) : ViewArtifact := ⟨(viewName view).getD "",none,view⟩

theorem parseStructure_written (collection : InventoryCollection) : parseStructure (structureValue collection) =
    .ok {parameters := collection.parameters,indexes := collection.indexes,isEdge := collection.isEdge} := by
  simp [parseStructure,structureValue,InventoryCollection.isEdge,InventoryCollection.typeId]
  rfl

theorem readUnits_run (reads : ReadsBack b) {collections : List (String × InventoryCollection)}
    (listed : ∀ unit ∈ collections, unit ∈ b.collections) (written : Written b w.objects) :
    run recording (readUnits b.codec b.store (collections.map (groupOf b))) w =
    (.ok (collections.map (unitOf b)),w) := by
  induction collections with
  | nil => rfl
  | cons unit rest ih =>
    have member := listed unit List.mem_cons_self
    have present : w.objects ⟨b.store,structurePath b.target unit.1⟩ =
        some (b.codec.toVecPretty (structureValue unit.2)) := by
      apply written.artifacts (structurePath b.target unit.1,b.codec.toVecPretty (structureValue unit.2))
      exact List.mem_append_left _ (List.mem_flatMap.mpr ⟨unit,member,List.mem_cons_self⟩)
    have named : ¬ (groupOf b unit).structurePath = "" := append_ne _ (by decide)
    have first : run recording (readStructure b.codec b.store (groupOf b unit)) w =
        (.ok (unitOf b unit).2,w) := by
      unfold readStructure
      rw [if_neg named]
      unfold groupOf
      simp only
      rw [run_bind_ok recording (readObject_run present (reads.plain _)),reads.structures unit member]
      simp only [lift,done_bind,parseStructure_written]
      rfl
    simp only [List.map_cons]
    unfold readUnits
    rw [run_bind_ok recording first,
      run_bind_ok recording (ih fun unit member => listed unit (List.mem_cons_of_mem _ member))]
    rfl

theorem readViews_collections (codec : Codec) (store : Nat) (collections : List (String × InventoryCollection))
    (artifacts : List Artifact) :
    readViews codec store (collections.flatMap b.collectionArtifacts ++ artifacts) =
      readViews codec store artifacts := by
  induction collections with
  | nil => rfl
  | cons unit rest ih => exact ih

theorem readViews_run (reads : ReadsBack b) {views : List Value} (listed : ∀ view ∈ views, view ∈ b.views)
    (named : ∀ view ∈ views, (viewName view).isSome) (written : Written b w.objects) :
    run recording (readViews b.codec b.store (views.map b.viewArtifact)) w = (.ok (views.map viewOf),w) := by
  induction views with
  | nil => rfl
  | cons view rest ih =>
    have member := listed view List.mem_cons_self
    obtain ⟨name,called⟩ := Option.isSome_iff_exists.mp (named view List.mem_cons_self)
    have present : w.objects ⟨b.store,(b.viewArtifact view).path⟩ = some (b.codec.toVecPretty view) := by
      apply written.artifacts (b.viewWrite view)
      exact List.mem_append_right _ (List.mem_map_of_mem member)
    have later := ih (fun view member => listed view (List.mem_cons_of_mem _ member)) fun view member =>
      named view (List.mem_cons_of_mem _ member)
    rw [List.map_cons]
    unfold readViews
    have kind : (b.viewArtifact view).kind = .view := rfl
    rw [if_pos kind,run_bind_ok recording (readObject_run present (reads.plain _)),reads.views view member]
    have known : (b.viewArtifact view).view = some name := called
    simp only [lift,done_bind,known,Option.some_or]
    rw [run_bind_ok recording later]
    simp [viewOf,called,Backup.viewArtifact]

theorem insertionSort_ranked {α : Type} (low : α → Bool) (le : α → α → Prop) [DecidableRel le]
    (ranked : ∀ one two, le one two ↔ (low one = true ∨ low two = false)) (items : List α) :
    items.insertionSort le = items.filter low ++ items.filter fun item => !low item := by
  have last : ∀ (item : α) (early late : List α), low item = false → (∀ one ∈ early, low one = true) →
      (∀ one ∈ late, low one = false) → (early ++ late).orderedInsert le item = early ++ item :: late := by
    intro item early late high earlyLow lateHigh
    induction early with
    | nil =>
      cases late with
      | nil => rfl
      | cons one late => exact List.orderedInsert_cons_of_le le _ ((ranked item one).mpr (.inr (lateHigh one List.mem_cons_self)))
    | cons one early ih =>
      have before : ¬ le item one := by
        rw [ranked]
        simp [high,earlyLow one List.mem_cons_self]
      rw [List.cons_append,List.orderedInsert_of_not_le le _ before,ih fun one member => earlyLow one (List.mem_cons_of_mem _ member)]
      rfl
  induction items with
  | nil => rfl
  | cons item rest ih =>
    rw [List.insertionSort_cons,ih]
    cases rank : low item with
    | true =>
      have first : ∀ items : List α, items.orderedInsert le item = item :: items := by
        intro items
        cases items with
        | nil => rfl
        | cons one items => exact List.orderedInsert_cons_of_le le _ ((ranked item one).mpr (.inl rank))
      rw [first]
      simp [rank]
    | false =>
      rw [last item _ _ rank (fun one member => (List.mem_filter.mp member).2)
        (fun one member => by simpa using (List.mem_filter.mp member).2)]
      simp [rank]

def ordered (b : Backup) : List (String × InventoryCollection) :=
  (b.collections.filter fun unit => !unit.2.isEdge) ++ b.collections.filter fun unit => unit.2.isEdge

theorem ordered_perm (b : Backup) : (ordered b).Perm b.collections := by
  have parts := List.filter_append_perm (fun unit : String × InventoryCollection => unit.2.isEdge) b.collections
  exact List.perm_append_comm.trans parts

theorem databaseOrder_single {units : List RestoreUnit} (single : ∀ unit ∈ units, unit.1.database = none)
    {order : List (Option String)} (started : order = [none]) : databaseOrder units order = [none] := by
  induction units generalizing order with
  | nil => exact started
  | cons unit rest ih =>
    unfold databaseOrder
    apply ih fun unit member => single unit (List.mem_cons_of_mem _ member)
    rw [single unit List.mem_cons_self,started]
    simp

theorem unitRank_single {units : List RestoreUnit} (single : ∀ unit ∈ units, unit.1.database = none)
    {unit : RestoreUnit}
    (member : unit ∈ units) : unitRank (databaseOrder units []) unit = if unit.2.isEdge then 1 else 0 := by
  cases units with
  | nil => cases member
  | cons head rest =>
    have order : databaseOrder (head :: rest) [] = [none] := by
      unfold databaseOrder
      apply databaseOrder_single fun unit member => single unit (List.mem_cons_of_mem _ member)
      rw [single head List.mem_cons_self]
      simp
    rw [order]
    unfold unitRank
    rw [single unit member]
    simp

theorem sortUnits_single {units : List RestoreUnit} (single : ∀ unit ∈ units, unit.1.database = none) :
    sortUnits units = (units.filter fun unit => !unit.2.isEdge) ++ units.filter fun unit => unit.2.isEdge := by
  have same := List.map_insertionSort (s:=fun one two : RestoreUnit => one.2.isEdge = false ∨
      two.2.isEdge = true)
    (fun one two => unitRank (databaseOrder units []) one ≤ unitRank (databaseOrder units []) two) id units (by
      intro one first two second
      rw [unitRank_single single first,unitRank_single single second]
      cases low : one.2.isEdge <;> cases high : two.2.isEdge <;> simp [low,high])
  have split := insertionSort_ranked (fun unit : RestoreUnit => !unit.2.isEdge)
    (fun one two : RestoreUnit => one.2.isEdge = false ∨ two.2.isEdge = true) (fun one two => by simp) units
  unfold sortUnits
  simp only [List.map_id] at same
  rw [same,split]
  simp

theorem sorted_dumped (b : Backup) : sortUnits (b.collections.map (unitOf b)) = (ordered b).map (unitOf b) := by
  have single : ∀ unit ∈ b.collections.map (unitOf b), unit.1.database = none := by
    intro unit member
    obtain ⟨_,_,rfl⟩ := List.mem_map.mp member
    rfl
  rw [sortUnits_single single]
  unfold ordered
  rw [List.map_append,List.filter_map,List.filter_map]
  rfl

def planOf (b : Backup) : Plan :=
  ⟨b.manifest,(ordered b).map (unitOf b),databaseOrder (b.collections.map (unitOf b)) [],b.views.map viewOf⟩

theorem readPlan_run (reads : ReadsBack b) (distinct : (b.collections.map Prod.fst).Nodup)
    (named : ∀ view ∈ b.views, (viewName view).isSome) (written : Written b w.objects) :
    run recording (readPlan b.codec b.store) w = (.ok (planOf b),w) := by
  have opened : run recording (readManifest b.codec b.store) w = (.ok b.manifest,w) := by
    change run recording ((readObject b.codec b.store Dump.manifestName .none).bind _) w = _
    rw [run_bind_ok recording (readObject_run written.manifest (reads.plain _)),reads.manifest]
    rfl
  have valid : validate b.manifest = .ok () := by
    have jsonl : b.manifest.artifacts.find? (fun artifact => artifact.kind = .data ∧
        artifact.format = .vpack) = none := by
      rw [List.find?_eq_none]
      intro artifact member
      rcases List.mem_append.mp member with collection | view
      · obtain ⟨unit,_,listed⟩ := List.mem_flatMap.mp collection
        simp only [Backup.collectionArtifacts,List.mem_cons,List.not_mem_nil,or_false] at listed
        rcases listed with rfl | rfl <;> simp [Backup.structureArtifact,Backup.dataArtifact]
      · obtain ⟨_,_,rfl⟩ := List.mem_map.mp view
        simp [Backup.viewArtifact]
    unfold validate
    rw [if_neg (by simp [Backup.manifest,Manifest.new,EncryptionInfo.isEncrypted]),jsonl]
  have views : run recording (readViews b.codec b.store b.manifest.artifacts) w =
      (.ok (b.views.map viewOf),w) := by
    change run recording (readViews b.codec b.store
      (b.collections.flatMap b.collectionArtifacts ++ b.views.map b.viewArtifact))
      w = _
    rw [readViews_collections]
    exact readViews_run reads (fun _ member => member) named written
  unfold readPlan
  rw [run_bind_ok recording opened,valid]
  simp only [lift,done_bind]
  rw [groups_dumped distinct,run_bind_ok recording (readUnits_run reads (fun _ member => member) written),
    run_bind_ok recording views,sorted_dumped]
  rfl

def bodies (b : Backup) (path : String) : Bytes :=
  match b.collections.find? fun unit => decide (dataPath b.target b.options.compression unit.1 = path) with
  | some unit => b.body unit.1
  | none => []

theorem bodies_data {unit : String × InventoryCollection} (member : unit ∈ b.collections) :
    bodies b (dataPath b.target b.options.compression unit.1) = b.body unit.1 := by
  unfold bodies
  cases found : b.collections.find? fun other =>
      decide (dataPath b.target b.options.compression other.1 =
        dataPath b.target b.options.compression unit.1) with
  | none =>
    have absent := List.find?_eq_none.mp found unit member
    simp at absent
  | some other =>
    have same := List.find?_some found
    have names := dataPath_inj (of_decide_eq_true same)
    simp only [names]

theorem compressionOf_data {unit : String × InventoryCollection} (member : unit ∈ b.collections) :
    compressionOf b.manifest (dataPath b.target b.options.compression unit.1) = b.options.compression := by
  unfold compressionOf
  have listed : b.dataArtifact unit.1 ∈ b.manifest.artifacts :=
    List.mem_append_left _ (List.mem_flatMap.mpr ⟨unit,member,by simp [Backup.collectionArtifacts]⟩)
  cases found : b.manifest.artifacts.find? fun artifact =>
      decide (artifact.path = dataPath b.target b.options.compression unit.1) with
  | none =>
    have absent := List.find?_eq_none.mp found _ listed
    simp [Backup.dataArtifact] at absent
  | some artifact =>
    have same := List.find?_some found
    have path : artifact.path = dataPath b.target b.options.compression unit.1 := of_decide_eq_true same
    rcases List.mem_append.mp (List.mem_of_find?_eq_some found) with collection | view
    · obtain ⟨other,_,kind⟩ := List.mem_flatMap.mp collection
      simp only [Backup.collectionArtifacts,List.mem_cons,List.not_mem_nil,or_false] at kind
      rcases kind with rfl | rfl
      · exact absurd path (structurePath_dataPath _ _ _)
      · rfl
    · obtain ⟨other,_,rfl⟩ := List.mem_map.mp view
      exact absurd path (viewPath_dataPath _ _ _)

theorem readData_run (reads : ReadsBack b) (written : Written b w.objects) {unit : String × InventoryCollection}
    (member : unit ∈ b.collections) :
    run recording (readData b.codec b.store b.manifest (dataPath b.target b.options.compression unit.1)) w =
      (.ok (bodies b (dataPath b.target b.options.compression unit.1)),w) := by
  have present : w.objects ⟨b.store,dataPath b.target b.options.compression unit.1⟩ = some (b.data unit.1) := by
    apply written.artifacts (dataPath b.target b.options.compression unit.1,b.data unit.1)
    exact List.mem_append_left _ (List.mem_flatMap.mpr ⟨unit,member,by simp [Backup.collectionWrites]⟩)
  unfold readData
  rw [compressionOf_data member,bodies_data member]
  exact readObject_run present (reads.packed _)

end Read
section Requests
variable {b : Backup} {client : Client} {options : RestoreOptions}

def isAlias (definition : Value) : Bool := (definition.get "type").bind Value.asStr = some "search-alias"

def createRequests (b : Backup) (client : Client) (options : RestoreOptions) : List (String × Request) :=
  (ordered b).map fun unit =>
    (destination client options,.restoreCollection unit.2.parameters [] options.overwrite)

def loadRequests (b : Backup) (client : Client) (options : RestoreOptions) : List (String × Request) :=
  (ordered b).flatMap fun unit => (destination client options,.restoreData unit.1 (b.body unit.1)) ::
    (unit.2.indexes.filter fun index => !isImplicit index).map fun index =>
    (destination client options,.createIndex unit.1 index)

def viewsRequests (client : Client) (options : RestoreOptions) (views : List Value) : List (String × Request) :=
  views.flatMap fun view => viewRequests (destination client options) options.overwrite (viewOf view)

-- What a restore of this dump asks the server for, in this order.
def restoreRequests (b : Backup) (client : Client) (options : RestoreOptions) : List (String × Request) :=
  databaseRequests options ++ createRequests b client options ++
  viewsRequests client options (b.views.filter fun view => !isAlias view) ++ loadRequests b client options ++
  viewsRequests client options (b.views.filter isAlias)

theorem planRequests_dumped (b : Backup) (client : Client) (options : RestoreOptions) :
    planRequests client options (bodies b) (planOf b) = restoreRequests b client options := by
  have linked : (b.views.map viewOf).filter (fun view => !view.isSearchAlias) =
      (b.views.filter fun view => !isAlias view).map viewOf := List.filter_map
  have aliases : (b.views.map viewOf).filter ViewArtifact.isSearchAlias = (b.views.filter isAlias).map viewOf :=
    List.filter_map
  have loads : ((ordered b).map (unitOf b)).flatMap (dataRequests (destination client options) (bodies b)) =
      loadRequests b client options := by
    unfold loadRequests
    rw [List.flatMap_map]
    apply List.flatMap_congr
    intro unit member
    have listed := (ordered_perm b).mem_iff.mp member
    simp only [dataRequests,indexRequests,unitOf,groupOf,List.map_cons,List.map_nil,bodies_data listed]
    rfl
  unfold planRequests planOf restoreRequests
  simp only
  rw [linked,aliases,loads,List.map_map,List.flatMap_map,List.flatMap_map]
  rfl

theorem mem_viewsRequests {views : List Value} {database : String} {definition : Value}
    (member : (database,.createView definition) ∈ viewsRequests client options views) :
    ∃ view ∈ views, definition = RestoreRun.viewBody view := by
  obtain ⟨view,listed,called⟩ := List.mem_flatMap.mp member
  refine ⟨view,listed,?_⟩
  rcases List.mem_append.mp called with dropped | created
  · split at dropped
    · cases List.mem_singleton.mp dropped
    · cases dropped
  · cases List.mem_singleton.mp created
    rfl

theorem viewsRequests_noIndex {views : List Value} {database collection : String} {index : Value} :
    (database,Request.createIndex collection index) ∉ viewsRequests client options views := by
  intro member
  obtain ⟨view,listed,called⟩ := List.mem_flatMap.mp member
  rcases List.mem_append.mp called with dropped | created
  · split at dropped
    · cases List.mem_singleton.mp dropped
    · cases dropped
  · cases List.mem_singleton.mp created

theorem create_noView {database : String} {definition : Value} :
    (database,Request.createView definition) ∉ databaseRequests options ++ createRequests b client options := by
  intro member
  rcases List.mem_append.mp member with first | second
  · obtain ⟨_,_,same⟩ := List.mem_map.mp first
    cases same
  · obtain ⟨_,_,same⟩ := List.mem_map.mp second
    cases same

theorem load_noView {database : String} {definition : Value} :
    (database,Request.createView definition) ∉ loadRequests b client options := by
  intro member
  obtain ⟨unit,_,called⟩ := List.mem_flatMap.mp member
  rcases List.mem_cons.mp called with data | index
  · cases data
  · obtain ⟨_,_,same⟩ := List.mem_map.mp index
    cases same

theorem split_prefix {α : Type} {one two before after : List α} {item : α}
    (equal : one ++ two = before ++ item :: after)
    (absent : item ∉ one) : one <+: before := by
  rcases List.append_eq_append_iff.mp equal with ⟨rest,same,_⟩ | ⟨rest,same,tail⟩
  · rw [same]
    exact List.prefix_append _ _
  · cases rest with
    | nil => simp [same]
    | cons head rest =>
      rw [List.cons_append] at tail
      have head_ : item = head := (List.cons.inj tail).1
      exact absurd (by simp [same,head_]) absent

theorem viewBody_get {key : String} (id : key ≠ "id") (unique : key ≠ "globallyUniqueId") (view : Value) :
    (RestoreRun.viewBody view).get key = view.get key := by
  unfold RestoreRun.viewBody
  rw [Value.get_remove unique.symm,Value.get_remove id.symm]

theorem collections_before {before after : List (String × Request)} {database : String} {definition : Value}
    (split : restoreRequests b client options = before ++ (database,.createView definition) :: after) :
    (∃ view ∈ b.views, definition = RestoreRun.viewBody view) ∧
      ∀ unit ∈ b.collections, (destination client options,
      .restoreCollection unit.2.parameters [] options.overwrite) ∈ before := by
  constructor
  · have member : (database,.createView definition) ∈ restoreRequests b client options := by
      rw [split]
      simp
    unfold restoreRequests at member
    rcases List.mem_append.mp member with earlier | aliases
    · rcases List.mem_append.mp earlier with earlier | load
      · rcases List.mem_append.mp earlier with create | linked
        · exact absurd create create_noView
        · obtain ⟨view,listed,same⟩ := mem_viewsRequests linked
          exact ⟨view,List.mem_of_mem_filter listed,same⟩
      · exact absurd load load_noView
    · obtain ⟨view,listed,same⟩ := mem_viewsRequests aliases
      exact ⟨view,List.mem_of_mem_filter listed,same⟩
  · unfold restoreRequests at split
    rw [List.append_assoc,List.append_assoc] at split
    have first := split_prefix split create_noView
    intro unit member
    apply first.subset
    apply List.mem_append_right
    exact List.mem_map.mpr ⟨unit,(ordered_perm b).mem_iff.mpr member,rfl⟩

theorem indexes_before {before after : List (String × Request)} {database : String} {definition : Value}
    (split : restoreRequests b client options = before ++ (database,.createView definition) :: after)
    (kind : isAlias definition = true) {database' collection : String} {index : Value}
    (member : (database',.createIndex collection index) ∈ restoreRequests b client options) :
    (database',.createIndex collection index) ∈ before := by
  have absent : (database,Request.createView definition) ∉ databaseRequests options ++
      createRequests b client options ++
      viewsRequests client options (b.views.filter fun view => !isAlias view) ++
        loadRequests b client options := by
    intro present
    rcases List.mem_append.mp present with earlier | load
    · rcases List.mem_append.mp earlier with create | linked
      · exact create_noView create
      · obtain ⟨view,listed,same⟩ := mem_viewsRequests linked
        have other := (List.mem_filter.mp listed).2
        unfold isAlias at kind other
        rw [same,viewBody_get (by simp) (by simp)] at kind
        simp [kind] at other
    · exact load_noView load
  unfold restoreRequests at split member
  have first := split_prefix split absent
  rcases List.mem_append.mp member with earlier | aliases
  · exact first.subset earlier
  · exact absurd aliases viewsRequests_noIndex

theorem links_selected {view : Value} (member : view ∈ b.views) {link : String}
    (linked : link ∈ linkTargets view) :
    ∃ unit ∈ b.collections, unit.1 = link := by
  have takes := (List.mem_filter.mp member).2
  have target := List.all_eq_true.mp takes link (List.mem_append_left _ linked)
  obtain ⟨unit,listed,same⟩ := List.mem_map.mp (of_decide_eq_true target)
  exact ⟨unit,listed,same⟩

-- A dump that is restored asks the target for what the source's inventory and
-- chunks say: collections, linked views, data with indexes, aliases.
theorem dump_then_restore (single : b.options.allDatabases = false) (role : b.source.role.isCluster = false)
    (paged : ∀ name, Pages (b.source.serve name) 0 (b.chunks name))
    (named : ∀ collection ∈ b.source.inventory.collections, collection.name.isSome)
    (namedViews : ∀ view ∈ b.source.inventory.views, (viewName view).isSome)
    (distinct : (b.source.inventory.collections.filterMap InventoryCollection.name).Nodup)
    (distinctViews : (b.source.inventory.views.map viewName).Nodup) (reads : ReadsBack b)
    (fresh : options.checkpoint = none) (reporting : Bool) (w : Objects)
    (free : b.options.overwrite = true ∨ w ⟨b.store,Dump.manifestName⟩ = none ∧
    w ⟨b.store,dumpLockName⟩ = none) :
    ∃ w', run (dumping b.source) (runDumpWithProgress b.codec b.client b.store b.options reporting)
      w = (.ok b.manifest,w') ∧
      run recording (runRestoreWithProgress b.codec client b.store options reporting) ⟨w',[]⟩ =
        (.ok ⟨(ordered b).length,(ordered b).length,0,b.views.length⟩,⟨w',restoreRequests b client options⟩) ∧
      (ordered b).Perm b.collections ∧
      ∀ before after database definition,
        restoreRequests b client options = before ++ (database,.createView definition) :: after →
        (∀ link ∈ linkTargets definition, ∃ unit ∈ b.collections, unit.1 = link ∧
          (destination client options,.restoreCollection unit.2.parameters [] options.overwrite) ∈ before) ∧
        (isAlias definition = true → ∀ database' collection index,
          (database',.createIndex collection index) ∈ restoreRequests b client options →
          (database',.createIndex collection index) ∈ before) := by
  obtain ⟨w',dumped,written⟩ :=
    dump_written single role paged named namedViews distinct distinctViews reporting w free
  have names := distinct.sublist (selected_names b.options b.source.inventory.collections)
  have listed : ∀ view ∈ b.views, (viewName view).isSome :=
    fun view member => namedViews view (List.mem_of_mem_filter member)
  have read := readPlan_run (w:=⟨w',[]⟩) reads names listed written
  have unit_single : ∀ unit ∈ (planOf b).units, unit.1.database = none := by
    intro unit member
    obtain ⟨_,_,rfl⟩ := List.mem_map.mp member
    rfl
  have view_single : ∀ view ∈ (planOf b).views, view.database = none := by
    intro view member
    obtain ⟨_,_,rfl⟩ := List.mem_map.mp member
    rfl
  have data : ∀ unit ∈ (planOf b).units, ∀ path ∈ unit.1.dataPaths, ∀ v : Recorded, v.objects = w' →
      run recording (readData b.codec b.store (planOf b).manifest path) v = (.ok (bodies b path),v) := by
    intro unit member path data v same
    obtain ⟨source,present,rfl⟩ := List.mem_map.mp member
    rw [List.mem_singleton.mp data]
    exact readData_run reads (same ▸ written) ((ordered_perm b).mem_iff.mp present)
  have restored := runRestore_run client fresh read unit_single view_single data reporting
  refine ⟨w',dumped,?_,ordered_perm b,?_⟩
  · rw [restored,planRequests_dumped]
    simp [planOf,Recorded.issue]
  · intro before after database definition split
    obtain ⟨⟨view,member,same⟩,earlier⟩ := collections_before split
    refine ⟨?_,fun kind _ _ _ present => indexes_before split kind present⟩
    intro link linked
    have kept : linkTargets definition = linkTargets view := by
      unfold linkTargets
      rw [same,viewBody_get (by simp) (by simp)]
    rw [kept] at linked
    obtain ⟨unit,present,name⟩ := links_selected member linked
    exact ⟨unit,present,name,earlier unit present⟩

end Requests
section Sample

-- A collection of two chunks and a view linked to it, and a codec that prints
-- and reads just what their dump writes.
def sampleCollection : InventoryCollection :=
  {parameters := .object [("isSystem",.bool false),("name",.string "c"),("type",.number (.posInt 2))]}
def sampleView : Value :=
  .object [("links",.object [("c",.object [])]),("name",.string "v"),("type",.string "arangosearch")]

def structureText : Bytes := asciiBytes
  "\x7b\n  \"indexes\": [],\n  \"parameters\": \x7b\n    \"isSystem\": false,\n    \"name\": \"c\",\n    \"type\": 2\n  \x7d\n\x7d"
def viewText : Bytes := asciiBytes
  "\x7b\n  \"links\": \x7b\n    \"c\": \x7b\x7d\n  \x7d,\n  \"name\": \"v\",\n  \"type\": \"arangosearch\"\n\x7d"
def firstText : Bytes := asciiBytes "\x7b\"type\":2300,\"data\":\x7b\"_key\":\"1\"\x7d\x7d\n"
def secondText : Bytes := asciiBytes "\x7b\"type\":2300,\"data\":\x7b\"_key\":\"2\"\x7d\x7d\n"
def manifestText : Bytes :=
  asciiBytes ("\n".intercalate ["\x7b","  \"manifest_version\": 1,","  \"tool_version\": \"0.1.0\",",
  "  \"created_at\": \"2026-06-01T00:00:00Z\",","  \"database\": \"shop\",","  \"encryption\": \x7b",
  "    \"algorithm\": \"none\"","  \x7d,","  \"artifacts\": [","    \x7b",
  "      \"path\": \"c.structure.json\",","      \"kind\": \"structure\",","      \"format\": \"json\",",
  "      \"compression\": \"none\",","      \"byte_size\": 96,","      \"collection\": \"c\"","    \x7d,",
  "    \x7b","      \"path\": \"c.data.jsonl\",","      \"kind\": \"data\",","      \"format\": \"jsonl\",",
  "      \"compression\": \"none\",","      \"byte_size\": 68,","      \"checksum\": \x7b",
  "        \"algorithm\": \"sha256\",",
  "        \"value\": \"33c023eb8a4d048efa30c1fb835a6a56a194d12b10355e67e42509d9838d084e\"","      \x7d,",
  "      \"collection\": \"c\",","      \"part\": 0","    \x7d,","    \x7b",
  "      \"path\": \"v.view.json\",","      \"kind\": \"view\",","      \"format\": \"json\",",
  "      \"compression\": \"none\",","      \"byte_size\": 73,","      \"view\": \"v\"","    \x7d","  ]",
  "\x7d"])

def digest : Bytes := [51,192,35,235,138,77,4,142,250,48,193,251,131,90,106,86,161,148,209,43,16,53,94,103,
  228,37,9,217,131,141,8,78]

def sampleManifest : Manifest :=
  {Manifest.new "shop" "0.1.0" "2026-06-01T00:00:00Z" with artifacts := [
    {path := "c.structure.json",kind := .structureDef,format := .json,byteSize := 96,collection := some "c"},
    {path := "c.data.jsonl",kind := .data,format := .jsonl,byteSize := 68,
     checksum := some ⟨"sha256","33c023eb8a4d048efa30c1fb835a6a56a194d12b10355e67e42509d9838d084e"⟩,
     collection := some "c",part := some 0},
    {path := "v.view.json",kind := .view,format := .json,byteSize := 73,view := some "v"}]}

def printValue (value : Value) : Bytes :=
  match value.get "parameters" with
  | some _ => structureText
  | none => viewText

def parseValue (bytes : Bytes) : Except Error Value :=
  if bytes = viewText then .ok sampleView else if bytes = structureText then
    .ok (structureValue sampleCollection)
  else .error (.serialization "expected value at line 1 column 1")

def parseManifest (bytes : Bytes) : Except Error Manifest :=
  if bytes = manifestText then .ok sampleManifest
    else .error (.serialization "expected value at line 1 column 1")

def sampleCodec : Codec where
  toVecPretty := printValue
  fromSlice := parseValue
  manifestToJson _ := manifestText
  manifestFromJson := parseManifest
  checkpointToJson _ := []
  checkpointFromJson _ := .error (.serialization "EOF while parsing a value at line 1 column 0")
  encode _ bytes := bytes
  decode _ bytes := .ok bytes
  sha256 _ := digest

def sampleServe (_ : String) (tick : UInt64) : DumpChunk :=
  if tick = 0 then ⟨firstText,7,true⟩ else ⟨secondText,9,false⟩

def sampleBackup : Backup where
  codec := sampleCodec
  client := {database := "shop"}
  store := 0
  options := {database := "shop",toolVersion := "0.1.0",createdAt := "2026-06-01T00:00:00Z"}
  source := {batch := "17",inventory := ⟨[sampleCollection],[sampleView]⟩,serve := sampleServe}
  chunks _ := [⟨firstText,7,true⟩,⟨secondText,9,false⟩]

theorem sample_paged (name : String) : Pages (sampleBackup.source.serve name) 0 (sampleBackup.chunks name) := by
  have last : Pages (sampleServe name) 7 [⟨secondText,9,false⟩] := .last (by simp [sampleServe])
  have whole : Pages (sampleServe name) 0 [⟨firstText,7,true⟩,⟨secondText,9,false⟩] :=
    .more rfl (by simp [sampleServe]) (by simp [sampleServe]) last
  exact whole

theorem sample_collections : sampleBackup.collections = [("c",sampleCollection)] := rfl
theorem sample_views : sampleBackup.views = [sampleView] := rfl

theorem structureText_length : structureText.length = 96 := by
  rw [structureText,asciiBytes_length]
  decide
theorem viewText_length : viewText.length = 73 := by
  rw [viewText,asciiBytes_length]
  decide
theorem sample_data : (sampleBackup.data "c").length = 68 := by
  have first : firstText.length = 34 := by
    rw [firstText,asciiBytes_length]
    decide
  have second : secondText.length = 34 := by
    rw [secondText,asciiBytes_length]
    decide
  change (firstText ++ (secondText ++ [])).length = 68
  simp [first,second]

theorem sample_manifest : sampleBackup.manifest = sampleManifest := by
  have digest_ : hex digest = "33c023eb8a4d048efa30c1fb835a6a56a194d12b10355e67e42509d9838d084e" := by decide
  have structure_ : sampleBackup.structureArtifact "c" sampleCollection =
      {path := "c.structure.json",kind := .structureDef,format := .json,byteSize := structureText.length,
       collection := some "c"} := rfl
  have data : sampleBackup.dataArtifact "c" =
      {path := "c.data.jsonl",kind := .data,format := .jsonl,byteSize := (sampleBackup.data "c").length,
       checksum := some ⟨"sha256",hex digest⟩,collection := some "c",part := some 0} := rfl
  have view : sampleBackup.viewArtifact sampleView =
      {path := "v.view.json",kind := .view,format := .json,byteSize := viewText.length,view := some "v"} := rfl
  unfold Backup.manifest Backup.artifacts
  rw [sample_collections,sample_views]
  simp only [List.flatMap_cons,List.flatMap_nil,List.map_cons,List.map_nil,Backup.collectionArtifacts]
  rw [structure_,data,view,structureText_length,viewText_length,sample_data,digest_]
  rfl

theorem parseManifest_text : parseManifest manifestText = .ok sampleManifest := by rw [parseManifest,if_pos rfl]

theorem sample_reads : ReadsBack sampleBackup := by
  have apart : structureText ≠ viewText := by decide
  have parsesManifest : sampleBackup.codec.manifestFromJson = parseManifest := rfl
  have printsManifest : ∀ manifest, sampleBackup.codec.manifestToJson manifest = manifestText := by
    intro manifest
    simp only [sampleBackup,sampleCodec]
  have parses : sampleBackup.codec.fromSlice = parseValue := rfl
  have prints : sampleBackup.codec.toVecPretty = printValue := rfl
  have structure_ : printValue (structureValue sampleCollection) = structureText := rfl
  have view : printValue sampleView = viewText := rfl
  constructor
  · exact fun _ => rfl
  · exact fun _ => rfl
  · rw [sample_manifest,parsesManifest,printsManifest,parseManifest_text]
  · rw [sample_collections]
    intro unit member
    rw [List.mem_singleton.mp member,parses,prints,structure_,parseValue,if_neg apart,if_pos rfl]
  · rw [sample_views]
    intro definition member
    rw [List.mem_singleton.mp member,parses,prints,view,parseValue,if_pos rfl]

-- The sample, dumped into an empty store and restored into `target`.
theorem sample_restored : ∃ w',
    run (dumping sampleBackup.source)
      (runDumpWithProgress sampleCodec sampleBackup.client 0 sampleBackup.options false)
      (fun _ => none) = (.ok sampleBackup.manifest,w') ∧
    run recording (runRestoreWithProgress sampleCodec {database := "target"} 0 {} false) ⟨w',[]⟩ =
      (.ok ⟨1,1,0,1⟩,⟨w',[("target",.restoreCollection sampleCollection.parameters [] false),
        ("target",.createView sampleView),("target",.restoreData "c" (firstText ++ secondText))]⟩) := by
  have named : ∀ collection ∈ sampleBackup.source.inventory.collections, collection.name.isSome := by
    intro collection member
    rw [List.mem_singleton.mp member]
    rfl
  have namedViews : ∀ view ∈ sampleBackup.source.inventory.views, (viewName view).isSome := by
    intro view member
    rw [List.mem_singleton.mp member]
    rfl
  obtain ⟨w',dumped,restored,_⟩ :=
    @dump_then_restore sampleBackup {database := "target"} {} rfl rfl sample_paged named
    namedViews (List.nodup_singleton _) (List.nodup_singleton _) sample_reads rfl false
      (fun _ => none) (.inr ⟨rfl,rfl⟩)
  exact ⟨w',dumped,restored⟩

end Sample
end ArangoDataTools.DumpRestore
