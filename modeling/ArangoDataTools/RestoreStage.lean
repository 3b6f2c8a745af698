import ArangoDataTools.RestorePlan

namespace ArangoDataTools.RestoreStage
open Interaction Interaction.Program Restore RestoreServer RestorePlan

section Phases
variable {r : Restoration}

theorem isDone_iff (configured : r.options.checkpoint = some r.checkpoint) (completed : List String)
    (id : String) :
    isDone r.options (r.checkpointOf completed) id = true ↔ id ∈ completed := by
  simp [isDone,configured,RestoreCheckpoint.contains,Restoration.checkpointOf]

-- What `restore_collection` makes of a key that nothing stands in the way of.
def replaced (r : Restoration) (unit : RestoreUnit) (s : Server) : Server :=
  (if r.options.overwrite then s.dropCollection (r.unitKey unit) else s).putCollection
    (r.unitKey unit) (freshState unit)

theorem replaced_databases (unit : RestoreUnit) (s : Server) : (replaced r unit s).databases = s.databases := by
  unfold replaced
  split <;> rfl

theorem replaced_self (unit : RestoreUnit) (s : Server) :
    (replaced r unit s).collections (r.unitKey unit) = some (freshState unit) := by
  simp [replaced,Server.putCollection]

theorem replaced_other {unit : RestoreUnit} {key : Key} (differs : key ≠ r.unitKey unit) (s : Server) :
    (replaced r unit s).collections key = s.collections key := by
  unfold replaced
  split <;> simp [Server.putCollection,Server.dropCollection,Function.update_of_ne differs]

theorem replaced_views (unit : RestoreUnit) (s : Server) : (replaced r unit s).views =
    dropLinks (fun key => r.options.overwrite && decide (key = r.unitKey unit)) s.views := by
  unfold replaced
  split
  · rename_i overwrite
    simp [Server.putCollection,Server.dropCollection,overwrite]
  · rename_i keep
    simp [Server.putCollection,keep,dropLinks_none]

def createAll (r : Restoration) (recorded : List String) : List RestoreUnit → Server → Server
  | [], s => s
  | unit :: rest, s =>
    if unitId unit.1 ∈ recorded then createAll r recorded rest s
    else createAll r recorded rest (replaced r unit s)

theorem createAll_databases (recorded : List String) (units : List RestoreUnit) (s : Server) :
    (createAll r recorded units s).databases = s.databases := by
  induction units generalizing s with
  | nil => rfl
  | cons unit rest ih =>
    unfold createAll
    split
    · exact ih s
    · rw [ih,replaced_databases]

theorem createAll_views (recorded : List String) (units : List RestoreUnit) (s : Server) :
    (createAll r recorded units s).views = dropLinks (r.droppedAmong recorded units) s.views := by
  induction units generalizing s with
  | nil =>
    have nothing : r.droppedAmong recorded [] = fun _ => false := by
      funext key
      simp [Restoration.droppedAmong]
    rw [nothing,dropLinks_none]
    rfl
  | cons unit rest ih =>
    unfold createAll
    by_cases done_ : unitId unit.1 ∈ recorded
    · rw [if_pos done_,ih]
      congr 1
      funext key
      simp [Restoration.droppedAmong,done_]
    · rw [if_neg done_,ih,replaced_views,dropLinks_dropLinks]
      congr 1
      funext key
      unfold Restoration.droppedAmong
      cases r.options.overwrite with
      | true => simp [done_,Bool.or_comm,eq_comm]
      | false => rfl

theorem createAll_other (recorded : List String) (units : List RestoreUnit) (s : Server) {key : Key}
    (other : ∀ unit ∈ units, unitId unit.1 ∉ recorded → r.unitKey unit ≠ key) :
    (createAll r recorded units s).collections key = s.collections key := by
  induction units generalizing s with
  | nil => rfl
  | cons unit rest ih =>
    have later := fun unit member => other unit (List.mem_cons_of_mem _ member)
    unfold createAll
    by_cases done_ : unitId unit.1 ∈ recorded
    · rw [if_pos done_,ih s later]
    · rw [if_neg done_,ih _ later,replaced_other (other unit List.mem_cons_self done_).symm]

theorem createAll_pending (recorded : List String) {units : List RestoreUnit}
    (distinct : (units.map r.unitKey).Nodup)
    (s : Server) {unit : RestoreUnit} (member : unit ∈ units) (pending : unitId unit.1 ∉ recorded) :
    (createAll r recorded units s).collections (r.unitKey unit) = some (freshState unit) := by
  induction units generalizing s with
  | nil => cases member
  | cons head rest ih =>
    obtain ⟨absent,distinct⟩ := List.nodup_cons.mp distinct
    unfold createAll
    rcases List.mem_cons.mp member with rfl | later
    · have others : ∀ other ∈ rest, unitId other.1 ∉ recorded → r.unitKey other ≠ r.unitKey unit := by
        intro other present _ equal
        exact absent (List.mem_map.mpr ⟨other,present,equal⟩)
      rw [if_neg pending,createAll_other recorded rest _ others,replaced_self]
    · split
      · exact ih distinct s later
      · exact ih distinct _ later

theorem process_restore {unit : RestoreUnit} {s : Server}
    (named : nameOf unit.2.parameters = some unit.1.name) :
    s.process (targetClient r.client r.options unit.1.database).database
        (.restoreCollection unit.2.parameters [] r.options.overwrite) =
      if r.options.overwrite = true ∨ s.collections (r.unitKey unit) = none then (.ok (),replaced r unit s)
      else (.error (.http 409 "duplicate name" {}),s) := by
  simp only [Server.process,Server.restoreCollection,named]
  cases overwrite : r.options.overwrite with
  | true => simp [replaced,overwrite,Restoration.unitKey,freshState]
  | false =>
    cases found : s.collections ((targetClient r.client r.options unit.1.database).database,unit.1.name) with
    | none => simp [replaced,overwrite,Restoration.unitKey,freshState,found]
    | some state => simp [Restoration.unitKey,found]

theorem restoreCollection_run {w : World} {unit : RestoreUnit}
    (named : nameOf unit.2.parameters = some unit.1.name)
    (clear : r.options.overwrite = true ∨ w.server.collections (r.unitKey unit) = none) :
    run handle ((targetClient r.client r.options unit.1.database).restoreCollection
      unit.2.parameters [] r.options.overwrite) w =
      (.ok (),{w with server := replaced r unit w.server}) := by
  unfold Client.restoreCollection Client.execute
  rw [call_run,process_restore named,if_pos clear]

theorem createCollections_run (configured : r.options.checkpoint = some r.checkpoint) (recorded : List String)
    {units : List RestoreUnit} (named : ∀ unit ∈ units, nameOf unit.2.parameters = some unit.1.name)
    (distinct : (units.map r.unitKey).Nodup) (w : World)
    (clear : ∀ unit ∈ units, unitId unit.1 ∉ recorded →
      r.options.overwrite = true ∨ w.server.collections (r.unitKey unit) = none) :
    run handle (createCollections r.client r.options (r.checkpointOf recorded) units) w =
      (.ok (),{w with server := createAll r recorded units w.server}) := by
  induction units generalizing w with
  | nil => rfl
  | cons unit rest ih =>
    obtain ⟨absent,distinct⟩ := List.nodup_cons.mp distinct
    have later := fun unit member => named unit (List.mem_cons_of_mem _ member)
    have clear' := fun unit member => clear unit (List.mem_cons_of_mem _ member)
    unfold createCollections createAll
    by_cases done_ : unitId unit.1 ∈ recorded
    · rw [if_pos ((isDone_iff configured recorded _).mpr done_),if_pos done_]
      exact ih later distinct w clear'
    · rw [if_neg (fun finished => done_ ((isDone_iff configured recorded _).mp finished)),if_neg done_]
      rw [run_bind_ok handle (restoreCollection_run (named _ List.mem_cons_self)
        (clear _ List.mem_cons_self done_))]
      apply ih later distinct
      intro other member open_
      have differs : r.unitKey other ≠ r.unitKey unit :=
        fun same => absent (List.mem_map.mpr ⟨other,member,same⟩)
      simp only [replaced_other differs]
      exact clear' other member open_

-- What a checkpoint object holds once `completed` has been recorded in it.
def stored (r : Restoration) (completed : List String) : Option Bytes :=
  if completed = [] then none else some (r.codec.checkpointToJson (r.checkpointOf completed))

-- The state of a view created by a run that started with `recorded`, or found
-- recorded by it: such a run's phase 1 took the links to what it dropped.
def keptLinks (r : Restoration) (recorded : List String) (view : ViewArtifact) : List String :=
  (viewState view).links.filter fun link => !r.droppedAmong recorded r.plan.units ((r.viewKey view).1,link)

def keptView (r : Restoration) (recorded : List String) (view : ViewArtifact) : ViewState :=
  if viewUnitId view ∈ recorded then {viewState view with links := keptLinks r recorded view}
    else viewState view

-- A run that started over `base` with `recorded`, past its phase 1, now having
-- recorded `completed`.
structure Stage (r : Restoration) (dump : ObjectRef → Option Bytes) (base : Server)
    (recorded completed : List String)
    (w : World) : Prop where
  extends_ : ∀ id ∈ recorded, id ∈ completed
  objects : ∀ object, object ≠ r.checkpoint → w.objects object = dump object
  checkpoint : w.objects r.checkpoint = stored r completed
  databases : w.server.databases = base.databases
  recordedUnits : ∀ unit ∈ r.plan.units, unitId unit.1 ∈ completed →
    w.server.collections (r.unitKey unit) = some (r.loaded unit)
  pendingUnits : ∀ unit ∈ r.plan.units, unitId unit.1 ∉ completed →
    w.server.collections (r.unitKey unit) = some (freshState unit)
  otherCollections : ∀ key, (∀ unit ∈ r.plan.units, r.unitKey unit ≠ key) →
    w.server.collections key = base.collections key
  recordedViews : ∀ view ∈ r.plan.views, viewUnitId view ∈ completed →
    w.server.views (r.viewKey view) = some (keptView r recorded view)
  otherViews : ∀ key, (∀ view ∈ r.plan.views, viewUnitId view ∈ completed → r.viewKey view ≠ key) →
    w.server.views key = dropLinks (r.droppedAmong recorded r.plan.units) base.views key

theorem record_run (configured : r.options.checkpoint = some r.checkpoint) (completed : List String)
    (id : String)
    (w : World) : run handle (record r.codec r.options (r.checkpointOf completed) id) w =
      (.ok (r.checkpointOf (completed ++ [id])),
        w.put r.checkpoint (r.codec.checkpointToJson (r.checkpointOf (completed ++ [id])))) := by
  unfold record
  rw [configured]
  rfl

theorem viewBody_get {key : String} (id : key ≠ "id") (unique : key ≠ "globallyUniqueId")
    (view : ViewArtifact) :
    (viewBody view).get key = view.definition.get key := by
  unfold viewBody
  rw [Value.get_remove unique.symm,Value.get_remove id.symm]

theorem viewState_links (view : ViewArtifact) : (viewState view).links = viewLinks view.definition := by
  unfold viewState viewLinks
  simp only
  rw [viewBody_get (by simp) (by simp),viewBody_get (by simp) (by simp)]

def withView (s : Server) (key : Key) (state : Option ViewState) : Server :=
  {s with views := Function.update s.views key state}

theorem dropView_run (database : Client) (name : String) (w : World) : run handle (database.dropView name) w =
    (.ok (),{w with server := withView w.server (database.database,name) none}) := by
  have called := call_run database database.database (.dropView name) w
  simp only [Server.process,Server.dropView] at called
  unfold Client.dropView Client.execute
  by_cases present : (w.server.views (database.database,name)).isSome
  · rw [if_pos present] at called
    exact tolerating_run called (.inl rfl)
  · rw [if_neg present] at called
    have same : withView w.server (database.database,name) none = w.server := by
      unfold withView
      rw [show (none : Option ViewState) = w.server.views (database.database,name) by
        simpa using (Option.not_isSome_iff_eq_none.mp present).symm,Function.update_eq_self]
    rw [same]
    exact tolerating_run called (.inr ⟨_,_,rfl⟩)

theorem createView_run {view : ViewArtifact} {w : World} (named : nameOf view.definition = some view.name)
    (absent : w.server.views (r.viewKey view) = none) :
    run handle ((targetClient r.client r.options view.database).createView view.definition) w =
      (.ok (),{w with server := withView w.server (r.viewKey view) (some (viewState view))}) := by
  have body : nameOf (viewBody view) = some view.name := by
    unfold nameOf at named ⊢
    rw [viewBody_get (by simp) (by simp)]
    exact named
  unfold Client.createView Client.execute
  rw [call_run]
  unfold viewBody at body
  unfold Restoration.viewKey at absent
  simp [Server.process,Server.createView,body,absent,withView,Restoration.viewKey,viewState,viewBody]

theorem clearView_run {view : ViewArtifact} (w : World)
    (clear : r.options.overwrite = true ∨ w.server.views (r.viewKey view) = none) :
    run handle (if r.options.overwrite then
      (targetClient r.client r.options view.database).dropView view.name else done ())
      w = (.ok (),{w with server := withView w.server (r.viewKey view) none}) := by
  rcases clear with replacing | absent
  · rw [if_pos replacing]
    exact dropView_run _ view.name w
  · have same : withView w.server (r.viewKey view) none = w.server := by
      unfold withView
      rw [← absent,Function.update_eq_self]
    split
    · exact dropView_run _ view.name w
    · rw [same]
      rfl

theorem restoreView_run {view : ViewArtifact} (named : nameOf view.definition = some view.name) (w : World)
    (clear : r.options.overwrite = true ∨ w.server.views (r.viewKey view) = none) :
    run handle (restoreView r.client r.options view) w =
      (.ok (),{w with server := withView w.server (r.viewKey view) (some (viewState view))}) := by
  unfold restoreView
  rw [run_bind_ok handle (clearView_run w clear)]
  have created := createView_run (r:=r) (w:={w with server := withView w.server (r.viewKey view) none}) named
    (by simp [withView])
  have attempted := run_attempt handle
      ((targetClient r.client r.options view.database).createView view.definition)
    {w with server := withView w.server (r.viewKey view) none}
  rw [created] at attempted
  rw [run_bind_ok handle attempted]
  simp [withView]

section Stages
variable {dump : ObjectRef → Option Bytes} {base : Server} {recorded completed : List String} {w₀ w : World}

theorem stored_append (completed : List String) (id : String) :
    stored r (completed ++ [id]) = some (r.codec.checkpointToJson (r.checkpointOf (completed ++ [id]))) := by
  simp [stored]

-- The world once `id` has been recorded over `server`.
def recordedWorld (r : Restoration) (completed : List String) (id : String) (server : Server)
    (w : World) : World :=
  World.put {w with server := server} r.checkpoint
    (r.codec.checkpointToJson (r.checkpointOf (completed ++ [id])))

theorem recordedWorld_objects {id : String} {server : Server} {object : ObjectRef}
    (differs : object ≠ r.checkpoint) :
    (recordedWorld r completed id server w).objects object = w.objects object :=
    Function.update_of_ne differs _ _

theorem recordedWorld_checkpoint {id : String} {server : Server} :
    (recordedWorld r completed id server w).objects r.checkpoint = stored r (completed ++ [id]) := by
  rw [stored_append]
  exact Function.update_self _ _ _

theorem stage_view (valid : Valid r w₀) (stage : Stage r dump base recorded completed w) {view : ViewArtifact}
    (member : view ∈ r.plan.views) (absent : viewUnitId view ∉ completed) :
    Stage r dump base recorded (completed ++ [viewUnitId view]) (recordedWorld r completed (viewUnitId view)
      (withView w.server (r.viewKey view) (some (viewState view))) w) := by
  have unit_same : ∀ unit ∈ r.plan.units, unitId unit.1 ∈ completed ++ [viewUnitId view] ↔
      unitId unit.1 ∈ completed := by
    intro unit present
    have differs := viewUnitId_ne valid member present
    simp [differs.symm]
  constructor
  · exact fun id present => List.mem_append_left _ (stage.extends_ id present)
  · exact fun object differs => (recordedWorld_objects differs).trans (stage.objects object differs)
  · exact recordedWorld_checkpoint
  · exact stage.databases
  · exact fun unit present done_ => stage.recordedUnits unit present ((unit_same unit present).mp done_)
  · exact fun unit present open_ =>
      stage.pendingUnits unit present fun done_ => open_ ((unit_same unit present).mpr done_)
  · exact stage.otherCollections
  · intro other present done_
    by_cases equal : other = view
    · subst equal
      have unrecorded : viewUnitId other ∉ recorded := fun before => absent (stage.extends_ _ before)
      simp [recordedWorld,World.put,withView,keptView,unrecorded]
    · have key : r.viewKey other ≠ r.viewKey view := fun same => equal (viewKey_inj valid present member same)
      have id : viewUnitId other ≠ viewUnitId view :=
        fun same => equal (viewUnitId_inj valid present member same)
      have before : viewUnitId other ∈ completed := by
        rcases List.mem_append.mp done_ with earlier | last
        · exact earlier
        · exact absurd (List.mem_singleton.mp last) id
      simpa [recordedWorld,World.put,withView,Function.update_of_ne key]
        using stage.recordedViews other present before
  · intro key other
    have differs : key ≠ r.viewKey view := fun same => other view member (by simp) same.symm
    have before := stage.otherViews key fun view present done_ =>
        other view present (List.mem_append_left _ done_)
    simpa [recordedWorld,World.put,withView,Function.update_of_ne differs] using before

theorem stage_unit (valid : Valid r w₀) (stage : Stage r dump base recorded completed w) {unit : RestoreUnit}
    (member : unit ∈ r.plan.units) :
    Stage r dump base recorded (completed ++ [unitId unit.1]) (recordedWorld r completed (unitId unit.1)
      (w.server.putCollection (r.unitKey unit) (r.loaded unit)) w) := by
  have view_same : ∀ view ∈ r.plan.views, viewUnitId view ∈ completed ++ [unitId unit.1] →
      viewUnitId view ∈ completed := by
    intro view present done_
    have differs := viewUnitId_ne valid present member
    simpa [differs] using done_
  constructor
  · exact fun id present => List.mem_append_left _ (stage.extends_ id present)
  · exact fun object differs => (recordedWorld_objects differs).trans (stage.objects object differs)
  · exact recordedWorld_checkpoint
  · exact stage.databases
  · intro other present done_
    by_cases equal : other = unit
    · subst equal
      simp [recordedWorld,World.put,Server.putCollection]
    · have key : r.unitKey other ≠ r.unitKey unit := fun same => equal (unitKey_inj valid present member same)
      have id : unitId other.1 ≠ unitId unit.1 := fun same => equal (unitId_inj valid present member same)
      have before : unitId other.1 ∈ completed := by
        rcases List.mem_append.mp done_ with earlier | last
        · exact earlier
        · exact absurd (List.mem_singleton.mp last) id
      simpa [recordedWorld,World.put,Server.putCollection,Function.update_of_ne key] using
        stage.recordedUnits other present before
  · intro other present open_
    have key : r.unitKey other ≠ r.unitKey unit := by
      intro same
      rw [unitKey_inj valid present member same] at open_
      exact open_ (by simp)
    have before : unitId other.1 ∉ completed := fun earlier => open_ (List.mem_append_left _ earlier)
    simpa [recordedWorld,World.put,Server.putCollection,Function.update_of_ne key] using
      stage.pendingUnits other present before
  · intro key other
    have differs : key ≠ r.unitKey unit := fun same => other unit member same.symm
    simpa [recordedWorld,World.put,Server.putCollection,Function.update_of_ne differs]
      using stage.otherCollections key other
  · exact fun view present done_ => stage.recordedViews view present (view_same view present done_)
  · exact fun key other => stage.otherViews key fun view present done_ =>
      other view present (List.mem_append_left _ done_)

def unrecorded (completed ids : List String) : List String := ids.filter fun id => id ∉ completed

theorem unrecorded_done {id : String} (ids : List String) (done_ : id ∈ completed) :
    unrecorded completed (id :: ids) = unrecorded completed ids := by simp [unrecorded,done_]

theorem unrecorded_open {id : String} {ids : List String} (open_ : id ∉ completed) (absent : id ∉ ids) :
    completed ++ unrecorded completed (id :: ids) = (completed ++ [id]) ++ unrecorded
      (completed ++ [id]) ids := by
  have same : unrecorded (completed ++ [id]) ids = unrecorded completed ids := by
    apply List.filter_congr
    intro other member
    have differs : other ≠ id := fun equal => absent (equal ▸ member)
    simp [differs]
  rw [same]
  simp [unrecorded,open_]

theorem restoreViews_run (valid : Valid r w₀) {views : List ViewArtifact}
    (listed : ∀ view ∈ views, view ∈ r.plan.views) (distinct : (views.map viewUnitId).Nodup)
    (stage : Stage r dump base recorded completed w)
    (clear : ∀ view ∈ views, viewUnitId view ∉ completed → r.options.overwrite = true ∨
    w.server.views (r.viewKey view) = none)
    (count : Nat) :
    ∃ count' w', run handle (restoreViews r.codec r.client r.options views (r.checkpointOf completed) count) w =
        (.ok (r.checkpointOf (completed ++ unrecorded completed (views.map viewUnitId)),count'),w') ∧
      Stage r dump base recorded (completed ++ unrecorded completed (views.map viewUnitId)) w' := by
  induction views generalizing completed w count with
  | nil =>
    simp only [List.map_nil,unrecorded,List.filter_nil,List.append_nil]
    exact ⟨count,w,rfl,stage⟩
  | cons view rest ih =>
    obtain ⟨absent,distinct⟩ := List.nodup_cons.mp distinct
    have later := fun view member => listed view (List.mem_cons_of_mem _ member)
    have member := listed view List.mem_cons_self
    unfold restoreViews
    by_cases done_ : viewUnitId view ∈ completed
    · rw [if_pos ((isDone_iff valid.configured completed _).mpr done_)]
      rw [List.map_cons,unrecorded_done _ done_]
      exact ih later distinct stage (fun view member => clear view (List.mem_cons_of_mem _ member)) count
    · rw [if_neg fun finished => done_ ((isDone_iff valid.configured completed _).mp finished)]
      rw [run_bind_ok handle (restoreView_run (valid.viewNames view member) w
        (clear view List.mem_cons_self done_))]
      rw [run_bind_ok handle (record_run valid.configured completed (viewUnitId view) _)]
      rw [List.map_cons,unrecorded_open done_ absent]
      apply ih later distinct (stage_view valid stage member done_)
      intro other present open_
      have open_ : viewUnitId other ∉ completed := fun done_ => open_ (List.mem_append_left _ done_)
      have differs : r.viewKey other ≠ r.viewKey view := by
        intro same
        rw [viewKey_inj valid (later other present) member same] at present
        exact absent (List.mem_map_of_mem present)
      rcases clear other (List.mem_cons_of_mem _ present) open_ with replacing | free
      · exact .inl replacing
      · exact .inr (by simpa [recordedWorld,World.put,withView,Function.update_of_ne differs] using free)

def withCollection (w : World) (key : Key) (state : CollectionState) : World :=
  {w with server := w.server.putCollection key state}

theorem withCollection_self (w : World) (key : Key) (state : CollectionState) :
    (withCollection w key state).server.collections key = some state := Function.update_self _ _ _

theorem withCollection_twice (w : World) (key : Key) (one two : CollectionState) :
    withCollection (withCollection w key one) key two = withCollection w key two := by
  simp [withCollection,Server.putCollection]

theorem withCollection_same {w : World} {key : Key} {state : CollectionState}
    (present : w.server.collections key = some state) :
    withCollection w key state = w := by
  unfold withCollection Server.putCollection
  rw [← present,Function.update_eq_self]

theorem restoreParts_run {unit : RestoreUnit} {paths : List String} {w : World} (state : CollectionState)
    (reads : ∀ path ∈ paths, ∀ server, run handle (readData r.codec r.store r.plan.manifest path)
      {w with server := server} =
      (.ok (r.bodies path),{w with server := server}))
    (present : w.server.collections (r.unitKey unit) = some state) :
    run handle (restoreParts r.codec (targetClient r.client r.options unit.1.database) r.store r.plan.manifest
        unit.1.name paths) w =
      (.ok (),withCollection w (r.unitKey unit) {state with data := state.data ++ paths.map r.bodies}) := by
  induction paths generalizing w state with
  | nil =>
    simp only [restoreParts,run_done,List.map_nil,List.append_nil]
    rw [withCollection_same present]
  | cons path rest ih =>
    unfold restoreParts
    rw [run_bind_ok handle (reads path List.mem_cons_self w.server)]
    have called := call_run (targetClient r.client r.options unit.1.database)
      (targetClient r.client r.options unit.1.database).database (.restoreData unit.1.name (r.bodies path)) w
    unfold Restoration.unitKey at present
    simp only [Server.process,Server.modifyCollection,present] at called
    unfold Client.restoreData Client.execute
    rw [run_bind_ok handle called]
    have next := ih (w:=withCollection w (r.unitKey unit) {state with data := state.data ++ [r.bodies path]}) _
      (fun path member server => reads path (List.mem_cons_of_mem _ member) server) (withCollection_self _ _ _)
    refine next.trans ?_
    simp [withCollection_twice]

theorem createIndexes_run {unit : RestoreUnit} {indexes : List Value} {w : World} (state : CollectionState)
    (present : w.server.collections (r.unitKey unit) = some state) :
    run handle (createIndexes (targetClient r.client r.options unit.1.database) unit.1.name indexes) w =
      (.ok (),withCollection w (r.unitKey unit)
        {state with indexes := state.indexes ++ indexes.filter fun index => !isImplicit index}) := by
  induction indexes generalizing w state with
  | nil =>
    simp only [createIndexes,run_done,List.filter_nil,List.append_nil]
    rw [withCollection_same present]
  | cons index rest ih =>
    unfold createIndexes
    by_cases implicit : isImplicit index = true
    · rw [if_pos implicit,ih state present]
      simp [implicit]
    · rw [if_neg implicit]
      have called := call_run (targetClient r.client r.options unit.1.database)
        (targetClient r.client r.options unit.1.database).database (.createIndex unit.1.name index) w
      unfold Restoration.unitKey at present
      simp only [Server.process,Server.modifyCollection,present] at called
      unfold Client.createIndex Client.execute
      rw [run_bind_ok handle called]
      have next := ih (w:=withCollection w (r.unitKey unit) {state with indexes := state.indexes ++ [index]}) _
        (withCollection_self _ _ _)
      refine next.trans ?_
      simp [withCollection_twice,implicit]

theorem loadCollectionData_run (valid : Valid r w₀)
    (unchanged : ∀ object, object ≠ r.checkpoint → w.objects object = w₀.objects object)
    {unit : RestoreUnit} (member : unit ∈ r.plan.units)
    (fresh : w.server.collections (r.unitKey unit) = some (freshState unit)) :
    run handle (loadCollectionData r.codec (targetClient r.client r.options unit.1.database) r.store
      r.plan.manifest unit) w =
      (.ok (),withCollection w (r.unitKey unit) (r.loaded unit)) := by
  unfold loadCollectionData
  have reads : ∀ path ∈ unit.1.dataPaths, ∀ server,
      run handle (readData r.codec r.store r.plan.manifest path) {w with server := server} =
        (.ok (r.bodies path),{w with server := server}) := by
    intro path present server
    exact readData_same valid member present unchanged
  rw [run_bind_ok handle (restoreParts_run (freshState unit) reads fresh)]
  rw [createIndexes_run _ (withCollection_self _ _ _),withCollection_twice]
  simp [freshState,Restoration.loaded]

theorem reported_run (reporting : Bool) (event : ProgressEvent) (w : World) :
    run handle (if reporting then emit event else done () : Tool Unit) w = (.ok (),w) := by
  cases reporting <;> rfl

theorem loadCollections_run (valid : Valid r w₀) (reporting : Bool) {units : List RestoreUnit}
    (listed : ∀ unit ∈ units, unit ∈ r.plan.units) (distinct : (units.map fun unit => unitId unit.1).Nodup)
    (stage : Stage r w₀.objects base recorded completed w) (summary : RestoreSummary) :
    ∃ summary' w', run handle
      (loadCollections r.codec r.client r.store r.options r.plan.manifest reporting units
          (r.checkpointOf completed) summary) w =
        (.ok (r.checkpointOf (completed ++ unrecorded completed
          (units.map fun unit => unitId unit.1)),summary'),w') ∧
      Stage r w₀.objects base recorded
        (completed ++ unrecorded completed (units.map fun unit => unitId unit.1)) w' ∧
      w'.server.views = w.server.views := by
  induction units generalizing completed w summary with
  | nil =>
    simp only [List.map_nil,unrecorded,List.filter_nil,List.append_nil]
    exact ⟨summary,w,rfl,stage,rfl⟩
  | cons unit rest ih =>
    obtain ⟨absent,distinct⟩ := List.nodup_cons.mp distinct
    have later := fun unit member => listed unit (List.mem_cons_of_mem _ member)
    have member := listed unit List.mem_cons_self
    unfold loadCollections
    by_cases done_ : unitId unit.1 ∈ completed
    · rw [if_pos ((isDone_iff valid.configured completed _).mpr done_)]
      rw [List.map_cons,unrecorded_done _ done_]
      exact ih later distinct stage _
    · rw [if_neg fun finished => done_ ((isDone_iff valid.configured completed _).mp finished)]
      have loaded := loadCollectionData_run valid stage.objects member (stage.pendingUnits unit member done_)
      rw [run_bind_ok handle loaded]
      rw [run_bind_ok handle (record_run valid.configured completed (unitId unit.1) _)]
      rw [run_bind_ok handle (reported_run reporting _ _)]
      rw [List.map_cons,unrecorded_open done_ absent]
      obtain ⟨summary',w',ran,stage',views⟩ := ih later distinct (stage_unit valid stage member) _
      exact ⟨summary',w',ran,stage',views⟩

end Stages
end Phases
end ArangoDataTools.RestoreStage
