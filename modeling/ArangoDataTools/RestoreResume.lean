import ArangoDataTools.RestoreStage

namespace ArangoDataTools.RestoreResume
open Interaction Interaction.Program Restore RestoreServer RestorePlan RestoreStage

def wantedDatabases (r : Restoration) : List String :=
  if r.plan.units.any fun unit => unit.1.database.isSome then r.plan.databases.filterMap id
  else r.options.createDatabase.toList

def withDatabases (s : Server) (names : List String) : Server :=
  {s with databases := fun name => s.databases name || decide (name ∈ names)}

theorem withDatabases_none (s : Server) : withDatabases s [] = s := by simp [withDatabases]

theorem withDatabases_cons (s : Server) (name : String) (names : List String) :
    withDatabases (withDatabases s [name]) names = withDatabases s (name :: names) := by
  simp [withDatabases,Bool.or_assoc]

section Databases
variable {r : Restoration}

theorem process_createDatabase (s : Server) (database name : String) :
    (s.process database (.createDatabase name)).2 = withDatabases s [name] := by
  simp only [Server.process,Server.createDatabase,withDatabases]
  split
  · rename_i present
    have same : (fun other => s.databases other || decide (other ∈ [name])) = s.databases := by
      funext other
      by_cases equal : other = name
      · simp [equal,present]
      · simp [equal]
    rw [same]
  · have same : Function.update s.databases name true = fun other => s.databases other ||
        decide (other ∈ [name]) := by
      funext other
      by_cases equal : other = name
      · simp [equal]
      · simp [equal]
    rw [same]

theorem createDatabase_run (client : Client) (name : String) (w : World) :
    run handle (client.createDatabase name) w = (.ok (),{w with server := withDatabases w.server [name]}) := by
  have called := call_run client "_system" (.createDatabase name) w
  have moved := process_createDatabase w.server "_system" name
  rw [moved] at called
  apply tolerating_run called
  simp only [Server.process,Server.createDatabase]
  split
  · exact .inr ⟨_,_,rfl⟩
  · exact .inl rfl

theorem createDatabases_run (client : Client) (databases : List (Option String)) (w : World) :
    run handle (createDatabases client databases) w =
      (.ok (),{w with server := withDatabases w.server (databases.filterMap id)}) := by
  induction databases generalizing w with
  | nil =>
    rw [List.filterMap_nil,withDatabases_none]
    rfl
  | cons database rest ih =>
    cases database with
    | none => exact ih w
    | some name =>
      unfold createDatabases
      rw [run_bind_ok handle (createDatabase_run client name w),ih,withDatabases_cons]
      rfl

theorem prepareDatabases_run (w : World) : run handle (prepareDatabases r.client r.options r.plan) w =
    (.ok (),{w with server := withDatabases w.server (wantedDatabases r)}) := by
  unfold prepareDatabases wantedDatabases
  split
  · exact createDatabases_run r.client r.plan.databases w
  · cases r.options.createDatabase with
    | none =>
      rw [Option.toList_none,withDatabases_none]
      rfl
    | some name => exact createDatabase_run r.client name w

end Databases

-- A world some run over `w₀` may have been stopped in, having recorded `completed`.
structure Resumable (r : Restoration) (w₀ : World) (completed : List String) (w : World) : Prop where
  ordered : completed <+: r.ids
  objects : ∀ object, object ≠ r.checkpoint → w.objects object = w₀.objects object
  checkpoint : w.objects r.checkpoint = stored r completed
  databases : (withDatabases w.server (wantedDatabases r)).databases =
    (withDatabases w₀.server (wantedDatabases r)).databases
  recordedUnits : ∀ unit ∈ r.plan.units, unitId unit.1 ∈ completed →
    w.server.collections (r.unitKey unit) = some (r.loaded unit)
  otherCollections : ∀ key, (∀ unit ∈ r.plan.units, r.unitKey unit ≠ key) →
    w.server.collections key = w₀.server.collections key
  recordedViews : ∀ view ∈ r.plan.views, viewUnitId view ∈ completed →
    w.server.views (r.viewKey view) = some (viewState view)
  otherViews : ∀ key, (∀ view ∈ r.plan.views, r.viewKey view ≠ key) →
    dropLinks (r.droppedAmong completed r.plan.units) w.server.views key =
      dropLinks (r.droppedAmong [] r.plan.units) w₀.server.views key

def Clear (r : Restoration) (completed : List String) (s : Server) : Prop :=
  r.options.overwrite = true ∨
    (∀ unit ∈ r.plan.units, unitId unit.1 ∉ completed → s.collections (r.unitKey unit) = none) ∧
    ∀ view ∈ r.plan.views, viewUnitId view ∉ completed → s.views (r.viewKey view) = none

-- What a run that started with `completed` and ended with Ok leaves.
structure Restored (r : Restoration) (w₀ : World) (completed : List String) (s : Server) : Prop where
  databases : s.databases = (withDatabases w₀.server (wantedDatabases r)).databases
  units : ∀ unit ∈ r.plan.units, s.collections (r.unitKey unit) = some (r.loaded unit)
  otherCollections : ∀ key, (∀ unit ∈ r.plan.units, r.unitKey unit ≠ key) →
    s.collections key = w₀.server.collections key
  views : ∀ view ∈ r.plan.views, s.views (r.viewKey view) = some (keptView r completed view)
  otherViews : ∀ key, (∀ view ∈ r.plan.views, r.viewKey view ≠ key) →
    s.views key = dropLinks (r.droppedAmong [] r.plan.units) w₀.server.views key

section Resume
variable {r : Restoration} {w₀ w : World} {completed : List String}

theorem resumable_start (unsaved : w₀.objects r.checkpoint = none) : Resumable r w₀ [] w₀ := by
  refine ⟨List.nil_prefix,fun _ _ => rfl,unsaved,rfl,?_,fun _ _ => rfl,?_,fun _ _ => rfl⟩
  · exact fun _ _ present => absurd present List.not_mem_nil
  · exact fun _ _ present => absurd present List.not_mem_nil

theorem initialCheckpoint_run (configured : r.options.checkpoint = some r.checkpoint)
    (saves : SavesCheckpoints r)
    (ordered : completed <+: r.ids) (saved : w.objects r.checkpoint = stored r completed) :
    run handle (initialCheckpoint r.codec r.options r.plan.manifest.fingerprint) w =
    (.ok (r.checkpointOf completed),w) := by
  have headed : run handle r.checkpoint.exists w = (.ok (w.objects r.checkpoint).isSome,w) := by
    unfold ObjectRef.exists ask
    rw [run_bind_ok handle (run_perform handle _ w)]
    simp [handle,lift]
  unfold initialCheckpoint
  rw [configured]
  unfold stored at saved
  by_cases empty : completed = []
  · subst empty
    rw [if_pos rfl] at saved
    rw [saved] at headed
    have loaded : run handle (loadRestoreCheckpoint r.codec r.checkpoint) w = (.ok none,w) := by
      unfold loadRestoreCheckpoint
      rw [run_bind_ok handle headed]
      rfl
    simp only
    rw [run_bind_ok handle loaded]
    rfl
  · rw [if_neg empty] at saved
    rw [saved] at headed
    have fetched : run handle r.checkpoint.get w =
        (.ok (r.codec.checkpointToJson (r.checkpointOf completed)),w) := by
      unfold ObjectRef.get ask
      rw [run_bind_ok handle (run_perform handle _ w)]
      simp [handle,saved,lift]
    have loaded : run handle (loadRestoreCheckpoint r.codec r.checkpoint) w =
        (.ok (some (r.checkpointOf completed)),w) := by
      unfold loadRestoreCheckpoint
      rw [run_bind_ok handle headed]
      simp only [Option.isSome_some,if_true]
      rw [run_bind_ok handle fetched,saves completed ordered]
      rfl
    simp only
    rw [run_bind_ok handle loaded]
    simp [Restoration.checkpointOf]

theorem dropLinks_kept {view : ViewArtifact} {views : Key → Option ViewState}
    (present : views (r.viewKey view) = some (viewState view)) (recorded : viewUnitId view ∈ completed) :
    dropLinks (r.droppedAmong completed r.plan.units) views (r.viewKey view) =
    some (keptView r completed view) := by
  simp [dropLinks,present,keptView,recorded,keptLinks]

theorem stage_start (valid : Valid r w₀) (resumable : Resumable r w₀ completed w) :
    Stage r w₀.objects (withDatabases w.server (wantedDatabases r)) completed completed
      {w with server := createAll r completed r.plan.units (withDatabases w.server (wantedDatabases r))} := by
  constructor
  · exact fun _ present => present
  · exact resumable.objects
  · exact resumable.checkpoint
  · exact createAll_databases _ _ _
  · intro unit member recorded
    have others : ∀ other ∈ r.plan.units, unitId other.1 ∉ completed → r.unitKey other ≠ r.unitKey unit := by
      intro other present open_ same
      rw [unitKey_inj valid present member same] at open_
      exact open_ recorded
    simp only [createAll_other completed _ _ others]
    exact resumable.recordedUnits unit member recorded
  · exact fun unit member open_ => createAll_pending completed valid.unitKeys _ member open_
  · exact fun key others => createAll_other completed _ _ fun unit member _ => others unit member
  · intro view member recorded
    simp only [createAll_views]
    exact dropLinks_kept (resumable.recordedViews view member recorded) recorded
  · exact fun key _ => congrFun (createAll_views completed r.plan.units _) key

theorem stage_clear {base : Server} {recorded : List String} {dump : ObjectRef → Option Bytes}
    (valid : Valid r w₀)
    (clear : Clear r recorded base) (stage : Stage r dump base recorded completed w) {view : ViewArtifact}
    (member : view ∈ r.plan.views) (open_ : viewUnitId view ∉ completed) :
    r.options.overwrite = true ∨ w.server.views (r.viewKey view) = none := by
  rcases clear with replacing | ⟨_,free⟩
  · exact .inl replacing
  · have others : ∀ other ∈ r.plan.views, viewUnitId other ∈ completed → r.viewKey other ≠ r.viewKey view := by
      intro other present done_ same
      rw [viewKey_inj valid present member same] at done_
      exact open_ done_
    have unmade : base.views (r.viewKey view) = none := free view member fun done_ =>
        open_ (stage.extends_ _ done_)
    rw [stage.otherViews _ others]
    exact .inr (by simp [dropLinks,unmade])

theorem mem_recorded {id : String} {ids : List String} (member : id ∈ ids) :
    id ∈ completed ++ unrecorded completed ids := by
  by_cases done_ : id ∈ completed
  · exact List.mem_append_left _ done_
  · exact List.mem_append_right _ (by simp [unrecorded,member,done_])

theorem linked_listed {view : ViewArtifact} (member : view ∈ r.linkedViews) : view ∈ r.plan.views :=
  List.mem_of_mem_filter member

theorem alias_listed {view : ViewArtifact} (member : view ∈ r.aliasViews) : view ∈ r.plan.views :=
  List.mem_of_mem_filter member

theorem ids_parts (valid : Valid r w₀) : (r.linkedViews.map viewUnitId).Nodup ∧
    (r.plan.units.map fun unit => unitId unit.1).Nodup ∧ (r.aliasViews.map viewUnitId).Nodup := by
  have distinct := ids_nodup valid
  unfold Restoration.ids at distinct
  have first := distinct.of_append_left
  exact ⟨first.of_append_left,first.of_append_right,distinct.of_append_right⟩

theorem restorePhases_run (valid : Valid r w₀) (reporting : Bool) (resumable : Resumable r w₀ completed w)
    (clear : Clear r completed w.server) :
    ∃ summary w' after, run handle
      (restorePhases r.codec r.client r.store r.options reporting r.plan (r.checkpointOf completed))
        {w with server := withDatabases w.server (wantedDatabases r)} = (.ok summary,w') ∧
      Stage r w₀.objects (withDatabases w.server (wantedDatabases r)) completed after w' ∧
        ∀ id ∈ r.ids, id ∈ after := by
  have clear : Clear r completed (withDatabases w.server (wantedDatabases r)) := clear
  obtain ⟨linkedIds,unitIds,aliasIds⟩ := ids_parts valid
  unfold restorePhases
  have created := createCollections_run valid.configured completed valid.unitNames valid.unitKeys
    {w with server := withDatabases w.server (wantedDatabases r)} fun unit member open_ => by
      rcases clear with replacing | ⟨free,_⟩
      · exact .inl replacing
      · exact .inr (free unit member open_)
  rw [run_bind_ok handle created]
  obtain ⟨count,w₂,ran₂,stage₂⟩ := restoreViews_run valid (fun view => linked_listed) linkedIds
      (stage_start valid resumable)
    (fun view member => stage_clear valid clear (stage_start valid resumable) (linked_listed member)) 0
  unfold Restoration.linkedViews at ran₂
  rw [run_bind_ok handle ran₂]
  obtain ⟨summary,w₃,ran₃,stage₃,_⟩ :=
    loadCollections_run valid reporting (fun unit member => member) unitIds stage₂
    {collections := r.plan.units.length}
  unfold Restoration.linkedViews at ran₃
  rw [run_bind_ok handle ran₃]
  obtain ⟨count',w₄,ran₄,stage₄⟩ := restoreViews_run valid (fun view => alias_listed) aliasIds stage₃
    (fun view member => stage_clear valid clear stage₃ (alias_listed member)) count
  unfold Restoration.aliasViews Restoration.linkedViews at ran₄
  simp only
  rw [run_bind_ok handle ran₄]
  refine ⟨_,w₄,_,rfl,stage₄,?_⟩
  intro id member
  rcases List.mem_append.mp member with earlier | isAlias
  · apply List.mem_append_left
    rcases List.mem_append.mp earlier with linked | unit
    · exact List.mem_append_left _ (mem_recorded linked)
    · exact mem_recorded unit
  · exact mem_recorded isAlias

theorem program_run (valid : Valid r w₀) (saves : SavesCheckpoints r) (reporting : Bool)
    (resumable : Resumable r w₀ completed w) : run handle (r.program reporting) w =
      run handle (restorePhases r.codec r.client r.store r.options reporting r.plan (r.checkpointOf completed))
        {w with server := withDatabases w.server (wantedDatabases r)} := by
  have read : run handle (readPlan r.codec r.store) w = (.ok r.plan,w) :=
    readPlan_same valid.reads fun path member => (resumable.objects _ (valid.apart path member).symm).symm
  unfold Restoration.program runRestoreWithProgress
  rw [run_bind_ok handle read,run_bind_ok handle (prepareDatabases_run w)]
  rw [run_bind_ok handle (initialCheckpoint_run
    (w:={w with server := withDatabases w.server (wantedDatabases r)})
    valid.configured saves resumable.ordered resumable.checkpoint)]

theorem resumed_run (valid : Valid r w₀) (saves : SavesCheckpoints r) (reporting : Bool)
    (resumable : Resumable r w₀ completed w) (clear : Clear r completed w.server) :
    ∃ summary w', run handle (r.program reporting) w = (.ok summary,w') ∧
    Restored r w₀ completed w'.server := by
  obtain ⟨summary,w',after,ran,stage,all⟩ := restorePhases_run valid reporting resumable clear
  refine ⟨summary,w',(program_run valid saves reporting resumable).trans ran,?_⟩
  have listed : ∀ view ∈ r.plan.views, viewUnitId view ∈ after := by
    intro view member
    apply all
    by_cases kind : view.isSearchAlias = true
    · exact List.mem_append_right _ (List.mem_map_of_mem (List.mem_filter.mpr ⟨member,kind⟩))
    · exact List.mem_append_left _ (List.mem_append_left _
        (List.mem_map_of_mem (List.mem_filter.mpr ⟨member,by simpa using kind⟩)))
  constructor
  · rw [stage.databases,resumable.databases]
  · intro unit member
    apply stage.recordedUnits unit member
    exact all _ (List.mem_append_left _ (List.mem_append_right _ (List.mem_map.mpr ⟨unit,member,rfl⟩)))
  · exact fun key others => (stage.otherCollections key others).trans (resumable.otherCollections key others)
  · exact fun view member => stage.recordedViews view member (listed view member)
  · intro key others
    rw [stage.otherViews key fun view member _ => others view member]
    exact resumable.otherViews key others

theorem restored_same {one two : Server} (first : Restored r w₀ [] one) (second : Restored r w₀ completed two) :
    two = one ↔ ∀ view ∈ r.plan.views, keptView r completed view = viewState view := by
  have whole : ∀ view, keptView r [] view = viewState view := fun view => by simp [keptView]
  constructor
  · rintro rfl view member
    have equal := (second.views view member).symm.trans (first.views view member)
    rw [whole view] at equal
    exact Option.some_inj.mp equal
  · intro kept
    have databases : two.databases = one.databases := second.databases.trans first.databases.symm
    have collections : two.collections = one.collections := by
      funext key
      by_cases planned : ∃ unit ∈ r.plan.units, r.unitKey unit = key
      · obtain ⟨unit,member,rfl⟩ := planned
        rw [first.units unit member,second.units unit member]
      · have others : ∀ unit ∈ r.plan.units, r.unitKey unit ≠ key :=
          fun unit member same => planned ⟨unit,member,same⟩
        rw [first.otherCollections key others,second.otherCollections key others]
    have views : two.views = one.views := by
      funext key
      by_cases planned : ∃ view ∈ r.plan.views, r.viewKey view = key
      · obtain ⟨view,member,rfl⟩ := planned
        rw [first.views view member,second.views view member,kept view member,whole view]
      · have others : ∀ view ∈ r.plan.views, r.viewKey view ≠ key :=
          fun view member same => planned ⟨view,member,same⟩
        rw [first.otherViews key others,second.otherViews key others]
    cases one
    cases two
    simp_all

end Resume
end ArangoDataTools.RestoreResume
