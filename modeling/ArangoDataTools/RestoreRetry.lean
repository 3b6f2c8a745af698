import ArangoDataTools.RestoreConvergence

namespace ArangoDataTools.RestoreRetry
open Interaction Interaction.Program Restore RestoreServer RestorePlan RestoreStage RestoreResume RestoreCut
  RestoreConvergence

-- What the server holds of the dump is recorded.
def AllRecorded (r : Restoration) (w : World) : Prop :=
  (∀ unit ∈ r.plan.units, (w.server.collections (r.unitKey unit)).isSome → unitId unit.1 ∈ recordedAt r w) ∧
  ∀ view ∈ r.plan.views, (w.server.views (r.viewKey view)).isSome → viewUnitId view ∈ recordedAt r w

-- The server holds no collection and no view of the dump.
def Vacant (r : Restoration) (s : Server) : Prop :=
  (∀ unit ∈ r.plan.units, s.collections (r.unitKey unit) = none) ∧ ∀ view ∈ r.plan.views,
    s.views (r.viewKey view) = none

section Retry
variable {r : Restoration} {w₀ w w' : World} {completed : List String}

theorem createCollections_clear (configured : r.options.checkpoint = some r.checkpoint)
    (keeping : r.options.overwrite = false)
    {units : List RestoreUnit} (named : ∀ unit ∈ units, nameOf unit.2.parameters = some unit.1.name)
    (ran : run handle (createCollections r.client r.options (r.checkpointOf completed) units) w = (.ok (),w')) :
    ∀ unit ∈ units, unitId unit.1 ∉ completed → w.server.collections (r.unitKey unit) = none := by
  induction units generalizing w with
  | nil => exact fun _ member => absurd member List.not_mem_nil
  | cons head rest ih =>
    have later := fun unit member => named unit (List.mem_cons_of_mem _ member)
    unfold createCollections at ran
    by_cases done_ : unitId head.1 ∈ completed
    · rw [if_pos ((isDone_iff configured completed _).mpr done_)] at ran
      intro unit member open_
      rcases List.mem_cons.mp member with rfl | tail
      · exact absurd done_ open_
      · exact ih later ran unit tail open_
    · rw [if_neg fun finished => done_ ((isDone_iff configured completed _).mp finished)] at ran
      obtain ⟨_,middle,first,ran⟩ := run_bind_inv handle ran
      unfold Client.restoreCollection Client.execute at first
      rw [call_run,process_restore (named head List.mem_cons_self)] at first
      by_cases free : w.server.collections (r.unitKey head) = none
      · rw [if_pos (.inr free)] at first
        cases first
        have clear := ih later ran
        intro unit member open_
        rcases List.mem_cons.mp member with rfl | tail
        · exact free
        · have empty := clear unit tail open_
          by_cases same : r.unitKey unit = r.unitKey head
          · rw [same]
            exact free
          · rw [replaced_other same] at empty
            exact empty
      · rw [if_neg (by simp [keeping,free])] at first
        cases first

theorem restoreView_clear (keeping : r.options.overwrite = false) {view : ViewArtifact}
    (named : nameOf view.definition = some view.name)
    (ran : run handle (restoreView r.client r.options view) w = (.ok (),w')) :
    w.server.views (r.viewKey view) = none := by
  have body : nameOf (viewBody view) = some view.name := by
    unfold nameOf at named ⊢
    rw [viewBody_get (by simp) (by simp)]
    exact named
  by_contra found
  have present : (w.server.views (r.viewKey view)).isSome = true := by
    cases held : w.server.views (r.viewKey view) with
    | none => exact absurd held found
    | some state => rfl
  have failed : run handle ((targetClient r.client r.options view.database).createView view.definition) w =
      (.error (.http 409 "duplicate name" {}),w) := by
    unfold Client.createView Client.execute
    rw [call_run]
    unfold viewBody at body
    unfold Restoration.viewKey at present
    simp [Server.process,Server.createView,body,present]
  have attempted := run_attempt handle
      ((targetClient r.client r.options view.database).createView view.definition) w
  rw [failed] at attempted
  unfold restoreView at ran
  simp only [keeping,Bool.false_eq_true,if_false,done_bind] at ran
  rw [run_bind_ok handle attempted] at ran
  cases ran

theorem restoreViews_clear (valid : Valid r w₀) (keeping : r.options.overwrite = false)
    {views : List ViewArtifact}
    (listed : ∀ view ∈ views, view ∈ r.plan.views) (distinct : (views.map viewUnitId).Nodup) {count : Nat}
    (ran : run handle (restoreViews r.codec r.client r.options views
      (r.checkpointOf completed) count) w = (.ok result,w')) :
    ∀ view ∈ views, viewUnitId view ∉ completed → w.server.views (r.viewKey view) = none := by
  induction views generalizing w completed count with
  | nil => exact fun _ member => absurd member List.not_mem_nil
  | cons head rest ih =>
    obtain ⟨absent,distinct⟩ := List.nodup_cons.mp distinct
    have later := fun view member => listed view (List.mem_cons_of_mem _ member)
    have named := valid.viewNames head (listed head List.mem_cons_self)
    unfold restoreViews at ran
    by_cases done_ : viewUnitId head ∈ completed
    · rw [if_pos ((isDone_iff valid.configured completed _).mpr done_)] at ran
      intro view member open_
      rcases List.mem_cons.mp member with rfl | tail
      · exact absurd done_ open_
      · exact ih later distinct ran view tail open_
    · rw [if_neg fun finished => done_ ((isDone_iff valid.configured completed _).mp finished)] at ran
      obtain ⟨_,middle,first,ran⟩ := run_bind_inv handle ran
      have free := restoreView_clear keeping named first
      rw [restoreView_run named w (.inr free)] at first
      cases first
      obtain ⟨_,middle,second,ran⟩ := run_bind_inv handle ran
      rw [record_run valid.configured] at second
      cases second
      have clear := ih later distinct ran
      intro view member open_
      rcases List.mem_cons.mp member with rfl | tail
      · exact free
      · have differs : viewUnitId view ≠ viewUnitId head := by
          intro same
          exact absent (List.mem_map.mpr ⟨view,tail,same⟩)
        have empty := clear view tail (by simp [open_,differs])
        by_cases same : r.viewKey view = r.viewKey head
        · rw [same]
          exact free
        · simpa [World.put,withView,Function.update_of_ne same] using empty

theorem restorePhases_clear (valid : Valid r w₀) (keeping : r.options.overwrite = false) {reporting : Bool}
    (resumable : Resumable r w₀ completed w)
    (ran : run handle (restorePhases r.codec r.client r.store r.options reporting r.plan
      (r.checkpointOf completed))
      {w with server := withDatabases w.server (wantedDatabases r)} = (.ok summary,w')) :
    Clear r completed w.server := by
  obtain ⟨linkedIds,unitIds,aliasIds⟩ := ids_parts valid
  have distinct := ids_nodup valid
  unfold restorePhases at ran
  obtain ⟨_,w₁,first,ran⟩ := run_bind_inv handle ran
  have units := createCollections_clear valid.configured keeping valid.unitNames first
  have created := createCollections_run valid.configured completed valid.unitNames valid.unitKeys
    {w with server := withDatabases w.server (wantedDatabases r)} fun unit member open_ =>
    .inr (units unit member open_)
  rw [created] at first
  cases first
  have stage := stage_start valid resumable
  have untouched : ∀ view ∈ r.plan.views, viewUnitId view ∉ completed →
      ∀ {after : List String} {v : World},
      Stage r w₀.objects (withDatabases w.server (wantedDatabases r)) completed after v →
        viewUnitId view ∉ after → v.server.views (r.viewKey view) = none →
        w.server.views (r.viewKey view) = none := by
    intro view member open_ after v stage unmade empty
    have others : ∀ other ∈ r.plan.views, viewUnitId other ∈ after → r.viewKey other ≠ r.viewKey view := by
      intro other present done_ same
      rw [viewKey_inj valid present member same] at done_
      exact unmade done_
    rw [stage.otherViews _ others] at empty
    simpa [dropLinks,withDatabases] using empty
  have linked : r.linkedViews = r.plan.views.filter fun view => !view.isSearchAlias := rfl
  have aliases : r.aliasViews = r.plan.views.filter ViewArtifact.isSearchAlias := rfl
  rw [← linked,← aliases] at ran
  obtain ⟨_,w₂,second,ran⟩ := run_bind_inv handle ran
  have linkedClear := restoreViews_clear valid keeping (fun view => linked_listed) linkedIds second
  obtain ⟨count,w₂',ran₂,stage₂⟩ := restoreViews_run valid (fun view => linked_listed) linkedIds stage
    (fun view member open_ => .inr (linkedClear view member open_)) 0
  rw [ran₂] at second
  cases second
  obtain ⟨_,w₃,third,ran⟩ := run_bind_inv handle ran
  obtain ⟨summary',w₃',ran₃,stage₃,_⟩ :=
    loadCollections_run valid reporting (fun unit member => member) unitIds stage₂
    {collections := r.plan.units.length}
  rw [ran₃] at third
  cases third
  obtain ⟨_,w₄,fourth,_⟩ := run_bind_inv handle ran
  have aliasClear := restoreViews_clear valid keeping (fun view => alias_listed) aliasIds fourth
  refine .inr ⟨units,?_⟩
  intro view member open_
  by_cases kind : view.isSearchAlias = true
  · have present : view ∈ r.aliasViews := List.mem_filter.mpr ⟨member,kind⟩
    have unmade : viewUnitId view ∉ (completed ++ unrecorded completed (r.linkedViews.map viewUnitId)) ++
        unrecorded (completed ++ unrecorded completed (r.linkedViews.map viewUnitId))
          (r.plan.units.map fun unit => unitId unit.1) := by
      intro made
      unfold Restoration.ids at distinct
      rw [List.nodup_append] at distinct
      have apart := distinct.2.2
      have mine := List.mem_map_of_mem (f:=viewUnitId) present
      rcases List.mem_append.mp made with earlier | unit
      · rcases List.mem_append.mp earlier with recorded | linked
        · exact open_ recorded
        · exact apart _ (List.mem_append_left _ (List.mem_of_mem_filter linked)) _ mine rfl
      · exact apart _ (List.mem_append_right _ (List.mem_of_mem_filter unit)) _ mine rfl
    exact untouched view member open_ stage₃ unmade (aliasClear view present unmade)
  · have present : view ∈ r.linkedViews := List.mem_filter.mpr ⟨member,by simpa using kind⟩
    exact untouched view member open_ stage open_ (linkedClear view present open_)

-- Re-run from wherever the first run was cut, a restore that may not overwrite
-- ends well just if what the server holds of the dump is recorded.
theorem resumed_restore_completes_iff (valid : Valid r w₀) (saves : SavesCheckpoints r)
    (unsaved : w₀.objects r.checkpoint = none) (keeping : r.options.overwrite = false)
      (vacant : Vacant r w₀.server)
    (reporting : Bool) (cut : Cut handle (r.program reporting) w₀ w) :
    (∃ summary w', run handle (r.program reporting) w = (.ok summary,w')) ↔ AllRecorded r w := by
  have clear : Clear r [] w₀.server :=
    .inr ⟨fun unit member _ => vacant.1 unit member,fun view member _ => vacant.2 view member⟩
  obtain ⟨completed,resumable⟩ := program_cut valid saves unsaved clear cut
  have recorded := recordedAt_resumable saves resumable
  have open_ : AllRecorded r w ↔ Clear r completed w.server := by
    unfold AllRecorded Clear
    rw [recorded]
    simp only [keeping,Bool.false_eq_true,false_or,Option.isSome_iff_ne_none]
    constructor
    · rintro ⟨units,views⟩
      exact ⟨fun unit member open_ => by_contra fun found => open_ (units unit member found),
        fun view member open_ => by_contra fun found => open_ (views view member found)⟩
    · rintro ⟨units,views⟩
      exact ⟨fun unit member found => by_contra fun open_ => found (units unit member open_),
        fun view member found => by_contra fun open_ => found (views view member open_)⟩
  rw [open_]
  constructor
  · rintro ⟨summary,w',ran⟩
    rw [program_run valid saves reporting resumable] at ran
    exact restorePhases_clear valid keeping resumable ran
  · intro clear
    obtain ⟨summary,w',ran,_⟩ := resumed_run valid saves reporting resumable clear
    exact ⟨summary,w',ran⟩

theorem created_collection_blocks (valid : Valid r w₀) (saves : SavesCheckpoints r)
    (unsaved : w₀.objects r.checkpoint = none)
    (keeping : r.options.overwrite = false) (vacant : Vacant r w₀.server) (reporting : Bool)
      (unit : RestoreUnit)
    (member : unit ∈ r.plan.units) :
    ∃ w, Cut handle (r.program reporting) w₀ w ∧ ∀ summary w',
      run handle (r.program reporting) w ≠ (.ok summary,w') := by
  have clear : Clear r [] w₀.server :=
    .inr ⟨fun unit member _ => vacant.1 unit member,fun view member _ => vacant.2 view member⟩
  obtain ⟨w,cut,resumable,pending⟩ := cut_after_views valid saves unsaved clear reporting
  refine ⟨w,cut,?_⟩
  intro summary w' ran
  rw [program_run valid saves reporting resumable] at ran
  obtain ⟨open_,present⟩ := pending unit member
  rcases restorePhases_clear valid keeping resumable ran with replacing | ⟨free,_⟩
  · rw [keeping] at replacing
    cases replacing
  · rw [free unit member open_] at present
    cases present

theorem resumed_restore_blocked : Valid (sample false) sampleWorld ∧ SavesCheckpoints (sample false) ∧
    Vacant (sample false) sampleWorld.server ∧
    ¬ ∀ w, Cut handle ((sample false).program false) sampleWorld w →
      ∃ summary w', run handle ((sample false).program false) w = (.ok summary,w') := by
  have vacant : Vacant (sample false) sampleWorld.server := ⟨fun _ _ => rfl,fun _ _ => rfl⟩
  refine ⟨sample_valid false,sample_saves false,vacant,?_⟩
  intro completes
  obtain ⟨w,cut,fails⟩ := created_collection_blocks (sample_valid false)
      (sample_saves false) rfl rfl vacant false sampleUnit
    (List.mem_singleton.mpr rfl)
  obtain ⟨summary,w',ran⟩ := completes w cut
  exact fails summary w' ran

-- Cut where the view is recorded and the collection it is linked to exists.
theorem restore_completes_but_for_collection : ∃ w, Cut handle ((sample false).program false) sampleWorld w ∧
    recordedAt (sample false) w = ["::view::v"] ∧
    ((∃ summary w', run handle ((sample false).program false) w = (.ok summary,w')) ↔
    AllRecorded (sample false) w) := by
  have vacant : Vacant (sample false) sampleWorld.server := ⟨fun _ _ => rfl,fun _ _ => rfl⟩
  have clear : Clear (sample false) [] sampleWorld.server :=
    .inr ⟨fun unit member _ => vacant.1 unit member,fun view member _ => vacant.2 view member⟩
  obtain ⟨w,cut,resumable,-⟩ := cut_after_views (sample_valid false) (sample_saves false) rfl clear false
  have recorded := recordedAt_resumable (sample_saves false) resumable
  exact ⟨w,cut,recorded,resumed_restore_completes_iff (sample_valid false)
    (sample_saves false) rfl rfl vacant false cut⟩

end Retry
end ArangoDataTools.RestoreRetry
