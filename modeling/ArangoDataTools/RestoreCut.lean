import ArangoDataTools.RestoreResume

namespace ArangoDataTools.RestoreCut
open Interaction Interaction.Program Restore RestoreServer RestorePlan RestoreStage RestoreResume

section Keep
variable {r : Restoration} {w₀ w w' : World} {completed : List String}

theorem resumable_view (valid : Valid r w₀) (resumable : Resumable r w₀ completed w) {view : ViewArtifact}
    (member : view ∈ r.plan.views) (open_ : viewUnitId view ∉ completed) (state : Option ViewState) :
    Resumable r w₀ completed {w with server := withView w.server (r.viewKey view) state} := by
  refine ⟨resumable.ordered,resumable.objects,resumable.checkpoint,resumable.databases,resumable.recordedUnits,
    resumable.otherCollections,?_,?_⟩
  · intro other present recorded
    have differs : r.viewKey other ≠ r.viewKey view := by
      intro same
      rw [viewKey_inj valid present member same] at recorded
      exact open_ recorded
    simpa [withView,Function.update_of_ne differs] using resumable.recordedViews other present recorded
  · intro key others
    have differs : key ≠ r.viewKey view := fun same => others view member same.symm
    rw [← resumable.otherViews key others]
    simp [dropLinks,withView,Function.update_of_ne differs]

theorem resumable_collection (valid : Valid r w₀) (resumable : Resumable r w₀ completed w) {unit : RestoreUnit}
    (member : unit ∈ r.plan.units) (open_ : unitId unit.1 ∉ completed) (state : CollectionState) :
    Resumable r w₀ completed (withCollection w (r.unitKey unit) state) := by
  refine ⟨resumable.ordered,resumable.objects,resumable.checkpoint,resumable.databases,?_,?_,
    resumable.recordedViews,resumable.otherViews⟩
  · intro other present recorded
    have differs : r.unitKey other ≠ r.unitKey unit := by
      intro same
      rw [unitKey_inj valid present member same] at recorded
      exact open_ recorded
    simpa [withCollection,Server.putCollection,Function.update_of_ne differs] using
      resumable.recordedUnits other present recorded
  · intro key others
    have differs : key ≠ r.unitKey unit := fun same => others unit member same.symm
    simpa [withCollection,Server.putCollection,Function.update_of_ne differs]
      using resumable.otherCollections key others

theorem dropped_mono (completed : List String) (key : Key) :
    (r.droppedAmong completed r.plan.units key || r.droppedAmong [] r.plan.units key) =
      r.droppedAmong [] r.plan.units key := by
  cases dropped : r.droppedAmong completed r.plan.units key with
  | false => rfl
  | true =>
    unfold Restoration.droppedAmong at dropped ⊢
    obtain ⟨replacing,found⟩ := Bool.and_eq_true_iff.mp dropped
    obtain ⟨unit,member,holds⟩ := List.any_eq_true.mp found
    have any : r.plan.units.any (fun unit => decide (r.unitKey unit = key) &&
        !decide (unitId unit.1 ∈ ([] : List String)))
        = true := List.any_eq_true.mpr ⟨unit,member,by simpa using (Bool.and_eq_true_iff.mp holds).1⟩
    rw [replacing,any]
    rfl

theorem dropLinks_at {dropped : Key → Bool} {one two : Key → Option ViewState} {key : Key}
    (same : one key = two key) :
    dropLinks dropped one key = dropLinks dropped two key := by simp [dropLinks,same]

theorem resumable_replaced (resumable : Resumable r w₀ [] w) {unit : RestoreUnit}
    (member : unit ∈ r.plan.units) :
    Resumable r w₀ [] {w with server := replaced r unit w.server} := by
  refine ⟨resumable.ordered,resumable.objects,resumable.checkpoint,?_,?_,?_,?_,?_⟩
  · rw [← resumable.databases]
    simp [withDatabases,replaced_databases]
  · exact fun _ _ recorded => absurd recorded List.not_mem_nil
  · intro key others
    rw [← resumable.otherCollections key others]
    exact replaced_other (others unit member).symm _
  · exact fun _ _ recorded => absurd recorded List.not_mem_nil
  · intro key others
    rw [← resumable.otherViews key others]
    simp only [replaced_views,dropLinks_dropLinks]
    congr 1
    funext other
    by_cases equal : other = r.unitKey unit
    · subst equal
      cases replacing : r.options.overwrite with
      | false => simp
      | true =>
        have dropped : r.droppedAmong [] r.plan.units (r.unitKey unit) = true := by
          unfold Restoration.droppedAmong
          rw [replacing,Bool.true_and]
          exact List.any_eq_true.mpr ⟨unit,member,by simp⟩
        simp [dropped]
    · simp [equal]

theorem withDatabases_idem (s : Server) (names : List String) :
    (withDatabases (withDatabases s names) names).databases = (withDatabases s names).databases := by
  simp [withDatabases]

theorem stage_resumable {v : World} (start : Resumable r w₀ [] v)
    (stage : Stage r w₀.objects (withDatabases v.server (wantedDatabases r)) [] completed w)
      (ordered : completed <+: r.ids) :
    Resumable r w₀ completed w := by
  refine ⟨ordered,stage.objects,stage.checkpoint,?_,stage.recordedUnits,?_,?_,?_⟩
  · have databases : (withDatabases w.server (wantedDatabases r)).databases =
        (withDatabases (withDatabases v.server (wantedDatabases r)) (wantedDatabases r)).databases := by
      simp only [withDatabases,stage.databases]
    rw [databases,withDatabases_idem]
    exact start.databases
  · exact fun key others => (stage.otherCollections key others).trans (start.otherCollections key others)
  · intro view member recorded
    rw [stage.recordedViews view member recorded]
    simp [keptView]
  · intro key others
    have now := stage.otherViews key fun view member _ => others view member
    have twice : dropLinks (r.droppedAmong completed r.plan.units)
        (dropLinks (r.droppedAmong [] r.plan.units) v.server.views) =
        dropLinks (r.droppedAmong [] r.plan.units) v.server.views := by
      rw [dropLinks_dropLinks]
      congr 1
      exact funext (dropped_mono completed)
    rw [dropLinks_at now]
    change dropLinks _ (dropLinks (r.droppedAmong [] r.plan.units) v.server.views) key = _
    rw [twice]
    exact start.otherViews key others

end Keep
section Inside
variable {r : Restoration} {w₀ w w' : World}

-- Wherever a program is cut, only the view under `key` has changed.
def OnlyView (key : Key) (w w' : World) : Prop := ∃ state, w' = {w with server := withView w.server key state}

theorem onlyView_refl (key : Key) (w : World) : OnlyView key w w := by
  refine ⟨w.server.views key,?_⟩
  simp [withView]

theorem onlyView_trans {key : Key} {w v u : World} (first : OnlyView key w v)
    (second : OnlyView key v u) : OnlyView key w u := by
  obtain ⟨one,rfl⟩ := first
  obtain ⟨two,rfl⟩ := second
  exact ⟨two,by simp [withView]⟩

theorem dropView_cut {database : Client} {name : String} (cut : Cut handle (database.dropView name) w w') :
    OnlyView (database.database,name) w w' := by
  rcases call_cut database database.database (tolerating_cut cut) with rfl | rfl
  · exact onlyView_refl _ _
  · simp only [Server.process,Server.dropView]
    split
    · exact ⟨none,rfl⟩
    · exact onlyView_refl _ _

theorem createView_cut {view : ViewArtifact} (named : nameOf view.definition = some view.name)
    (cut : Cut handle ((targetClient r.client r.options view.database).createView view.definition) w w') :
    OnlyView (r.viewKey view) w w' := by
  have body : nameOf (viewBody view) = some view.name := by
    unfold nameOf at named ⊢
    rw [viewBody_get (by simp) (by simp)]
    exact named
  unfold viewBody at body
  unfold Client.createView Client.execute at cut
  rcases call_cut _ _ cut with rfl | rfl
  · exact onlyView_refl _ _
  · simp only [Server.process,Server.createView,body]
    split
    · exact onlyView_refl _ _
    · exact ⟨_,rfl⟩

theorem restoreView_cut {view : ViewArtifact} (named : nameOf view.definition = some view.name)
    (cut : Cut handle (restoreView r.client r.options view) w w') : OnlyView (r.viewKey view) w w' := by
  unfold restoreView at cut
  apply cut_seq handle (OnlyView (r.viewKey view) w) (OnlyView (r.viewKey view) w) _ (fun _ only => only) _ cut
  · intro v cut
    split at cut
    · exact dropView_cut cut
    · rw [cut_done handle cut]
      exact onlyView_refl _ _
  · intro _ v only u cut
    apply onlyView_trans only
    apply cut_seq handle (OnlyView (r.viewKey view) v) (OnlyView (r.viewKey view) v) _
      (fun _ only => only) _ cut
    · exact fun _ cut => createView_cut named ((cut_attempt handle).mp cut)
    · intro outcome v only u cut
      cases outcome with
      | ok value =>
        rw [cut_done handle cut]
        exact only
      | error err =>
        rw [cut_fail handle cut]
        exact only

def OnlyCollection (key : Key) (w w' : World) : Prop := ∃ state, w' = withCollection w key state

theorem onlyCollection_refl {key : Key} {w : World} (present : (w.server.collections key).isSome) :
    OnlyCollection key w w := by
  obtain ⟨state,found⟩ := Option.isSome_iff_exists.mp present
  exact ⟨state,(withCollection_same found).symm⟩

theorem onlyCollection_trans {key : Key} {w v u : World} (first : OnlyCollection key w v)
    (second : OnlyCollection key v u) :
    OnlyCollection key w u := by
  obtain ⟨one,rfl⟩ := first
  obtain ⟨two,rfl⟩ := second
  exact ⟨two,withCollection_twice w key one two⟩

theorem onlyCollection_present {key : Key} {w v : World} (only : OnlyCollection key w v) :
    (v.server.collections key).isSome := by
  obtain ⟨state,rfl⟩ := only
  rw [withCollection_self]
  rfl

theorem modify_cut {request : Request} {client : Client} {database : String} {key : Key}
    {modify : CollectionState → CollectionState}
    (present : (w.server.collections key).isSome)
    (modifies : (w.server.process database request).2 = (w.server.modifyCollection key modify).2)
    (cut : Cut handle (client.executeOn database request) w w') : OnlyCollection key w w' := by
  rcases call_cut client database cut with rfl | rfl
  · exact onlyCollection_refl present
  · obtain ⟨state,found⟩ := Option.isSome_iff_exists.mp present
    rw [modifies]
    simp only [Server.modifyCollection,found]
    exact ⟨modify state,rfl⟩

variable {unit : RestoreUnit}

theorem readData_cut {codec : Codec} {store : Nat} {manifest : Manifest} {path : String}
    (cut : Cut handle (readData codec store manifest path) w w') : w' = w := by
  have reads : ReadsOnly store [path] (readData codec store manifest path) := readsOnly_object codec (by simp) _
  exact reads.stays w w' cut

theorem restoreParts_cut {paths : List String} (present : (w.server.collections (r.unitKey unit)).isSome)
    (cut : Cut handle (restoreParts r.codec
      (targetClient r.client r.options unit.1.database) r.store r.plan.manifest
      unit.1.name paths) w w') : OnlyCollection (r.unitKey unit) w w' := by
  induction paths generalizing w w' with
  | nil =>
    rw [cut_done handle cut]
    exact onlyCollection_refl present
  | cons path rest ih =>
    unfold restoreParts at cut
    refine cut_seq handle (fun v => v = w) (OnlyCollection (r.unitKey unit) w)
      (fun _ cut => readData_cut cut) ?_ ?_ cut
    · rintro _ rfl
      exact onlyCollection_refl present
    · rintro body _ rfl u cut
      refine cut_seq handle (OnlyCollection (r.unitKey unit) _)
        (OnlyCollection (r.unitKey unit) _) ?_ (fun _ only => only) ?_ cut
      · exact fun _ cut => modify_cut present rfl cut
      · exact fun _ v only u cut => onlyCollection_trans only (ih (onlyCollection_present only) cut)

theorem createIndexes_cut {indexes : List Value} (present : (w.server.collections (r.unitKey unit)).isSome)
    (cut : Cut handle (createIndexes (targetClient r.client r.options unit.1.database) unit.1.name
      indexes) w w') :
    OnlyCollection (r.unitKey unit) w w' := by
  induction indexes generalizing w w' with
  | nil =>
    rw [cut_done handle cut]
    exact onlyCollection_refl present
  | cons index rest ih =>
    unfold createIndexes at cut
    split at cut
    · exact ih present cut
    · refine cut_seq handle (OnlyCollection (r.unitKey unit) _)
        (OnlyCollection (r.unitKey unit) _) ?_ (fun _ only => only) ?_ cut
      · exact fun _ cut => modify_cut present rfl cut
      · exact fun _ v only u cut => onlyCollection_trans only (ih (onlyCollection_present only) cut)

theorem loadCollectionData_cut (present : (w.server.collections (r.unitKey unit)).isSome)
    (cut : Cut handle (loadCollectionData r.codec
      (targetClient r.client r.options unit.1.database) r.store r.plan.manifest
      unit) w w') : OnlyCollection (r.unitKey unit) w w' := by
  unfold loadCollectionData at cut
  refine cut_seq handle _ (OnlyCollection (r.unitKey unit) w)
    (fun _ cut => restoreParts_cut present cut) (fun _ only => only) ?_ cut
  exact fun _ v only u cut => onlyCollection_trans only (createIndexes_cut (onlyCollection_present only) cut)

theorem record_cut (configured : r.options.checkpoint = some r.checkpoint) {completed : List String}
    {id : String}
    (cut : Cut handle (record r.codec r.options (r.checkpointOf completed) id) w w') :
    w' = w ∨ w' = w.put r.checkpoint (r.codec.checkpointToJson (r.checkpointOf (completed ++ [id]))) := by
  unfold record at cut
  rw [configured] at cut
  unfold persistRestoreCheckpoint ask at cut
  rcases (cut_bind handle).mp cut with inside | ⟨_,middle,ran,later⟩
  · rcases (cut_bind handle).mp inside with put | ⟨_,middle,ran,later⟩
    · exact cut_perform handle put
    · cases ran
      exact .inr (cut_done handle later)
  · cases ran
    exact .inr (cut_done handle later)

end Inside
section FirstRun
variable {r : Restoration} {w₀ v w w' : World} {completed : List String}

theorem ordered_open (valid : Valid r w₀) {id : String} {rest : List String}
    (ordered : completed ++ id :: rest <+: r.ids) :
    id ∉ completed := by
  have distinct := (ids_nodup valid).sublist ordered.sublist
  rw [List.nodup_append] at distinct
  exact fun member => distinct.2.2 id member id List.mem_cons_self rfl

theorem ordered_next {id : String} {rest : List String} (ordered : completed ++ id :: rest <+: r.ids) :
    (completed ++ [id]) ++ rest <+: r.ids := by simpa using ordered

theorem ordered_now {rest : List String} (ordered : completed ++ rest <+: r.ids) : completed <+: r.ids :=
  (List.prefix_append completed rest).trans ordered

theorem createCollections_cut (valid : Valid r w₀) {units : List RestoreUnit}
    (listed : ∀ unit ∈ units, unit ∈ r.plan.units)
    (resumable : Resumable r w₀ [] w)
      (cut : Cut handle (createCollections r.client r.options (r.checkpointOf []) units) w w') :
    Resumable r w₀ [] w' := by
  induction units generalizing w w' with
  | nil =>
    rw [cut_done handle cut]
    exact resumable
  | cons unit rest ih =>
    have member := listed unit List.mem_cons_self
    unfold createCollections at cut
    rw [if_neg fun finished => List.not_mem_nil ((isDone_iff valid.configured [] _).mp finished)] at cut
    refine cut_seq handle (Resumable r w₀ []) (Resumable r w₀ []) ?_ (fun _ kept => kept) ?_ cut
    · intro u cut
      rcases call_cut _ _ cut with rfl | rfl
      · exact resumable
      · rw [process_restore (valid.unitNames unit member)]
        split
        · exact resumable_replaced resumable member
        · exact resumable
    · exact fun _ u kept u' cut => ih (fun unit member => listed unit (List.mem_cons_of_mem _ member)) kept cut

theorem restoreViews_cut (valid : Valid r w₀) (start : Resumable r w₀ [] v) {views : List ViewArtifact}
    (listed : ∀ view ∈ views, view ∈ r.plan.views) (ordered : completed ++ views.map viewUnitId <+: r.ids)
    (stage : Stage r w₀.objects (withDatabases v.server (wantedDatabases r)) [] completed w)
    (clear : Clear r [] (withDatabases v.server (wantedDatabases r))) {count : Nat}
      (cut : Cut handle (restoreViews r.codec r.client r.options views (r.checkpointOf completed) count) w w') :
    ∃ after, Resumable r w₀ after w' := by
  induction views generalizing completed w count with
  | nil =>
    rw [cut_done handle cut]
    exact ⟨completed,stage_resumable start stage (ordered_now ordered)⟩
  | cons view rest ih =>
    have member := listed view List.mem_cons_self
    rw [List.map_cons] at ordered
    have open_ := ordered_open valid ordered
    have named := valid.viewNames view member
    have resumable := stage_resumable start stage (ordered_now ordered)
    have created := resumable_view valid resumable member open_ (some (viewState view))
    have stage' := stage_view valid stage member open_
    unfold restoreViews at cut
    rw [if_neg fun finished => open_ ((isDone_iff valid.configured completed _).mp finished)] at cut
    rcases (cut_bind handle).mp cut with inside | ⟨_,middle,ran,later⟩
    · obtain ⟨state,rfl⟩ := restoreView_cut named inside
      exact ⟨completed,resumable_view valid resumable member open_ state⟩
    · rw [restoreView_run named w (stage_clear valid clear stage member open_)] at ran
      cases ran
      rcases (cut_bind handle).mp later with inside | ⟨_,middle,ran,later⟩
      · rcases record_cut valid.configured inside with rfl | rfl
        · exact ⟨completed,created⟩
        · exact ⟨_,stage_resumable start stage' (ordered_now (ordered_next ordered))⟩
      · rw [record_run valid.configured] at ran
        cases ran
        exact ih (fun view member => listed view (List.mem_cons_of_mem _ member))
          (ordered_next ordered) stage' later

theorem loadCollections_cut (valid : Valid r w₀) (start : Resumable r w₀ [] v)
    {units : List RestoreUnit} {reporting : Bool}
    (listed : ∀ unit ∈ units, unit ∈ r.plan.units)
      (ordered : completed ++ units.map (fun unit => unitId unit.1) <+: r.ids)
    (stage : Stage r w₀.objects (withDatabases v.server (wantedDatabases r)) [] completed w)
      {summary : RestoreSummary}
    (cut : Cut handle (loadCollections r.codec r.client r.store r.options r.plan.manifest reporting units
      (r.checkpointOf completed) summary) w w') : ∃ after, Resumable r w₀ after w' := by
  induction units generalizing completed w summary with
  | nil =>
    rw [cut_done handle cut]
    exact ⟨completed,stage_resumable start stage (ordered_now ordered)⟩
  | cons unit rest ih =>
    have member := listed unit List.mem_cons_self
    rw [List.map_cons] at ordered
    have open_ := ordered_open valid ordered
    have resumable := stage_resumable start stage (ordered_now ordered)
    have fresh := stage.pendingUnits unit member open_
    have loaded := resumable_collection valid resumable member open_ (r.loaded unit)
    have stage' := stage_unit valid stage member
    unfold loadCollections at cut
    rw [if_neg fun finished => open_ ((isDone_iff valid.configured completed _).mp finished)] at cut
    rcases (cut_bind handle).mp cut with inside | ⟨_,middle,ran,later⟩
    · obtain ⟨state,rfl⟩ := loadCollectionData_cut (by rw [fresh]; rfl) inside
      exact ⟨completed,resumable_collection valid resumable member open_ state⟩
    · rw [loadCollectionData_run valid stage.objects member fresh] at ran
      cases ran
      rcases (cut_bind handle).mp later with inside | ⟨_,middle,ran,later⟩
      · rcases record_cut valid.configured inside with rfl | rfl
        · exact ⟨completed,loaded⟩
        · exact ⟨_,stage_resumable start stage' (ordered_now (ordered_next ordered))⟩
      · rw [record_run valid.configured] at ran
        cases ran
        rcases (cut_bind handle).mp later with inside | ⟨_,middle,ran,later⟩
        · have quiet : w' = recordedWorld r completed (unitId unit.1)
              (w.server.putCollection (r.unitKey unit) (r.loaded unit)) w := by
            split at inside
            · rcases cut_perform handle inside with same | emitted
              · exact same
              · exact emitted
            · exact cut_done handle inside
          rw [quiet]
          exact ⟨_,stage_resumable start stage' (ordered_now (ordered_next ordered))⟩
        · rw [reported_run] at ran
          cases ran
          exact ih (fun unit member => listed unit (List.mem_cons_of_mem _ member))
            (ordered_next ordered) stage' later

theorem unrecorded_all {ids : List String} (distinct : (completed ++ ids).Nodup) :
    unrecorded completed ids = ids := by
  apply List.filter_eq_self.mpr
  intro id member
  rw [List.nodup_append] at distinct
  have absent : id ∉ completed := fun present => distinct.2.2 id present id member rfl
  simp [absent]

theorem resumable_prepared (resumable : Resumable r w₀ completed w) :
    Resumable r w₀ completed {w with server := withDatabases w.server (wantedDatabases r)} := by
  refine ⟨resumable.ordered,resumable.objects,resumable.checkpoint,?_,resumable.recordedUnits,
    resumable.otherCollections,
    resumable.recordedViews,resumable.otherViews⟩
  rw [withDatabases_idem]
  exact resumable.databases

theorem restorePhases_cut (valid : Valid r w₀) (start : Resumable r w₀ [] v)
    (clear : Clear r [] v.server) {reporting : Bool}
    (cut : Cut handle (restorePhases r.codec r.client r.store r.options reporting r.plan (r.checkpointOf []))
      {v with server := withDatabases v.server (wantedDatabases r)} w') : ∃ after, Resumable r w₀ after w' := by
  obtain ⟨linkedIds,unitIds,aliasIds⟩ := ids_parts valid
  have distinct := ids_nodup valid
  have prepared := resumable_prepared start
  have clear : Clear r [] (withDatabases v.server (wantedDatabases r)) := clear
  unfold restorePhases at cut
  rcases (cut_bind handle).mp cut with inside | ⟨_,w₁,ran,later⟩
  · exact ⟨[],createCollections_cut valid (fun unit member => member) prepared inside⟩
  have created := createCollections_run valid.configured [] valid.unitNames valid.unitKeys
    {v with server := withDatabases v.server (wantedDatabases r)} fun unit member open_ => by
      rcases clear with replacing | ⟨free,_⟩
      · exact .inl replacing
      · exact .inr (free unit member open_)
  rw [created] at ran
  cases ran
  have stage := stage_start valid start
  have linked : r.linkedViews = r.plan.views.filter fun view => !view.isSearchAlias := rfl
  have aliases : r.aliasViews = r.plan.views.filter ViewArtifact.isSearchAlias := rfl
  rw [← linked,← aliases] at later
  have ordered : [] ++ r.linkedViews.map viewUnitId <+: r.ids :=
    (List.prefix_append _ _).trans (List.prefix_append _ (r.aliasViews.map viewUnitId))
  rcases (cut_bind handle).mp later with inside | ⟨_,w₂,ran,later⟩
  · exact restoreViews_cut valid start (fun view => linked_listed) ordered stage clear inside
  obtain ⟨count,w₂',ran₂,stage₂⟩ := restoreViews_run valid (fun view => linked_listed) linkedIds stage
    (fun view member => stage_clear valid clear stage (linked_listed member)) 0
  rw [ran₂] at ran
  cases ran
  rw [unrecorded_all (by simpa using linkedIds),List.nil_append] at stage₂ later
  rcases (cut_bind handle).mp later with inside | ⟨_,w₃,ran,later⟩
  · exact loadCollections_cut valid start (fun unit member => member) (List.prefix_append _ _) stage₂ inside
  obtain ⟨summary,w₃',ran₃,stage₃,_⟩ :=
    loadCollections_run valid reporting (fun unit member => member) unitIds stage₂
    {collections := r.plan.units.length}
  rw [ran₃] at ran
  cases ran
  unfold Restoration.ids at distinct
  rw [unrecorded_all distinct.of_append_left] at stage₃ later
  rcases (cut_bind handle).mp later with inside | ⟨_,w₄,ran,later⟩
  · exact restoreViews_cut valid start (fun view => alias_listed) (List.prefix_refl _) stage₃ clear inside
  obtain ⟨count',w₄',ran₄,stage₄⟩ := restoreViews_run valid (fun view => alias_listed) aliasIds stage₃
    (fun view member => stage_clear valid clear stage₃ (alias_listed member)) count
  rw [ran₄] at ran
  cases ran
  rw [unrecorded_all distinct] at stage₄
  rw [cut_done handle later]
  exact ⟨_,stage_resumable start stage₄ (List.prefix_refl _)⟩

-- Wherever a program is cut, at most some of `names` have been added.
def OnlyDatabases (names : List String) (w w' : World) : Prop :=
  ∃ databases, w' = {w with server := {w.server with databases := databases}} ∧
    (withDatabases w'.server names).databases = (withDatabases w.server names).databases

theorem onlyDatabases_refl (names : List String) (w : World) : OnlyDatabases names w w := ⟨_,rfl,rfl⟩

theorem onlyDatabases_trans {names : List String} {w v u : World} (first : OnlyDatabases names w v)
    (second : OnlyDatabases names v u) : OnlyDatabases names w u := by
  obtain ⟨_,rfl,same⟩ := first
  obtain ⟨databases,rfl,same'⟩ := second
  exact ⟨databases,rfl,same'.trans same⟩

theorem createDatabase_cut {client : Client} {names : List String} {name : String} (member : name ∈ names)
    (cut : Cut handle (client.createDatabase name) w w') : OnlyDatabases names w w' := by
  rcases call_cut _ _ (tolerating_cut cut) with rfl | rfl
  · exact onlyDatabases_refl _ _
  · rw [process_createDatabase]
    refine ⟨_,rfl,?_⟩
    funext other
    by_cases equal : other = name
    · simp [withDatabases,equal,member]
    · simp [withDatabases,equal]

theorem createDatabases_cut {client : Client} {names : List String} {databases : List (Option String)}
    (listed : ∀ name ∈ databases.filterMap id, name ∈ names)
      (cut : Cut handle (createDatabases client databases) w w') :
    OnlyDatabases names w w' := by
  induction databases generalizing w w' with
  | nil =>
    rw [cut_done handle cut]
    exact onlyDatabases_refl _ _
  | cons database rest ih =>
    cases database with
    | none => exact ih (by simpa using listed) cut
    | some name =>
      have first : name ∈ names := listed name (List.mem_cons_self)
      have later : ∀ name ∈ rest.filterMap id, name ∈ names :=
        fun name member => listed name (List.mem_cons_of_mem _ member)
      unfold createDatabases at cut
      refine cut_seq handle _ (OnlyDatabases names w) (fun _ cut => createDatabase_cut first cut)
        (fun _ only => only) ?_ cut
      exact fun _ v only u cut => onlyDatabases_trans only (ih later cut)

theorem prepareDatabases_cut (cut : Cut handle (prepareDatabases r.client r.options r.plan) w w') :
    OnlyDatabases (wantedDatabases r) w w' := by
  unfold prepareDatabases at cut
  unfold wantedDatabases
  split at cut
  · rename_i several
    rw [if_pos several]
    exact createDatabases_cut (fun _ member => member) cut
  · rename_i single
    rw [if_neg single]
    split at cut
    · rename_i database wanted
      rw [wanted]
      exact createDatabase_cut (by simp) cut
    · rw [cut_done handle cut]
      exact onlyDatabases_refl _ _

theorem resumable_databases (resumable : Resumable r w₀ completed w)
    (only : OnlyDatabases (wantedDatabases r) w w') :
    Resumable r w₀ completed w' := by
  obtain ⟨databases,rfl,same⟩ := only
  exact ⟨resumable.ordered,resumable.objects,resumable.checkpoint,same.trans resumable.databases,
    resumable.recordedUnits,
    resumable.otherCollections,resumable.recordedViews,resumable.otherViews⟩

theorem initialCheckpoint_cut (configured : r.options.checkpoint = some r.checkpoint)
    (unsaved : w.objects r.checkpoint = none)
    (cut : Cut handle (initialCheckpoint r.codec r.options r.plan.manifest.fingerprint) w w') : w' = w := by
  unfold initialCheckpoint at cut
  rw [configured] at cut
  unfold loadRestoreCheckpoint ObjectRef.exists ask at cut
  simp only [bind_assoc] at cut
  rcases (cut_bind handle).mp cut with inside | ⟨_,middle,ran,later⟩
  · rcases cut_perform handle inside with same | headed
    · exact same
    · exact headed
  · cases ran
    simp only [handle,unsaved] at later
    exact cut_done handle later

theorem readPlan_cut {codec : Codec} {store : Nat} (cut : Cut handle (readPlan codec store) w w') : w' = w := by
  unfold readPlan at cut
  refine cut_seq handle (fun v => v = w) (fun v => v = w) ?_ (fun _ same => same) ?_ cut
  · have reads : ReadsOnly store [Restore.manifestName] (readManifest codec store) :=
      readsOnly_bind (readsOnly_object codec (by simp) _) fun _ => readsOnly_lift _
    exact fun v cut => reads.stays w v cut
  · rintro manifest _ rfl u cut
    exact (readsOnly_plan codec manifest).stays _ u cut

theorem program_cut (valid : Valid r w₀) (saves : SavesCheckpoints r)
    (unsaved : w₀.objects r.checkpoint = none) (clear : Clear r [] w₀.server)
    {reporting : Bool} (cut : Cut handle (r.program reporting) w₀ w) : ∃ completed,
    Resumable r w₀ completed w := by
  have start := resumable_start unsaved
  unfold Restoration.program runRestoreWithProgress at cut
  rcases (cut_bind handle).mp cut with inside | ⟨_,_,ran,later⟩
  · rw [readPlan_cut inside]
    exact ⟨[],start⟩
  rw [valid.reads] at ran
  cases ran
  rcases (cut_bind handle).mp later with inside | ⟨_,_,ran,later⟩
  · exact ⟨[],resumable_databases start (prepareDatabases_cut inside)⟩
  rw [prepareDatabases_run] at ran
  cases ran
  rcases (cut_bind handle).mp later with inside | ⟨_,_,ran,later⟩
  · rw [initialCheckpoint_cut (w:={w₀ with server := withDatabases w₀.server (wantedDatabases r)})
      valid.configured unsaved
      inside]
    exact ⟨[],resumable_prepared start⟩
  · have loaded := initialCheckpoint_run (w:={w₀ with server := withDatabases w₀.server (wantedDatabases r)})
      valid.configured saves start.ordered start.checkpoint
    rw [loaded] at ran
    cases ran
    exact restorePhases_cut valid start clear later

end FirstRun
end ArangoDataTools.RestoreCut
