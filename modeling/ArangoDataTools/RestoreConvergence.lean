import ArangoDataTools.RestoreCut

namespace ArangoDataTools.RestoreConvergence
open Interaction Interaction.Program Restore RestoreServer RestorePlan RestoreStage RestoreResume RestoreCut

-- What the checkpoint object of a world lists.
def recordedAt (r : Restoration) (w : World) : List String :=
  match w.objects r.checkpoint with
  | none => []
  | some bytes => match r.codec.checkpointFromJson bytes with
    | .ok checkpoint => checkpoint.completed
    | .error _ => []

-- Every collection of the dump that a recorded view is linked to is recorded.
def LinksRecorded (r : Restoration) (w : World) : Prop :=
  ∀ view ∈ r.plan.views, viewUnitId view ∈ recordedAt r w → ∀ unit ∈ r.plan.units,
    (r.unitKey unit).1 = (r.viewKey view).1 → unit.1.name ∈ viewLinks view.definition →
    unitId unit.1 ∈ recordedAt r w

section Converge
variable {r : Restoration} {w₀ w : World} {completed : List String}

theorem recordedAt_resumable (saves : SavesCheckpoints r) (resumable : Resumable r w₀ completed w) :
    recordedAt r w = completed := by
  unfold recordedAt
  rw [resumable.checkpoint]
  by_cases empty : completed = []
  · simp [stored,empty]
  · simp only [stored,if_neg empty]
    rw [saves completed resumable.ordered]
    rfl

theorem keptView_whole (replacing : r.options.overwrite = true) (view : ViewArtifact) :
    keptView r completed view = viewState view ↔ (viewUnitId view ∈ completed → ∀ unit ∈ r.plan.units,
      (r.unitKey unit).1 = (r.viewKey view).1 → unit.1.name ∈ viewLinks view.definition →
      unitId unit.1 ∈ completed) := by
  unfold keptView
  split
  · rename_i recorded
    have links : ({viewState view with links := keptLinks r completed view} : ViewState) = viewState view ↔
        keptLinks r completed view = (viewState view).links := by
      constructor
      · exact fun same => congrArg ViewState.links same
      · exact fun same => by rw [same]
    rw [links]
    unfold keptLinks
    rw [List.filter_eq_self,viewState_links]
    constructor
    · intro kept _ unit member database link
      by_contra open_
      have dropped : r.droppedAmong completed r.plan.units ((r.viewKey view).1,unit.1.name) = true := by
        unfold Restoration.droppedAmong
        rw [replacing,Bool.true_and]
        refine List.any_eq_true.mpr ⟨unit,member,?_⟩
        rw [← database]
        simp [open_,Restoration.unitKey]
      have keeps := kept unit.1.name link
      rw [dropped] at keeps
      cases keeps
    · intro all link listed
      cases dropped : r.droppedAmong completed r.plan.units ((r.viewKey view).1,link) with
      | false => rfl
      | true =>
        unfold Restoration.droppedAmong at dropped
        obtain ⟨unit,member,holds⟩ := List.any_eq_true.mp (Bool.and_eq_true_iff.mp dropped).2
        simp only [Bool.and_eq_true,decide_eq_true_eq,Bool.not_eq_true',decide_eq_false_iff_not] at holds
        obtain ⟨key,open_⟩ := holds
        have parts := Prod.ext_iff.mp key
        have name : unit.1.name = link := parts.2
        subst name
        exact absurd (all recorded unit member parts.1 listed) open_
  · rename_i open_
    exact ⟨fun _ recorded => absurd recorded open_,fun _ => rfl⟩

-- Re-run from wherever the first run was cut, an overwriting restore ends well;
-- what it leaves is what one run leaves just if no recorded view has lost a link.
theorem resumed_restore_converges_iff (valid : Valid r w₀) (saves : SavesCheckpoints r)
    (unsaved : w₀.objects r.checkpoint = none) (replacing : r.options.overwrite = true) (reporting : Bool)
    (cut : Cut handle (r.program reporting) w₀ w) :
    (∃ summary w', run handle (r.program reporting) w = (.ok summary,w')) ∧
    ((∀ summary w', run handle (r.program reporting) w = (.ok summary,w') →
      w'.server = (run handle (r.program reporting) w₀).2.server) ↔ LinksRecorded r w) := by
  obtain ⟨completed,resumable⟩ := program_cut valid saves unsaved (.inl replacing) cut
  obtain ⟨_,whole,straight,restored⟩ := resumed_run valid saves reporting (resumable_start unsaved)
      (.inl replacing)
  obtain ⟨summary,w',again,restored'⟩ := resumed_run valid saves reporting resumable (.inl replacing)
  refine ⟨⟨summary,w',again⟩,?_⟩
  have same := restored_same restored restored'
  have links : LinksRecorded r w ↔ ∀ view ∈ r.plan.views, keptView r completed view = viewState view := by
    unfold LinksRecorded
    rw [recordedAt_resumable saves resumable]
    exact forall₂_congr fun view _ => (keptView_whole replacing view).symm
  rw [links,← same,straight]
  constructor
  · intro all
    exact all summary w' again
  · intro equal summary w'' ran
    rw [again] at ran
    cases ran
    exact equal

theorem cut_after_views (valid : Valid r w₀) (saves : SavesCheckpoints r)
    (unsaved : w₀.objects r.checkpoint = none)
    (clear : Clear r [] w₀.server) (reporting : Bool) :
    ∃ w, Cut handle (r.program reporting) w₀ w ∧ Resumable r w₀ (r.linkedViews.map viewUnitId) w ∧
      ∀ unit ∈ r.plan.units, unitId unit.1 ∉ r.linkedViews.map viewUnitId ∧
        w.server.collections (r.unitKey unit) = some (freshState unit) := by
  have start := resumable_start unsaved
  have stage := stage_start valid start
  have clear : Clear r [] (withDatabases w₀.server (wantedDatabases r)) := clear
  obtain ⟨linkedIds,_⟩ := ids_parts valid
  have created := createCollections_run valid.configured [] valid.unitNames valid.unitKeys
    {w₀ with server := withDatabases w₀.server (wantedDatabases r)} fun unit member open_ => by
      rcases clear with replacing | ⟨free,_⟩
      · exact .inl replacing
      · exact .inr (free unit member open_)
  obtain ⟨count,w,ran,stage'⟩ := restoreViews_run valid (fun view => linked_listed) linkedIds stage
    (fun view member => stage_clear valid clear stage (linked_listed member)) 0
  rw [unrecorded_all (by simpa using linkedIds),List.nil_append] at ran stage'
  have ordered : r.linkedViews.map viewUnitId <+: r.ids :=
    (List.prefix_append _ _).trans (List.prefix_append _ (r.aliasViews.map viewUnitId))
  have open_ : ∀ unit ∈ r.plan.units, unitId unit.1 ∉ r.linkedViews.map viewUnitId := by
    intro unit member recorded
    obtain ⟨view,present,same⟩ := List.mem_map.mp recorded
    exact viewUnitId_ne valid (linked_listed present) member same
  refine ⟨w,?_,stage_resumable start stage' ordered,fun unit member =>
    ⟨open_ unit member,stage'.pendingUnits unit member (open_ unit member)⟩⟩
  have loaded := initialCheckpoint_run (w:={w₀ with server := withDatabases w₀.server (wantedDatabases r)})
    valid.configured saves start.ordered start.checkpoint
  unfold Restoration.program runRestoreWithProgress
  refine (cut_bind handle).mpr (.inr ⟨_,_,valid.reads,?_⟩)
  refine (cut_bind handle).mpr (.inr ⟨_,_,prepareDatabases_run w₀,?_⟩)
  refine (cut_bind handle).mpr (.inr ⟨_,_,loaded,?_⟩)
  refine (cut_bind handle).mpr (.inr ⟨_,_,created,?_⟩)
  refine (cut_bind handle).mpr (.inl ?_)
  have ended := cut_run handle (restoreViews r.codec r.client r.options r.linkedViews (r.checkpointOf []) 0)
    {w₀ with server := createAll r [] r.plan.units (withDatabases w₀.server (wantedDatabases r))}
  rw [ran] at ended
  exact ended

theorem linked_view_loses_links (valid : Valid r w₀) (saves : SavesCheckpoints r)
    (unsaved : w₀.objects r.checkpoint = none)
    (replacing : r.options.overwrite = true) (reporting : Bool) (view : ViewArtifact) (unit : RestoreUnit)
    (member : view ∈ r.linkedViews) (present : unit ∈ r.plan.units)
      (database : (r.unitKey unit).1 = (r.viewKey view).1)
    (link : unit.1.name ∈ viewLinks view.definition) :
    ∃ w summary w', Cut handle (r.program reporting) w₀ w ∧ run handle (r.program reporting) w =
      (.ok summary,w') ∧
      w'.server ≠ (run handle (r.program reporting) w₀).2.server := by
  obtain ⟨w,cut,resumable,pending⟩ := cut_after_views valid saves unsaved (.inl replacing) reporting
  obtain ⟨_,whole,straight,restored⟩ := resumed_run valid saves reporting (resumable_start unsaved)
      (.inl replacing)
  obtain ⟨summary,w',again,restored'⟩ := resumed_run valid saves reporting resumable (.inl replacing)
  refine ⟨w,summary,w',cut,again,?_⟩
  rw [straight]
  intro equal
  have kept := (restored_same restored restored').mp equal view (linked_listed member)
  have recorded := (keptView_whole replacing view).mp kept
      (List.mem_map_of_mem member) unit present database link
  exact (pending unit present).1 recorded

end Converge
section Sample

-- A dump of one collection and one view linked to it, and a codec that prints
-- and reads just the texts its restore comes across.
def sampleParameters : Value := .object [("name",.string "c"),("type",.number (.posInt 2))]
def sampleIndex : Value := .object [("fields",.array [.string "sku"]),("type",.string "persistent")]
def sampleStructure : Value := .object [("indexes",.array [sampleIndex]),("parameters",sampleParameters)]
def sampleDefinition : Value :=
  .object [("links",.object [("c",.object [])]),("name",.string "v"),("type",.string "arangosearch")]

def sampleArtifacts : List Artifact := [
  {path := "c.structure.json",kind := .structureDef,format := .json,byteSize := 87,collection := some "c"},
  {path := "c.data.jsonl",kind := .data,format := .jsonl,byteSize := 13,collection := some "c",part := some 0},
  {path := "v.view.json",kind := .view,format := .json,byteSize := 51,view := some "v"}]
def sampleManifest : Manifest :=
  {Manifest.new "shop" "0.1.0" "2026-06-01T00:00:00Z" with artifacts := sampleArtifacts}

def structureText : Bytes :=
  asciiBytes ("\x7b\"indexes\":[\x7b\"fields\":[\"sku\"],\"type\":\"persistent\"\x7d]," ++
  "\"parameters\":\x7b\"name\":\"c\",\"type\":2\x7d\x7d")
def viewText : Bytes := asciiBytes
    "\x7b\"links\":\x7b\"c\":\x7b\x7d\x7d,\"name\":\"v\",\"type\":\"arangosearch\"\x7d"
def dataText : Bytes := asciiBytes "\x7b\"_key\":\"1\"\x7d\n"
def artifactTexts : String := "\x7b\"path\":\"c.structure.json\",\"kind\":\"structure\",\"format\":\"json\"," ++
  "\"compression\":\"none\",\"byte_size\":87,\"collection\":\"c\"\x7d," ++
  "\x7b\"path\":\"c.data.jsonl\",\"kind\":\"data\",\"format\":\"jsonl\",\"compression\":\"none\",\"byte_size\":13," ++
  "\"collection\":\"c\",\"part\":0\x7d,\x7b\"path\":\"v.view.json\",\"kind\":\"view\",\"format\":\"json\"," ++
  "\"compression\":\"none\",\"byte_size\":51,\"view\":\"v\"\x7d"
def manifestText : Bytes := asciiBytes ("\x7b\"manifest_version\":1,\"tool_version\":\"0.1.0\"," ++
  "\"created_at\":\"2026-06-01T00:00:00Z\",\"database\":\"shop\",\"encryption\":\x7b\"algorithm\":\"none\"\x7d," ++
  "\"artifacts\":[" ++ artifactTexts ++ "]\x7d")

def listing (completed : List String) : Bytes :=
  asciiBytes (",".intercalate (completed.map fun id => "\"" ++ id ++ "\""))
def checkpointText (checkpoint : RestoreCheckpoint) : Bytes :=
  asciiBytes ("\x7b\"manifest\":\"" ++ checkpoint.manifest ++ "\",\"completed\":[") ++
    listing checkpoint.completed ++
    asciiBytes "]\x7d"

def readCheckpointOf (manifest : Manifest) (orders : List (List String)) (bytes : Bytes) :
    Except Error RestoreCheckpoint :=
  match orders.find? fun completed => decide (checkpointText ⟨manifest.fingerprint,completed⟩ = bytes) with
  | some completed => .ok ⟨manifest.fingerprint,completed⟩
  | none => .error (.serialization "expected value at line 1 column 1")

def parseValue (bytes : Bytes) : Except Error Value :=
  if bytes = viewText then .ok sampleDefinition else if bytes = structureText then .ok sampleStructure
  else .error (.serialization "expected value at line 1 column 1")

def parseManifest (bytes : Bytes) : Except Error Manifest :=
  if bytes = manifestText then .ok sampleManifest
    else .error (.serialization "expected value at line 1 column 1")

def sampleOrders : List (List String) := [[],["::view::v"],["::view::v","::c"]]

def sampleCodec : Codec where
  toVecPretty _ := []
  fromSlice := parseValue
  manifestToJson _ := manifestText
  manifestFromJson := parseManifest
  checkpointToJson := checkpointText
  checkpointFromJson := readCheckpointOf sampleManifest sampleOrders
  encode _ bytes := bytes
  decode _ bytes := .ok bytes
  sha256 _ := []

def sampleObjects (object : ObjectRef) : Option Bytes :=
  if object = ⟨0,Restore.manifestName⟩ then some manifestText
  else if object = ⟨0,"c.structure.json"⟩ then some structureText
  else if object = ⟨0,"c.data.jsonl"⟩ then some dataText
  else if object = ⟨0,"v.view.json"⟩ then some viewText
  else none

def sampleServer : Server :=
  ⟨fun name => decide (name = "_system" ∨ name = "target"),fun _ => none,fun _ => none⟩
def sampleWorld : World := ⟨sampleServer,sampleObjects⟩

def sampleUnit : RestoreUnit :=
  (⟨"c",none,"c.structure.json",["c.data.jsonl"]⟩,⟨sampleParameters,[sampleIndex],false⟩)
def sampleView : ViewArtifact := ⟨"v",none,sampleDefinition⟩

def sample (overwrite : Bool) : Restoration where
  codec := sampleCodec
  client := {database := "target"}
  store := 0
  options := {overwrite := overwrite,checkpoint := some ⟨1,"restore.checkpoint.json"⟩}
  checkpoint := ⟨1,"restore.checkpoint.json"⟩
  plan := ⟨sampleManifest,[sampleUnit],[none],[sampleView]⟩
  bodies _ := dataText

theorem readObject_run {codec : Codec} {store : Nat} {path : String} {compression : Compression}
    {bytes : Bytes} {w : World}
    (present : w.objects ⟨store,path⟩ = some bytes) :
    run handle (readObject codec store path compression) w = (codec.decode compression bytes,w) := by
  have fetched : run handle (⟨store,path⟩ : ObjectRef).get w = (.ok bytes,w) := by
    unfold ObjectRef.get ask
    rw [run_bind_ok handle (run_perform handle _ w)]
    simp [handle,present,lift]
  unfold readObject
  rw [run_bind_ok handle fetched]
  cases codec.decode compression bytes with
  | ok value => rfl
  | error err => rfl

theorem structure_not_view : structureText ≠ viewText := by decide

theorem sampleObject_read {path : String} {bytes : Bytes} (present : sampleObjects ⟨0,path⟩ = some bytes) :
    run handle (readObject sampleCodec 0 path .none) sampleWorld = (.ok bytes,sampleWorld) :=
    readObject_run present

theorem sampleCodec_manifest : sampleCodec.manifestFromJson = parseManifest := rfl
theorem sampleCodec_value : sampleCodec.fromSlice = parseValue := rfl

theorem parseManifest_text : parseManifest manifestText = .ok sampleManifest := by rw [parseManifest,if_pos rfl]
theorem parseValue_view : parseValue viewText = .ok sampleDefinition := by rw [parseValue,if_pos rfl]
theorem parseValue_structure : parseValue structureText = .ok sampleStructure := by
  rw [parseValue,if_neg structure_not_view,if_pos rfl]

theorem sampleObjects_manifest : sampleObjects ⟨0,Restore.manifestName⟩ = some manifestText := if_pos rfl
theorem sampleObjects_structure : sampleObjects ⟨0,"c.structure.json"⟩ = some structureText := by
  simp [sampleObjects,Restore.manifestName]
theorem sampleObjects_data : sampleObjects ⟨0,"c.data.jsonl"⟩ = some dataText := by
  simp [sampleObjects,Restore.manifestName]
theorem sampleObjects_view : sampleObjects ⟨0,"v.view.json"⟩ = some viewText := by
  simp [sampleObjects,Restore.manifestName]

theorem sample_manifest : run handle (readManifest sampleCodec 0) sampleWorld =
    (.ok sampleManifest,sampleWorld) := by
  have fetched := sampleObject_read sampleObjects_manifest
  unfold readManifest
  rw [run_bind_ok handle fetched,sampleCodec_manifest,parseManifest_text]
  rfl

theorem sample_units : run handle (readUnits sampleCodec 0 (groupByCollection sampleManifest)) sampleWorld =
    (.ok [sampleUnit],sampleWorld) := by
  have grouped : groupByCollection sampleManifest = [sampleUnit.1] := by decide
  have read : run handle (readStructure sampleCodec 0 sampleUnit.1) sampleWorld =
      (.ok sampleUnit.2,sampleWorld) := by
    unfold readStructure
    rw [if_neg (by decide)]
    have fetched := sampleObject_read sampleObjects_structure
    change run handle ((readObject sampleCodec 0 "c.structure.json" .none).bind _) sampleWorld = _
    rw [run_bind_ok handle fetched,sampleCodec_value,parseValue_structure]
    rfl
  rw [grouped]
  unfold readUnits
  rw [run_bind_ok handle read]
  rfl

theorem sample_views : run handle (readViews sampleCodec 0 sampleManifest.artifacts) sampleWorld =
    (.ok [sampleView],sampleWorld) := by
  have fetched := sampleObject_read sampleObjects_view
  change run handle ((readObject sampleCodec 0 "v.view.json" .none).bind _) sampleWorld = _
  rw [run_bind_ok handle fetched,sampleCodec_value,parseValue_view]
  rfl

theorem sample_reads (overwrite : Bool) :
    run handle (readPlan (sample overwrite).codec (sample overwrite).store) sampleWorld =
      (.ok (sample overwrite).plan,sampleWorld) := by
  have plain : run handle (lift (validate sampleManifest)) sampleWorld = (.ok (),sampleWorld) := rfl
  change run handle (readPlan sampleCodec 0) sampleWorld = _
  unfold readPlan
  rw [run_bind_ok handle sample_manifest,run_bind_ok handle plain,run_bind_ok handle sample_units,
    run_bind_ok handle sample_views]
  rfl

theorem sample_valid (overwrite : Bool) : Valid (sample overwrite) sampleWorld := by
  constructor
  · rfl
  · exact sample_reads overwrite
  · intro unit member path listed
    rw [List.mem_singleton.mp member] at listed
    rw [List.mem_singleton.mp listed]
    exact readObject_run sampleObjects_data
  · intro path _ equal
    cases equal
  · intro unit member
    rw [List.mem_singleton.mp member]
    rfl
  · intro view member
    rw [List.mem_singleton.mp member]
    rfl
  · exact List.nodup_singleton _
  · exact List.nodup_singleton _
  · intro unit member
    rw [List.mem_singleton.mp member]
    exact ⟨by simp [Plain,sampleUnit],fun _ equal => by cases equal⟩
  · intro view member
    rw [List.mem_singleton.mp member]
    exact fun _ equal => by cases equal

theorem readCheckpointOf_text {manifest : Manifest} {orders : List (List String)} {completed : List String}
    (apart : (orders.map listing).Nodup) (member : completed ∈ orders) :
    readCheckpointOf manifest orders (checkpointText ⟨manifest.fingerprint,completed⟩) =
      .ok ⟨manifest.fingerprint,completed⟩ := by
  unfold readCheckpointOf
  cases found : orders.find? fun other =>
      decide (checkpointText ⟨manifest.fingerprint,other⟩ =
        checkpointText ⟨manifest.fingerprint,completed⟩) with
  | none => simpa using List.find?_eq_none.mp found completed member
  | some other =>
    have written : checkpointText ⟨manifest.fingerprint,other⟩ =
        checkpointText ⟨manifest.fingerprint,completed⟩ := by
      simpa using List.find?_some found
    have same : listing other = listing completed := by
      simpa only [checkpointText,List.append_cancel_left_eq,List.append_cancel_right_eq] using written
    rw [List.inj_on_of_nodup_map apart (List.mem_of_find?_eq_some found) member same]

theorem sample_saves (overwrite : Bool) : SavesCheckpoints (sample overwrite) := by
  intro completed listed
  have ids : (sample overwrite).ids = ["::view::v","::c"] := by
    cases overwrite <;> decide
  have apart : (sampleOrders.map listing).Nodup := by decide
  have member : completed ∈ sampleOrders := by
    rw [ids] at listed
    simp only [List.prefix_cons_iff,List.prefix_nil] at listed
    rcases listed with rfl | ⟨rest,rfl,rfl | ⟨rest,rfl,rfl⟩⟩ <;> simp [sampleOrders]
  exact readCheckpointOf_text apart member

-- The link of `v` to `c` is gone when the run stopped after phase 2 is resumed.
theorem resumed_restore_loses_link : Valid (sample true) sampleWorld ∧ SavesCheckpoints (sample true) ∧
    ¬ ∀ w summary w', Cut handle ((sample true).program false) sampleWorld w →
      run handle ((sample true).program false) w = (.ok summary,w') →
      w'.server = (run handle ((sample true).program false) sampleWorld).2.server := by
  refine ⟨sample_valid true,sample_saves true,?_⟩
  intro converges
  have link : sampleUnit.1.name ∈ viewLinks sampleView.definition := List.mem_singleton.mpr rfl
  obtain ⟨w,summary,w',cut,ran,differs⟩ :=
    linked_view_loses_links (sample_valid true) (sample_saves true) rfl rfl false
    sampleView sampleUnit (List.mem_singleton.mpr rfl) (List.mem_singleton.mpr rfl) rfl link
  exact differs (converges w summary w' cut ran)

-- Cut between the view and the data of the collection it is linked to.
theorem restore_converges_but_for_link : ∃ w, Cut handle ((sample true).program false) sampleWorld w ∧
    recordedAt (sample true) w = ["::view::v"] ∧
    (∃ summary w', run handle ((sample true).program false) w = (.ok summary,w')) ∧
    ((∀ summary w', run handle ((sample true).program false) w = (.ok summary,w') →
      w'.server = (run handle ((sample true).program false) sampleWorld).2.server) ↔
      LinksRecorded (sample true) w) := by
  obtain ⟨w,cut,resumable,-⟩ := cut_after_views (sample_valid true) (sample_saves true) rfl (.inl rfl) false
  have recorded := recordedAt_resumable (sample_saves true) resumable
  exact ⟨w,cut,recorded,resumed_restore_converges_iff (sample_valid true) (sample_saves true) rfl rfl false cut⟩

end Sample
end ArangoDataTools.RestoreConvergence
