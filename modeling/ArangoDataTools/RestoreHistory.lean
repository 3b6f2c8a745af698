import ArangoDataTools.RestoreAttempt
import ArangoDataTools.RestoreConvergence
import ArangoDataTools.DumpRestore

namespace ArangoDataTools.RestoreHistory
open Interaction Interaction.Program Restore RestoreTrace RestoreReading RestorePhases RestoreRefusal RestoreAttempt
open RestorePlan (Plain)

-- Runs one after the other that share a checkpoint object, each cut off
-- somewhere, with what each of them did.
inductive History (codec : Codec) (broken : ObjectRef → Prop) (store : Nat) (object : ObjectRef)
    (start : ObjectRef → Option Bytes) : (ObjectRef → Option Bytes) → List Past → Prop where
  | fresh : start object = none → History codec broken store object start start []
  | run (client : Client) (options : RestoreOptions) (reporting : Bool) (w : World) :
      History codec broken store object start objects past → options.checkpoint = some object →
      Runs (Answers codec broken) (runRestoreWithProgress codec client store options reporting)
        ⟨objects,[]⟩ q w →
      History codec broken store object start w.objects (past ++ [⟨client,options,w.log⟩])

section Histories
variable {codec : Codec} {broken : ObjectRef → Prop} {store : Nat} {object : ObjectRef}
  {start objects : ObjectRef → Option Bytes}
variable {past : List Past}

theorem unplanned_history (refused : DumpRefused codec broken start store)
    (history : History codec broken store object start objects past) : objects = start ∧
    start object = none := by
  induction history with
  | fresh absent => exact ⟨rfl,absent⟩
  | run client options reporting w earlier configured runs ih =>
    obtain ⟨same,absent⟩ := ih
    rw [same] at runs
    refine ⟨?_,absent⟩
    have quiet := @refused_dump_quiet codec broken start store client options reporting refused
    exact (quiet.everywhere _ _ w asked_start runs).1

structure Kept (codec : Codec) (store : Nat) (object : ObjectRef) (start : ObjectRef → Option Bytes)
    (plan : Plan)
    (objects : ObjectRef → Option Bytes) (past : List Past) : Prop where
  absent : start object = none
  same : ∀ other, other ≠ object → objects other = start other
  sound : ∀ checkpoint, persisted codec object objects = some checkpoint →
    Sound codec store plan past checkpoint

theorem run_kept {plan : Plan} (planned : Planned codec broken start store plan)
    (clear : ∀ named ∈ listed plan, named.Clear)
    (saves : SavesCheckpoints codec plan) (kept : Kept codec store object start plan objects past)
      {client : Client}
    {options : RestoreOptions} {reporting : Bool} (configured : options.checkpoint = some object)
      {q : Tool RestoreSummary} {w : World}
    (runs : Runs (Answers codec broken)
      (runRestoreWithProgress codec client store options reporting) ⟨objects,[]⟩ q w) :
    Kept codec store object start plan w.objects (past ++ [⟨client,options,w.log⟩]) ∧
      ∀ database request accepted,
      .sent database request accepted ∈ w.log →
      Issued client options plan (recorded codec object objects) database request := by
  let a : Attempt := ⟨codec,broken,store,object,start,plan,past,client,options,recorded codec object objects⟩
  have fits : a.Fits := ⟨configured,planned_keys planned,clear,saves⟩
  have still : Planned codec broken objects store plan := by
    apply planned_mono planned
    intro path bytes present
    rw [kept.same _ fun same => by rw [same,kept.absent] at present; cases present]
    exact present
  have held : a.Held ⟨objects,[]⟩ := by
    refine ⟨kept.same,?_,fun _ _ _ member => by cases member⟩
    intro checkpoint stored
    apply sound_mono _ (kept.sound checkpoint stored)
    exact fun run member => ⟨run,List.mem_append_left _ member,grows_refl run⟩
  have ended := (triple_restore fits still rfl reporting).everywhere _ q w ⟨rfl,held⟩ runs
  exact ⟨⟨kept.absent,ended.same,ended.sound⟩,ended.issued⟩

theorem history_kept {plan : Plan} (planned : Planned codec broken start store plan)
    (clear : ∀ named ∈ listed plan, named.Clear)
    (saves : SavesCheckpoints codec plan) (history : History codec broken store object start objects past) :
    Kept codec store object start plan objects past := by
  induction history with
  | fresh absent =>
    refine ⟨absent,fun _ _ => rfl,?_⟩
    intro checkpoint stored
    rw [persisted,absent] at stored
    cases stored
  | run client options reporting w earlier configured runs ih =>
      exact (run_kept planned clear saves ih configured runs).1

theorem recorded_work_done_and_not_redone
    (clear : ∀ plan, Planned codec broken start store plan → ∀ named ∈ listed plan, named.Clear)
    (saves : ∀ plan, Planned codec broken start store plan → SavesCheckpoints codec plan)
    (history : History codec broken store object start objects past) :
    (∀ checkpoint, persisted codec object objects = some checkpoint → ∃ plan,
    Planned codec broken start store plan ∧
      ∀ id ∈ checkpoint.completed, (∃! named, named ∈ listed plan ∧ named.id = id) ∧
      Done codec store plan past id) ∧
    (∀ client options reporting q w, options.checkpoint = some object →
      Runs (Answers codec broken) (runRestoreWithProgress codec client store options reporting)
        ⟨objects,[]⟩ q w →
      ∀ database request accepted, .sent database request accepted ∈ w.log → ∃ plan,
        Planned codec broken start store plan ∧
        Issued client options plan (recorded codec object objects) database request) := by
  by_cases refused : DumpRefused codec broken start store
  swap
  · obtain ⟨plan,planned⟩ := planned_unless_refused refused
    have kept := history_kept planned (clear plan planned) (saves plan planned) history
    constructor
    · intro checkpoint stored
      have sound := kept.sound checkpoint stored
      refine ⟨plan,planned,fun id member => ⟨?_,sound.finished id member⟩⟩
      obtain ⟨named,present,same⟩ := sound.known id member
      refine ⟨named,⟨present,same⟩,?_⟩
      intro other holds
      exact named_inj (clear plan planned other holds.1) (clear plan planned named present)
        (holds.2.trans same.symm)
    · intro client options reporting q w configured runs database request accepted sent
      exact ⟨plan,planned,
        (run_kept planned (clear plan planned) (saves plan planned) kept configured runs).2 database
          request accepted sent⟩
  · obtain ⟨rfl,absent⟩ := unplanned_history refused history
    constructor
    · intro checkpoint stored
      rw [persisted,absent] at stored
      cases stored
    · intro client options reporting q w configured runs database request accepted sent
      have quiet := @refused_dump_quiet codec broken objects store client options reporting refused
      exact ((quiet.everywhere _ q w asked_start runs).2 database request accepted sent).elim

end Histories

section Sample
open RestoreConvergence (checkpointText listing readCheckpointOf readCheckpointOf_text)

def structureAt (path : String) (database : Option String) : Artifact :=
  {path := path,kind := .structureDef,format := .json,byteSize := 96,collection := some "c",
    database := database}

def twinManifest : Manifest :=
  {Manifest.new "shop" "0.1.0" "2026-06-01T00:00:00Z" with
    artifacts := [structureAt "c.structure.json" none,structureAt "databases//c.structure.json" (some "")]}

def manifestText (artifacts : String) : Bytes :=
  asciiBytes ("\x7b\"manifest_version\":1,\"tool_version\":\"0.1.0\"," ++
  "\"created_at\":\"2026-06-01T00:00:00Z\",\"database\":\"shop\",\"encryption\":\x7b\"algorithm\":\"none\"\x7d," ++
  "\"artifacts\":[" ++ artifacts ++ "]\x7d")
def soloArtifact : String := "\x7b\"path\":\"c.structure.json\",\"kind\":\"structure\",\"format\":\"json\"," ++
  "\"compression\":\"none\",\"byte_size\":96,\"collection\":\"c\"\x7d"
def twinArtifact : String :=
  "\x7b\"path\":\"databases//c.structure.json\",\"kind\":\"structure\",\"format\":\"json\"," ++
  "\"compression\":\"none\",\"byte_size\":96,\"collection\":\"c\",\"database\":\"\"\x7d"
def twinText : Bytes := manifestText (soloArtifact ++ "," ++ twinArtifact)

def readManifestOf (manifest : Manifest) (text bytes : Bytes) : Except Error Manifest :=
  if bytes = text then .ok manifest else .error (.serialization "expected value at line 1 column 1")

def bareCodec (manifest : Manifest) (text : Bytes) : Codec := {DumpRestore.sampleCodec with
  manifestFromJson := readManifestOf manifest text
  checkpointToJson := checkpointText
  checkpointFromJson := readCheckpointOf manifest [[],["::c"]]}

def bareObjects (text : Bytes) (object : ObjectRef) : Option Bytes :=
  if object = ⟨0,Restore.manifestName⟩ then some text
  else if object = ⟨0,"c.structure.json"⟩ then some DumpRestore.structureText
  else if object = ⟨0,"databases//c.structure.json"⟩ then some DumpRestore.structureText
  else none

def bareCheckpoint : ObjectRef := ⟨1,"restore.checkpoint.json"⟩
def cutOptions : RestoreOptions := {checkpoint := some bareCheckpoint}

def bareUnit (path : String) (database : Option String) : RestoreUnit :=
  (⟨"c",database,path,[]⟩,⟨DumpRestore.sampleCollection.parameters,[],false⟩)

def twinUnits : List RestoreUnit :=
  [bareUnit "c.structure.json" none,bareUnit "databases//c.structure.json" (some "")]
def twinPlan : Plan := ⟨twinManifest,sortUnits twinUnits,[none,some ""],[]⟩

def shopOrders : List (List String) := [[],["::c"],["::view::v"],["::view::v","::c"],["::c","::view::v"]]
def shopCodec : Codec := {RestoreConvergence.sampleCodec with
  checkpointFromJson := readCheckpointOf RestoreConvergence.sampleManifest shopOrders}
def shopPlan : Plan :=
  ⟨RestoreConvergence.sampleManifest,[RestoreConvergence.sampleUnit],[none],[RestoreConvergence.sampleView]⟩

variable {manifest : Manifest} {text : Bytes}

theorem bare_held {path : String} {bytes : Bytes} (stored : bareObjects text ⟨0,path⟩ = some bytes) :
    Holds (bareCodec manifest text) (fun _ => False) (bareObjects text) 0 path bytes :=
    ⟨not_false,bytes,stored,rfl⟩

theorem bare_manifest : HasManifest (bareCodec manifest text) (fun _ => False) (bareObjects text) 0 manifest :=
  ⟨text,bare_held (if_pos rfl),if_pos rfl⟩

theorem bare_structure {path : String} {database : Option String} (named : path ≠ "")
    (stored : bareObjects text ⟨0,path⟩ = some DumpRestore.structureText) :
    HasStructure (bareCodec manifest text) (fun _ => False) (bareObjects text) 0 (bareUnit path database).1
      (bareUnit path database).2 := by
  have apart : DumpRestore.structureText ≠ DumpRestore.viewText := by decide
  have parser : (bareCodec manifest text).fromSlice = DumpRestore.parseValue := rfl
  refine ⟨named,DumpRestore.structureText,Dump.structureValue DumpRestore.sampleCollection,
    bare_held stored,?_,?_⟩
  · rw [parser,DumpRestore.parseValue,if_neg apart,if_pos rfl]
  · exact DumpRestore.parseStructure_written DumpRestore.sampleCollection

theorem twin_planned : Planned (bareCodec twinManifest twinText) (fun _ => False)
    (bareObjects twinText) 0 twinPlan where
  manifest := bare_manifest
  valid := rfl
  units := by
    have grouped : groupByCollection twinManifest = twinUnits.map Prod.fst := by decide
    refine ⟨twinUnits,grouped.symm,?_,rfl,rfl⟩
    intro unit member
    rcases List.mem_cons.mp member with rfl | later
    · exact bare_structure (by simp) (by simp [bareObjects,Restore.manifestName])
    · rw [List.mem_singleton.mp later]
      exact bare_structure (by simp) (by simp [bareObjects,Restore.manifestName])
  views := .nil

theorem shop_held {path : String} {bytes : Bytes}
    (stored : RestoreConvergence.sampleObjects ⟨0,path⟩ = some bytes) :
    Holds shopCodec (fun _ => False) RestoreConvergence.sampleObjects 0 path bytes :=
    ⟨not_false,bytes,stored,rfl⟩

theorem shop_manifest : HasManifest shopCodec (fun _ => False) RestoreConvergence.sampleObjects 0
    RestoreConvergence.sampleManifest := by
  have parser : shopCodec.manifestFromJson = RestoreConvergence.parseManifest := rfl
  refine ⟨_,shop_held RestoreConvergence.sampleObjects_manifest,?_⟩
  rw [parser]
  exact RestoreConvergence.parseManifest_text

theorem shop_structure : HasStructure shopCodec (fun _ => False) RestoreConvergence.sampleObjects 0
    RestoreConvergence.sampleUnit.1
    RestoreConvergence.sampleUnit.2 := by
  have parser : shopCodec.fromSlice = RestoreConvergence.parseValue := rfl
  refine ⟨by decide,_,RestoreConvergence.sampleStructure,
    shop_held RestoreConvergence.sampleObjects_structure,?_,rfl⟩
  rw [parser]
  exact RestoreConvergence.parseValue_structure

theorem shop_view : HasView shopCodec (fun _ => False) RestoreConvergence.sampleObjects 0
    {path := "v.view.json",kind := .view,format := .json,byteSize := 51,view := some "v"}
      RestoreConvergence.sampleView := by
  have parser : shopCodec.fromSlice = RestoreConvergence.parseValue := rfl
  refine ⟨_,RestoreConvergence.sampleDefinition,"v",shop_held RestoreConvergence.sampleObjects_view,?_,rfl,rfl⟩
  rw [parser]
  exact RestoreConvergence.parseValue_view

theorem shop_planned : Planned shopCodec (fun _ => False) RestoreConvergence.sampleObjects 0 shopPlan where
  manifest := shop_manifest
  valid := rfl
  units := by
    have grouped : groupByCollection RestoreConvergence.sampleManifest =
        [RestoreConvergence.sampleUnit.1] := by decide
    refine ⟨[RestoreConvergence.sampleUnit],grouped.symm,?_,rfl,rfl⟩
    intro unit member
    rw [List.mem_singleton.mp member]
    exact shop_structure
  views := .cons shop_view .nil

theorem shop_saves : SavesCheckpoints shopCodec shopPlan := by
  intro completed distinct known
  have either : ∀ id ∈ completed, id = "::c" ∨ id = "::view::v" := by
    intro id member
    obtain ⟨named,present,rfl⟩ := known id member
    rcases List.mem_cons.mp present with rfl | later
    · exact .inl (by decide)
    · rw [List.mem_singleton.mp later]
      exact .inr (by decide)
  have member : completed ∈ shopOrders := by
    rcases completed with _ | ⟨first,_ | ⟨second,_ | ⟨third,rest⟩⟩⟩
    · simp [shopOrders]
    · rcases either first (by simp) with rfl | rfl <;> simp [shopOrders]
    · rcases either first (by simp) with rfl | rfl <;> rcases either second (by simp) with rfl | rfl <;>
        simp_all [shopOrders]
    · rcases either first (by simp) with rfl | rfl <;> rcases either second (by simp) with rfl | rfl <;>
        rcases either third (by simp) with rfl | rfl <;> simp at distinct
  exact readCheckpointOf_text (by decide) member

def linkedNoted (plan : Plan) : RestoreCheckpoint :=
  viewsNoted cutOptions (plan.views.filter fun view => !view.isSearchAlias) (.new plan.manifest.fingerprint)

-- A run that is cut off once the first collection is recorded. What it saved of
-- the checkpoint before got lost.
theorem records_first {codec : Codec} {start : ObjectRef → Option Bytes} {plan : Plan} {unit : RestoreUnit}
    {rest : List RestoreUnit} (planned : Planned codec (fun _ => False) start 0 plan)
      (absent : start bareCheckpoint = none)
    (units : plan.units = unit :: rest)
      (reads : DataReads codec (fun _ => False) start 0 plan.manifest unit.1.dataPaths)
    (waiting : isDone cutOptions (linkedNoted plan) (unitId unit.1) = false) :
    ∃ q w, Runs (Answers codec (fun _ => False))
      (runRestoreWithProgress codec {database := "shop"} 0 cutOptions false)
        ⟨start,[]⟩ q w ∧
      w.objects bareCheckpoint = some (codec.checkpointToJson
        {linkedNoted plan with completed := (linkedNoted plan).completed ++ [unitId unit.1]}) := by
  let client : Client := {database := "shop"}
  obtain ⟨read,same,reading⟩ := planned_runs (w:=⟨start,[]⟩) planned
  obtain ⟨prepared,same',preparing,-,-⟩ :=
    @prepareDatabases_run codec (fun _ => False) client cutOptions plan read
  have started : Started codec (fun _ => False) prepared.objects cutOptions plan.manifest.fingerprint
      (.new plan.manifest.fingerprint) := by
    refine ⟨not_false,?_⟩
    rw [same',same]
    simp only [absent]
  obtain ⟨ready,same'',starting⟩ := started_runs started
  obtain ⟨created,created_,creating⟩ := @createCollections_run codec (fun _ => False) client cutOptions
    (.new plan.manifest.fingerprint) plan.units ready
  obtain ⟨viewed,count,viewed_,viewing⟩ := @restoreViews_run codec (fun _ => False) client cutOptions
    (plan.views.filter fun view => !view.isSearchAlias) (.new plan.manifest.fingerprint) 0 created
  let target := targetClient client cutOptions unit.1.database
  have still : viewed.objects = start := by rw [viewed_,created_,same'',same',same]
  obtain ⟨filled,-,filling⟩ :=
    @restoreParts_run codec (fun _ => False) target 0 plan.manifest unit.1.name unit.1.dataPaths
    viewed (by rw [still]; exact reads)
  obtain ⟨indexed,-,indexing⟩ :=
    @createIndexes_run codec (fun _ => False) target unit.1.name unit.2.indexes filled
  let next : RestoreCheckpoint :=
    {linkedNoted plan with completed := (linkedNoted plan).completed ++ [unitId unit.1]}
  have saving : Runs (Answers codec (fun _ => False))
      (record codec cutOptions (linkedNoted plan) (unitId unit.1)) indexed
      (done next) (indexed.store bareCheckpoint (some (codec.checkpointToJson next))) :=
    runs_then (runs_then (.call _ _ _ _ .put (.here _ _)) (.here _ _)) (.here _ _)
  have loading : ∃ q, Runs (Answers codec (fun _ => False))
      (loadCollections codec client 0 cutOptions plan.manifest false
      plan.units (linkedNoted plan) {collections := plan.units.length}) viewed q
      (indexed.store bareCheckpoint (some (codec.checkpointToJson next))) := by
    rw [units]
    unfold loadCollections
    rw [if_neg (by rw [waiting]; exact Bool.false_ne_true)]
    exact ⟨_,runs_then (runs_then filling indexing) (runs_append saving _)⟩
  obtain ⟨q,loading⟩ := loading
  exact ⟨_,_,runs_then reading (runs_then preparing (runs_then starting (runs_then creating
    (runs_then viewing (runs_append loading _))))),store_same _ _ _⟩

theorem persisted_of {codec : Codec} {objects : ObjectRef → Option Bytes} {object : ObjectRef} {bytes : Bytes}
    {checkpoint : RestoreCheckpoint} (stored : objects object = some bytes)
    (parsed : codec.checkpointFromJson bytes = .ok checkpoint) : persisted codec object objects =
    some checkpoint := by
  rw [persisted,stored]
  change (codec.checkpointFromJson bytes).toOption = some checkpoint
  rw [parsed]
  rfl

-- The run of a dump, cut off once its view is created and its collection, with
-- its data and its index, recorded.
theorem shop_recorded_and_done : ∃ objects past checkpoint,
    History shopCodec (fun _ => False) 0 bareCheckpoint RestoreConvergence.sampleObjects objects past ∧
    persisted shopCodec bareCheckpoint objects = some checkpoint ∧ checkpoint.completed = ["::view::v","::c"] ∧
    ∃ plan, Planned shopCodec (fun _ => False) RestoreConvergence.sampleObjects 0 plan ∧
      ∀ id ∈ checkpoint.completed, (∃! named, named ∈ listed plan ∧ named.id = id) ∧
      Done shopCodec 0 plan past id := by
  obtain ⟨q,w,runs,stored⟩ :=
    records_first shop_planned (by simp [RestoreConvergence.sampleObjects,bareCheckpoint]) rfl (by
    intro path member
    rw [List.mem_singleton.mp member]
    exact ⟨not_false,_,_,RestoreConvergence.sampleObjects_data,rfl⟩) (by decide)
  have history := History.run _ _ _ w
      (.fresh (by simp [RestoreConvergence.sampleObjects,bareCheckpoint])) rfl runs
  have parsed : shopCodec.checkpointFromJson
      (shopCodec.checkpointToJson ⟨shopPlan.manifest.fingerprint,["::view::v","::c"]⟩) =
      .ok ⟨shopPlan.manifest.fingerprint,["::view::v","::c"]⟩ :=
    @readCheckpointOf_text RestoreConvergence.sampleManifest shopOrders ["::view::v","::c"]
      (by decide) (by simp [shopOrders])
  have current := persisted_of stored parsed
  refine ⟨w.objects,_,_,history,current,rfl,(recorded_work_done_and_not_redone ?_ ?_ history).1 _ current⟩
  · intro plan planned named member
    rw [planned_unique planned shop_planned] at member
    rcases List.mem_cons.mp member with rfl | later
    · exact ⟨fun _ same => (by cases same),by simp [Plain,RestoreConvergence.sampleUnit]⟩
    · rw [List.mem_singleton.mp later]
      exact ⟨fun _ same => (by cases same),by simp [Plain,RestoreConvergence.sampleView]⟩
  · intro plan planned
    rw [planned_unique planned shop_planned]
    exact shop_saves

theorem unnamed_database_shares_identifier : (∀ named ∈ listed twinPlan, named.Colonless) ∧
    Planned (bareCodec twinManifest twinText) (fun _ => False) (bareObjects twinText) 0 twinPlan ∧
    ∃ objects past checkpoint,
    History (bareCodec twinManifest twinText) (fun _ => False) 0 bareCheckpoint (bareObjects twinText)
        objects past ∧ persisted (bareCodec twinManifest twinText) bareCheckpoint objects = some checkpoint ∧
      ∃ id ∈ checkpoint.completed, ¬ ∃! named, named ∈ listed twinPlan ∧ named.id = id := by
  have units : ∀ unit, unit ∈ twinPlan.units ↔ unit ∈ twinUnits := mem_sortUnits twinUnits
  have first : bareUnit "c.structure.json" none ∈ twinPlan.units :=
    (units _).mpr (by rw [twinUnits]; exact List.mem_cons_self)
  have second : bareUnit "databases//c.structure.json" (some "") ∈ twinPlan.units :=
    (units _).mpr (by rw [twinUnits]; exact List.mem_cons_of_mem _ List.mem_cons_self)
  have plain : Plain "c" := by simp [Plain]
  have empty : Plain "" := by simp [Plain]
  have absent : bareObjects twinText bareCheckpoint = none := by simp [bareObjects,bareCheckpoint]
  refine ⟨?_,twin_planned,?_⟩
  · intro named member
    rw [listed,List.mem_append] at member
    rcases member with collection | view
    · obtain ⟨unit,present,rfl⟩ := List.mem_map.mp collection
      rcases List.mem_cons.mp ((units unit).mp present) with rfl | later
      · exact ⟨fun _ same => (by cases same),plain⟩
      · rw [List.mem_singleton.mp later]
        exact ⟨fun _ same => (by cases same; exact empty),plain⟩
    · cases view
  · obtain ⟨unit,rest,ordered⟩ := List.exists_cons_of_ne_nil (List.ne_nil_of_mem first)
    have named : unitId unit.1 = "::c" ∧ unit.1.dataPaths = [] := by
      have member : unit ∈ twinPlan.units := by rw [ordered]; exact List.mem_cons_self
      rcases List.mem_cons.mp ((units unit).mp member) with rfl | later
      · exact ⟨by decide,rfl⟩
      · rw [List.mem_singleton.mp later]
        exact ⟨by decide,rfl⟩
    obtain ⟨q,w,runs,stored⟩ := records_first twin_planned absent ordered
      (by rw [named.2]; exact fun _ member => by cases member) rfl
    rw [named.1] at stored
    have parsed : (bareCodec twinManifest twinText).checkpointFromJson
        ((bareCodec twinManifest twinText).checkpointToJson
        ⟨twinManifest.fingerprint,["::c"]⟩) = .ok ⟨twinManifest.fingerprint,["::c"]⟩ :=
      @readCheckpointOf_text twinManifest [[],["::c"]] ["::c"] (by decide) (by simp)
    refine ⟨w.objects,_,_,.run _ _ _ w (.fresh absent) rfl runs,persisted_of stored parsed,"::c",
      List.mem_cons_self,?_⟩
    intro unique
    obtain ⟨named,-,only⟩ := unique
    have here := only (unitNamed (bareUnit "c.structure.json" none)) ⟨unit_listed first,by decide⟩
    have there := only (unitNamed (bareUnit "databases//c.structure.json" (some "")))
        ⟨unit_listed second,by decide⟩
    cases here.trans there.symm

end Sample
end ArangoDataTools.RestoreHistory
