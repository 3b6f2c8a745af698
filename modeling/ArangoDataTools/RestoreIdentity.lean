import ArangoDataTools.RestorePlan
import ArangoDataTools.RestoreRefusal
import ArangoDataTools.DumpRestore

namespace ArangoDataTools.RestoreIdentity
open Interaction Interaction.Program Restore RestoreTrace RestoreReading RestoreRefusal

def identity (manifest : Manifest) : String × String × List
    (String × Nat × Option Checksum × ArtifactKind × Option String × Option String × Option String) :=
  (manifest.database,manifest.createdAt,manifest.artifacts.map fun artifact =>
    (artifact.path,artifact.byteSize,artifact.checksum,artifact.kind,artifact.collection,
      artifact.view,artifact.database))

def paths (manifest : Manifest) : List String := manifest.artifacts.map Artifact.path

-- Database, creation time and paths on one line, a mark after each of them.
def line (manifest : Manifest) : List Char :=
  manifest.database.toList ++ '|' :: (manifest.createdAt.toList ++ '|' ::
    (paths manifest).flatMap fun path => path.toList ++ [','])

-- None of the marks occurs where it could be taken for one.
def Separable (manifest : Manifest) : Prop :=
  '|' ∉ manifest.database.toList ∧ '|' ∉ manifest.createdAt.toList ∧ ∀ path ∈ paths manifest, ',' ∉ path.toList

section Line

theorem fingerprint_line (manifest : Manifest) : manifest.fingerprint.toList = line manifest := by
  have joined : ∀ (artifacts : List Artifact),
      (String.join (artifacts.map fun artifact => artifact.path ++ ",")).toList =
      (artifacts.map Artifact.path).flatMap fun path => path.toList ++ [','] := by
    intro artifacts
    induction artifacts with
    | nil => rfl
    | cons artifact rest ih =>
      rw [List.map_cons,String.join_cons,String.toList_append,ih]
      simp [String.toList_append]
  unfold Manifest.fingerprint line paths
  simp only [String.toList_append,joined]
  simp

theorem fingerprint_same (one other : Manifest) : one.fingerprint = other.fingerprint ↔
    line one = line other := by
  rw [← fingerprint_line,← fingerprint_line,String.toList_inj]

theorem terminated_inj {one other : List String} (plain : ∀ path ∈ one, ',' ∉ path.toList)
    (plain' : ∀ path ∈ other, ',' ∉ path.toList)
    (equal : (one.flatMap fun path => path.toList ++ [',']) = other.flatMap fun path =>
    path.toList ++ [',']) : one = other := by
  induction one generalizing other with
  | nil =>
    cases other with
    | nil => rfl
    | cons path rest => simp at equal
  | cons path rest ih =>
    cases other with
    | nil => simp at equal
    | cons path' rest' =>
      simp only [List.flatMap_cons,List.append_assoc,List.singleton_append] at equal
      obtain ⟨first,more⟩ := RestorePlan.append_split (plain path List.mem_cons_self)
          (plain' path' List.mem_cons_self) equal
      rw [String.toList_inj.mp first,ih (fun other member => plain other (List.mem_cons_of_mem _ member))
        (fun other member => plain' other (List.mem_cons_of_mem _ member)) more]

theorem line_inj {one other : Manifest} (plain : Separable one) (plain' : Separable other) :
    line one = line other ↔ one.database = other.database ∧ one.createdAt = other.createdAt ∧
    paths one = paths other := by
  constructor
  · intro equal
    obtain ⟨database,later⟩ := RestorePlan.append_split plain.1 plain'.1 equal
    obtain ⟨created,listed⟩ := RestorePlan.append_split plain.2.1 plain'.2.1 later
    exact ⟨String.toList_inj.mp database,String.toList_inj.mp created,
      terminated_inj plain.2.2 plain'.2.2 listed⟩
  · intro same
    unfold line
    rw [same.1,same.2.1,same.2.2]

end Line

-- A readable checkpoint with finished work in it, written for `other`, beside the dump of `one`.
structure Foreign (codec : Codec) (broken : ObjectRef → Prop) (objects : ObjectRef → Option Bytes) (store : Nat)
    (options : RestoreOptions) (one other : Manifest) (completed : List String) : Prop where
  manifest : HasManifest codec broken objects store one
  stored : ∃ object bytes, options.checkpoint = some object ∧ ¬ broken object ∧ objects object = some bytes ∧
    codec.checkpointFromJson bytes = .ok ⟨other.fingerprint,completed⟩
  worked : completed ≠ []
  differ : identity one ≠ identity other

-- Every run fails without a request for a collection or a view.
def NeverApplied (codec : Codec) (broken : ObjectRef → Prop) (objects : ObjectRef → Option Bytes)
    (store : Nat) (client : Client)
    (options : RestoreOptions) (reporting : Bool) : Prop :=
  ∀ q w', Runs (Answers codec broken) (runRestoreWithProgress codec client store options reporting)
    ⟨objects,[]⟩ q w' →
    (∀ summary, q ≠ done summary) ∧
      ∀ database request accepted, .sent database request accepted ∈ w'.log → ∃ name,
      request = .createDatabase name

variable {codec : Codec} {broken : ObjectRef → Prop} {objects : ObjectRef → Option Bytes} {store : Nat}
variable {client : Client} {options : RestoreOptions} {reporting : Bool}

section Phases

def Worked (w : World) : Prop :=
  ∃ database request, .sent database request true ∈ w.log ∧ ∀ name, request ≠ .createDatabase name

theorem worked_note (w : World) (database : String) {request : Request}
    (other : ∀ name, request ≠ .createDatabase name) :
    Worked (w.note (.sent database request true)) :=
  ⟨database,request,List.mem_append_right _ (List.mem_singleton.mpr rfl),other⟩

theorem createCollections_acts (checkpoint : RestoreCheckpoint) (units : List RestoreUnit) (w : World) :
    createCollections client options checkpoint units = done () ∧
        (∀ unit ∈ units, isDone options checkpoint (unitId unit.1) = true) ∨
      ∃ q w', Runs (Answers codec broken) (createCollections client options checkpoint units) w q
        w' ∧ Worked w' := by
  induction units with
  | nil => exact .inl ⟨rfl,by simp⟩
  | cons unit rest ih =>
    unfold createCollections
    by_cases recorded : isDone options checkpoint (unitId unit.1) = true
    · rw [if_pos recorded]
      rcases ih with ⟨same,all⟩ | acting
      · exact .inl ⟨same,by simpa [recorded] using all⟩
      · exact .inr acting
    · rw [if_neg recorded]
      let target := targetClient client options unit.1.database
      have sent : Runs (Answers codec broken)
          (target.restoreCollection unit.2.parameters [] options.overwrite) w (done ())
          (w.note (.sent target.database (.restoreCollection unit.2.parameters [] options.overwrite) true)) :=
        executeOn_accepted target target.database (.restoreCollection unit.2.parameters [] options.overwrite) ()
      exact .inr ⟨_,_,runs_append sent _,worked_note w _ (by simp)⟩

theorem restoreView_acts (view : ViewArtifact) (w : World) :
    ∃ q w', Runs (Answers codec broken) (restoreView client options view) w q w' ∧ Worked w' := by
  let target := targetClient client options view.database
  unfold restoreView
  by_cases replacing : options.overwrite = true
  · simp only [if_pos replacing]
    have sent : Runs (Answers codec broken) (target.dropView view.name) w (done ())
        (w.note (.sent target.database (.dropView view.name) true)) :=
      tolerating_accepted 404 (executeOn_accepted target target.database (.dropView view.name) ())
    exact ⟨_,_,runs_append sent _,worked_note w _ (by simp)⟩
  · simp only [if_neg replacing,done_bind]
    have sent : Runs (Answers codec broken) (target.createView view.definition) w (done ())
        (w.note (.sent target.database
          (.createView ((view.definition.remove "id").remove "globallyUniqueId")) true)) :=
      executeOn_accepted target target.database
        (.createView ((view.definition.remove "id").remove "globallyUniqueId")) ()
    exact ⟨_,_,runs_append (attempt_runs sent) _,worked_note w _ (by simp)⟩

theorem restoreViews_acts (checkpoint : RestoreCheckpoint) (restored : Nat)
    (views : List ViewArtifact) (w : World) :
    restoreViews codec client options views checkpoint restored = done (checkpoint,restored) ∨
      ∃ q w', Runs (Answers codec broken)
        (restoreViews codec client options views checkpoint restored) w q w' ∧ Worked w' := by
  induction views with
  | nil => exact .inl rfl
  | cons view rest ih =>
    unfold restoreViews
    by_cases recorded : isDone options checkpoint (viewUnitId view) = true
    · rw [if_pos recorded]
      exact ih
    · rw [if_neg recorded]
      obtain ⟨q,w',runs,worked⟩ := @restoreView_acts codec broken client options view w
      exact .inr ⟨_,w',runs_append runs _,worked⟩

theorem loadCollections_skips (manifest : Manifest) (checkpoint : RestoreCheckpoint) (units : List RestoreUnit)
    (recorded : ∀ unit ∈ units, isDone options checkpoint (unitId unit.1) = true) (summary : RestoreSummary) :
    ∃ skipped, loadCollections codec client store options manifest reporting units checkpoint
      summary = done (checkpoint,skipped) := by
  induction units generalizing summary with
  | nil => exact ⟨summary,rfl⟩
  | cons unit rest ih =>
    unfold loadCollections
    rw [if_pos (recorded unit List.mem_cons_self)]
    exact ih (fun other member => recorded other (List.mem_cons_of_mem _ member)) _

theorem restorePhases_acts (plan : Plan) (checkpoint : RestoreCheckpoint) (w : World) :
    ∃ q w', Runs (Answers codec broken)
      (restorePhases codec client store options reporting plan checkpoint) w q w' ∧
      ((∃ summary, q = done summary) ∨ Worked w') := by
  unfold restorePhases
  rcases @createCollections_acts codec broken client options checkpoint plan.units w
    with ⟨same,recorded⟩ | ⟨q,w',runs,worked⟩
  swap
  · exact ⟨_,w',runs_append runs _,.inr worked⟩
  rw [same,done_bind]
  rcases restoreViews_acts checkpoint 0 (plan.views.filter fun view => !view.isSearchAlias) w
    with same | ⟨q,w',runs,worked⟩
  swap
  · exact ⟨_,w',runs_append runs _,.inr worked⟩
  rw [same,done_bind]
  obtain ⟨skipped,same⟩ := @loadCollections_skips codec store client options reporting plan.manifest
      checkpoint plan.units
    recorded {collections := plan.units.length}
  rw [same,done_bind]
  rcases restoreViews_acts checkpoint 0 (plan.views.filter ViewArtifact.isSearchAlias) w
    with same | ⟨q,w',runs,worked⟩
  swap
  · exact ⟨_,w',runs_append runs _,.inr worked⟩
  rw [same,done_bind]
  exact ⟨_,w,.here _ _,.inl ⟨_,rfl⟩⟩

end Phases

section Resuming

def Apart (objects : ObjectRef → Option Bytes) (w : World) : Prop :=
  Asked (fun request => ∃ name, request = .createDatabase name) objects w

variable {one other : Manifest} {completed : List String}

theorem foreign_apart (foreign : Foreign codec broken objects store options one other completed)
    (unlike : line one ≠ line other ∨ DumpRefused codec broken objects store) :
    Triple (Answers codec broken) (Apart objects) (runRestoreWithProgress codec client store options reporting)
      (fun _ _ => False) (Apart objects) (Apart objects) := by
  obtain ⟨named,⟨object,bytes,configured,whole,stored,parsed⟩,-,-⟩ := foreign
  apply triple_bind asked_plan
  intro plan
  by_cases planned : Planned codec broken objects store plan
  swap
  · exact triple_never fun w holds => planned holds.2
  have apart := unlike.resolve_right (planned_not_refused planned)
  apply triple_bind (triple_weaken (asked_databases (fun name => ⟨name,rfl⟩) plan)
    (fun _ holds => holds.1) (fun _ _ holds => holds) (fun _ holds => holds)
    fun _ holds => holds)
  intro _
  apply triple_bind (asked_checkpoint plan.manifest.fingerprint)
  intro checkpoint
  apply triple_never
  intro w holds
  have started := holds.2
  unfold Started at started
  rw [configured] at started
  have loaded := started.2
  rw [stored] at loaded
  obtain ⟨same,fits⟩ := loaded
  rw [parsed] at same
  cases same
  rw [manifest_unique planned.manifest named] at fits
  exact apart ((fingerprint_same one other).mp fits.symm)

theorem foreign_applied (foreign : Foreign codec broken objects store options one other completed)
    (alike : line one = line other) (accepted : ¬ DumpRefused codec broken objects store) :
    ∃ q w', Runs (Answers codec broken)
      (runRestoreWithProgress codec client store options reporting) ⟨objects,[]⟩ q w' ∧
      ((∃ summary, q = done summary) ∨ Worked w') := by
  obtain ⟨named,⟨object,bytes,configured,whole,stored,parsed⟩,-,-⟩ := foreign
  obtain ⟨plan,planned⟩ := planned_unless_refused accepted
  obtain ⟨w,same,reading⟩ := planned_runs (w:=⟨objects,[]⟩) planned
  obtain ⟨prepared,same',preparing,-,-⟩ := @prepareDatabases_run codec broken client options plan w
  have fits : other.fingerprint = plan.manifest.fingerprint := by
    rw [manifest_unique planned.manifest named]
    exact ((fingerprint_same one other).mpr alike).symm
  have started : Started codec broken prepared.objects options plan.manifest.fingerprint
      ⟨other.fingerprint,completed⟩ := by
    unfold Started
    rw [configured,same',same]
    refine ⟨whole,?_⟩
    dsimp only
    rw [stored]
    exact ⟨parsed,fits⟩
  obtain ⟨ready,-,starting⟩ := started_runs started
  obtain ⟨q,w',acting,outcome⟩ :=
    @restorePhases_acts codec broken store client options reporting plan ⟨other.fingerprint,completed⟩
    ready
  exact ⟨q,w',runs_then reading (runs_then preparing (runs_then starting acting)),outcome⟩

theorem foreign_checkpoint_never_applied_iff
    (foreign : Foreign codec broken objects store options one other completed) :
    (NeverApplied codec broken objects store client options reporting ↔
      line one ≠ line other ∨ DumpRefused codec broken objects store) ∧
    (Separable one → Separable other → (line one ≠ line other ↔
      one.database ≠ other.database ∨ one.createdAt ≠ other.createdAt ∨ paths one ≠ paths other)) := by
  refine ⟨⟨?_,?_⟩,?_⟩
  · intro promised
    by_contra neither
    push Not at neither
    obtain ⟨q,w',runs,outcome⟩ :=
      @foreign_applied codec broken objects store client options reporting one other completed foreign
      neither.1 neither.2
    have kept := promised q w' runs
    rcases outcome with ⟨summary,ended⟩ | ⟨database,request,sent,worked⟩
    · exact kept.1 summary ended
    · obtain ⟨name,same⟩ := kept.2 database request true sent
      exact worked name same
  · intro unlike q w' runs
    have triple := @foreign_apart codec broken objects store client options reporting one other
        completed foreign unlike
    have start : Apart objects ⟨objects,[]⟩ := asked_start
    refine ⟨?_,(triple.everywhere _ q w' start runs).2⟩
    intro summary ended
    rw [ended] at runs
    exact triple.returns _ summary w' start runs
  · intro plain plain'
    rw [ne_eq,line_inj plain plain']
    tauto

end Resuming

section Sample

def laterManifest : Manifest := DumpRestore.sampleManifest
def earlierManifest : Manifest :=
  {Manifest.new "shop" "0.1.0" "2026-06-01T00:00:00Z" with artifacts := [
    {path := "c.structure.json",kind := .structureDef,format := .json,byteSize := 96,collection := some "c"},
    {path := "c.data.jsonl",kind := .data,format := .jsonl,byteSize := 34,
     checksum := some ⟨"sha256","e725fbfc051dda7fc77eeb93c3501f9c8030148eaa024b87edc59e113f8286ec"⟩,
     collection := some "c",part := some 0},
    {path := "v.view.json",kind := .view,format := .json,byteSize := 73,view := some "v"}]}

def earlierText : Bytes := asciiBytes
  "\x7b\"manifest\":\"shop|2026-06-01T00:00:00Z|c.structure.json,c.data.jsonl,v.view.json,\",\"completed\":[\"::c\"]\x7d"

def readCheckpoint (bytes : Bytes) : Except Error RestoreCheckpoint :=
  if bytes = earlierText then .ok ⟨earlierManifest.fingerprint,["::c"]⟩
  else .error (.serialization "expected value at line 1 column 1")

def earlierDigest : Bytes := [231,37,251,252,5,29,218,127,199,126,235,147,195,80,31,156,128,48,
  20,142,170,2,75,135,237,197,158,17,63,130,134,236]

def laterCodec : Codec := {DumpRestore.sampleCodec with
  checkpointFromJson := readCheckpoint
  sha256 := fun bytes => if bytes = DumpRestore.firstText then earlierDigest else DumpRestore.digest}

def laterData : Bytes := DumpRestore.firstText ++ DumpRestore.secondText

-- The store with `data` as the data file of the later dump.
def laterObjects (data : Bytes) (object : ObjectRef) : Option Bytes :=
  if object = ⟨0,Restore.manifestName⟩ then some DumpRestore.manifestText
  else if object = ⟨0,"c.structure.json"⟩ then some DumpRestore.structureText
  else if object = ⟨0,"c.data.jsonl"⟩ then some data
  else if object = ⟨0,"v.view.json"⟩ then some DumpRestore.viewText
  else if object = ⟨1,"restore.checkpoint.json"⟩ then some earlierText
  else none

def laterOptions : RestoreOptions := {checkpoint := some ⟨1,"restore.checkpoint.json"⟩}

def laterUnit : RestoreUnit := DumpRestore.unitOf DumpRestore.sampleBackup ("c",DumpRestore.sampleCollection)

variable {data : Bytes}

theorem later_held {path : String} {bytes : Bytes} (stored : laterObjects data ⟨0,path⟩ = some bytes) :
    Holds laterCodec (fun _ => False) (laterObjects data) 0 path bytes := ⟨not_false,bytes,stored,rfl⟩

theorem later_manifest : HasManifest laterCodec (fun _ => False) (laterObjects data) 0 laterManifest := by
  have parser : laterCodec.manifestFromJson = DumpRestore.parseManifest := rfl
  refine ⟨DumpRestore.manifestText,later_held (if_pos rfl),?_⟩
  rw [parser,DumpRestore.parseManifest_text]
  rfl

theorem later_structure : HasStructure laterCodec (fun _ => False)
    (laterObjects data) 0 laterUnit.1 laterUnit.2 := by
  have apart : DumpRestore.structureText ≠ DumpRestore.viewText := by decide
  have parser : laterCodec.fromSlice = DumpRestore.parseValue := rfl
  have path : laterUnit.1.structurePath = "c.structure.json" := by decide
  have stored : laterObjects data ⟨0,"c.structure.json"⟩ = some DumpRestore.structureText := by
    simp [laterObjects,Restore.manifestName]
  refine ⟨by rw [path]; simp,DumpRestore.structureText,
    Dump.structureValue DumpRestore.sampleCollection,?_,?_,?_⟩
  · rw [path]
    exact later_held stored
  · rw [parser,DumpRestore.parseValue,if_neg apart,if_pos rfl]
  · exact DumpRestore.parseStructure_written DumpRestore.sampleCollection

theorem later_view : HasView laterCodec (fun _ => False) (laterObjects data) 0
    {path := "v.view.json",kind := .view,format := .json,byteSize := 73,view := some "v"}
      ⟨"v",none,DumpRestore.sampleView⟩ := by
  have parser : laterCodec.fromSlice = DumpRestore.parseValue := rfl
  have stored : laterObjects data ⟨0,"v.view.json"⟩ = some DumpRestore.viewText := by
    simp [laterObjects,Restore.manifestName]
  refine ⟨DumpRestore.viewText,DumpRestore.sampleView,"v",later_held stored,?_,rfl,rfl⟩
  rw [parser,DumpRestore.parseValue,if_pos rfl]

theorem later_planned : Planned laterCodec (fun _ => False) (laterObjects data) 0
    ⟨laterManifest,[laterUnit],[none],[⟨"v",none,DumpRestore.sampleView⟩]⟩ where
  manifest := later_manifest
  valid := rfl
  units := by
    have grouped : groupByCollection laterManifest = [laterUnit.1] := by decide
    refine ⟨[laterUnit],grouped.symm,?_,rfl,rfl⟩
    intro unit member
    rw [List.mem_singleton.mp member]
    exact later_structure
  views := .cons later_view .nil

theorem later_foreign : Foreign laterCodec (fun _ => False)
    (laterObjects data) 0 laterOptions laterManifest earlierManifest ["::c"] where
  manifest := later_manifest
  stored := by
    have parser : laterCodec.checkpointFromJson = readCheckpoint := rfl
    refine ⟨⟨1,"restore.checkpoint.json"⟩,earlierText,rfl,not_false,?_,?_⟩
    · simp [laterObjects,Restore.manifestName]
    · rw [parser,readCheckpoint,if_pos rfl]
  worked := by simp
  differ := by
    intro same
    have sizes := congrArg (fun facts => facts.2.2.map fun artifact => artifact.2.1) same
    cases sizes

theorem foreign_checkpoint_applied :
    Foreign laterCodec (fun _ => False) (laterObjects laterData) 0 laterOptions laterManifest
      earlierManifest ["::c"] ∧
    ¬ NeverApplied laterCodec (fun _ => False) (laterObjects laterData) 0
      {database := "shop"} laterOptions false := by
  refine ⟨later_foreign,?_⟩
  intro promised
  have alike : line laterManifest = line earlierManifest := by decide
  obtain ⟨q,w',runs,outcome⟩ :=
    @foreign_applied laterCodec (fun _ => False) (laterObjects laterData) 0 {database := "shop"}
    laterOptions false laterManifest earlierManifest ["::c"] later_foreign alike
      (planned_not_refused later_planned)
  have kept := promised q w' runs
  rcases outcome with ⟨summary,ended⟩ | ⟨database,request,sent,worked⟩
  · exact kept.1 summary ended
  · obtain ⟨name,same⟩ := kept.2 database request true sent
    exact worked name same

theorem later_checkpoint_decided :
    NeverApplied laterCodec (fun _ => False) (laterObjects laterData) 0
      {database := "shop"} laterOptions false ↔
      line laterManifest ≠ line earlierManifest ∨
      DumpRefused laterCodec (fun _ => False) (laterObjects laterData) 0 :=
  (foreign_checkpoint_never_applied_iff later_foreign).1

end Sample
end ArangoDataTools.RestoreIdentity
