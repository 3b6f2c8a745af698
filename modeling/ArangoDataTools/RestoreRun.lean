import ArangoDataTools.DumpRun
import ArangoDataTools.Restore

namespace ArangoDataTools.RestoreRun
open Interaction Interaction.Program Restore DumpRun

-- A store and a server that accepts what it is asked; the requests it got.
structure Recorded where
  objects : Objects
  log : List (String × Request)

def Recorded.issue (w : Recorded) (requests : List (String × Request)) : Recorded :=
  {w with log := w.log ++ requests}

@[simp] theorem issue_objects (w : Recorded) (requests : List (String × Request)) :
    (w.issue requests).objects = w.objects := rfl
@[simp] theorem issue_issue (w : Recorded) (one two : List (String × Request)) :
    (w.issue one).issue two = w.issue (one ++ two) := by simp [Recorded.issue]
@[simp] theorem issue_none (w : Recorded) : w.issue [] = w := by simp [Recorded.issue]

def accept : (request : Request) → Except Error request.Response
  | .createDatabase _ => .ok ()
  | .restoreCollection _ _ _ => .ok ()
  | .restoreData _ _ => .ok ()
  | .createIndex _ _ => .ok ()
  | .createView _ => .ok ()
  | .dropView _ => .ok ()
  | request => Op.refuse (.send "" request)

def recording : Handler Op Op.Answer Recorded
  | .send database request, w => (accept request,w.issue [(database,request)])
  | .head object, w => (.ok ((w.objects object).map List.length),w)
  | .get object, w => match w.objects object with
    | some bytes => (.ok bytes,w)
    | none => (.error (.storage ("object not found: " ++ object.path)),w)
  | .putStream object body, w =>
      (.ok body.length,{w with objects := Function.update w.objects object (some body)})
  | op, w => (op.refuse,w)

section Calls
variable {w : Recorded}

theorem issue_run (client : Client) (database : String) (request : Request) {value : request.Response}
    (accepted : accept request = .ok value) (w : Recorded) :
    run recording (client.executeOn database request) w = (.ok value,w.issue [(database,request)]) := by
  have answered : recording (.send database request) w = (.ok value,w.issue [(database,request)]) :=
    Prod.ext accepted rfl
  rw [Client.executeOn_run (fun _ _ => rfl) client database request w
    (fun err failed => by rw [answered] at failed; cases failed)]
  exact answered

theorem tolerating_run {status : Nat} {request : Tool Unit} {w' : Recorded}
    (ran : run recording request w = (.ok (),w')) :
    run recording (Client.tolerating status request) w = (.ok (),w') := by
  have attempted := run_attempt recording request w
  rw [ran] at attempted
  unfold Client.tolerating
  rw [run_bind_ok recording attempted]
  rfl

theorem readObject_run {codec : Codec} {store : Nat} {path : String} {bytes plain : Bytes}
    {compression : Compression}
    (present : w.objects ⟨store,path⟩ = some bytes) (decoded : codec.decode compression bytes = .ok plain) :
    run recording (readObject codec store path compression) w = (.ok plain,w) := by
  have fetched : run recording (⟨store,path⟩ : ObjectRef).get w = (.ok bytes,w) := by
    unfold ObjectRef.get ask
    rw [run_bind_ok recording (run_perform recording _ w)]
    simp [recording,present,lift]
  unfold readObject
  rw [run_bind_ok recording fetched,decoded]
  rfl

end Calls

def collectionRequest (database : String) (overwrite : Bool) (unit : RestoreUnit) : String × Request :=
  (database,.restoreCollection unit.2.parameters [] overwrite)

def viewBody (definition : Value) : Value := (definition.remove "id").remove "globallyUniqueId"

def viewRequests (database : String) (overwrite : Bool) (view : ViewArtifact) : List (String × Request) :=
  (if overwrite then [(database,.dropView view.name)] else []) ++
    [(database,.createView (viewBody view.definition))]

def indexRequests (database : String) (unit : RestoreUnit) : List (String × Request) :=
  (unit.2.indexes.filter fun index => !isImplicit index).map fun index =>
    (database,.createIndex unit.1.name index)

def dataRequests (database : String) (bodies : String → Bytes) (unit : RestoreUnit) : List (String × Request) :=
  unit.1.dataPaths.map (fun path => (database,Request.restoreData unit.1.name (bodies path))) ++
    indexRequests database unit

def databaseRequests (options : RestoreOptions) : List (String × Request) :=
  options.createDatabase.toList.map fun name => ("_system",.createDatabase name)

section Phases
variable {codec : Codec} {client : Client} {store : Nat} {options : RestoreOptions}
  {checkpoint : RestoreCheckpoint} {w : Recorded}

-- The database of a dump of one database.
def destination (client : Client) (options : RestoreOptions) : String :=
  (targetClient client options none).database

theorem isDone_fresh (fresh : options.checkpoint = none) (id : String) :
    isDone options checkpoint id = false := by
  simp [isDone,fresh]

theorem record_run (fresh : options.checkpoint = none) (id : String) :
    run recording (record codec options checkpoint id) w = (.ok checkpoint,w) := by
  unfold record
  rw [fresh]
  rfl

theorem createCollections_run (fresh : options.checkpoint = none) {units : List RestoreUnit}
    (single : ∀ unit ∈ units, unit.1.database = none) (w : Recorded) :
    run recording (createCollections client options checkpoint units) w =
      (.ok (),w.issue (units.map (collectionRequest (destination client options) options.overwrite))) := by
  induction units generalizing w with
  | nil => simp [createCollections]
  | cons unit rest ih =>
    have here := single unit List.mem_cons_self
    have created := issue_run (targetClient client options none) (destination client options)
      (.restoreCollection unit.2.parameters [] options.overwrite) rfl w
    unfold createCollections
    rw [isDone_fresh fresh,here]
    simp only [Bool.false_eq_true,if_false]
    unfold Client.restoreCollection Client.execute
    unfold destination at created
    rw [run_bind_ok recording created,ih fun unit member => single unit (List.mem_cons_of_mem _ member)]
    simp [collectionRequest,destination]

theorem restoreView_run {view : ViewArtifact} (single : view.database = none) (w : Recorded) :
    run recording (restoreView client options view) w =
      (.ok (),w.issue (viewRequests (destination client options) options.overwrite view)) := by
  have created : ∀ w, run recording
      (attempt ((targetClient client options none).createView view.definition)) w =
      (.ok (.ok ()),w.issue [(destination client options,.createView (viewBody view.definition))]) := by
    intro w
    have sent := issue_run (targetClient client options none) (destination client options)
      (.createView (viewBody view.definition)) rfl w
    rw [run_attempt]
    unfold Client.createView Client.execute
    unfold destination viewBody at sent
    rw [sent]
    rfl
  unfold restoreView
  rw [single]
  by_cases overwrite : options.overwrite = true
  · have sent := issue_run (targetClient client options none) (destination client options)
      (.dropView view.name) rfl w
    have dropped : run recording ((targetClient client options none).dropView view.name) w =
        (.ok (),w.issue [(destination client options,.dropView view.name)]) := tolerating_run sent
    simp only [overwrite,if_true]
    rw [run_bind_ok recording dropped,run_bind_ok recording (created _)]
    simp [viewRequests]
  · simp only [overwrite,Bool.false_eq_true,if_false,done_bind]
    rw [run_bind_ok recording (created _)]
    simp [viewRequests]

theorem restoreViews_run (fresh : options.checkpoint = none) {views : List ViewArtifact}
    (single : ∀ view ∈ views, view.database = none) (count : Nat) (w : Recorded) :
    run recording (restoreViews codec client options views checkpoint count) w =
    (.ok (checkpoint,count+views.length),
      w.issue (views.flatMap (viewRequests (destination client options) options.overwrite))) := by
  induction views generalizing count w with
  | nil => simp [restoreViews]
  | cons view rest ih =>
    unfold restoreViews
    rw [isDone_fresh fresh]
    simp only [Bool.false_eq_true,if_false]
    rw [run_bind_ok recording (restoreView_run (single view List.mem_cons_self) w),
      run_bind_ok recording (record_run fresh _),ih fun view member =>
      single view (List.mem_cons_of_mem _ member)]
    simp
    omega

theorem restoreParts_run {database : Client} {manifest : Manifest} {name : String} {bodies : String → Bytes}
    {paths : List String} {objects : Objects} (reads : ∀ path ∈ paths, ∀ w : Recorded, w.objects = objects →
      run recording (readData codec store manifest path) w = (.ok (bodies path),w)) {w : Recorded}
        (held : w.objects = objects) :
    run recording (restoreParts codec database store manifest name paths) w =
      (.ok (),w.issue (paths.map fun path => (database.database,Request.restoreData name (bodies path)))) := by
  induction paths generalizing w with
  | nil => simp [restoreParts]
  | cons path rest ih =>
    have sent := issue_run database database.database (.restoreData name (bodies path)) rfl w
    unfold restoreParts
    rw [run_bind_ok recording (reads path List.mem_cons_self w held)]
    unfold Client.restoreData Client.execute
    rw [run_bind_ok recording sent,
      ih (w:=w.issue _) (fun path member => reads path (List.mem_cons_of_mem _ member)) held]
    simp

theorem createIndexes_run (database : Client) (name : String) (indexes : List Value) (w : Recorded) :
    run recording (createIndexes database name indexes) w = (.ok (),w.issue
      ((indexes.filter fun index => !isImplicit index).map fun index =>
      (database.database,.createIndex name index))) := by
  induction indexes generalizing w with
  | nil => simp [createIndexes]
  | cons index rest ih =>
    unfold createIndexes
    by_cases implicit : isImplicit index = true
    · rw [if_pos implicit,ih]
      simp [implicit]
    · have sent := issue_run database database.database (.createIndex name index) rfl w
      rw [if_neg implicit]
      unfold Client.createIndex Client.execute
      rw [run_bind_ok recording sent,ih]
      simp [implicit]

theorem loadCollections_run (fresh : options.checkpoint = none) {manifest : Manifest} {bodies : String → Bytes}
    {reporting : Bool} {units : List RestoreUnit} (single : ∀ unit ∈ units, unit.1.database = none)
      {objects : Objects}
    (reads : ∀ unit ∈ units, ∀ path ∈ unit.1.dataPaths, ∀ w : Recorded, w.objects = objects →
      run recording (readData codec store manifest path) w = (.ok (bodies path),w)) (summary : RestoreSummary)
    {w : Recorded} (held : w.objects = objects) :
    run recording (loadCollections codec client store options manifest reporting units checkpoint summary) w =
      (.ok (checkpoint,{summary with restored := summary.restored+units.length}),
        w.issue (units.flatMap (dataRequests (destination client options) bodies))) := by
  induction units generalizing w summary with
  | nil => simp [loadCollections]
  | cons unit rest ih =>
    have here := single unit List.mem_cons_self
    have loaded : run recording
        (loadCollectionData codec (targetClient client options none) store manifest unit) w =
        (.ok (),w.issue (dataRequests (destination client options) bodies unit)) := by
      unfold loadCollectionData
      rw [run_bind_ok recording (restoreParts_run (reads unit List.mem_cons_self) held),createIndexes_run]
      simp [dataRequests,indexRequests,destination]
    have quiet : ∀ (event : ProgressEvent) (w : Recorded),
        run recording (if reporting then emit event else done () : Tool Unit) w = (.ok (),w) := by
      intro event w
      cases reporting <;> rfl
    unfold loadCollections
    rw [isDone_fresh fresh,here]
    simp only [Bool.false_eq_true,if_false]
    rw [run_bind_ok recording loaded,run_bind_ok recording (record_run fresh _),
      run_bind_ok recording (quiet _ _)]
    rw [ih (fun unit member => single unit (List.mem_cons_of_mem _ member))
      (fun unit member => reads unit (List.mem_cons_of_mem _ member)) _ (by exact held)]
    simp
    omega

theorem prepareDatabases_run {plan : Plan} (single : ∀ unit ∈ plan.units, unit.1.database = none)
    (w : Recorded) :
    run recording (prepareDatabases client options plan) w = (.ok (),w.issue (databaseRequests options)) := by
  have several : ¬ (plan.units.any fun unit => unit.1.database.isSome) = true := by
    intro found
    obtain ⟨unit,member,some_⟩ := List.any_eq_true.mp found
    rw [single unit member] at some_
    cases some_
  unfold prepareDatabases databaseRequests
  rw [if_neg several]
  cases options.createDatabase with
  | none => simp
  | some name => exact tolerating_run (issue_run client "_system" (.createDatabase name) rfl w)

def planRequests (client : Client) (options : RestoreOptions) (bodies : String → Bytes) (plan : Plan) :
    List (String × Request) :=
  databaseRequests options ++
  plan.units.map (collectionRequest (destination client options) options.overwrite) ++
  (plan.views.filter fun view => !view.isSearchAlias).flatMap
    (viewRequests (destination client options) options.overwrite) ++
  plan.units.flatMap (dataRequests (destination client options) bodies) ++
  (plan.views.filter ViewArtifact.isSearchAlias).flatMap
    (viewRequests (destination client options) options.overwrite)

theorem runRestore_run (client : Client) (fresh : options.checkpoint = none) {plan : Plan}
    {bodies : String → Bytes} {w : Recorded}
    (read : run recording (readPlan codec store) w = (.ok plan,w))
      (single : ∀ unit ∈ plan.units, unit.1.database = none)
    (singleViews : ∀ view ∈ plan.views, view.database = none)
    (reads : ∀ unit ∈ plan.units, ∀ path ∈ unit.1.dataPaths, ∀ v : Recorded, v.objects = w.objects →
      run recording (readData codec store plan.manifest path) v = (.ok (bodies path),v)) (reporting : Bool) :
    run recording (runRestoreWithProgress codec client store options reporting) w =
      (.ok ⟨plan.units.length,plan.units.length,0,plan.views.length⟩,
      w.issue (planRequests client options bodies plan)) := by
  have started : ∀ w, run recording (initialCheckpoint codec options plan.manifest.fingerprint) w =
      (.ok (.new plan.manifest.fingerprint),w) := by
    intro w
    unfold initialCheckpoint
    rw [fresh]
    rfl
  have linked : ∀ view ∈ plan.views.filter fun view => !view.isSearchAlias, view.database = none :=
    fun view member => singleViews view (List.mem_of_mem_filter member)
  have aliases : ∀ view ∈ plan.views.filter ViewArtifact.isSearchAlias, view.database = none :=
    fun view member => singleViews view (List.mem_of_mem_filter member)
  have count : (plan.views.filter fun view => !view.isSearchAlias).length +
      (plan.views.filter ViewArtifact.isSearchAlias).length = plan.views.length := by
    have parts : plan.views.length = _ := List.length_eq_length_filter_add ViewArtifact.isSearchAlias
    omega
  have loaded : ∀ requests,
      run recording (loadCollections codec client store options plan.manifest reporting plan.units
      (.new plan.manifest.fingerprint) {collections := plan.units.length}) (w.issue requests) = _ :=
    fun requests => loadCollections_run fresh single reads _ rfl
  unfold runRestoreWithProgress
  rw [run_bind_ok recording read,run_bind_ok recording (prepareDatabases_run single w),
    run_bind_ok recording (started _)]
  unfold restorePhases
  rw [run_bind_ok recording (createCollections_run fresh single _),
    run_bind_ok recording (restoreViews_run fresh linked 0 _),
    issue_issue,issue_issue,run_bind_ok recording (loaded _),
    run_bind_ok recording (restoreViews_run fresh aliases _ _)]
  simp [planRequests,count]

end Phases
end ArangoDataTools.RestoreRun
