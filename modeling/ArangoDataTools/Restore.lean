import Mathlib.Data.List.Sort
import ArangoDataTools.Client

namespace ArangoDataTools.Restore
open Interaction Interaction.Program

def manifestName : String := "dump.manifest.json"

structure RestoreOptions where
  overwrite : Bool := false
  createDatabase : Option String := none
  checkpoint : Option ObjectRef := none

structure RestoreSummary where
  collections : Nat := 0
  restored : Nat := 0
  skipped : Nat := 0
  views : Nat := 0
  deriving DecidableEq, Repr

structure CollectionGroup where
  name : String
  database : Option String
  structurePath : String := ""
  dataPaths : List String := []
  deriving DecidableEq, Repr

structure Structure where
  parameters : Value
  indexes : List Value
  isEdge : Bool

structure ViewArtifact where
  name : String
  database : Option String
  definition : Value

def ViewArtifact.isSearchAlias (view : ViewArtifact) : Bool :=
  (view.definition.get "type").bind Value.asStr = some "search-alias"

abbrev RestoreUnit := CollectionGroup × Structure

def unitId (group : CollectionGroup) : String := group.database.getD "" ++ "::" ++ group.name
def viewUnitId (view : ViewArtifact) : String := view.database.getD "" ++ "::view::" ++ view.name

def readObject (codec : Codec) (store : Nat) (path : String) (compression : Compression) : Tool Bytes :=
  ((⟨store,path⟩ : ObjectRef).get).bind fun bytes => lift (codec.decode compression bytes)

def readManifest (codec : Codec) (store : Nat) : Tool Manifest :=
  (readObject codec store manifestName .none).bind fun bytes => lift (codec.manifestFromJson bytes)

def validate (manifest : Manifest) : Except Error Unit :=
  if manifest.encryption.isEncrypted then
    .error (.config ("refusing to restore an encrypted dump (encryption: " ++ manifest.encryption.algorithm ++
      "); this is not supported"))
  else match manifest.artifacts.find? fun artifact => artifact.kind = .data ∧ artifact.format = .vpack with
    | some bad => .error (.config
        ("refusing to restore VelocyPack data ('" ++ bad.path ++ "'); only JSONL is supported"))
    | none => .ok ()

def CollectionGroup.add (artifact : Artifact) (group : CollectionGroup) : CollectionGroup :=
  match artifact.kind with
  | .structureDef => {group with structurePath := artifact.path}
  | .data => {group with dataPaths := group.dataPaths ++ [artifact.path]}
  | _ => group

-- `groups.iter_mut().find(..)`, or a new group at the end.
def addToGroup (artifact : Artifact) (name : String) : List CollectionGroup → List CollectionGroup
  | [] => [CollectionGroup.add artifact ⟨name,artifact.database,"",[]⟩]
  | group :: rest =>
    if group.name = name ∧ group.database = artifact.database then group.add artifact :: rest
    else group :: addToGroup artifact name rest

def groupArtifacts : List Artifact → List CollectionGroup → List CollectionGroup
  | [], groups => groups
  | artifact :: rest, groups => match artifact.collection with
    | none => groupArtifacts rest groups
    | some name => groupArtifacts rest (addToGroup artifact name groups)

def groupByCollection (manifest : Manifest) : List CollectionGroup := groupArtifacts manifest.artifacts []

def parseStructure (value : Value) : Except Error Structure :=
  match value.get "parameters" with
  | none => .error (.config "structure artifact is missing 'parameters'")
  | some parameters => .ok {parameters := parameters,
                            indexes := ((value.get "indexes").bind Value.asArray).getD [],
                            isEdge := (parameters.get "type").bind Value.asU64 = some 3}

def readStructure (codec : Codec) (store : Nat) (group : CollectionGroup) : Tool Structure :=
  if group.structurePath = "" then
    fail (.config ("collection '" ++ group.name ++ "' has no structure artifact in the manifest"))
  else (readObject codec store group.structurePath .none).bind fun bytes =>
    (lift (codec.fromSlice bytes)).bind fun value => lift (parseStructure value)

def readUnits (codec : Codec) (store : Nat) : List CollectionGroup → Tool (List RestoreUnit)
  | [] => done []
  | group :: rest => (readStructure codec store group).bind fun structure_ =>
    (readUnits codec store rest).bind fun units => done ((group,structure_) :: units)

def databaseOrder : List RestoreUnit → List (Option String) → List (Option String)
  | [], order => order
  | unit :: rest, order =>
    databaseOrder rest (if unit.1.database ∈ order then order else order ++ [unit.1.database])

-- The key `(db_index, is_edge)` as one number.
def unitRank (order : List (Option String)) (unit : RestoreUnit) : Nat :=
  2 * order.idxOf unit.1.database + if unit.2.isEdge then 1 else 0

def sortUnits (units : List RestoreUnit) : List RestoreUnit :=
  units.insertionSort fun one two => unitRank (databaseOrder units []) one ≤ unitRank
    (databaseOrder units []) two

def readViews (codec : Codec) (store : Nat) : List Artifact → Tool (List ViewArtifact)
  | [] => done []
  | artifact :: rest =>
    if artifact.kind = .view then
      (readObject codec store artifact.path .none).bind fun bytes =>
      (lift (codec.fromSlice bytes)).bind fun definition =>
      match artifact.view.or ((definition.get "name").bind Value.asStr) with
      | none =>
        fail (.config ("view artifact '" ++ artifact.path ++ "' has no name in the manifest or its definition"))
      | some name => (readViews codec store rest).bind fun views =>
        done (⟨name,artifact.database,definition⟩ :: views)
    else readViews codec store rest

-- Everything a restore reads before its first request.
structure Plan where
  manifest : Manifest
  units : List RestoreUnit
  databases : List (Option String)
  views : List ViewArtifact

def readPlan (codec : Codec) (store : Nat) : Tool Plan :=
  (readManifest codec store).bind fun manifest =>
  (lift (validate manifest)).bind fun _ =>
  (readUnits codec store (groupByCollection manifest)).bind fun units =>
  (readViews codec store manifest.artifacts).bind fun views => 
    done ⟨manifest,sortUnits units,databaseOrder units [],views⟩

def createDatabases (client : Client) : List (Option String) → Tool Unit
  | [] => done ()
  | none :: rest => createDatabases client rest
  | some database :: rest => (client.createDatabase database).bind fun _ => createDatabases client rest

-- `create_database` takes an existing database for success.
def prepareDatabases (client : Client) (options : RestoreOptions) (plan : Plan) : Tool Unit :=
  if plan.units.any fun unit => unit.1.database.isSome then createDatabases client plan.databases
  else match options.createDatabase with
    | some database => client.createDatabase database
    | none => done ()

def loadRestoreCheckpoint (codec : Codec) (object : ObjectRef) : Tool (Option RestoreCheckpoint) :=
  object.exists.bind fun present =>
    if present then object.get.bind fun bytes =>
      (lift (codec.checkpointFromJson bytes)).bind fun checkpoint => done (some checkpoint)
    else done none

def initialCheckpoint (codec : Codec) (options : RestoreOptions) (fingerprint : String) :
    Tool RestoreCheckpoint :=
  match options.checkpoint with
  | none => done (.new fingerprint)
  | some object => (loadRestoreCheckpoint codec object).bind fun
    | none => done (.new fingerprint)
    | some existing =>
      if existing.manifest = fingerprint then done existing
      else fail
        (.config ("restore checkpoint does not match this dump (manifest fingerprint mismatch); use a fresh " ++
        "checkpoint path or the dump the checkpoint was created for"))

def persistRestoreCheckpoint (codec : Codec) (object : ObjectRef) (state : RestoreCheckpoint) : Tool Unit :=
  (ask (.putStream object (codec.checkpointToJson state))).bind fun _ => done ()

def record (codec : Codec) (options : RestoreOptions) (checkpoint : RestoreCheckpoint) (id : String) :
    Tool RestoreCheckpoint :=
  match options.checkpoint with
  | none => done checkpoint
  | some object =>
    let next := {checkpoint with completed := checkpoint.completed ++ [id]}
    (persistRestoreCheckpoint codec object next).bind fun _ => done next

def isDone (options : RestoreOptions) (checkpoint : RestoreCheckpoint) (id : String) : Bool :=
  options.checkpoint.isSome && checkpoint.contains id

-- `unit_client`, and the same choice in `restore_view`.
def targetClient (client : Client) (options : RestoreOptions) (database : Option String) : Client :=
  match database with
  | some database => client.withDatabase database
  | none => match options.createDatabase with
    | some target => client.withDatabase target
    | none => client.withDatabase client.database

def createCollections (client : Client) (options : RestoreOptions) (checkpoint : RestoreCheckpoint) :
    List RestoreUnit → Tool Unit
  | [] => done ()
  | unit :: rest =>
    if isDone options checkpoint (unitId unit.1) then createCollections client options checkpoint rest
    else
      ((targetClient client options unit.1.database).restoreCollection unit.2.parameters
        [] options.overwrite).bind
        fun _ => createCollections client options checkpoint rest

def restoreView (client : Client) (options : RestoreOptions) (view : ViewArtifact) : Tool Unit :=
  let dbClient := targetClient client options view.database
  (if options.overwrite then dbClient.dropView view.name else done ()).bind fun _ =>
  (attempt (dbClient.createView view.definition)).bind fun
    | .ok _ => done ()
    | .error err => fail (.config
        ("failed to create view '" ++ view.name ++ "': " ++ err.display ++ ". A view's target " ++
      "collections must exist before it is created; if the dump was taken with collection filters, the view's " ++
      "targets may not be in it."))

def restoreViews (codec : Codec) (client : Client) (options : RestoreOptions) :
    List ViewArtifact → RestoreCheckpoint → Nat → Tool (RestoreCheckpoint × Nat)
  | [], checkpoint, restored => done (checkpoint,restored)
  | view :: rest, checkpoint, restored =>
    if isDone options checkpoint (viewUnitId view) then
      restoreViews codec client options rest checkpoint restored
    else (restoreView client options view).bind fun _ =>
      (record codec options checkpoint (viewUnitId view)).bind fun checkpoint =>
        restoreViews codec client options rest checkpoint (restored+1)

def compressionOf (manifest : Manifest) (path : String) : Compression :=
  match manifest.artifacts.find? fun artifact => artifact.path = path with
  | some artifact => artifact.compression
  | none => .none

def readData (codec : Codec) (store : Nat) (manifest : Manifest) (path : String) : Tool Bytes :=
  readObject codec store path (compressionOf manifest path)

def restoreParts (codec : Codec) (client : Client) (store : Nat) (manifest : Manifest) (name : String) :
    List String → Tool Unit
  | [] => done ()
  | path :: rest => (readData codec store manifest path).bind fun body =>
    (client.restoreData name body).bind fun _ => restoreParts codec client store manifest name rest

def isImplicit (index : Value) : Bool :=
  let kind := ((index.get "type").bind Value.asStr).getD ""
  kind = "primary" || kind = "edge"

def createIndexes (client : Client) (name : String) : List Value → Tool Unit
  | [] => done ()
  | index :: rest =>
    if isImplicit index then createIndexes client name rest
    else (client.createIndex name index).bind fun _ => createIndexes client name rest

def loadCollectionData (codec : Codec) (client : Client) (store : Nat) (manifest : Manifest)
    (unit : RestoreUnit) :
    Tool Unit :=
  (restoreParts codec client store manifest unit.1.name unit.1.dataPaths).bind fun _ =>
    createIndexes client unit.1.name unit.2.indexes

def loadCollections (codec : Codec) (client : Client) (store : Nat) (options : RestoreOptions)
    (manifest : Manifest)
    (reporting : Bool) :
    List RestoreUnit → RestoreCheckpoint → RestoreSummary → Tool (RestoreCheckpoint × RestoreSummary)
  | [], checkpoint, summary => done (checkpoint,summary)
  | unit :: rest, checkpoint, summary =>
    if isDone options checkpoint (unitId unit.1) then
      loadCollections codec client store options manifest reporting rest checkpoint
        {summary with skipped := summary.skipped+1}
    else
      let summary := {summary with restored := summary.restored+1}
      (loadCollectionData codec (targetClient client options unit.1.database) store manifest unit).bind fun _ =>
      (record codec options checkpoint (unitId unit.1)).bind fun checkpoint =>
      (if reporting then emit (.progress {batches := summary.restored+summary.skipped})
        else done ()).bind fun _ =>
        loadCollections codec client store options manifest reporting rest checkpoint summary

def restorePhases (codec : Codec) (client : Client) (store : Nat) (options : RestoreOptions) (reporting : Bool)
    (plan : Plan) (checkpoint : RestoreCheckpoint) : Tool RestoreSummary :=
  (createCollections client options checkpoint plan.units).bind fun _ =>
  (restoreViews codec client options (plan.views.filter fun view => !view.isSearchAlias) checkpoint
    0).bind fun linked =>
  (loadCollections codec client store options plan.manifest reporting plan.units linked.1
    {collections := plan.units.length}).bind fun loaded =>
  (restoreViews codec client options (plan.views.filter ViewArtifact.isSearchAlias) loaded.1
    linked.2).bind fun aliased =>
    done {loaded.2 with views := aliased.2}

def runRestoreWithProgress (codec : Codec) (client : Client) (store : Nat) (options : RestoreOptions)
    (reporting : Bool) : Tool RestoreSummary :=
  (readPlan codec store).bind fun plan =>
  (prepareDatabases client options plan).bind fun _ =>
  (initialCheckpoint codec options plan.manifest.fingerprint).bind fun checkpoint =>
    restorePhases codec client store options reporting plan checkpoint

def runRestore (codec : Codec) (client : Client) (store : Nat) (options : RestoreOptions) :
    Tool RestoreSummary :=
  runRestoreWithProgress codec client store options false

end ArangoDataTools.Restore
