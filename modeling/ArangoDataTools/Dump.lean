import Mathlib.Algebra.GroupWithZero.Nat
import Mathlib.Data.List.Sort
import ArangoDataTools.Client

namespace ArangoDataTools.Dump
open Interaction Interaction.Program

-- The two compiled patterns, as the predicates `is_match` computes.
structure FilterOptions where
  includeCollections : Option (String → Bool) := none
  excludeCollections : Option (String → Bool) := none

def FilterOptions.accepts (filters : FilterOptions) (name : String) : Bool :=
  (match filters.includeCollections with
    | some pattern => pattern name
    | none => true) &&
  (match filters.excludeCollections with
    | some pattern => !pattern name
    | none => true)

structure DumpOptions where
  includeSystem : Bool := false
  overwrite : Bool := false
  allDatabases : Bool := false
  filters : FilterOptions := {}
  compression : Compression := .none
  batchTtlSecs : Nat := 600
  chunkSize : Nat := 8 * 1024 * 1024
  database : String := "_system"
  toolVersion : String
  createdAt : String := ""

def dumpLockName : String := "dump.in-progress.json"
def manifestName : String := "dump.manifest.json"

-- `progress.is_some()`: a warning is emitted only when a sink is there.
def warn (reporting : Bool) (message : String) : Tool Unit :=
  if reporting then emit (.warning message) else done ()

def preflightTopology (client : Client) (reporting : Bool) : Tool Unit :=
  (attempt client.serverRole).bind fun
    | .ok role =>
      if role.isCluster then
        fail (.config ("refusing to dump from a cluster deployment (server role: " ++ role.asStr ++
          "). Cluster-aware dump is not implemented yet, and the single-server path would produce a dump whose " ++
          "completeness across shards is unverified. Point --endpoint at a single server, or use ArangoDB's own " ++
          "arangodump for cluster deployments."))
      else done ()
    | .error err =>
      warn reporting ("could not determine the server's deployment role (" ++ err.display ++
        "); proceeding with " ++
        "the single-server dump path. If this endpoint is a cluster coordinator, the dump may be incomplete " ++
        "across shards.")

def lockBody (codec : Codec) (options : DumpOptions) : Bytes :=
  codec.toVecPretty (.object [("database",.string options.database),("started_at",.string options.createdAt),
    ("tool_version",.string options.toolVersion)])

def claimDestination (codec : Codec) (store : Nat) (options : DumpOptions) : Tool Unit :=
  let lock : ObjectRef := ⟨store,dumpLockName⟩
  let manifest : ObjectRef := ⟨store,manifestName⟩
  let checked : Tool Unit :=
    if options.overwrite then
      (ask (.delete lock)).bind fun _ => (ask (.delete manifest)).bind fun _ => done ()
    else manifest.exists.bind fun present =>
      if present then
        fail (.config ("destination already contains a completed dump ('" ++ manifestName ++
          "'). Dumping here " ++
          "would mix the two dumps' artifacts under one manifest. Choose an empty destination, or pass " ++
          "--overwrite to replace what is there."))
      else done ()
  checked.bind fun _ => (ask (.putIfAbsent lock (lockBody codec options))).bind fun
    | .ok _ => done ()
    | .error (.alreadyExists _) =>
      fail
        (.config ("another dump is already writing to this destination, or an earlier one failed and left '" ++
        dumpLockName ++
          "' behind. Artifacts from two dumps under one manifest would be silently inconsistent, so " ++
        "this run stops. Wait for the other dump, or pass --overwrite to discard what is there."))
    | .error err => fail err

def releaseDestination (store : Nat) : Tool Unit :=
  (ask (.delete ⟨store,dumpLockName⟩)).bind fun _ => done ()

def hexDigit (value : Nat) : Char := "0123456789abcdef".toList.getD value '0'
def hex (bytes : Bytes) : String :=
  String.ofList (bytes.flatMap fun byte => [hexDigit (byte.toNat / 16),hexDigit (byte.toNat % 16)])

-- The chunk bodies fetched, and the error that ended the stream if one did.
-- The tick strictly grows from one round to the next, so the loop ends.
def dumpDataStream (client : Client) (collection batch : String) (chunkSize : Nat)
    (fromTick : UInt64) (read : List Bytes) :
    Tool (List Bytes × Option Error) :=
  (attempt (client.replicationDumpChunk collection batch fromTick chunkSize)).bind fun
    | .error err => done (read,some err)
    | .ok chunk =>
      let read := if chunk.body.isEmpty then read else read ++ [chunk.body]
      if _advances : chunk.hasMore ∧ chunk.lastIncludedTick ≠ 0 ∧ fromTick < chunk.lastIncludedTick then
        dumpDataStream client collection batch chunkSize chunk.lastIncludedTick read
      else done (read,none)
termination_by 2^64 - fromTick.toNat
decreasing_by
  have below := UInt64.toNat_lt chunk.lastIncludedTick
  have grows := UInt64.lt_iff_toNat_lt.mp _advances.2.2
  omega

structure Target where
  store : Nat
  pathPrefix : String := ""
  database : Option String := none

-- `put_stream` of a body made of one chunk.
def Target.put (target : Target) (path : String) (body : Bytes) : Tool Nat :=
  (⟨target.store,path⟩ : ObjectRef).putStream body

def structurePath (target : Target) (name : String) : String := target.pathPrefix ++ name ++ ".structure.json"
def viewPath (target : Target) (name : String) : String := target.pathPrefix ++ name ++ ".view.json"
def dataSuffix (compression : Compression) : String :=
  match compression.extension with
  | some ext => "data.jsonl." ++ ext
  | none => "data.jsonl"
def dataPath (target : Target) (compression : Compression) (name : String) : String :=
  target.pathPrefix ++ name ++ "." ++ dataSuffix compression

def structureValue (collection : InventoryCollection) : Value :=
  .object [("indexes",.array collection.indexes),("parameters",collection.parameters)]

def writeStructureWithPrefix (codec : Codec) (target : Target) (name : String)
    (collection : InventoryCollection)
    (manifest : Manifest) : Tool Manifest :=
  let path := structurePath target name
  (target.put path (codec.toVecPretty (structureValue collection))).bind fun size =>
    done (manifest.push
      {path := path,kind := .structureDef,format := .json,byteSize := size,
       collection := some name,database := target.database})

-- The input of this `put_stream` is read while it is written, so a failed
-- chunk request ends the write with what was received before it.
def writeDataWithPrefix (codec : Codec) (client : Client) (target : Target) (options : DumpOptions)
    (batch name : String)
    (manifest : Manifest) : Tool Manifest :=
  let path := dataPath target options.compression name
  (dumpDataStream client name batch options.chunkSize 0 []).bind fun stream =>
    let body := codec.encode options.compression stream.1.flatten
    match stream.2 with
    | some err => (ask (.abortPut ⟨target.store,path⟩ body)).bind fun _ => fail err
    | none => (target.put path body).bind fun size =>
      done (manifest.push
        {path := path,kind := .data,format := .jsonl,compression := options.compression,byteSize := size,
         checksum := some ⟨"sha256",hex (codec.sha256 body)⟩,collection := some name,
         database := target.database,part := some 0})

def linkTargets (view : Value) : List String :=
  (((view.get "links").bind Value.asObject).getD []).map Prod.fst
def indexTargets (view : Value) : List String :=
  (((view.get "indexes").bind Value.asArray).getD []).filterMap fun index =>
    (index.get "collection").bind Value.asStr

def viewTargets (view : Value) : List String :=
  ((linkTargets view ++ indexTargets view).insertionSort (· ≤ ·)).eraseReps

def viewName (view : Value) : Option String := (view.get "name").bind Value.asStr

def missingTargets (dumped : List String) (view : Value) : List String :=
  (viewTargets view).filter fun target => !dumped.contains target

def writeViewsWithPrefix (codec : Codec) (target : Target) (dumped : List String) (reporting : Bool) :
    List Value → Manifest → Tool Manifest
  | [], manifest => done manifest
  | view :: rest, manifest => match viewName view with
    | none => fail (.config "inventory view is missing a name")
    | some name =>
      if (missingTargets dumped view).isEmpty then
        let path := viewPath target name
        (target.put path (codec.toVecPretty view)).bind fun size =>
          writeViewsWithPrefix codec target dumped reporting rest (manifest.push
            {path := path,kind := .view,format := .json,byteSize := size,
             view := some name,database := target.database})
      else
        (warn reporting ("view '" ++ name ++ "' was not dumped: it targets collection(s) " ++
          ", ".intercalate (missingTargets dumped view) ++
            " which the collection filters excluded. Restoring it " ++
          "would fail, so it is omitted. Widen --include-collections (or drop --exclude-collections) to capture " ++
          "it.")).bind fun _ => writeViewsWithPrefix codec target dumped reporting rest manifest

structure DumpProgress where
  reporting : Bool := false
  collections : Nat := 0

def dataBytes (manifest : Manifest) : Nat :=
  ((manifest.artifacts.filter fun artifact => artifact.kind = .data).map Artifact.byteSize).sum

def DumpProgress.collectionDone (progress : DumpProgress) (bytes : Nat) : Tool DumpProgress :=
  let next := {progress with collections := progress.collections+1}
  if progress.reporting then
    (emit (.progress {bytesWritten := bytes,batches := next.collections})).bind fun _ => done next
  else done next

-- The collections a dump takes: system ones only on request, and those are
-- not filtered.
def skips (options : DumpOptions) (collection : InventoryCollection) : Bool :=
  collection.isSystem && !options.includeSystem

def filteredOut (options : DumpOptions) (collection : InventoryCollection) (name : String) : Bool :=
  !collection.isSystem && !options.filters.accepts name

def dumpCollections (codec : Codec) (client : Client) (target : Target) (options : DumpOptions)
    (batch : String) :
    List InventoryCollection → List String → DumpProgress → Manifest →
    Tool (List String × DumpProgress × Manifest)
  | [], dumped, progress, manifest => done (dumped,progress,manifest)
  | collection :: rest, dumped, progress, manifest =>
    if skips options collection then
      dumpCollections codec client target options batch rest dumped progress manifest
    else match collection.name with
    | none => fail (.config "inventory collection is missing a name")
    | some name =>
      if filteredOut options collection name then
        dumpCollections codec client target options batch rest dumped progress manifest
      else
        (client.replicationBatchExtend batch options.batchTtlSecs).bind fun _ =>
        (writeStructureWithPrefix codec target name collection manifest).bind fun manifest =>
        (writeDataWithPrefix codec client target options batch name manifest).bind fun manifest =>
        (progress.collectionDone (dataBytes manifest)).bind fun progress =>
          dumpCollections codec client target options batch rest (dumped ++ [name]) progress manifest

def dumpDbIntoManifest (codec : Codec) (client : Client) (target : Target) (options : DumpOptions)
    (batch : String)
    (manifest : Manifest) (progress : DumpProgress) : Tool (Manifest × DumpProgress) :=
  (client.replicationInventory batch options.includeSystem).bind fun inventory =>
  (dumpCollections codec client target options batch inventory.collections
    [] progress manifest).bind fun written =>
  (writeViewsWithPrefix codec target written.1 written.2.1.reporting inventory.views
    written.2.2).bind fun manifest =>
    done (manifest,written.2.1)

def putManifest (codec : Codec) (store : Nat) (manifest : Manifest) : Tool Manifest :=
  ((⟨store,manifestName⟩ : ObjectRef).putStream (codec.manifestToJson manifest)).bind fun _ => done manifest

def dumpWithBatch (codec : Codec) (client : Client) (store : Nat) (options : DumpOptions) (batch : String)
    (progress : DumpProgress) : Tool Manifest :=
  (dumpDbIntoManifest codec client {store := store} options batch
    (Manifest.new options.database options.toolVersion options.createdAt) progress).bind fun written =>
  putManifest codec store written.1

-- The databases of a combined dump. Only the single-database body releases its
-- batch when the dump fails.
def dumpDatabases (codec : Codec) (client : Client) (store : Nat) (options : DumpOptions) :
    List String → Manifest → DumpProgress → Tool Manifest
  | [], manifest, _ => putManifest codec store manifest
  | db :: rest, manifest, progress =>
    let clientDb := client.withDatabase db
    (clientDb.replicationBatchCreate options.batchTtlSecs).bind fun batch =>
    (dumpDbIntoManifest codec clientDb ⟨store,"databases/" ++ db ++ "/",some db⟩ options batch
      manifest progress).bind
      fun written => (attempt (clientDb.replicationBatchDelete batch)).bind fun _ =>
        dumpDatabases codec client store options rest written.1 written.2

def runDumpBody (codec : Codec) (client : Client) (store : Nat) (options : DumpOptions)
    (progress : DumpProgress) :
    Tool Manifest :=
  if options.allDatabases then
    client.listDatabases.bind fun databases =>
      dumpDatabases codec client store options databases
        (Manifest.new "all" options.toolVersion options.createdAt) progress
  else
    (client.replicationBatchCreate options.batchTtlSecs).bind fun batch =>
    (attempt (dumpWithBatch codec client store options batch progress)).bind fun result =>
    (attempt (client.replicationBatchDelete batch)).bind fun _ => lift result

def runDumpWithProgress (codec : Codec) (client : Client) (store : Nat) (options : DumpOptions)
    (reporting : Bool) :
    Tool Manifest :=
  (preflightTopology client reporting).bind fun _ =>
  (claimDestination codec store options).bind fun _ =>
  (attempt (runDumpBody codec client store options {reporting := reporting})).bind fun
    | .ok manifest => (releaseDestination store).bind fun _ => done manifest
    | .error err => fail err

def runDump (codec : Codec) (client : Client) (store : Nat) (options : DumpOptions) : Tool Manifest :=
  runDumpWithProgress codec client store options false

end ArangoDataTools.Dump
