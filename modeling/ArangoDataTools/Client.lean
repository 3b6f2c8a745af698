import ArangoDataTools.Manifest

namespace ArangoDataTools
open Interaction Interaction.Program

structure InventoryCollection where
  parameters : Value
  indexes : List Value := []

namespace InventoryCollection

def name (collection : InventoryCollection) : Option String :=
  (collection.parameters.get "name").bind Value.asStr
def typeId (collection : InventoryCollection) : Option Nat :=
  (collection.parameters.get "type").bind Value.asU64
def isEdge (collection : InventoryCollection) : Bool := collection.typeId = some 3
def isSystem (collection : InventoryCollection) : Bool :=
  ((collection.parameters.get "isSystem").bind Value.asBool).getD
    (collection.name.any fun name => name.startsWith "_")

end InventoryCollection

structure Inventory where
  collections : List InventoryCollection := []
  views : List Value := []

structure DumpChunk where
  body : Bytes
  lastIncludedTick : UInt64
  hasMore : Bool
  deriving DecidableEq, Repr

structure CursorRequest where
  query : String
  bindVars : Option Value := none
  batchSize : Option Nat := none
  ttl : Option Nat := none
  stream : Bool := true

structure CursorBatch where
  result : List Value := []
  hasMore : Bool := false
  id : Option String := none

inductive CollectionKind where
  | document | edge
  deriving DecidableEq, Repr

inductive OnDuplicate where
  | error | update | replace | ignore
  deriving DecidableEq, Repr

structure ImportOptions where
  collection : String
  onDuplicate : OnDuplicate := .error
  waitForSync : Bool := false
  complete : Bool := false
  details : Bool := false
  fromPrefix : Option String := none
  toPrefix : Option String := none
  overwrite : Bool := false
  deriving DecidableEq, Repr

structure ImportResult where
  created : UInt64 := 0
  errors : UInt64 := 0
  empty : UInt64 := 0
  updated : UInt64 := 0
  ignored : UInt64 := 0
  details : List String := []
  deriving DecidableEq, Repr

inductive ServerRole where
  | single | coordinator | dbServer | agent
  | unknown (raw : String)
  deriving DecidableEq, Repr

namespace ServerRole

def isCluster : ServerRole → Bool
  | coordinator | dbServer | agent => true
  | _ => false

def asStr : ServerRole → String
  | single => "SINGLE"
  | coordinator => "COORDINATOR"
  | dbServer => "DBSERVER"
  | agent => "AGENT"
  | unknown raw => raw

end ServerRole

-- What one HTTP request of the client asks for; each is one endpoint of the
-- server, with the data the request carries.
inductive Request where
  | serverRole
  | listDatabases
  | replicationBatchCreate (ttlSecs : Nat)
  | replicationBatchExtend (id : String) (ttlSecs : Nat)
  | replicationBatchDelete (id : String)
  | replicationInventory (batchId : String) (includeSystem : Bool)
  | replicationDumpChunk (collection batchId : String) (fromTick : UInt64) (chunkSize : Nat)
  | restoreCollection (parameters : Value) (indexes : List Value) (overwrite : Bool)
  | restoreData (collection : String) (body : Bytes)
  | createDatabase (name : String)
  | createIndex (collection : String) (definition : Value)
  | createView (body : Value)
  | dropView (name : String)
  | cursorOpen (request : CursorRequest)
  | cursorNext (id : String)
  | cursorDelete (id : String)
  | importDocuments (options : ImportOptions) (body : Bytes)

abbrev Request.Response : Request → Type
  | serverRole => ServerRole
  | listDatabases => List String
  | replicationBatchCreate _ => String
  | replicationInventory _ _ => Inventory
  | replicationDumpChunk _ _ _ _ => DumpChunk
  | cursorOpen _ | cursorNext _ => CursorBatch
  | importDocuments _ _ => ImportResult
  | _ => Unit

structure ProgressSnapshot where
  bytesWritten : Nat := 0
  batches : Nat := 0
  deriving DecidableEq, Repr

inductive ProgressEvent where
  | progress (snapshot : ProgressSnapshot)
  | warning (message : String)
  deriving DecidableEq, Repr

-- An object of one of the stores a tool was given.
structure ObjectRef where
  store : Nat
  path : String
  deriving DecidableEq, Repr

-- The effects of the tools, each atomic. `send` is one request attempt of the
-- client (`send_request`/`send_body`, its one re-authentication included).
-- `abortPut` is a `put_stream` whose input failed after the bytes received: the
-- backend decides what it leaves. `pass` is `tx.send` on the document channel.
inductive Op where
  | send (database : String) (request : Request)
  | head (object : ObjectRef)
  | get (object : ObjectRef)
  | putStream (object : ObjectRef) (body : Bytes)
  | abortPut (object : ObjectRef) (received : Bytes)
  | putIfAbsent (object : ObjectRef) (body : Bytes)
  | delete (object : ObjectRef)
  | emit (event : ProgressEvent)
  | count (counter : Counter)
  | pass (item : Except Error (List Value))

abbrev Op.Answer : Op → Type
  | send _ request => Except Error request.Response
  | head _ => Except Error (Option Nat)
  | get _ => Except Error Bytes
  | putStream _ _ => Except Error Nat
  | putIfAbsent _ _ => Except Error Nat
  | delete _ => Except Error Unit
  | pass _ => Bool
  | abortPut _ _ | emit _ | count _ => Unit

def Op.refuse : (op : Op) → op.Answer
  | .send _ _ => .error (.http 404 "unknown path" {})
  | .head _ | .get _ | .putStream _ _ | .putIfAbsent _ _ | .delete _ => .error (.storage "no such store")
  | .abortPut _ _ | .emit _ | .count _ => ()
  | .pass _ => false

abbrev Tool (α : Type) := Program Op Op.Answer Error α

def ask (op : Op) : Tool op.Answer := perform op

namespace ObjectRef

def get (object : ObjectRef) : Tool Bytes := (ask (.get object)).bind lift
def «exists» (object : ObjectRef) : Tool Bool :=
  (ask (.head object)).bind fun answer => (lift answer).bind fun size => done size.isSome
def putStream (object : ObjectRef) (body : Bytes) : Tool Nat := (ask (.putStream object body)).bind lift

end ObjectRef

def emit (event : ProgressEvent) : Tool Unit := ask (.emit event)

structure Client where
  database : String
  retry : RetryPolicy := {}

namespace Client

def withDatabase (client : Client) (database : String) : Client := {client with database := database}

def executeOn (client : Client) (database : String) (request : Request) : Tool request.Response :=
  ArangoDataTools.retry client.retry (fun counter => ask (.count counter)) (ask (.send database request))

def execute (client : Client) (request : Request) : Tool request.Response :=
  client.executeOn client.database request

def tolerating (status : Nat) (request : Tool Unit) : Tool Unit :=
  (attempt request).bind fun
    | .ok _ => done ()
    | .error (.http code message context) =>
      if code = status then done () else fail (.http code message context)
    | .error err => fail err

def serverRole (client : Client) : Tool ServerRole := client.executeOn "_system" .serverRole
def listDatabases (client : Client) : Tool (List String) := client.executeOn "_system" .listDatabases
def replicationBatchCreate (client : Client) (ttlSecs : Nat) : Tool String :=
  client.execute (.replicationBatchCreate ttlSecs)
def replicationBatchExtend (client : Client) (id : String) (ttlSecs : Nat) : Tool Unit :=
  client.execute (.replicationBatchExtend id ttlSecs)
def replicationBatchDelete (client : Client) (id : String) : Tool Unit :=
  tolerating 404 (client.execute (.replicationBatchDelete id))
def replicationInventory (client : Client) (batchId : String) (includeSystem : Bool) : Tool Inventory :=
  client.execute (.replicationInventory batchId includeSystem)
def replicationDumpChunk (client : Client) (collection batchId : String) (fromTick : UInt64) (chunkSize : Nat) :
    Tool DumpChunk := client.execute (.replicationDumpChunk collection batchId fromTick chunkSize)
def restoreCollection (client : Client) (parameters : Value) (indexes : List Value)
    (overwrite : Bool) : Tool Unit :=
  client.execute (.restoreCollection parameters indexes overwrite)
def restoreData (client : Client) (collection : String) (body : Bytes) : Tool Unit :=
  client.execute (.restoreData collection body)
def createDatabase (client : Client) (name : String) : Tool Unit :=
  tolerating 409 (client.executeOn "_system" (.createDatabase name))
def createIndex (client : Client) (collection : String) (definition : Value) : Tool Unit :=
  client.execute (.createIndex collection definition)
def createView (client : Client) (definition : Value) : Tool Unit :=
  client.execute (.createView ((definition.remove "id").remove "globallyUniqueId"))
def dropView (client : Client) (name : String) : Tool Unit := tolerating 404 (client.execute (.dropView name))
def cursorOpen (client : Client) (request : CursorRequest) : Tool CursorBatch :=
  client.execute (.cursorOpen request)
def cursorNext (client : Client) (id : String) : Tool CursorBatch := client.execute (.cursorNext id)
def cursorDelete (client : Client) (id : String) : Tool Unit :=
  tolerating 404 (client.execute (.cursorDelete id))

def importDocuments (client : Client) (options : ImportOptions) (body : Bytes) : Tool ImportResult :=
  if options.collection = "" then fail (.config "import requires a collection name")
  else client.execute (.importDocuments options body)

theorem executeOn_run {W : Type} {handle : Handler Op Op.Answer W}
    (quiet : ∀ counter w, handle (.count counter) w = ((),w))
    (client : Client) (database : String) (request : Request) (w : W)
    (settled : ∀ err, (handle (.send database request) w).1 = .error err → err.isRetryable = false) :
    run handle (client.executeOn database request) w = handle (.send database request) w := by
  have counts : ∀ counter w, run (ε:=Error) handle (ask (.count counter)) w = (.ok (),w) := by
    intro counter w
    unfold ask
    rw [run_perform,quiet]
  have sent : run (ε:=Error) handle (ask (.send database request)) w =
      (.ok (handle (.send database request) w).1,(handle (.send database request) w).2) := rfl
  unfold executeOn ArangoDataTools.retry
  cases answer : (handle (.send database request) w).1 with
  | ok value =>
    rw [answer] at sent
    rw [retryLoop_ok sent,← answer]
  | error err =>
    rw [answer] at sent
    rw [retryLoop_fatal counts sent (settled err answer),← answer]

theorem executeOn_cut {W : Type} {handle : Handler Op Op.Answer W}
    (quiet : ∀ counter w, handle (.count counter) w = ((),w))
    (client : Client) (database : String) (request : Request) {w w' : W}
    (settled : ∀ err, (handle (.send database request) w).1 = .error err → err.isRetryable = false)
    (cut : Cut handle (client.executeOn database request) w w') :
    w' = w ∨ w' = (handle (.send database request) w).2 := by
  have counts : ∀ counter w, run (ε:=Error) handle (ask (.count counter)) w = (.ok (),w) := by
    intro counter w
    unfold ask
    rw [run_perform,quiet]
  have still : ∀ counter w w', Cut (ε:=Error) handle (ask (.count counter)) w w' → w' = w := by
    intro counter w w' cut
    rcases cut_perform handle cut with same | counted
    · exact same
    · rw [counted,quiet]
  have sent : run (ε:=Error) handle (ask (.send database request)) w =
      (.ok (handle (.send database request) w).1,(handle (.send database request) w).2) := rfl
  rcases retryLoop_cut counts still sent settled _ cut with sending | answered
  · exact cut_perform handle sending
  · exact .inr answered

end Client

-- The third-party text and byte codecs the tools call; the last four are the
-- derived JSON forms of the two stored records.
structure Codec where
  toVecPretty : Value → Bytes
  fromSlice : Bytes → Except Error Value
  manifestToJson : Manifest → Bytes
  manifestFromJson : Bytes → Except Error Manifest
  checkpointToJson : RestoreCheckpoint → Bytes
  checkpointFromJson : Bytes → Except Error RestoreCheckpoint
  encode : Compression → Bytes → Bytes
  decode : Compression → Bytes → Except Error Bytes
  sha256 : Bytes → Bytes

end ArangoDataTools
