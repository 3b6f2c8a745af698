import Mathlib.Data.List.Nodup
import ArangoDataTools.DumpClaim

namespace ArangoDataTools.DumpRun
open Interaction Interaction.Program Dump DumpClaim

abbrev Objects := ObjectRef → Option Bytes

-- A single server as a dump sees it, holding still: its inventory and, per
-- collection, the chunk it answers a request for data after a tick with.
structure Source where
  role : ServerRole := .single
  batch : String
  inventory : Inventory
  serve : String → UInt64 → DumpChunk

def Source.answer (source : Source) : (request : Request) → Except Error request.Response
  | .serverRole => .ok source.role
  | .replicationBatchCreate _ => .ok source.batch
  | .replicationBatchExtend _ _ => .ok ()
  | .replicationBatchDelete _ => .ok ()
  | .replicationInventory _ _ => .ok source.inventory
  | .replicationDumpChunk collection _ fromTick _ => .ok (source.serve collection fromTick)
  | request => Op.refuse (.send "" request)

def dumping (source : Source) : Handler Op Op.Answer Objects
  | .send _ request, w => (source.answer request,w)
  | .head object, w => (.ok ((w object).map List.length),w)
  | .get object, w => match w object with
    | some bytes => (.ok bytes,w)
    | none => (.error (.storage ("object not found: " ++ object.path)),w)
  | .putStream object body, w => (.ok body.length,Function.update w object (some body))
  | .putIfAbsent object body, w =>
    if (w object).isSome then (.error (.alreadyExists object.path),w)
    else (.ok body.length,Function.update w object (some body))
  | .delete object, w => (.ok (),Function.update w object none)
  | op, w => (op.refuse,w)

-- The chunks a server pages through from a tick: each is asked for with the
-- tick the one before it ended at, up to one that has nothing after it.
inductive Pages (serve : UInt64 → DumpChunk) : UInt64 → List DumpChunk → Prop where
  | last : ¬ ((serve tick).hasMore = true ∧ (serve tick).lastIncludedTick ≠ 0 ∧
      tick < (serve tick).lastIncludedTick) →
      Pages serve tick [serve tick]
  | more : (serve tick).hasMore = true → (serve tick).lastIncludedTick ≠ 0 →
      tick < (serve tick).lastIncludedTick →
      Pages serve (serve tick).lastIncludedTick rest → Pages serve tick (serve tick :: rest)

section Stream
variable {source : Source} {w : Objects}

theorem count_dumping (counter : Counter) (w : Objects) : dumping source (.count counter) w = ((),w) := rfl

theorem request_run {request : Request} {value : request.Response} (client : Client) (database : String)
    (answers : source.answer request = .ok value) (w : Objects) :
    run (dumping source) (client.executeOn database request) w = (.ok value,w) := by
  have answered : dumping source (.send database request) w = (.ok value,w) := Prod.ext answers rfl
  rw [Client.executeOn_run count_dumping client database request w
    (fun err failed => by rw [answered] at failed; cases failed)]
  exact answered

theorem extend_run (client : Client) (batch : String) (ttl : Nat) (w : Objects) :
    run (dumping source) (client.replicationBatchExtend batch ttl) w = (.ok (),w) := request_run client _ rfl w

theorem attempt_ok {p : Tool α} {w w' : Objects} {value : α} (ran : run (dumping source) p w = (.ok value,w')) :
    run (dumping source) (attempt p) w = (.ok (.ok value),w') := by rw [run_attempt,ran]

theorem dumpDataStream_run {name : String} {tick : UInt64} {chunks : List DumpChunk}
    (paged : Pages (source.serve name) tick chunks) (client : Client) (batch : String) (size : Nat)
      (read : List Bytes)
    (w : Objects) :
    ∃ bodies, run (dumping source) (dumpDataStream client name batch size tick read) w = (.ok (bodies,none),w) ∧
      bodies.flatten = read.flatten ++ chunks.flatMap DumpChunk.body := by
  have fetched : ∀ tick, run (dumping source) (attempt (client.replicationDumpChunk name batch tick size)) w =
      (.ok (.ok (source.serve name tick)),w) := fun tick => attempt_ok (request_run client _ rfl w)
  have keeps : ∀ (read : List Bytes) (chunk : DumpChunk),
      (if chunk.body.isEmpty then read else read ++ [chunk.body]).flatten = read.flatten ++ chunk.body := by
    intro read chunk
    split
    · rename_i empty
      simp [List.isEmpty_iff.mp empty]
    · simp
  induction paged generalizing read with
  | @last tick stops =>
    rw [dumpDataStream,run_bind_ok _ (fetched tick)]
    simp only [dif_neg stops]
    refine ⟨_,rfl,?_⟩
    rw [keeps]
    simp
  | @more tick rest hasMore positive grows paged ih =>
    rw [dumpDataStream,run_bind_ok _ (fetched tick)]
    simp only [dif_pos (And.intro hasMore (And.intro positive grows))]
    obtain ⟨bodies,ran,whole⟩ := ih (if (source.serve name tick).body.isEmpty then read
      else read ++ [(source.serve name tick).body])
    refine ⟨bodies,ran,?_⟩
    rw [whole,keeps]
    simp

end Stream

def selects (options : DumpOptions) (collection : InventoryCollection) (name : String) : Bool :=
  if collection.isSystem then options.includeSystem else options.filters.accepts name

def selected (options : DumpOptions) (collections : List InventoryCollection) :
    List (String × InventoryCollection) :=
  collections.filterMap fun collection => collection.name.bind fun name =>
    if selects options collection name then some (name,collection) else none

-- A dump of one database of `source`, every collection paging through `chunks`.
structure Backup where
  codec : Codec
  client : Client
  store : Nat
  options : DumpOptions
  source : Source
  chunks : String → List DumpChunk

namespace Backup
variable (b : Backup)

def target : Target := {store := b.store}
def collections : List (String × InventoryCollection) := selected b.options b.source.inventory.collections

def takes (dumped : List String) (view : Value) : Bool :=
  (linkTargets view ++ indexTargets view).all fun target => decide (target ∈ dumped)
def views : List Value := b.source.inventory.views.filter (takes (b.collections.map Prod.fst))

def body (name : String) : Bytes := (b.chunks name).flatMap DumpChunk.body
def data (name : String) : Bytes := b.codec.encode b.options.compression (b.body name)

def structureArtifact (name : String) (collection : InventoryCollection) : Artifact :=
  {path := structurePath b.target name,kind := .structureDef,format := .json,
   byteSize := (b.codec.toVecPretty (structureValue collection)).length,collection := some name}
def dataArtifact (name : String) : Artifact :=
  {path := dataPath b.target b.options.compression name,kind := .data,format := .jsonl,
   compression := b.options.compression,byteSize := (b.data name).length,
   checksum := some ⟨"sha256",hex (b.codec.sha256 (b.data name))⟩,collection := some name,part := some 0}
def viewArtifact (view : Value) : Artifact :=
  {path := viewPath b.target ((viewName view).getD ""),kind := .view,format := .json,
   byteSize := (b.codec.toVecPretty view).length,view := viewName view}

def collectionArtifacts (unit : String × InventoryCollection) : List Artifact :=
  [b.structureArtifact unit.1 unit.2,b.dataArtifact unit.1]
def collectionWrites (unit : String × InventoryCollection) : List (String × Bytes) :=
  [(structurePath b.target unit.1,b.codec.toVecPretty (structureValue unit.2)),
   (dataPath b.target b.options.compression unit.1,b.data unit.1)]
def viewWrite (view : Value) : String × Bytes :=
  (viewPath b.target ((viewName view).getD ""),b.codec.toVecPretty view)

def artifacts : List Artifact := b.collections.flatMap b.collectionArtifacts ++ b.views.map b.viewArtifact
def writes : List (String × Bytes) := b.collections.flatMap b.collectionWrites ++ b.views.map b.viewWrite
def manifest : Manifest :=
  {Manifest.new b.options.database b.options.toolVersion b.options.createdAt with artifacts := b.artifacts}

end Backup

def putAll (store : Nat) (writes : List (String × Bytes)) (w : Objects) : Objects :=
  writes.foldl (fun w write => Function.update w ⟨store,write.1⟩ (some write.2)) w

section Writes
variable {b : Backup}

theorem putAll_append (store : Nat) (one two : List (String × Bytes)) (w : Objects) :
    putAll store (one ++ two) w = putAll store two (putAll store one w) := List.foldl_append ..

theorem putAll_other {store : Nat} {writes : List (String × Bytes)} {path : String}
    (absent : path ∉ writes.map Prod.fst)
    (w : Objects) : putAll store writes w ⟨store,path⟩ = w ⟨store,path⟩ := by
  induction writes generalizing w with
  | nil => rfl
  | cons write rest ih =>
    rw [List.map_cons,List.mem_cons,not_or] at absent
    have differs : (⟨store,path⟩ : ObjectRef) ≠ ⟨store,write.1⟩ :=
      fun same => absent.1 (congrArg ObjectRef.path same)
    exact (ih absent.2 _).trans (Function.update_of_ne differs _ _)

theorem putAll_written {store : Nat} {writes : List (String × Bytes)} (distinct : (writes.map Prod.fst).Nodup)
    {path : String} {bytes : Bytes} (member : (path,bytes) ∈ writes) (w : Objects) :
    putAll store writes w ⟨store,path⟩ = some bytes := by
  induction writes generalizing w with
  | nil => cases member
  | cons write rest ih =>
    obtain ⟨absent,distinct⟩ := List.nodup_cons.mp distinct
    rcases List.mem_cons.mp member with rfl | later
    · exact (putAll_other absent _).trans (Function.update_self _ _ _)
    · exact ih distinct later _

theorem put_run {source : Source} (store : Nat) (path : String) (bytes : Bytes) (w : Objects) :
    run (dumping source) ((⟨store,path⟩ : ObjectRef).putStream bytes) w =
    (.ok bytes.length,putAll store [(path,bytes)] w) := rfl

theorem structure_run (name : String) (collection : InventoryCollection) (manifest : Manifest) (w : Objects) :
    run (dumping b.source) (writeStructureWithPrefix b.codec b.target name collection manifest) w =
      (.ok (manifest.push (b.structureArtifact name collection)),
        putAll b.store [(structurePath b.target name,b.codec.toVecPretty (structureValue collection))] w) := rfl

theorem data_run (paged : ∀ name, Pages (b.source.serve name) 0 (b.chunks name))
    (batch name : String) (manifest : Manifest)
    (w : Objects) : run (dumping b.source)
      (writeDataWithPrefix b.codec b.client b.target b.options batch name manifest) w =
      (.ok (manifest.push (b.dataArtifact name)),
        putAll b.store [(dataPath b.target b.options.compression name,b.data name)] w) := by
  obtain ⟨bodies,ran,whole⟩ := dumpDataStream_run (paged name) b.client batch b.options.chunkSize [] w
  unfold writeDataWithPrefix
  rw [run_bind_ok _ ran]
  have data : b.codec.encode b.options.compression bodies.flatten = b.data name := by
    rw [whole]
    rfl
  simp only [data]
  rfl

theorem collectionDone_run (source : Source) (progress : DumpProgress) (bytes : Nat) (w : Objects) :
    ∃ next, run (dumping source) (progress.collectionDone bytes) w = (.ok next,w) := by
  unfold DumpProgress.collectionDone
  by_cases reporting : progress.reporting = true
  · exact ⟨_,by simp only [reporting,if_true]; rfl⟩
  · exact ⟨_,by simp only [reporting]; rfl⟩

theorem collections_run (paged : ∀ name, Pages (b.source.serve name) 0 (b.chunks name)) (batch : String)
    {collections : List InventoryCollection} (named : ∀ collection ∈ collections, collection.name.isSome)
    (dumped : List String) (progress : DumpProgress) (manifest : Manifest) (w : Objects) :
    ∃ progress', run (dumping b.source)
        (dumpCollections b.codec b.client b.target b.options batch collections dumped progress manifest) w =
      (.ok (dumped ++ (selected b.options collections).map Prod.fst,progress',
          {manifest with artifacts := manifest.artifacts ++
            (selected b.options collections).flatMap b.collectionArtifacts}),
        putAll b.store ((selected b.options collections).flatMap b.collectionWrites) w) := by
  induction collections generalizing dumped progress manifest w with
  | nil => exact ⟨progress,by simp [dumpCollections,selected,putAll]⟩
  | cons collection rest ih =>
    have later := fun collection member => named collection (List.mem_cons_of_mem _ member)
    obtain ⟨name,called⟩ := Option.isSome_iff_exists.mp (named collection List.mem_cons_self)
    unfold dumpCollections
    by_cases taken : selects b.options collection name = true
    · have kept : selected b.options (collection :: rest) = (name,collection) :: selected b.options rest := by
        simp [selected,called,taken]
      have unskipped : ¬ skips b.options collection = true := by
        unfold selects at taken
        unfold skips
        split at taken <;> simp_all
      have unfiltered : ¬ filteredOut b.options collection name = true := by
        unfold selects at taken
        unfold filteredOut
        split at taken <;> simp_all
      rw [if_neg unskipped,called]
      simp only [if_neg unfiltered]
      rw [run_bind_ok _ (extend_run b.client batch b.options.batchTtlSecs w),
        run_bind_ok _ (structure_run name collection manifest w),
        run_bind_ok _ (data_run paged batch name _ _)]
      obtain ⟨next,counted⟩ := collectionDone_run b.source progress (dataBytes
        ((manifest.push (b.structureArtifact name collection)).push (b.dataArtifact name))) (putAll b.store
        [(dataPath b.target b.options.compression name,b.data name)] (putAll b.store
        [(structurePath b.target name,b.codec.toVecPretty (structureValue collection))] w))
      rw [run_bind_ok _ counted,kept]
      obtain ⟨progress',ran⟩ := ih later (dumped ++ [name]) next _ _
      refine ⟨progress',ran.trans ?_⟩
      simp [Manifest.push,Backup.collectionArtifacts,Backup.collectionWrites,putAll]
    · have passed : selected b.options (collection :: rest) = selected b.options rest := by
        simp [selected,called,taken]
      rw [passed]
      by_cases skipped : skips b.options collection = true
      · rw [if_pos skipped]
        exact ih later dumped progress manifest w
      · have filtered : filteredOut b.options collection name = true := by
          unfold selects at taken
          unfold skips at skipped
          unfold filteredOut
          split at taken <;> simp_all
        rw [if_neg skipped,called]
        simp only [if_pos filtered]
        exact ih later dumped progress manifest w

theorem mem_eraseReps_loop (target head : String) (rest kept : List String) :
    target ∈ List.eraseRepsBy.loop (· == ·) head rest kept ↔ target ∈ head :: rest ∨ target ∈ kept := by
  induction rest generalizing head kept with
  | nil => simp [List.eraseRepsBy.loop,or_comm]
  | cons next rest ih =>
    unfold List.eraseRepsBy.loop
    by_cases equal : head = next
    · subst equal
      simp only [BEq.rfl]
      rw [ih]
      simp
    · have differs : (head == next) = false := by simpa using equal
      rw [differs]
      simp only
      rw [ih]
      simp only [List.mem_cons]
      tauto

theorem mem_eraseReps (target : String) (targets : List String) : target ∈ targets.eraseReps ↔
    target ∈ targets := by
  cases targets with
  | nil => rfl
  | cons head rest =>
    have loop := mem_eraseReps_loop target head rest []
    simpa [List.eraseReps,List.eraseRepsBy] using loop

theorem missing_iff (dumped : List String) (view : Value) :
    (missingTargets dumped view).isEmpty = Backup.takes dumped view := by
  rw [Bool.eq_iff_iff]
  unfold missingTargets Backup.takes viewTargets
  simp only [List.isEmpty_iff,List.filter_eq_nil_iff,mem_eraseReps,List.mem_insertionSort,
    List.all_eq_true,decide_eq_true_eq]
  simp

theorem warn_run {source : Source} (reporting : Bool) (message : String) (w : Objects) :
    run (dumping source) (warn reporting message) w = (.ok (),w) := by cases reporting <;> rfl

theorem views_run (dumped : List String) (reporting : Bool) {views : List Value}
    (named : ∀ view ∈ views, (viewName view).isSome) (manifest : Manifest) (w : Objects) :
    run (dumping b.source) (writeViewsWithPrefix b.codec b.target dumped reporting views manifest) w =
      (.ok {manifest with artifacts := manifest.artifacts ++
        (views.filter (Backup.takes dumped)).map b.viewArtifact},
        putAll b.store ((views.filter (Backup.takes dumped)).map b.viewWrite) w) := by
  induction views generalizing manifest w with
  | nil => simp [writeViewsWithPrefix,putAll]
  | cons view rest ih =>
    have later := fun view member => named view (List.mem_cons_of_mem _ member)
    obtain ⟨name,called⟩ := Option.isSome_iff_exists.mp (named view List.mem_cons_self)
    unfold writeViewsWithPrefix
    rw [called]
    simp only
    rw [missing_iff]
    by_cases taken : Backup.takes dumped view = true
    · have written : run (dumping b.source)
          (b.target.put (viewPath b.target name) (b.codec.toVecPretty view)) w =
        (.ok (b.codec.toVecPretty view).length,putAll b.store [b.viewWrite view] w) := by
        simp only [Backup.viewWrite,called,Option.getD_some]
        exact put_run b.store _ _ w
      rw [if_pos taken,run_bind_ok _ written,ih later]
      simp [Manifest.push,Backup.viewArtifact,called,taken,putAll,Backup.target]
    · rw [if_neg taken,run_bind_ok _ (warn_run reporting _ w),ih later]
      simp [taken]

theorem database_run (paged : ∀ name, Pages (b.source.serve name) 0 (b.chunks name)) (batch : String)
    (named : ∀ collection ∈ b.source.inventory.collections, collection.name.isSome)
    (namedViews : ∀ view ∈ b.source.inventory.views, (viewName view).isSome)
      (progress : DumpProgress) (w : Objects) :
    ∃ progress', run (dumping b.source) (dumpDbIntoManifest b.codec b.client b.target b.options batch
        (Manifest.new b.options.database b.options.toolVersion b.options.createdAt) progress) w =
      (.ok (b.manifest,progress'),putAll b.store b.writes w) := by
  have listed : run (dumping b.source) (b.client.replicationInventory batch b.options.includeSystem) w =
    (.ok b.source.inventory,w) := request_run b.client _ rfl w
  obtain ⟨progress',ran⟩ := collections_run paged batch named [] progress
    (Manifest.new b.options.database b.options.toolVersion b.options.createdAt) w
  unfold dumpDbIntoManifest
  rw [run_bind_ok _ listed,run_bind_ok _ ran,run_bind_ok _ (views_run _ _ namedViews _ _)]
  refine ⟨progress',?_⟩
  simp only [run_done,Backup.manifest,Backup.artifacts,Backup.writes,Backup.collections,
    Backup.views,putAll_append]
  simp [Manifest.new]

theorem body_run (single : b.options.allDatabases = false)
    (paged : ∀ name, Pages (b.source.serve name) 0 (b.chunks name))
    (named : ∀ collection ∈ b.source.inventory.collections, collection.name.isSome)
    (namedViews : ∀ view ∈ b.source.inventory.views, (viewName view).isSome)
      (progress : DumpProgress) (w : Objects) :
    run (dumping b.source) (runDumpBody b.codec b.client b.store b.options progress) w =
      (.ok b.manifest,putAll b.store (b.writes ++ [(manifestName,b.codec.manifestToJson b.manifest)]) w) := by
  have opened : run (dumping b.source) (b.client.replicationBatchCreate b.options.batchTtlSecs) w =
      (.ok b.source.batch,w) :=
    request_run b.client _ rfl w
  have closed : ∀ w, run (dumping b.source)
      (attempt (b.client.replicationBatchDelete b.source.batch)) w = (.ok (.ok ()),w) := by
    intro w
    have deleted : run (dumping b.source)
        (b.client.execute (.replicationBatchDelete b.source.batch)) w = (.ok (),w) :=
      request_run b.client _ rfl w
    apply attempt_ok
    unfold Client.replicationBatchDelete Client.tolerating
    rw [run_bind_ok _ (attempt_ok deleted)]
    rfl
  obtain ⟨progress',ran⟩ := database_run paged b.source.batch named namedViews progress w
  have dumped : run (dumping b.source)
      (dumpWithBatch b.codec b.client b.store b.options b.source.batch progress) w =
      (.ok b.manifest,putAll b.store (b.writes ++ [(manifestName,b.codec.manifestToJson b.manifest)]) w) := by
    unfold Backup.target at ran
    unfold dumpWithBatch
    rw [run_bind_ok _ ran,putAll_append]
    rfl
  unfold runDumpBody
  rw [if_neg (by simp [single]),run_bind_ok _ opened,run_bind_ok _ (attempt_ok dumped),run_bind_ok _ (closed _)]
  rfl

theorem claim_run (source : Source) (codec : Codec) (store : Nat) (options : DumpOptions) (w : Objects)
    (free : options.overwrite = true ∨ w ⟨store,manifestName⟩ = none ∧ w ⟨store,dumpLockName⟩ = none) :
    ∃ w', run (dumping source) (claimDestination codec store options) w = (.ok (),w') := by
  have locked : ∀ w : Objects, w ⟨store,dumpLockName⟩ = none →
      run (dumping source) (ask (.putIfAbsent ⟨store,dumpLockName⟩ (lockBody codec options))) w =
        (.ok (.ok (lockBody codec options).length),
          Function.update w ⟨store,dumpLockName⟩ (some (lockBody codec options))) := by
    intro w absent
    unfold ask
    rw [run_perform]
    simp [dumping,absent]
  unfold claimDestination
  by_cases overwrite : options.overwrite = true
  · simp only [overwrite,if_true]
    have cleared : run (dumping source) (ask (.delete ⟨store,dumpLockName⟩)) w =
      (.ok (.ok ()),Function.update w ⟨store,dumpLockName⟩ none) := rfl
    rw [bind_assoc,run_bind_ok _ cleared]
    have removed : ∀ w, run (dumping source) (ask (.delete ⟨store,manifestName⟩)) w =
      (.ok (.ok ()),Function.update w ⟨store,manifestName⟩ none) := fun _ => rfl
    rw [bind_assoc,run_bind_ok _ (removed _)]
    have differs : (⟨store,dumpLockName⟩ : ObjectRef) ≠ ⟨store,manifestName⟩ := by
      simp [dumpLockName,manifestName]
    rw [done_bind,run_bind_ok _ (locked _ (by simp [Function.update_of_ne differs]))]
    exact ⟨_,rfl⟩
  · rcases free with replacing | ⟨unwritten,unlocked⟩
    · exact absurd replacing overwrite
    · simp only [overwrite]
      have looked : run (dumping source) (⟨store,manifestName⟩ : ObjectRef).exists w = (.ok false,w) := by
        unfold ObjectRef.exists ask
        rw [run_bind_ok _ (run_perform _ _ w)]
        simp [dumping,unwritten,lift]
      simp only [Bool.false_eq_true,if_false]
      rw [bind_assoc,run_bind_ok _ looked]
      simp only [Bool.false_eq_true,if_false,done_bind]
      rw [run_bind_ok _ (locked _ unlocked)]
      exact ⟨_,rfl⟩

theorem preflight_run (role : b.source.role.isCluster = false) (reporting : Bool) (w : Objects) :
    run (dumping b.source) (preflightTopology b.client reporting) w = (.ok (),w) := by
  have asked : run (dumping b.source) b.client.serverRole w = (.ok b.source.role,w) :=
    request_run b.client _ rfl w
  unfold preflightTopology
  rw [run_bind_ok _ (attempt_ok asked)]
  simp [role]

theorem dump_run (single : b.options.allDatabases = false) (role : b.source.role.isCluster = false)
    (paged : ∀ name, Pages (b.source.serve name) 0 (b.chunks name))
    (named : ∀ collection ∈ b.source.inventory.collections, collection.name.isSome)
    (namedViews : ∀ view ∈ b.source.inventory.views, (viewName view).isSome) (reporting : Bool) (w : Objects)
    (free : b.options.overwrite = true ∨ w ⟨b.store,manifestName⟩ = none ∧ w ⟨b.store,dumpLockName⟩ = none) :
    ∃ claimed w', run (dumping b.source) (runDumpWithProgress b.codec b.client b.store b.options reporting) w =
        (.ok b.manifest,w') ∧
      ∀ path, path ≠ dumpLockName → w' ⟨b.store,path⟩ =
        putAll b.store (b.writes ++ [(manifestName,b.codec.manifestToJson b.manifest)]) claimed
          ⟨b.store,path⟩ := by
  obtain ⟨claimed,claim⟩ := claim_run b.source b.codec b.store b.options w free
  have ran := body_run single paged named namedViews {reporting := reporting} claimed
  unfold runDumpWithProgress
  rw [run_bind_ok _ (preflight_run role reporting w),run_bind_ok _ claim,run_bind_ok _ (attempt_ok ran)]
  refine ⟨claimed,_,rfl,?_⟩
  intro path other
  have differs : (⟨b.store,path⟩ : ObjectRef) ≠ ⟨b.store,dumpLockName⟩ :=
    fun same => other (congrArg ObjectRef.path same)
  exact Function.update_of_ne differs _ _

end Writes
section Paths

theorem append_apart {front other short long : String} (fits : short.toList.length ≤ long.toList.length)
    (differs : ¬ short.toList <:+ long.toList) : front ++ short ≠ other ++ long := by
  intro equal
  apply differs
  have first : short.toList <:+ (front ++ short).toList := by
    rw [String.toList_append]
    exact List.suffix_append _ _
  rw [equal,String.toList_append] at first
  exact List.suffix_of_suffix_length_le first (List.suffix_append _ _) fits

theorem append_cancel {front other suffix : String} (equal : front ++ suffix = other ++ suffix) :
    front = other := by
  have lists := congrArg String.toList equal
  rw [String.toList_append,String.toList_append] at lists
  exact String.toList_inj.mp (List.append_cancel_right lists)

variable {store : Nat}

theorem plain_target (store : Nat) (name : String) : ({store := store} : Target).pathPrefix ++ name = name := by
  apply String.toList_inj.mp
  rw [String.toList_append]
  rfl

theorem structurePath_inj {one two : String}
    (equal : structurePath {store := store} one = structurePath {store := store} two) :
    one = two := by
  have names := append_cancel equal
  rwa [plain_target,plain_target] at names

theorem viewPath_inj {one two : String}
    (equal : viewPath {store := store} one = viewPath {store := store} two) : one = two := by
  have names := append_cancel equal
  rwa [plain_target,plain_target] at names

theorem dataPath_inj {compression : Compression} {one two : String}
    (equal : dataPath {store := store} compression one =
    dataPath {store := store} compression two) : one = two := by
  have names := append_cancel (append_cancel equal)
  rwa [plain_target,plain_target] at names

theorem dataPath_spread (compression : Compression) (name : String) :
    dataPath {store := store} compression name = name ++ ("." ++ dataSuffix compression) := by
  unfold dataPath
  rw [plain_target]
  apply String.toList_inj.mp
  simp

theorem structurePath_dataPath (compression : Compression) (one two : String) :
    structurePath {store := store} one ≠ dataPath {store := store} compression two := by
  rw [dataPath_spread]
  apply Ne.symm
  cases compression <;> exact append_apart (by decide) (by decide)

theorem viewPath_structurePath (one two : String) :
    viewPath {store := store} one ≠ structurePath {store := store} two := append_apart (by decide) (by decide)

theorem viewPath_dataPath (compression : Compression) (one two : String) :
    viewPath {store := store} one ≠ dataPath {store := store} compression two := by
  rw [dataPath_spread]
  cases compression <;> exact append_apart (by decide) (by decide)

end Paths
section Left
variable {b : Backup}

theorem selected_names (options : DumpOptions) (collections : List InventoryCollection) :
    ((selected options collections).map Prod.fst).Sublist (collections.filterMap InventoryCollection.name) := by
  induction collections with
  | nil => exact List.Sublist.refl _
  | cons collection rest ih =>
    cases called : collection.name with
    | none => simpa [selected,called] using ih
    | some name =>
      by_cases taken : selects options collection name = true
      · have shown := List.Sublist.cons_cons name ih
        simpa [selected,called,taken] using shown
      · have shown := List.Sublist.cons name ih
        simpa [selected,called,taken] using shown

theorem collection_paths {collections : List (String × InventoryCollection)}
    (distinct : (collections.map Prod.fst).Nodup) :
    ((collections.flatMap b.collectionWrites).map Prod.fst).Nodup := by
  induction collections with
  | nil => exact List.nodup_nil
  | cons unit rest ih =>
    obtain ⟨absent,distinct⟩ := List.nodup_cons.mp distinct
    have fresh : ∀ path ∈ (rest.flatMap b.collectionWrites).map Prod.fst,
        path ≠ structurePath b.target unit.1 ∧ path ≠ dataPath b.target b.options.compression unit.1 := by
      intro path member
      obtain ⟨write,listed,rfl⟩ := List.mem_map.mp member
      obtain ⟨other,present,written⟩ := List.mem_flatMap.mp listed
      have differs : other.1 ≠ unit.1 := fun same => absent (List.mem_map.mpr ⟨other,present,same⟩)
      simp only [Backup.collectionWrites,List.mem_cons,List.not_mem_nil,or_false] at written
      rcases written with rfl | rfl
      · exact ⟨fun same => differs (structurePath_inj same),structurePath_dataPath _ _ _⟩
      · exact ⟨(structurePath_dataPath _ _ _).symm,fun same => differs (dataPath_inj same)⟩
    simp only [List.flatMap_cons,List.map_append]
    refine List.nodup_append.mpr ⟨?_,ih distinct,?_⟩
    · simp [Backup.collectionWrites,Backup.target,structurePath_dataPath]
    · intro path first other second equal
      subst equal
      simp only [Backup.collectionWrites,List.map_cons,List.map_nil,List.mem_cons,List.not_mem_nil,
        or_false] at first
      rcases first with rfl | rfl
      · exact (fresh _ second).1 rfl
      · exact (fresh _ second).2 rfl

theorem writes_distinct
    (collections : (b.source.inventory.collections.filterMap InventoryCollection.name).Nodup)
    (views : (b.source.inventory.views.map viewName).Nodup)
    (namedViews : ∀ view ∈ b.source.inventory.views, (viewName view).isSome) :
    ((b.writes ++ [(manifestName,b.codec.manifestToJson b.manifest)]).map Prod.fst).Nodup ∧
      dumpLockName ∉ (b.writes ++ [(manifestName,b.codec.manifestToJson b.manifest)]).map Prod.fst := by
  have artifact : ∀ path ∈ b.writes.map Prod.fst, path ≠ manifestName ∧ path ≠ dumpLockName := by
    intro path member
    obtain ⟨write,listed,rfl⟩ := List.mem_map.mp member
    rcases List.mem_append.mp listed with collection | view
    · obtain ⟨unit,_,written⟩ := List.mem_flatMap.mp collection
      simp only [Backup.collectionWrites,List.mem_cons,List.not_mem_nil,or_false] at written
      rcases written with rfl | rfl
      · exact structurePath_plain _ _
      · exact dataPath_plain _ _ _
    · obtain ⟨view,_,rfl⟩ := List.mem_map.mp view
      exact viewPath_plain _ _
  have viewPaths : ((b.views.map b.viewWrite).map Prod.fst).Nodup := by
    have kept : (b.views.map viewName).Nodup := views.sublist (List.filter_sublist.map _)
    rw [List.map_map]
    apply List.Nodup.map_on _ (List.Nodup.of_map _ kept)
    intro one first two second equal
    have names := viewPath_inj equal
    obtain ⟨name,called⟩ := Option.isSome_iff_exists.mp (namedViews one (List.mem_of_mem_filter first))
    obtain ⟨name',called'⟩ := Option.isSome_iff_exists.mp (namedViews two (List.mem_of_mem_filter second))
    rw [called,called'] at names
    apply List.inj_on_of_nodup_map kept first second
    rw [called,called']
    exact congrArg some names
  have apart : ∀ one ∈ (b.collections.flatMap b.collectionWrites).map Prod.fst,
      ∀ two ∈ (b.views.map b.viewWrite).map Prod.fst, one ≠ two := by
    intro one first two second
    obtain ⟨write,listed,rfl⟩ := List.mem_map.mp first
    obtain ⟨unit,_,written⟩ := List.mem_flatMap.mp listed
    rw [List.map_map] at second
    obtain ⟨view,_,rfl⟩ := List.mem_map.mp second
    simp only [Backup.collectionWrites,List.mem_cons,List.not_mem_nil,or_false] at written
    rcases written with rfl | rfl
    · exact (viewPath_structurePath _ _).symm
    · exact (viewPath_dataPath _ _ _).symm
  have names := collections.sublist (selected_names b.options b.source.inventory.collections)
  rw [List.map_append]
  constructor
  · refine List.nodup_append.mpr ⟨?_,List.nodup_singleton _,?_⟩
    · unfold Backup.writes
      rw [List.map_append]
      exact List.nodup_append.mpr ⟨collection_paths names,viewPaths,apart⟩
    · intro one first two second
      rw [List.mem_singleton.mp second]
      exact (artifact one first).1
  · intro member
    rcases List.mem_append.mp member with earlier | last
    · exact (artifact _ earlier).2 rfl
    · exact absurd (List.mem_singleton.mp last) (by simp [dumpLockName,manifestName])

structure Written (b : Backup) (w : Objects) : Prop where
  artifacts : ∀ write ∈ b.writes, w ⟨b.store,write.1⟩ = some write.2
  manifest : w ⟨b.store,manifestName⟩ = some (b.codec.manifestToJson b.manifest)

theorem dump_written (single : b.options.allDatabases = false) (role : b.source.role.isCluster = false)
    (paged : ∀ name, Pages (b.source.serve name) 0 (b.chunks name))
    (named : ∀ collection ∈ b.source.inventory.collections, collection.name.isSome)
    (namedViews : ∀ view ∈ b.source.inventory.views, (viewName view).isSome)
    (distinct : (b.source.inventory.collections.filterMap InventoryCollection.name).Nodup)
    (distinctViews : (b.source.inventory.views.map viewName).Nodup) (reporting : Bool) (w : Objects)
    (free : b.options.overwrite = true ∨ w ⟨b.store,manifestName⟩ = none ∧ w ⟨b.store,dumpLockName⟩ = none) :
    ∃ w', run (dumping b.source) (runDumpWithProgress b.codec b.client b.store b.options reporting)
      w = (.ok b.manifest,w') ∧
      Written b w' := by
  obtain ⟨claimed,w',ran,left⟩ := dump_run single role paged named namedViews reporting w free
  obtain ⟨paths,unlocked⟩ := writes_distinct distinct distinctViews namedViews
  have written : ∀ path bytes, (path,bytes) ∈ b.writes ++ [(manifestName,b.codec.manifestToJson b.manifest)] →
      w' ⟨b.store,path⟩ = some bytes := by
    intro path bytes member
    have other : path ≠ dumpLockName := fun same => unlocked (same ▸ List.mem_map.mpr ⟨_,member,rfl⟩)
    rw [left path other]
    exact putAll_written paths member claimed
  refine ⟨w',ran,?_,?_⟩
  · exact fun write member => written write.1 write.2 (List.mem_append_left _ member)
  · exact written _ _ (List.mem_append_right _ (List.mem_singleton.mpr rfl))

end Left
end ArangoDataTools.DumpRun
