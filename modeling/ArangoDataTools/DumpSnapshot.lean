import ArangoDataTools.StoredManifest

namespace ArangoDataTools.DumpSnapshot
open Interaction Interaction.Program ClientRuns Dump DumpClaim DumpRun StoredManifest

structure Saved where
  name : String
  collection : InventoryCollection
  content : Bytes

def Saved.source (saved : Saved) : String × InventoryCollection := (saved.name,saved.collection)

def structurePiece (codec : Codec) (target : Target) (saved : Saved) : Piece :=
  let body := codec.toVecPretty (structureValue saved.collection)
  ({path := structurePath target saved.name,kind := .structureDef,format := .json,byteSize := body.length,
    collection := some saved.name,database := target.database},body)
def dataPiece (codec : Codec) (options : DumpOptions) (target : Target) (saved : Saved) : Piece :=
  let body := codec.encode options.compression saved.content
  ({path := dataPath target options.compression saved.name,kind := .data,format := .jsonl,
    compression := options.compression,
    byteSize := body.length,checksum := some (checksumOf codec body),collection :=
    some saved.name,database := target.database,
    part := some 0},body)
def viewPiece (codec : Codec) (target : Target) (view : Value) : Piece :=
  let body := codec.toVecPretty view
  ({path := viewPath target ((viewName view).getD ""),kind := .view,format := .json,byteSize := body.length,
    view := viewName view,database := target.database},body)

-- One database at the end of its part of a dump.
structure Snapshot where
  target : Target
  inventory : Inventory
  saved : List Saved

namespace Snapshot

def views (s : Snapshot) : List Value := s.inventory.views.filter (Backup.takes (s.saved.map Saved.name))

def collectionPieces (codec : Codec) (options : DumpOptions) (target : Target)
    (saved : List Saved) : List Piece :=
  saved.flatMap fun saved => [structurePiece codec target saved,dataPiece codec options target saved]

def pieces (codec : Codec) (options : DumpOptions) (s : Snapshot) : List Piece :=
  collectionPieces codec options s.target s.saved ++ s.views.map (viewPiece codec s.target)

structure Complete (options : DumpOptions) (s : Snapshot) : Prop where
  collections : s.saved.map Saved.source = selected options s.inventory.collections
  views : ∀ view ∈ s.views, (viewName view).isSome

end Snapshot

def addAll (manifest : Manifest) (pieces : List Piece) : Manifest :=
  {manifest with artifacts := manifest.artifacts ++ pieces.map Prod.fst}

theorem addAll_nil (manifest : Manifest) : addAll manifest [] = manifest := by simp [addAll]
theorem addAll_append (manifest : Manifest) (one two : List Piece) :
    addAll (addAll manifest one) two = addAll manifest (one ++ two) := by simp [addAll]

theorem writes_append (one two : List Piece) : writes (one ++ two) = writes one ++ writes two := List.map_append

variable {codec : Codec} {held : Holdings} {options : DumpOptions} {w w' : Objects}

def Added (store : Nat) (manifest next : Manifest) (pieces : List Piece) (w w' : Objects) : Prop :=
  next = addAll manifest pieces ∧ w' = putAll store (writes pieces) w

theorem added_nothing (store : Nat) (manifest : Manifest) (w : Objects) :
    Added store manifest manifest [] w w :=
  ⟨(addAll_nil manifest).symm,rfl⟩

theorem added_then {store : Nat} {manifest middle next : Manifest} {one two : List Piece} {w w₁ w₂ : Objects}
    (first : Added store manifest middle one w w₁) (second : Added store middle next two w₁ w₂) :
    Added store manifest next (one ++ two) w w₂ := by
  refine ⟨?_,?_⟩
  · rw [second.1,first.1,addAll_append]
  · rw [second.2,first.2,writes_append,putAll_append]

theorem structure_returns {target : Target} {name : String} {collection : InventoryCollection}
    {manifest next : Manifest}
    (runs : Runs (Keeps held) (writeStructureWithPrefix codec target name collection manifest) w
      (done next) w') (content : Bytes) :
    Added target.store manifest next [structurePiece codec target ⟨name,collection,content⟩] w w' := by
  obtain ⟨size,middle,written,rest⟩ := runs_bind_done runs
  obtain ⟨rfl,rfl⟩ := put_returns written
  obtain ⟨same,rfl⟩ := runs_done rest
  cases same
  exact ⟨rfl,rfl⟩

theorem data_returns {client : Client} {target : Target} {batch name : String} {manifest next : Manifest}
    (runs : Runs (Keeps held) (writeDataWithPrefix codec client target options batch name manifest)
      w (done next) w')
    (collection : InventoryCollection) :
    ∃ content, Added target.store manifest next [dataPiece codec options target
      ⟨name,collection,content⟩] w w' := by
  obtain ⟨stream,middle,read,rest⟩ := runs_bind_done runs
  obtain rfl := quiet_still (@quiet_dataStream codec 0 client name batch options.chunkSize 0 []) read
  refine ⟨stream.1.flatten,?_⟩
  cases ended : stream.2 with
  | some err =>
    simp only [ended] at rest
    obtain ⟨_,_,-,failed⟩ := runs_bind_done rest
    cases (runs_fail failed).1
  | none =>
    simp only [ended] at rest
    obtain ⟨size,middle,written,pushed⟩ := runs_bind_done rest
    obtain ⟨rfl,rfl⟩ := put_returns written
    obtain ⟨same,rfl⟩ := runs_done pushed
    cases same
    exact ⟨rfl,rfl⟩

theorem selected_cons_skipped {collection : InventoryCollection} (skipped : skips options collection = true)
    (rest : List InventoryCollection) : selected options (collection :: rest) = selected options rest := by
  have untaken : ∀ name, selects options collection name = false := by
    intro name
    unfold skips at skipped
    unfold selects
    simp_all
  simp [selected,untaken]

theorem selects_unskipped {collection : InventoryCollection}
    (unskipped : ¬ skips options collection = true) (name : String) :
    selects options collection name = !filteredOut options collection name := by
  unfold skips at unskipped
  unfold selects filteredOut
  cases system : collection.isSystem <;> simp_all

theorem collections_returns {client : Client} {target : Target} {batch : String}
    {collections : List InventoryCollection}
    {dumped names : List String} {progress progress' : DumpProgress} {manifest next : Manifest}
    (runs : Runs (Keeps held)
      (dumpCollections codec client target options batch collections dumped progress manifest) w
      (done (names,progress',next)) w') :
    ∃ saved : List Saved, saved.map Saved.source = selected options collections ∧
      names = dumped ++ saved.map Saved.name ∧
      Added target.store manifest next (Snapshot.collectionPieces codec options target saved) w w' := by
  induction collections generalizing dumped progress manifest w with
  | nil =>
    obtain ⟨same,rfl⟩ := runs_done runs
    cases same
    exact ⟨[],rfl,by simp,added_nothing _ _ _⟩
  | cons collection rest ih =>
    unfold dumpCollections at runs
    by_cases skipped : skips options collection = true
    · rw [if_pos skipped] at runs
      rw [selected_cons_skipped skipped]
      exact ih runs
    · rw [if_neg skipped] at runs
      cases called : collection.name with
      | none =>
        rw [called] at runs
        cases (runs_fail runs).1
      | some name =>
        rw [called] at runs
        simp only at runs
        by_cases filtered : filteredOut options collection name = true
        · rw [if_pos filtered] at runs
          have untaken : selects options collection name = false := by
            rw [selects_unskipped skipped,filtered]; rfl
          have same : selected options (collection :: rest) = selected options rest := by
            simp [selected,called,untaken]
          rw [same]
          exact ih runs
        · rw [if_neg filtered] at runs
          have taken : selects options collection name = true := by
            rw [selects_unskipped skipped,Bool.eq_false_iff.mpr filtered]
            rfl
          obtain ⟨_,w₁,extended,runs₁⟩ := runs_bind_done runs
          obtain ⟨manifest₁,w₂,structured,runs₂⟩ := runs_bind_done runs₁
          obtain ⟨manifest₂,w₃,loaded,runs₃⟩ := runs_bind_done runs₂
          obtain ⟨progress₁,w₄,counted,runs₄⟩ := runs_bind_done runs₃
          obtain ⟨-,rfl⟩ := executeOn_returns codec client extended
          obtain rfl := quiet_still (@quiet_collectionDone codec 0 progress (dataBytes manifest₂)) counted
          obtain ⟨content,second⟩ := data_returns loaded collection
          have first := structure_returns structured content
          obtain ⟨saved,sources,listed,added⟩ := ih runs₄
          refine ⟨⟨name,collection,content⟩ :: saved,?_,?_,added_then (added_then first second) added⟩
          · rw [List.map_cons,sources]
            simp [selected,called,taken,Saved.source]
          · rw [listed,List.map_cons,List.append_assoc]
            rfl

theorem views_returns {target : Target} {dumped : List String} {reporting : Bool}
    {views : List Value} {manifest next : Manifest}
    (runs : Runs (Keeps held) (writeViewsWithPrefix codec target dumped reporting views manifest) w
      (done next) w') :
    (∀ view ∈ views, (viewName view).isSome) ∧
      Added target.store manifest next ((views.filter (Backup.takes dumped)).map
        (viewPiece codec target)) w w' := by
  induction views generalizing manifest w with
  | nil =>
    obtain ⟨same,rfl⟩ := runs_done runs
    cases same
    exact ⟨by simp,added_nothing _ _ _⟩
  | cons view rest ih =>
    unfold writeViewsWithPrefix at runs
    cases called : viewName view with
    | none =>
      rw [called] at runs
      cases (runs_fail runs).1
    | some name =>
      rw [called] at runs
      simp only [missing_iff] at runs
      have named : ∀ others : List Value, (∀ view ∈ others, (viewName view).isSome) →
          ∀ other ∈ view :: others, (viewName other).isSome := by
        intro others all other member
        rcases List.mem_cons.mp member with rfl | later
        · rw [called]; rfl
        · exact all other later
      by_cases taken : Backup.takes dumped view = true
      · rw [if_pos taken] at runs
        obtain ⟨size,w₁,written,more⟩ := runs_bind_done runs
        obtain ⟨rfl,rfl⟩ := put_returns written
        obtain ⟨later,added⟩ := ih more
        have first : Added target.store manifest (manifest.push (viewPiece codec target view).1)
            [viewPiece codec target view] w
            (putAll target.store (writes [viewPiece codec target view]) w) := ⟨rfl,rfl⟩
        refine ⟨named rest later,?_⟩
        rw [List.filter_cons_of_pos taken,List.map_cons]
        apply added_then first
        simpa [viewPiece,called,writes,putAll,Target.put] using added
      · rw [if_neg taken] at runs
        obtain ⟨_,w₁,warned,more⟩ := runs_bind_done runs
        obtain rfl := quiet_still (@quiet_warn codec 0 reporting _) warned
        obtain ⟨later,added⟩ := ih more
        rw [List.filter_cons_of_neg taken]
        exact ⟨named rest later,added⟩

theorem database_returns {client : Client} {target : Target} {batch : String} {manifest next : Manifest}
    {progress progress' : DumpProgress}
    (runs : Runs (Keeps held)
      (dumpDbIntoManifest codec client target options batch manifest progress) w (done (next,progress')) w') :
    ∃ s : Snapshot, s.target = target ∧ s.inventory = held.inventories client.database ∧ s.Complete options ∧
      Added target.store manifest next (s.pieces codec options) w w' := by
  obtain ⟨inventory,w₁,fetched,runs₁⟩ := runs_bind_done runs
  obtain ⟨⟨names,progress₁,middle⟩,w₂,collected,runs₂⟩ := runs_bind_done runs₁
  obtain ⟨last,w₃,viewed,runs₃⟩ := runs_bind_done runs₂
  obtain ⟨truthful,rfl⟩ := executeOn_returns codec client fetched
  obtain ⟨same,rfl⟩ := runs_done runs₃
  cases same
  obtain ⟨saved,sources,listed,first⟩ := collections_returns collected
  obtain ⟨named,second⟩ := views_returns viewed
  rw [List.nil_append] at listed
  rw [listed] at second
  refine ⟨⟨target,inventory,saved⟩,rfl,truthful,⟨sources,?_⟩,added_then first second⟩
  exact fun view member => named view (List.mem_of_mem_filter member)

theorem putManifest_returns {store : Nat} {manifest next : Manifest}
    (runs : Runs (Keeps held) (putManifest codec store manifest) w (done next) w') :
    next = manifest ∧ w' = Function.update w (manifestAt store) (some (codec.manifestToJson manifest)) := by
  obtain ⟨size,w₁,written,runs⟩ := runs_bind_done runs
  obtain ⟨rfl,rfl⟩ := put_returns written
  obtain ⟨same,rfl⟩ := runs_done runs
  cases same
  exact ⟨rfl,rfl⟩

def databaseTarget (store : Nat) (database : String) : Target :=
  ⟨store,"databases/" ++ database ++ "/",some database⟩

def sources (held : Holdings) (client : Client) (store : Nat) (options : DumpOptions) :
    List (Target × Inventory) :=
  if options.allDatabases then held.databases.map fun database =>
    (databaseTarget store database,held.inventories database)
  else [({store := store},held.inventories client.database)]

def Snapshot.of (s : Snapshot) : Target × Inventory := (s.target,s.inventory)

def allPieces (codec : Codec) (options : DumpOptions) (snapshots : List Snapshot) : List Piece :=
  snapshots.flatMap (Snapshot.pieces codec options)

def described (codec : Codec) (options : DumpOptions) (snapshots : List Snapshot) : Manifest :=
  addAll (Manifest.new (if options.allDatabases then "all" else options.database)
    options.toolVersion options.createdAt)
    (allPieces codec options snapshots)

def Landed (codec : Codec) (store : Nat) (manifest : Manifest) (pieces : List Piece) (w w' : Objects) : Prop :=
  w' = Function.update (putAll store (writes pieces) w) (manifestAt store)
    (some (codec.manifestToJson manifest))

theorem databases_returns {client : Client} {store : Nat} {databases : List String}
    {manifest next : Manifest} {progress : DumpProgress}
    (runs : Runs (Keeps held) (dumpDatabases codec client store options databases manifest progress)
      w (done next) w') :
    ∃ snapshots : List Snapshot,
      snapshots.map Snapshot.of =
      databases.map (fun database => (databaseTarget store database,held.inventories database)) ∧
      (∀ s ∈ snapshots, s.Complete options) ∧ next = addAll manifest (allPieces codec options snapshots) ∧
      Landed codec store next (allPieces codec options snapshots) w w' := by
  induction databases generalizing manifest progress w with
  | nil =>
    obtain ⟨rfl,same⟩ := putManifest_returns runs
    exact ⟨[],rfl,by simp,(addAll_nil next).symm,same⟩
  | cons database rest ih =>
    unfold dumpDatabases at runs
    obtain ⟨batch,w₁,opened,runs₁⟩ := runs_bind_done runs
    obtain ⟨⟨middle,progress₁⟩,w₂,dumped,runs₂⟩ := runs_bind_done runs₁
    obtain ⟨_,w₃,closed,runs₃⟩ := runs_bind_done runs₂
    obtain ⟨-,rfl⟩ := executeOn_returns codec (client.withDatabase database) opened
    obtain rfl := quiet_still
        (quiet_attempt (@quiet_batchDelete codec 0 (client.withDatabase database) batch)) closed
    obtain ⟨s,target,inventory,complete,whole,stored⟩ := database_returns dumped
    obtain ⟨snapshots,listed,others,all,landed⟩ := ih runs₃
    have joined : allPieces codec options (s :: snapshots) = s.pieces codec options ++
        allPieces codec options snapshots :=
      List.flatMap_cons
    refine ⟨s :: snapshots,?_,?_,?_,?_⟩
    · rw [List.map_cons,listed,List.map_cons,Snapshot.of,target,inventory]
      rfl
    · intro other member
      rcases List.mem_cons.mp member with rfl | later
      · exact complete
      · exact others other later
    · rw [all,whole,addAll_append,joined]
    · rw [Landed,joined,writes_append,putAll_append,landed,stored]

theorem body_returns {client : Client} {store : Nat} {progress : DumpProgress} {manifest : Manifest}
    (runs : Runs (Keeps held) (runDumpBody codec client store options progress) w (done manifest) w') :
    ∃ snapshots : List Snapshot, snapshots.map Snapshot.of = sources held client store options ∧
      (∀ s ∈ snapshots, s.Complete options) ∧ manifest = described codec options snapshots ∧
      Landed codec store manifest (allPieces codec options snapshots) w w' := by
  unfold runDumpBody at runs
  unfold sources described
  by_cases several : options.allDatabases = true
  · rw [if_pos several] at runs ⊢
    rw [if_pos several]
    obtain ⟨databases,w₁,listed,runs₁⟩ := runs_bind_done runs
    obtain ⟨rfl,rfl⟩ := executeOn_returns codec client listed
    exact databases_returns runs₁
  · rw [if_neg several] at runs ⊢
    rw [if_neg several]
    obtain ⟨batch,w₁,opened,runs₁⟩ := runs_bind_done runs
    obtain ⟨result,w₂,tried,runs₂⟩ := runs_bind_done runs₁
    obtain ⟨_,w₃,closed,runs₃⟩ := runs_bind_done runs₂
    obtain ⟨-,rfl⟩ := executeOn_returns codec client opened
    obtain rfl := quiet_still (quiet_attempt (@quiet_batchDelete codec 0 client batch)) closed
    cases result with
    | error err => cases (runs_fail runs₃).1
    | ok value =>
      obtain ⟨same,rfl⟩ := runs_done runs₃
      cases same
      obtain ⟨⟨written,progress₁⟩,w₄,dumped,ended⟩ := runs_bind_done (attempt_returns tried)
      obtain ⟨rfl,landed⟩ := putManifest_returns ended
      obtain ⟨s,target,inventory,complete,whole,stored⟩ := database_returns dumped
      have alone : allPieces codec options [s] = s.pieces codec options := by simp [allPieces]
      refine ⟨[s],?_,?_,?_,?_⟩
      · rw [List.map_singleton,Snapshot.of,target,inventory]
      · intro other member
        rw [List.mem_singleton.mp member]
        exact complete
      · rw [alone]
        exact whole
      · rw [Landed,alone,landed,stored]

theorem dump_returns {client : Client} {store : Nat} {reporting : Bool} {manifest : Manifest}
    (runs : Runs (Keeps held) (runDumpWithProgress codec client store options reporting) w (done manifest) w') :
    ∃ snapshots : List Snapshot, snapshots.map Snapshot.of = sources held client store options ∧
      (∀ s ∈ snapshots, s.Complete options) ∧ manifest = described codec options snapshots ∧
      ∃ claimed written, Landed codec store manifest (allPieces codec options snapshots) claimed written ∧
        ∀ path, path ≠ dumpLockName → w' ⟨store,path⟩ = written ⟨store,path⟩ := by
  obtain ⟨_,w₁,-,runs₁⟩ := runs_bind_done runs
  obtain ⟨_,claimed,-,runs₂⟩ := runs_bind_done runs₁
  obtain ⟨result,written,tried,runs₃⟩ := runs_bind_done runs₂
  cases result with
  | error err => cases (runs_fail runs₃).1
  | ok value =>
    obtain ⟨_,w₄,released,runs₄⟩ := runs_bind_done runs₃
    obtain ⟨same,rfl⟩ := runs_done runs₄
    cases same
    obtain ⟨answer,w₅,deleting,ended⟩ := runs_bind_done released
    obtain ⟨-,rfl⟩ := runs_done ended
    obtain ⟨snapshots,listed,complete,all,landed⟩ := body_returns (attempt_returns tried)
    refine ⟨snapshots,listed,complete,all,claimed,written,landed,?_⟩
    intro path other
    have differs : (⟨store,path⟩ : ObjectRef) ≠ ⟨store,dumpLockName⟩ :=
      fun same => other (congrArg ObjectRef.path same)
    cases perform_answers deleting with
    | deleted | notDeleted => exact Function.update_of_ne differs _ _

section Attained

theorem piece_put (target : Target) (piece : Piece) (w : Objects) :
    Runs (Keeps held) (target.put piece.1.path piece.2) w (done piece.2.length)
      (putAll target.store (writes [piece]) w) :=
  .call _ _ _ _ .put (.here _ _)

theorem structure_attained (target : Target) (saved : Saved) (manifest : Manifest) (w : Objects) :
    Runs (Keeps held) (writeStructureWithPrefix codec target saved.name saved.collection manifest) w
      (done (addAll manifest [structurePiece codec target saved]))
        (putAll target.store (writes [structurePiece codec target saved]) w) :=
  runs_then (piece_put target (structurePiece codec target saved) w) (.here _ _)

theorem data_attained (client : Client) (target : Target) (batch : String) (saved : Saved)
    (manifest : Manifest) (w : Objects) :
    Runs (Keeps held) (writeDataWithPrefix codec client target options batch saved.name manifest) w
      (done (addAll manifest [dataPiece codec options target saved]))
        (putAll target.store (writes [dataPiece codec options target saved]) w) := by
  let chunk : DumpChunk := ⟨saved.content,0,false⟩
  let bodies : List Bytes := if saved.content.isEmpty then [] else [saved.content]
  have whole : bodies.flatten = saved.content := by
    unfold bodies
    split
    · rename_i empty
      exact (List.isEmpty_iff.mp empty).symm
    · simp
  have streamed : Runs (Keeps held) (dumpDataStream client saved.name batch options.chunkSize 0 [])
      w (done (bodies,none)) w := by
    have answered : Runs (Keeps held)
        (client.replicationDumpChunk saved.name batch 0 options.chunkSize) w (done chunk) w :=
      executeOn_answered client (.answered trivial)
    rw [dumpDataStream]
    apply runs_then (attempt_runs answered)
    simp only [chunk]
    rw [dif_neg (by simp)]
    exact .here _ _
  apply runs_then streamed
  simp only [whole]
  exact runs_then (piece_put target (dataPiece codec options target saved) w) (.here _ _)

theorem collections_attained (client : Client) (target : Target) (batch : String)
    {collections : List InventoryCollection} {saved : List Saved}
    (sources : saved.map Saved.source = selected options collections)
      (named : ∀ collection ∈ collections, collection.name.isSome)
    (dumped : List String) (progress : DumpProgress) (manifest : Manifest) (w : Objects) :
    ∃ progress', Runs (Keeps held)
      (dumpCollections codec client target options batch collections dumped progress manifest) w
      (done (dumped ++ saved.map Saved.name,progress',
      addAll manifest (Snapshot.collectionPieces codec options target saved)))
      (putAll target.store (writes (Snapshot.collectionPieces codec options target saved)) w) := by
  induction collections generalizing saved dumped progress manifest w with
  | nil =>
    obtain rfl := List.map_eq_nil_iff.mp sources
    refine ⟨progress,?_⟩
    simp only [List.map_nil,List.append_nil,Snapshot.collectionPieces,List.flatMap_nil,addAll_nil]
    exact .here _ _
  | cons collection rest ih =>
    have later : ∀ collection ∈ rest, collection.name.isSome :=
      fun other member => named other (List.mem_cons_of_mem _ member)
    unfold dumpCollections
    by_cases skipped : skips options collection = true
    · rw [if_pos skipped]
      rw [selected_cons_skipped skipped] at sources
      exact ih sources later dumped progress manifest w
    · rw [if_neg skipped]
      obtain ⟨name,called⟩ := Option.isSome_iff_exists.mp (named collection List.mem_cons_self)
      rw [called]
      simp only
      by_cases filtered : filteredOut options collection name = true
      · rw [if_pos filtered]
        have untaken : selects options collection name = false := by
          rw [selects_unskipped skipped,filtered]; rfl
        have same : selected options (collection :: rest) = selected options rest := by
          simp [selected,called,untaken]
        rw [same] at sources
        exact ih sources later dumped progress manifest w
      · rw [if_neg filtered]
        have taken : selects options collection name = true := by
          rw [selects_unskipped skipped,Bool.eq_false_iff.mpr filtered]
          rfl
        have same : selected options (collection :: rest) =
            (name,collection) :: selected options rest := by simp [selected,called,taken]
        rw [same] at sources
        cases saved with
        | nil => cases sources
        | cons first others =>
          obtain ⟨own,more⟩ := List.cons.inj sources
          have called_ : first.name = name := congrArg Prod.fst own
          have content : first.collection = collection := congrArg Prod.snd own
          subst called_ content
          have extended : Runs (Keeps held)
              (client.replicationBatchExtend batch options.batchTtlSecs) w (done ()) w :=
            executeOn_answered client (.answered trivial)
          have structured := @structure_attained codec held target first manifest w
          have loaded := @data_attained codec held options client target batch first
              (addAll manifest [structurePiece codec target first])
            (putAll target.store (writes [structurePiece codec target first]) w)
          have counted : ∀ (bytes : Nat) (w : Objects), ∃ next,
              Runs (Keeps held) (progress.collectionDone bytes) w (done next) w := by
            intro bytes w
            unfold DumpProgress.collectionDone
            cases progress.reporting with
            | true => exact ⟨_,.call _ _ _ _ .emitted (.here _ _)⟩
            | false => exact ⟨_,.here _ _⟩
          obtain ⟨next,counting⟩ := counted
            (dataBytes (addAll (addAll manifest [structurePiece codec target first])
              [dataPiece codec options target first]))
            (putAll target.store (writes [dataPiece codec options target first])
              (putAll target.store (writes [structurePiece codec target first]) w))
          obtain ⟨progress',following⟩ := ih more later (dumped ++ [first.name]) next
            (addAll (addAll manifest [structurePiece codec target first])
              [dataPiece codec options target first])
            (putAll target.store (writes [dataPiece codec options target first])
              (putAll target.store (writes [structurePiece codec target first]) w))
          refine ⟨progress',?_⟩
          have joined : Snapshot.collectionPieces codec options target (first :: others) =
              ([structurePiece codec target first] ++ [dataPiece codec options target first]) ++
                Snapshot.collectionPieces codec options target others := List.flatMap_cons
          have listed : dumped ++ (first :: others).map Saved.name = dumped ++ [first.name] ++
              others.map Saved.name := by simp
          rw [joined,listed,← addAll_append,← addAll_append,writes_append,writes_append,
            putAll_append,putAll_append]
          exact runs_then extended (runs_then structured (runs_then loaded (runs_then counting following)))

theorem views_attained (target : Target) (dumped : List String) (reporting : Bool) {views : List Value}
    (named : ∀ view ∈ views, (viewName view).isSome) (manifest : Manifest) (w : Objects) :
    Runs (Keeps held) (writeViewsWithPrefix codec target dumped reporting views manifest) w
      (done (addAll manifest ((views.filter (Backup.takes dumped)).map (viewPiece codec target))))
      (putAll target.store (writes ((views.filter (Backup.takes dumped)).map (viewPiece codec target))) w) := by
  induction views generalizing manifest w with
  | nil =>
    rw [List.filter_nil,List.map_nil,addAll_nil]
    exact .here _ _
  | cons view rest ih =>
    have later : ∀ view ∈ rest, (viewName view).isSome :=
      fun other member => named other (List.mem_cons_of_mem _ member)
    obtain ⟨name,called⟩ := Option.isSome_iff_exists.mp (named view List.mem_cons_self)
    unfold writeViewsWithPrefix
    rw [called]
    simp only [missing_iff]
    by_cases taken : Backup.takes dumped view = true
    · have joined : (viewPiece codec target view) :: (rest.filter (Backup.takes dumped)).map
          (viewPiece codec target) =
          [viewPiece codec target view] ++ (rest.filter (Backup.takes dumped)).map
            (viewPiece codec target) := rfl
      have written := @piece_put held target (viewPiece codec target view) w
      have following := ih later (addAll manifest [viewPiece codec target view])
        (putAll target.store (writes [viewPiece codec target view]) w)
      rw [if_pos taken,List.filter_cons_of_pos taken,List.map_cons,joined,← addAll_append,
        writes_append,putAll_append]
      simp only [viewPiece,called,Option.getD_some] at written following ⊢
      exact runs_then written following
    · have warned : ∀ message, Runs (Keeps held) (warn reporting message) w (done ()) w := by
        intro message
        cases reporting with
        | true => exact .call _ _ _ _ .emitted (.here _ _)
        | false => exact .here _ _
      rw [if_neg taken,List.filter_cons_of_neg taken]
      exact runs_then (warned _) (ih later manifest w)

theorem database_attained (client : Client) (batch : String) {s : Snapshot} (complete : s.Complete options)
    (inventory : s.inventory = held.inventories client.database)
      (named : ∀ collection ∈ s.inventory.collections, collection.name.isSome)
    (namedViews : ∀ view ∈ s.inventory.views, (viewName view).isSome) (manifest : Manifest)
      (progress : DumpProgress) (w : Objects) :
    ∃ progress', Runs (Keeps held) (dumpDbIntoManifest codec client s.target options batch manifest progress) w
      (done (addAll manifest (s.pieces codec options),progress'))
        (putAll s.target.store (writes (s.pieces codec options)) w) := by
  have listed : Runs (Keeps held) (client.replicationInventory batch options.includeSystem) w
      (done s.inventory) w :=
    executeOn_answered client (.answered inventory)
  obtain ⟨progress',collecting⟩ :=
    @collections_attained codec held options client s.target batch _ _ complete.collections named [] progress
    manifest w
  have viewing := @views_attained codec held s.target (s.saved.map Saved.name) progress'.reporting _ namedViews
    (addAll manifest (Snapshot.collectionPieces codec options s.target s.saved))
    (putAll s.target.store (writes (Snapshot.collectionPieces codec options s.target s.saved)) w)
  refine ⟨progress',?_⟩
  rw [Snapshot.pieces,← addAll_append,writes_append,putAll_append]
  exact runs_then listed (runs_then collecting (runs_then viewing (.here _ _)))

theorem databases_attained (client : Client) (store : Nat) (databases : List String) {snapshots : List Snapshot}
    (listed : snapshots.map Snapshot.of = databases.map fun database =>
    (databaseTarget store database,held.inventories database))
    (complete : ∀ s ∈ snapshots, s.Complete options)
      (named : ∀ s ∈ snapshots, ∀ collection ∈ s.inventory.collections, collection.name.isSome)
    (namedViews : ∀ s ∈ snapshots, ∀ view ∈ s.inventory.views, (viewName view).isSome)
      (manifest : Manifest) (progress : DumpProgress)
    (w : Objects) :
    ∃ w', Runs (Keeps held) (dumpDatabases codec client store options databases manifest progress) w
      (done (addAll manifest (allPieces codec options snapshots))) w' := by
  induction databases generalizing snapshots manifest progress w with
  | nil =>
    obtain rfl := List.map_eq_nil_iff.mp listed
    have nothing : allPieces codec options [] = [] := rfl
    rw [nothing,addAll_nil]
    exact ⟨_,runs_then (.call _ _ _ _ .put (.here _ _)) (.here _ _)⟩
  | cons database rest ih =>
    cases snapshots with
    | nil => cases listed
    | cons s others =>
      obtain ⟨own,more⟩ := List.cons.inj listed
      have target : s.target = databaseTarget store database := congrArg Prod.fst own
      have inventory : s.inventory = held.inventories database := congrArg Prod.snd own
      let clientDb := client.withDatabase database
      have opened : Runs (Keeps held) (clientDb.replicationBatchCreate options.batchTtlSecs) w (done "1") w :=
        executeOn_answered clientDb (.answered trivial)
      obtain ⟨next,dumped⟩ := @database_attained codec held options clientDb "1" s
          (complete s List.mem_cons_self) inventory
        (named s List.mem_cons_self) (namedViews s List.mem_cons_self) manifest progress w
      rw [target] at dumped
      have deleted : ∀ w, Runs (Keeps held) (clientDb.execute (.replicationBatchDelete "1")) w
          (done ()) w := fun w =>
        executeOn_answered clientDb (.answered trivial)
      have closed : ∀ w, Runs (Keeps held) (attempt (clientDb.replicationBatchDelete "1")) w
          (done (.ok ())) w := fun w =>
        attempt_runs (runs_then (attempt_runs (deleted w)) (.here _ _))
      obtain ⟨w',following⟩ := ih more (fun other member => complete other (List.mem_cons_of_mem _ member))
        (fun other member => named other (List.mem_cons_of_mem _ member))
          (fun other member => namedViews other (List.mem_cons_of_mem _ member))
        (addAll manifest (s.pieces codec options)) next (putAll store (writes (s.pieces codec options)) w)
      have joined : allPieces codec options (s :: others) = s.pieces codec options ++
          allPieces codec options others := List.flatMap_cons
      refine ⟨w',?_⟩
      rw [joined,← addAll_append]
      exact runs_then opened (runs_then dumped (runs_then (closed _) following))

theorem dump_attained (client : Client) (store : Nat) (reporting : Bool) {snapshots : List Snapshot}
    (several : options.allDatabases = true)
    (listed : snapshots.map Snapshot.of = sources held client store options)
      (complete : ∀ s ∈ snapshots, s.Complete options)
    (named : ∀ s ∈ snapshots, ∀ collection ∈ s.inventory.collections, collection.name.isSome)
    (namedViews : ∀ s ∈ snapshots, ∀ view ∈ s.inventory.views, (viewName view).isSome) :
    ∃ w', Runs (Keeps held) (runDumpWithProgress codec client store options reporting) (fun _ => none)
      (done (described codec options snapshots)) w' := by
  unfold sources at listed
  rw [if_pos several] at listed
  have asked : Runs (Keeps held) client.serverRole (fun _ => none) (done .single) fun _ => none :=
    executeOn_answered client (.answered trivial)
  have role : Runs (Keeps held) (preflightTopology client reporting) (fun _ => none) (done ()) fun _ => none :=
    runs_then (attempt_runs asked) (.here _ _)
  have claimed : ∃ w, Runs (Keeps held) (claimDestination codec store options) (fun _ => none) (done ()) w := by
    unfold claimDestination
    by_cases replacing : options.overwrite = true
    · simp only [if_pos replacing]
      have free : Function.update
          (Function.update (fun _ => none : Objects) ⟨store,dumpLockName⟩ none) ⟨store,manifestName⟩ none
          ⟨store,dumpLockName⟩ = none := by simp [Function.update_apply]
      exact ⟨_,runs_then (.call _ _ _ _ .deleted (.call _ _ _ _ .deleted (.here _ _)))
        (.call _ _ _ _ (.created free) (.here _ _))⟩
    · simp only [if_neg replacing]
      exact ⟨_,runs_then (runs_then (.call _ _ _ _ .head (.here _ _)) (.here _ _))
        (.call _ _ _ _ (.created rfl) (.here _ _))⟩
  obtain ⟨w,claiming⟩ := claimed
  have databases : Runs (Keeps held) client.listDatabases w (done held.databases) w :=
    executeOn_answered client (.answered rfl)
  obtain ⟨w',dumping⟩ := @databases_attained codec held options client store held.databases
      snapshots listed complete named namedViews
    (Manifest.new "all" options.toolVersion options.createdAt) {reporting := reporting} w
  have body : Runs (Keeps held) (runDumpBody codec client store options {reporting := reporting}) w
      (done (described codec options snapshots)) w' := by
    unfold runDumpBody described
    rw [if_pos several,if_pos several]
    exact runs_then databases dumping
  have released : Runs (Keeps held) (releaseDestination store) w' (done ())
      (Function.update w' ⟨store,dumpLockName⟩ none) :=
    .call _ _ _ _ .deleted (.here _ _)
  exact ⟨_,runs_then role (runs_then claiming (runs_then (attempt_runs body) (runs_then released (.here _ _))))⟩

end Attained
end ArangoDataTools.DumpSnapshot
