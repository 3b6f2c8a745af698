import ArangoDataTools.DumpPaths
import ArangoDataTools.RestoreIntegrity
import ArangoDataTools.RestoreHosting

namespace ArangoDataTools.DumpedDatabases
open Interaction Interaction.Program Dump DumpRun StoredManifest DumpSnapshot DumpPaths
open Restore (CollectionGroup Plan addToGroup groupArtifacts groupByCollection parseStructure)
open RestoreReading RestorePhases RestoreRefusal RestoreHosting

variable {codec : Codec} {held : Holdings} {options : DumpOptions} {store : Nat} {client : Client}
  {snapshots : List Snapshot}

section Artifacts

theorem described_artifacts : (described codec options snapshots).artifacts =
    (allPieces codec options snapshots).map Prod.fst :=
  List.nil_append _

theorem snapshot_database (several : options.allDatabases = true)
    (listed : snapshots.map Snapshot.of = sources held client store options)
    {s : Snapshot} (member : s ∈ snapshots) :
    ∃ database ∈ held.databases, s.target = databaseTarget store database ∧
    s.inventory = held.inventories database := by
  have source : s.of ∈ sources held client store options := listed ▸ List.mem_map_of_mem member
  rw [sources,if_pos several] at source
  obtain ⟨database,present,same⟩ := List.mem_map.mp source
  exact ⟨database,present,(congrArg Prod.fst same).symm,(congrArg Prod.snd same).symm⟩

theorem database_snapshot (several : options.allDatabases = true)
    (listed : snapshots.map Snapshot.of = sources held client store options)
    {database : String} (member : database ∈ held.databases) :
    ∃ s ∈ snapshots, s.target = databaseTarget store database ∧ s.inventory = held.inventories database := by
  have source : (databaseTarget store database,held.inventories database) ∈ snapshots.map Snapshot.of := by
    rw [listed,sources,if_pos several]
    exact List.mem_map_of_mem member
  obtain ⟨s,present,same⟩ := List.mem_map.mp source
  exact ⟨s,present,congrArg Prod.fst same,congrArg Prod.snd same⟩

theorem saved_pieces {s : Snapshot} (member : s ∈ snapshots) {saved : Saved} (kept : saved ∈ s.saved) :
    structurePiece codec s.target saved ∈ allPieces codec options snapshots ∧
      dataPiece codec options s.target saved ∈ allPieces codec options snapshots := by
  have both : ∀ piece ∈ [structurePiece codec s.target saved,dataPiece codec options s.target saved],
      piece ∈ allPieces codec options snapshots := fun piece inside =>
    List.mem_flatMap.mpr ⟨s,member,List.mem_append_left _ (List.mem_flatMap.mpr ⟨saved,kept,inside⟩)⟩
  exact ⟨both _ List.mem_cons_self,both _ (List.mem_cons_of_mem _ List.mem_cons_self)⟩

theorem artifact_database (several : options.allDatabases = true)
    (listed : snapshots.map Snapshot.of = sources held client store options)
    {artifact : Artifact} (member : artifact ∈ (described codec options snapshots).artifacts) :
    ∃ database ∈ held.databases, artifact.database = some database := by
  rw [described_artifacts] at member
  obtain ⟨piece,inside,rfl⟩ := List.mem_map.mp member
  obtain ⟨s,present,kinds⟩ := mem_allPieces inside
  obtain ⟨database,own,target,-⟩ := snapshot_database several listed present
  have named : s.target.database = some database := by rw [target]; rfl
  refine ⟨database,own,?_⟩
  obtain ⟨saved,-,rfl | rfl⟩ | ⟨view,-,rfl⟩ := kinds <;> exact named

theorem collection_artifact_iff (several : options.allDatabases = true)
    (listed : snapshots.map Snapshot.of = sources held client store options)
      (complete : ∀ s ∈ snapshots, s.Complete options)
    (database : String) :
    (∃ artifact ∈ (described codec options snapshots).artifacts, artifact.collection ≠ none ∧
      artifact.database = some database) ↔
      database ∈ held.databases ∧ selected options (held.inventories database).collections ≠ [] := by
  rw [described_artifacts]
  constructor
  · intro found
    obtain ⟨artifact,member,collected,named⟩ := found
    obtain ⟨piece,inside,rfl⟩ := List.mem_map.mp member
    obtain ⟨s,present,kinds⟩ := mem_allPieces inside
    obtain ⟨own,known,target,inventory⟩ := snapshot_database several listed present
    have kept : s.saved ≠ [] ∧ s.target.database = some database := by
      obtain ⟨saved,kept,rfl | rfl⟩ | ⟨view,-,rfl⟩ := kinds
      · exact ⟨List.ne_nil_of_mem kept,named⟩
      · exact ⟨List.ne_nil_of_mem kept,named⟩
      · exact absurd rfl collected
    rw [target] at kept
    obtain rfl : own = database := Option.some.inj kept.2
    refine ⟨known,?_⟩
    rw [← inventory,← (complete s present).collections]
    exact fun empty => kept.1 (List.map_eq_nil_iff.mp empty)
  · intro found
    obtain ⟨s,present,target,inventory⟩ := database_snapshot several listed found.1
    rw [← inventory,← (complete s present).collections] at found
    obtain ⟨saved,kept⟩ := List.exists_mem_of_ne_nil s.saved fun empty => found.2 (by rw [empty]; rfl)
    refine ⟨(structurePiece codec s.target saved).1,
      List.mem_map_of_mem (saved_pieces present kept).1,Option.some_ne_none _,?_⟩
    rw [structurePiece,target]
    rfl

end Artifacts

section Groups
variable {structures data : String → Prop}

def Filed (structures data : String → Prop) (group : CollectionGroup) : Prop :=
  structures group.structurePath ∧ ∀ path ∈ group.dataPaths, data path

inductive Paired (structures data : String → Prop) : List Artifact → Prop where
  | nil : Paired structures data []
  | pair {first second : Artifact} {name : String} {rest : List Artifact} :
      first.kind = .structureDef → first.collection = some name →
      structures first.path → second.kind = .data → second.collection = some name →
      second.database = first.database →
      data second.path → Paired structures data rest → Paired structures data (first :: second :: rest)
  | single {artifact : Artifact} {rest : List Artifact} : artifact.collection = none →
      Paired structures data rest →
      Paired structures data (artifact :: rest)

theorem paired_append {one two : List Artifact} (first : Paired structures data one)
    (second : Paired structures data two) :
    Paired structures data (one ++ two) := by
  induction first with
  | nil => exact second
  | pair kind named filed kind' named' same filed' _ ih =>
      exact .pair kind named filed kind' named' same filed' ih
  | single unnamed _ ih => exact .single unnamed ih

theorem structure_filed {artifact : Artifact} {name : String} (kind : artifact.kind = .structureDef)
    (filed : structures artifact.path)
    {groups : List CollectionGroup} (before : ∀ group ∈ groups, Filed structures data group) :
    (∀ group ∈ addToGroup artifact name groups, Filed structures data group) ∧
      ∃ group ∈ addToGroup artifact name groups, group.name = name ∧ group.database = artifact.database := by
  induction groups with
  | nil =>
    simp only [addToGroup,CollectionGroup.add,kind,List.mem_singleton,forall_eq,exists_eq_left]
    exact ⟨⟨filed,by simp⟩,by simp⟩
  | cons group rest ih =>
    obtain ⟨later,found⟩ := ih fun other member => before other (List.mem_cons_of_mem _ member)
    unfold addToGroup
    by_cases same : group.name = name ∧ group.database = artifact.database
    · rw [if_pos same]
      refine ⟨?_,group.add artifact,List.mem_cons_self,?_⟩
      · intro other member
        rcases List.mem_cons.mp member with rfl | present
        · simp only [CollectionGroup.add,kind]
          exact ⟨filed,(before group List.mem_cons_self).2⟩
        · exact before other (List.mem_cons_of_mem _ present)
      · simp only [CollectionGroup.add,kind]
        exact same
    · rw [if_neg same]
      refine ⟨?_,?_⟩
      · intro other member
        rcases List.mem_cons.mp member with rfl | present
        · exact before other List.mem_cons_self
        · exact later other present
      · obtain ⟨other,present,own⟩ := found
        exact ⟨other,List.mem_cons_of_mem _ present,own⟩

theorem data_filed {artifact : Artifact} {name : String} (kind : artifact.kind = .data)
    (filed : data artifact.path)
    {groups : List CollectionGroup} (before : ∀ group ∈ groups, Filed structures data group)
    (found : ∃ group ∈ groups, group.name = name ∧ group.database = artifact.database) :
    ∀ group ∈ addToGroup artifact name groups, Filed structures data group := by
  induction groups with
  | nil => simp at found
  | cons group rest ih =>
    unfold addToGroup
    by_cases same : group.name = name ∧ group.database = artifact.database
    · rw [if_pos same]
      intro other member
      rcases List.mem_cons.mp member with rfl | present
      · obtain ⟨structure_,paths⟩ := before group List.mem_cons_self
        simp only [CollectionGroup.add,kind]
        refine ⟨structure_,?_⟩
        intro path listed
        rcases List.mem_append.mp listed with earlier | last
        · exact paths path earlier
        · rw [List.mem_singleton.mp last]
          exact filed
      · exact before other (List.mem_cons_of_mem _ present)
    · rw [if_neg same]
      have elsewhere : ∃ group ∈ rest, group.name = name ∧ group.database = artifact.database := by
        obtain ⟨other,member,own⟩ := found
        rcases List.mem_cons.mp member with rfl | present
        · exact absurd own same
        · exact ⟨other,present,own⟩
      intro other member
      rcases List.mem_cons.mp member with rfl | present
      · exact before other List.mem_cons_self
      · exact ih (fun other inside => before other (List.mem_cons_of_mem _ inside)) elsewhere other present

theorem paired_filed {artifacts : List Artifact} (paired : Paired structures data artifacts)
    {groups : List CollectionGroup}
    (before : ∀ group ∈ groups, Filed structures data group) :
    ∀ group ∈ groupArtifacts artifacts groups, Filed structures data group := by
  induction paired generalizing groups with
  | nil => exact before
  | @pair first second name rest kind named filed kind' named' same filed' _ ih =>
    obtain ⟨all,found⟩ := @structure_filed structures data first name kind filed groups before
    rw [← same] at found
    have step : groupArtifacts (first :: second :: rest) groups =
        groupArtifacts rest (addToGroup second name (addToGroup first name groups)) := by
      simp [groupArtifacts,named,named']
    rw [step]
    exact ih (data_filed kind' filed' all found)
  | @single artifact rest unnamed _ ih =>
    have step : groupArtifacts (artifact :: rest) groups = groupArtifacts rest groups := by
      simp [groupArtifacts,unnamed]
    rw [step]
    exact ih before

end Groups

section Planning

-- What the dump wrote for its collections and views reads back as it was.
structure Readable (codec : Codec) (held : Holdings) : Prop where
  packed : ∀ compression bytes, codec.decode compression (codec.encode compression bytes) = .ok bytes
  structures : ∀ database ∈ held.databases, ∀ collection ∈ (held.inventories database).collections,
    codec.fromSlice (codec.toVecPretty (structureValue collection)) = .ok (structureValue collection)
  views : ∀ database ∈ held.databases, ∀ view ∈ (held.inventories database).views,
    codec.fromSlice (codec.toVecPretty view) = .ok view

def structurePaths (snapshots : List Snapshot) (path : String) : Prop :=
  ∃ s ∈ snapshots, ∃ saved ∈ s.saved, path = structurePath s.target saved.name
def dataPaths (options : DumpOptions) (snapshots : List Snapshot) (path : String) : Prop :=
  ∃ s ∈ snapshots, ∃ saved ∈ s.saved, path = dataPath s.target options.compression saved.name

theorem described_paired : Paired (structurePaths snapshots) (dataPaths options snapshots)
    (described codec options snapshots).artifacts := by
  have views : ∀ (target : Target) (views : List Value),
      Paired (structurePaths snapshots) (dataPaths options snapshots)
        ((views.map (viewPiece codec target)).map Prod.fst) := by
    intro target views
    induction views with
    | nil => exact .nil
    | cons view rest ih => exact .single rfl ih
  have collections : ∀ s ∈ snapshots, ∀ saved : List Saved, (∀ one ∈ saved, one ∈ s.saved) →
      Paired (structurePaths snapshots) (dataPaths options snapshots)
        ((Snapshot.collectionPieces codec options s.target saved).map Prod.fst) := by
    intro s member saved kept
    induction saved with
    | nil => exact .nil
    | cons first rest ih =>
      have own := kept first List.mem_cons_self
      exact .pair rfl rfl ⟨s,member,first,own,rfl⟩ rfl rfl rfl ⟨s,member,first,own,rfl⟩
        (ih fun one later => kept one (List.mem_cons_of_mem _ later))
  have all : ∀ others : List Snapshot, (∀ s ∈ others, s ∈ snapshots) →
      Paired (structurePaths snapshots) (dataPaths options snapshots)
        ((allPieces codec options others).map Prod.fst) := by
    intro others known
    induction others with
    | nil => exact .nil
    | cons s rest ih =>
      have joined : allPieces codec options (s :: rest) = s.pieces codec options ++
          allPieces codec options rest := List.flatMap_cons
      rw [joined,List.map_append]
      apply paired_append _ (ih fun other later => known other (List.mem_cons_of_mem _ later))
      rw [Snapshot.pieces,List.map_append]
      exact paired_append (collections s (known s List.mem_cons_self) s.saved fun _ own => own)
        (views s.target s.views)
  rw [described_artifacts]
  exact all snapshots fun _ member => member

theorem group_filed {group : CollectionGroup}
    (member : group ∈ groupByCollection (described codec options snapshots)) :
    Filed (structurePaths snapshots) (dataPaths options snapshots) group := by
  apply paired_filed described_paired _ group member
  simp

variable {objects : Objects}

theorem saved_collection (several : options.allDatabases = true)
    (listed : snapshots.map Snapshot.of = sources held client store options)
    (complete : ∀ s ∈ snapshots, s.Complete options) {s : Snapshot} (member : s ∈ snapshots)
      {saved : Saved} (kept : saved ∈ s.saved) :
    ∃ database ∈ held.databases, saved.collection ∈ (held.inventories database).collections := by
  obtain ⟨database,own,-,inventory⟩ := snapshot_database several listed member
  have taken : saved.source ∈ selected options s.inventory.collections := by
    rw [← (complete s member).collections]
    exact List.mem_map_of_mem kept
  refine ⟨database,own,?_⟩
  rw [← inventory]
  unfold selected at taken
  obtain ⟨collection,present,chosen⟩ := List.mem_filterMap.mp taken
  obtain ⟨name,-,selecting⟩ := Option.bind_eq_some_iff.mp chosen
  obtain ⟨-,same⟩ := Option.ite_none_right_eq_some.mp selecting
  have own : collection = saved.collection := congrArg Prod.snd (Option.some.inj same)
  exact own ▸ present

theorem described_planned (several : options.allDatabases = true)
    (listed : snapshots.map Snapshot.of = sources held client store options)
    (complete : ∀ s ∈ snapshots, s.Complete options)
      (plain : ∀ bytes, codec.decode .none bytes = .ok bytes) (readable : Readable codec held)
    (named : HasManifest codec (fun _ => False) objects store (described codec options snapshots))
    (stored : ∀ piece ∈ allPieces codec options snapshots, objects ⟨store,piece.1.path⟩ = some piece.2) :
    ∃ plan, Planned codec (fun _ => False) objects store plan ∧
      plan.manifest = described codec options snapshots := by
  have holds : ∀ piece ∈ allPieces codec options snapshots,
      Holds codec (fun _ => False) objects store piece.1.path piece.2 :=
    fun piece member => ⟨not_false,piece.2,stored piece member,plain piece.2⟩
  have accepted : ¬ DumpRefused codec (fun _ => False) objects store := by
    intro refused
    cases refused with
    | manifest missing => exact missing _ named
    | encrypted manifest other encrypted =>
      rw [manifest_unique other named] at encrypted
      cases encrypted
    | velocyPack manifest artifact other member kind format =>
      rw [manifest_unique other named,described_artifacts] at member
      obtain ⟨piece,inside,rfl⟩ := List.mem_map.mp member
      obtain ⟨s,-,⟨saved,-,rfl | rfl⟩ | ⟨view,-,rfl⟩⟩ := mem_allPieces inside
      · cases kind
      · cases format
      · cases kind
    | collection manifest group other member missing =>
      rw [manifest_unique other named] at member
      obtain ⟨s,present,saved,kept,path⟩ := (group_filed member).1
      obtain ⟨database,own,collection⟩ := saved_collection several listed complete present kept
      have held_ := holds _ (saved_pieces present kept).1
      have parsed := readable.structures database own saved.collection collection
      refine missing _ ⟨?_,_,_,?_,parsed,DumpRestore.parseStructure_written saved.collection⟩
      · rw [path]
        simp [structurePath]
      · rw [path]
        exact held_
    | view manifest artifact other member kind missing =>
      rw [manifest_unique other named,described_artifacts] at member
      obtain ⟨piece,inside,rfl⟩ := List.mem_map.mp member
      have held_ := holds piece inside
      obtain ⟨s,present,⟨saved,-,rfl | rfl⟩ | ⟨view,shown,rfl⟩⟩ := mem_allPieces inside
      · cases kind
      · cases kind
      · obtain ⟨name,called⟩ := Option.isSome_iff_exists.mp ((complete s present).views view shown)
        obtain ⟨database,own,-,inventory⟩ := snapshot_database several listed present
        have parsed := readable.views database own view
            (by rw [← inventory]; exact List.mem_of_mem_filter shown)
        refine missing ⟨name,s.target.database,view⟩ ⟨_,view,name,held_,parsed,?_,rfl⟩
        simp [viewPiece,called]
  obtain ⟨plan,planned⟩ := planned_unless_refused accepted
  exact ⟨plan,planned,manifest_unique planned.manifest named⟩

theorem described_reads {plan : Plan} (planned : Planned codec (fun _ => False) objects store plan)
    (same : plan.manifest = described codec options snapshots) (readable : Readable codec held)
    (distinct : (((allPieces codec options snapshots).map Prod.fst).map Artifact.path).Nodup)
    (stored : ∀ piece ∈ allPieces codec options snapshots, objects ⟨store,piece.1.path⟩ =
    some piece.2) {unit : Restore.RestoreUnit}
    (member : unit ∈ plan.units) :
    DataReads codec (fun _ => False) objects store plan.manifest unit.1.dataPaths := by
  obtain ⟨units,grouped,-,sorted,-⟩ := planned.units
  have group : unit.1 ∈ groupByCollection (described codec options snapshots) := by
    rw [← same,← grouped]
    exact List.mem_map_of_mem ((mem_sortUnits units unit).mp (sorted ▸ member))
  intro path listed
  obtain ⟨s,present,saved,kept,rfl⟩ := (group_filed group).2 path listed
  have inside := (@saved_pieces codec options snapshots s present saved kept).2
  have artifact : (dataPiece codec options s.target saved).1 ∈
      (described codec options snapshots).artifacts := by
    rw [described_artifacts]
    exact List.mem_map_of_mem inside
  have found : ∃ artifact ∈ (described codec options snapshots).artifacts,
      artifact.path = dataPath s.target options.compression saved.name := ⟨_,artifact,rfl⟩
  obtain ⟨entry,known,own,compression⟩ := RestoreIntegrity.compressionOf_entry found
  rw [described_artifacts] at known artifact
  obtain rfl : entry = (dataPiece codec options s.target saved).1 :=
    List.inj_on_of_nodup_map distinct known artifact own
  refine ⟨not_false,_,saved.content,stored _ inside,?_⟩
  rw [same,compression]
  exact readable.packed options.compression saved.content

end Planning

section Restored
variable {reporting : Bool} {manifest : Manifest} {w w' : Objects}

def Selected (held : Holdings) (options : DumpOptions) : Prop :=
  ∀ database ∈ held.databases, database ≠ "_system" →
    selected options (held.inventories database).collections ≠ []

theorem dumped_manifest (plain : ∀ bytes, codec.decode .none bytes = .ok bytes)
    (reads : codec.manifestFromJson (codec.manifestToJson manifest) = .ok manifest)
      {pieces : List Piece} {claimed written : Objects}
    (landed : Landed codec store manifest pieces claimed written)
      (left : ∀ path, path ≠ dumpLockName → w' ⟨store,path⟩ = written ⟨store,path⟩) :
    HasManifest codec (fun _ => False) w' store manifest := by
  have stored : w' ⟨store,Restore.manifestName⟩ = some (codec.manifestToJson manifest) := by
    rw [left Restore.manifestName (by decide),landed]
    exact Function.update_self _ _ _
  exact ⟨_,⟨not_false,_,stored,plain _⟩,reads⟩

theorem selected_restored (several : options.allDatabases = true)
    (plain : ∀ bytes, codec.decode .none bytes = .ok bytes)
    (reads : codec.manifestFromJson (codec.manifestToJson manifest) = .ok manifest)
    (runs : Runs (Keeps held) (runDumpWithProgress codec client store options reporting) w (done manifest) w')
    (chosen : Selected held options) : RestoresEvery codec w' store held.databases := by
  obtain ⟨snapshots,listed,complete,rfl,claimed,written,landed,left⟩ := dump_returns runs
  apply covered_restored (dumped_manifest plain reads landed left)
  refine ⟨fun artifact member => artifact_database several listed member,?_⟩
  intro database member other
  exact (collection_artifact_iff several listed complete database).mpr ⟨member,chosen database member other⟩

theorem dump_planned (several : options.allDatabases = true)
    (plain : ∀ bytes, codec.decode .none bytes = .ok bytes)
    (reads : codec.manifestFromJson (codec.manifestToJson manifest) = .ok manifest)
    (runs : Runs (Keeps held) (runDumpWithProgress codec client store options reporting) w (done manifest) w')
    (readable : Readable codec held) (databases : held.databases.Nodup)
      (names : ∀ database, Named (held.inventories database)) :
    ∃ plan, Planned codec (fun _ => False) w' store plan ∧
      (∀ unit ∈ plan.units, DataReads codec (fun _ => False) w' store plan.manifest unit.1.dataPaths) ∧
      ∀ database, (∃ artifact ∈ plan.manifest.artifacts, artifact.collection ≠ none ∧
      artifact.database = some database) →
        selected options (held.inventories database).collections ≠ [] := by
  obtain ⟨snapshots,listed,complete,rfl,claimed,written,landed,left⟩ := dump_returns runs
  have distinct : (((allPieces codec options snapshots).map Prod.fst).map Artifact.path).Nodup :=
    pieces_distinct listed complete databases names
  have pieces := (pieces_stored distinct landed left).2
  obtain ⟨plan,planned,same⟩ :=
    described_planned several listed complete plain readable (dumped_manifest plain reads landed left) pieces
  refine ⟨plan,planned,fun unit present => described_reads planned same readable distinct pieces present,?_⟩
  intro database found
  rw [same] at found
  exact ((collection_artifact_iff several listed complete database).mp found).2

theorem restored_selected (several : options.allDatabases = true)
    (plain : ∀ bytes, codec.decode .none bytes = .ok bytes)
    (reads : codec.manifestFromJson (codec.manifestToJson manifest) = .ok manifest)
    (runs : Runs (Keeps held) (runDumpWithProgress codec client store options reporting) w (done manifest) w')
    (readable : Readable codec held) (databases : held.databases.Nodup)
      (names : ∀ database, Named (held.inventories database))
    (restores : RestoresEvery codec w' store held.databases) : Selected held options := by
  obtain ⟨plan,planned,loads,chosen⟩ := dump_planned several plain reads runs readable databases names
  intro database member other empty
  apply uncovered_missed planned loads member other _ restores
  exact fun artifact present collected own => chosen database ⟨artifact,present,collected,own⟩ empty

theorem selected_restore_ends (several : options.allDatabases = true)
    (plain : ∀ bytes, codec.decode .none bytes = .ok bytes)
    (reads : codec.manifestFromJson (codec.manifestToJson manifest) = .ok manifest)
    (runs : Runs (Keeps held) (runDumpWithProgress codec client store options reporting) w (done manifest) w')
    (readable : Readable codec held) (databases : held.databases.Nodup)
      (names : ∀ database, Named (held.inventories database))
    (chosen : Selected held options) {standing : List RestoreTrace.Event → String → Prop}
      (hosts : Hosts held.databases standing) :
    ∃ summary after, Runs (Hosted codec standing)
      (Restore.runRestoreWithProgress codec {database := "_system"} store {} false) ⟨w',[]⟩
      (done summary) after ∧ ∀ database ∈ held.databases, standing after.log database := by
  obtain ⟨plan,planned,loads,-⟩ := dump_planned several plain reads runs readable databases names
  exact restored_ends planned loads (selected_restored several plain reads runs chosen) hosts

-- Every dumped database is restored just when each of them but `_system` has a
-- collection in the dump.
theorem dumped_databases_restored_iff (several : options.allDatabases = true)
    (plain : ∀ bytes, codec.decode .none bytes = .ok bytes)
    (reads : codec.manifestFromJson (codec.manifestToJson manifest) = .ok manifest)
    (runs : Runs (Keeps held) (runDumpWithProgress codec client store options reporting) w (done manifest) w') :
    (Selected held options → RestoresEvery codec w' store held.databases) ∧
    (Readable codec held → held.databases.Nodup → (∀ database, Named (held.inventories database)) →
      RestoresEvery codec w' store held.databases → Selected held options) :=
  ⟨selected_restored several plain reads runs,restored_selected several plain reads runs⟩

end Restored

section Sample
open DumpRestore (sampleCollection sampleCodec structureText firstText secondText digest)

def allText : Bytes := asciiBytes
    ("\n".intercalate ["\x7b","  \"manifest_version\": 1,","  \"tool_version\": \"0.1.0\",",
  "  \"created_at\": \"2026-06-01T00:00:00Z\",","  \"database\": \"all\",","  \"encryption\": \x7b",
  "    \"algorithm\": \"none\"","  \x7d,","  \"artifacts\": [","    \x7b",
  "      \"path\": \"databases/shop/c.structure.json\",","      \"kind\": \"structure\",",
    "      \"format\": \"json\",",
  "      \"compression\": \"none\",","      \"byte_size\": 96,","      \"collection\": \"c\",",
  "      \"database\": \"shop\"","    \x7d,","    \x7b",
  "      \"path\": \"databases/shop/c.data.jsonl\",","      \"kind\": \"data\",","      \"format\": \"jsonl\",",
  "      \"compression\": \"none\",","      \"byte_size\": 68,","      \"checksum\": \x7b",
  "        \"algorithm\": \"sha256\",",
  "        \"value\": \"33c023eb8a4d048efa30c1fb835a6a56a194d12b10355e67e42509d9838d084e\"","      \x7d,",
  "      \"collection\": \"c\",","      \"database\": \"shop\",","      \"part\": 0","    \x7d","  ]","\x7d"])

def allManifest : Manifest :=
  {Manifest.new "all" "0.1.0" "2026-06-01T00:00:00Z" with artifacts := [
    {path := "databases/shop/c.structure.json",kind := .structureDef,format := .json,byteSize := 96,collection := some "c",
     database := some "shop"},
    {path := "databases/shop/c.data.jsonl",kind := .data,format := .jsonl,byteSize := 68,
     checksum := some ⟨"sha256","33c023eb8a4d048efa30c1fb835a6a56a194d12b10355e67e42509d9838d084e"⟩,
     collection := some "c",database := some "shop",part := some 0}]}

def parseAll (bytes : Bytes) : Except Error Manifest :=
  if bytes = allText then .ok allManifest else .error (.serialization "expected value at line 1 column 1")

def allCodec : Codec := {sampleCodec with manifestToJson := fun _ => allText,manifestFromJson := parseAll}
def allOptions : DumpOptions :=
  {allDatabases := true,toolVersion := "0.1.0",createdAt := "2026-06-01T00:00:00Z"}

def inventoryOf (database : String) : Inventory := if database = "shop" then ⟨[sampleCollection],[]⟩ else {}
def shopHeld : Holdings := ⟨["_system","shop"],inventoryOf⟩
def emptyHeld : Holdings := ⟨["_system","shop","empty"],inventoryOf⟩

def snapshotOf (database : String) : Snapshot :=
  ⟨databaseTarget 0 database,inventoryOf database,if database = "shop" then
    [⟨"c",sampleCollection,firstText ++ secondText⟩] else []⟩

theorem shop_pieces : (snapshotOf "shop").pieces allCodec allOptions = [
    ({path := "databases/shop/c.structure.json",kind := .structureDef,format := .json,byteSize := structureText.length,
      collection := some "c",database := some "shop"},structureText),
    ({path := "databases/shop/c.data.jsonl",kind := .data,
      format := .jsonl,byteSize := (firstText ++ secondText).length,
      checksum := some ⟨"sha256",hex digest⟩,collection := some "c",database := some "shop",part :=
      some 0},firstText ++ secondText)] := by
  have paths : structurePath (databaseTarget 0 "shop") "c" = "databases/shop/c.structure.json" ∧
      dataPath (databaseTarget 0 "shop") .none "c" = "databases/shop/c.data.jsonl" := by decide
  rw [← paths.1,← paths.2]
  rfl

theorem all_described {databases : List String} (others : databases.filter (· = "shop") = ["shop"]) :
    described allCodec allOptions (databases.map snapshotOf) = allManifest := by
  have pieces : ∀ databases : List String, allPieces allCodec allOptions (databases.map snapshotOf) =
      (databases.filter (· = "shop")).flatMap fun database =>
      (snapshotOf database).pieces allCodec allOptions := by
    intro databases
    induction databases with
    | nil => rfl
    | cons database rest ih =>
      have joined : allPieces allCodec allOptions ((database :: rest).map snapshotOf) =
          (snapshotOf database).pieces allCodec allOptions ++ allPieces allCodec allOptions
            (rest.map snapshotOf) := List.flatMap_cons
      rw [joined,ih]
      by_cases shop : database = "shop"
      · simp [shop]
      · have nothing : (snapshotOf database).pieces allCodec allOptions = [] := by
          simp [snapshotOf,shop,Snapshot.pieces,Snapshot.collectionPieces,Snapshot.views,inventoryOf]
        simp [shop,nothing]
  have digest_ : hex digest = "33c023eb8a4d048efa30c1fb835a6a56a194d12b10355e67e42509d9838d084e" := by decide
  have sized : (firstText ++ secondText).length = 68 := DumpRestore.sample_data
  rw [described,pieces,others,List.flatMap_singleton,shop_pieces,DumpRestore.structureText_length,sized,digest_]
  rfl

theorem all_dumped (databases : List String) (others : databases.filter (· = "shop") = ["shop"]) :
    ∃ w', Runs (Keeps ⟨databases,inventoryOf⟩)
      (runDumpWithProgress allCodec {database := "_system"} 0 allOptions false) (fun _ => none)
      (done allManifest) w' := by
  have listed : (databases.map snapshotOf).map Snapshot.of =
      sources ⟨databases,inventoryOf⟩ {database := "_system"} 0 allOptions := by
    have several : allOptions.allDatabases = true := rfl
    rw [sources,if_pos several,List.map_map]
    rfl
  have each : ∀ s ∈ databases.map snapshotOf, s.Complete allOptions ∧
      (∀ collection ∈ s.inventory.collections, collection.name.isSome) ∧
      ∀ view ∈ s.inventory.views, (viewName view).isSome := by
    intro s member
    obtain ⟨database,-,rfl⟩ := List.mem_map.mp member
    by_cases shop : database = "shop"
    · subst shop
      refine ⟨⟨rfl,by simp [Snapshot.views,snapshotOf,inventoryOf]⟩,?_,by simp [snapshotOf,inventoryOf]⟩
      intro collection present
      rw [List.mem_singleton.mp present]
      rfl
    ·
        exact ⟨⟨by simp [snapshotOf,inventoryOf,shop,selected],by simp [Snapshot.views,snapshotOf,inventoryOf,shop]⟩,
        by simp [snapshotOf,inventoryOf,shop],by simp [snapshotOf,inventoryOf,shop]⟩
  have attained := @dump_attained allCodec ⟨databases,inventoryOf⟩ allOptions
      {database := "_system"} 0 false (databases.map snapshotOf) rfl
    listed (fun s member => (each s member).1) (fun s member => (each s member).2.1) fun s member =>
      (each s member).2.2
  rwa [all_described others] at attained

theorem all_reads : allCodec.manifestFromJson (allCodec.manifestToJson allManifest) = .ok allManifest := by
  have parser : allCodec.manifestFromJson = parseAll := rfl
  have printer : allCodec.manifestToJson allManifest = allText := by simp only [allCodec]
  rw [parser,printer,parseAll,if_pos rfl]

theorem all_readable (databases : List String) : Readable allCodec ⟨databases,inventoryOf⟩ where
  packed _ _ := rfl
  structures database _ collection present := by
    by_cases shop : database = "shop"
    · have one : collection = sampleCollection := by simpa [inventoryOf,shop] using present
      rw [one]
      exact DumpRestore.sample_reads.structures ("c",sampleCollection)
        (by rw [DumpRestore.sample_collections]; exact List.mem_cons_self)
    · simp [inventoryOf,shop] at present
  views database _ view present := by
    by_cases shop : database = "shop"
    · simp [inventoryOf,shop] at present
    · simp [inventoryOf,shop] at present

theorem inventory_named (database : String) : Named (inventoryOf database) := by
  by_cases shop : database = "shop"
  · subst shop
    exact ⟨List.nodup_singleton _,List.nodup_nil,by decide⟩
  · simp only [inventoryOf,if_neg shop]
    exact ⟨List.nodup_nil,List.nodup_nil,by simp⟩

-- The database with nothing in it leaves no trace in the dump.
theorem empty_database_not_restored : ∃ w',
    Runs (Keeps emptyHeld) (runDumpWithProgress allCodec {database := "_system"} 0 allOptions false)
      (fun _ => none) (done allManifest) w' ∧
      ¬ RestoresEvery allCodec w' 0 emptyHeld.databases := by
  obtain ⟨w',runs⟩ := all_dumped ["_system","shop","empty"] (by decide)
  refine ⟨w',runs,?_⟩
  intro restores
  have chosen := restored_selected rfl (fun _ => rfl) all_reads runs (all_readable _)
      (by decide) inventory_named restores
  exact chosen "empty" (by simp) (by decide) rfl

theorem shop_restored : ∃ w',
    Runs (Keeps shopHeld) (runDumpWithProgress allCodec {database := "_system"} 0 allOptions false)
      (fun _ => none) (done allManifest) w' ∧
      RestoresEvery allCodec w' 0 shopHeld.databases ∧
      ∃ summary after, Runs (Hosted allCodec Created)
        (Restore.runRestoreWithProgress allCodec {database := "_system"} 0 {} false) ⟨w',[]⟩
        (done summary) after ∧ ∀ database ∈ shopHeld.databases, Created after.log database := by
  obtain ⟨w',runs⟩ := all_dumped ["_system","shop"] (by decide)
  have chosen : Selected shopHeld allOptions := by
    intro database member other
    have shop : database = "shop" := by simpa [shopHeld,other] using member
    have one : selected allOptions (inventoryOf "shop").collections = [("c",sampleCollection)] := rfl
    subst shop
    exact one ▸ List.cons_ne_nil _ _
  have restored := dumped_databases_restored_iff rfl (fun _ => rfl) all_reads runs
  exact ⟨w',runs,restored.1 chosen,selected_restore_ends rfl (fun _ => rfl) all_reads runs
    (all_readable _) (by decide) inventory_named chosen
    (created_hosts _)⟩

end Sample
end ArangoDataTools.DumpedDatabases
