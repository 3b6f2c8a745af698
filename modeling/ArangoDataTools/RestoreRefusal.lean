import ArangoDataTools.RestoreReading

namespace ArangoDataTools.RestoreRefusal
open Interaction Interaction.Program Restore RestoreTrace RestoreReading

def mutates : Request → Bool
  | .createDatabase _ | .restoreCollection _ _ _ | .restoreData _ _ | .createIndex _ _ | .dropView _ | .createView _ => true
  | _ => false

section Reasons
variable (codec : Codec) (broken : ObjectRef → Prop) (objects : ObjectRef → Option Bytes) (store : Nat)

-- The reasons to refuse a dump.
inductive DumpRefused : Prop where
  | manifest : (∀ manifest, ¬ HasManifest codec broken objects store manifest) → DumpRefused
  | encrypted (manifest : Manifest) : HasManifest codec broken objects store manifest →
      manifest.encryption.isEncrypted = true → DumpRefused
  | velocyPack (manifest : Manifest) (artifact : Artifact) : HasManifest codec broken objects store manifest →
      artifact ∈ manifest.artifacts → artifact.kind = .data → artifact.format = .vpack → DumpRefused
  | collection (manifest : Manifest) (group : CollectionGroup) :
      HasManifest codec broken objects store manifest →
      group ∈ groupByCollection manifest →
      (∀ structure_, ¬ HasStructure codec broken objects store group structure_) → DumpRefused
  | view (manifest : Manifest) (artifact : Artifact) : HasManifest codec broken objects store manifest →
      artifact ∈ manifest.artifacts → artifact.kind = .view →
      (∀ view, ¬ HasView codec broken objects store artifact view) →
      DumpRefused

-- A checkpoint that cannot be read, is no checkpoint or was written for another dump.
def CheckpointRefused (options : RestoreOptions) : Prop :=
  ∃ manifest object, HasManifest codec broken objects store manifest ∧ options.checkpoint = some object ∧
    (broken object ∨ ∃ bytes, objects object = some bytes ∧
      ∀ checkpoint, codec.checkpointFromJson bytes = .ok checkpoint →
      checkpoint.manifest ≠ manifest.fingerprint)

def Refused (options : RestoreOptions) : Prop :=
  DumpRefused codec broken objects store ∨ CheckpointRefused codec broken objects store options

-- Nothing names a database to create.
def NamesNoDatabase (options : RestoreOptions) : Prop :=
  options.createDatabase = none ∧ ∀ manifest, HasManifest codec broken objects store manifest →
    ∀ artifact ∈ manifest.artifacts, artifact.collection ≠ none → artifact.database = none

-- Every run fails without a mutating request, whatever the server answers.
def MutatesNothing (client : Client) (options : RestoreOptions) (reporting : Bool) : Prop :=
  ∀ q w', Runs (Answers codec broken) (runRestoreWithProgress codec client store options reporting)
    ⟨objects,[]⟩ q w' →
    (∀ summary, q ≠ done summary) ∧
      ∀ database request accepted, .sent database request accepted ∈ w'.log → mutates request = false

end Reasons

variable {codec : Codec} {broken : ObjectRef → Prop} {objects : ObjectRef → Option Bytes} {store : Nat}

section Groups

theorem add_database (artifact : Artifact) (group : CollectionGroup) :
    (group.add artifact).database = group.database := by
  unfold CollectionGroup.add
  cases artifact.kind <;> rfl

theorem addToGroup_databases (artifact : Artifact) (name : String) (groups : List CollectionGroup)
    (database : Option String) :
    (∃ group ∈ addToGroup artifact name groups, group.database = database) ↔
      (∃ group ∈ groups, group.database = database) ∨ artifact.database = database := by
  induction groups with
  | nil => simp [addToGroup,add_database]
  | cons group rest ih =>
    unfold addToGroup
    by_cases same : group.name = name ∧ group.database = artifact.database
    · rw [if_pos same]
      simp only [List.exists_mem_cons_iff,add_database,same.2]
      constructor
      · intro found
        exact .inl found
      · intro found
        rcases found with listed | own
        · exact listed
        · exact .inl own
    · rw [if_neg same]
      simp only [List.exists_mem_cons_iff,ih,or_assoc]

theorem groupArtifacts_databases (artifacts : List Artifact) (groups : List CollectionGroup)
    (database : Option String) :
    (∃ group ∈ groupArtifacts artifacts groups, group.database = database) ↔
      (∃ group ∈ groups, group.database = database) ∨
        ∃ artifact ∈ artifacts, artifact.collection ≠ none ∧ artifact.database = database := by
  induction artifacts generalizing groups with
  | nil => simp [groupArtifacts]
  | cons artifact rest ih =>
    unfold groupArtifacts
    cases named : artifact.collection with
    | none => simp only [ih,List.exists_mem_cons_iff,named,ne_eq,not_true_eq_false,false_and,false_or]
    | some name =>
      simp only [ih,addToGroup_databases,List.exists_mem_cons_iff,named,ne_eq,reduceCtorEq,
        not_false_eq_true,true_and,or_assoc]

theorem group_databases (manifest : Manifest) (database : Option String) :
    (∃ group ∈ groupByCollection manifest, group.database = database) ↔
      ∃ artifact ∈ manifest.artifacts, artifact.collection ≠ none ∧ artifact.database = database := by
  unfold groupByCollection
  rw [groupArtifacts_databases]
  simp

theorem mem_databaseOrder (units : List RestoreUnit) (order : List (Option String)) (database : Option String) :
    database ∈ databaseOrder units order ↔ database ∈ order ∨ ∃ unit ∈ units, unit.1.database = database := by
  induction units generalizing order with
  | nil => simp [databaseOrder]
  | cons unit rest ih =>
    unfold databaseOrder
    rw [ih,List.exists_mem_cons_iff]
    by_cases listed : unit.1.database ∈ order
    · rw [if_pos listed]
      constructor
      · rintro (earlier | later)
        · exact .inl earlier
        · exact .inr (.inr later)
      · rintro (earlier | own | later)
        · exact .inl earlier
        · exact .inl (own ▸ listed)
        · exact .inr later
    · rw [if_neg listed]
      simp only [List.mem_append,List.mem_singleton,or_assoc,eq_comm]

end Groups

section Planning

theorem mem_sortUnits (units : List RestoreUnit) (unit : RestoreUnit) : unit ∈ sortUnits units ↔ unit ∈ units :=
  (List.perm_insertionSort _ units).mem_iff

theorem planned_databases {plan : Plan} (planned : Planned codec broken objects store plan)
    (database : Option String) :
    database ∈ plan.databases ↔ ∃ artifact ∈ plan.manifest.artifacts, artifact.collection ≠ none ∧
    artifact.database = database := by
  obtain ⟨units,grouped,-,-,ordered⟩ := planned.units
  rw [ordered,mem_databaseOrder,← group_databases,← grouped]
  simp

theorem planned_units {plan : Plan} (planned : Planned codec broken objects store plan)
    (database : Option String) :
    (∃ unit ∈ plan.units, unit.1.database = database) ↔ database ∈ plan.databases := by
  obtain ⟨units,-,-,sorted,ordered⟩ := planned.units
  rw [ordered,sorted,mem_databaseOrder]
  simp [mem_sortUnits]

theorem validate_ok {manifest : Manifest} (valid : validate manifest = .ok ()) :
    manifest.encryption.isEncrypted = false ∧
    ∀ artifact ∈ manifest.artifacts, ¬ (artifact.kind = .data ∧ artifact.format = .vpack) := by
  unfold validate at valid
  by_cases encrypted : manifest.encryption.isEncrypted = true
  · rw [if_pos encrypted] at valid
    cases valid
  · rw [if_neg encrypted] at valid
    refine ⟨Bool.eq_false_iff.mpr encrypted,?_⟩
    intro artifact member bad
    cases found : manifest.artifacts.find? fun artifact => artifact.kind = .data ∧ artifact.format = .vpack with
    | none => exact List.find?_eq_none.mp found artifact member (by simpa using bad)
    | some other => rw [found] at valid; cases valid

theorem validate_plain {manifest : Manifest} (plain : manifest.encryption.isEncrypted = false)
    (textual : ∀ artifact ∈ manifest.artifacts, ¬ (artifact.kind = .data ∧ artifact.format = .vpack)) :
    validate manifest = .ok () := by
  have found : (manifest.artifacts.find? fun artifact => artifact.kind = .data ∧
      artifact.format = .vpack) = none :=
    List.find?_eq_none.mpr fun artifact member => by simpa using textual artifact member
  unfold validate
  rw [if_neg (by simp [plain]),found]

theorem units_exist (groups : List CollectionGroup)
    (readable : ∀ group ∈ groups, ∃ structure_, HasStructure codec broken objects store group structure_) :
    ∃ units : List RestoreUnit, units.map Prod.fst = groups ∧
      ∀ unit ∈ units, HasStructure codec broken objects store unit.1 unit.2 := by
  induction groups with
  | nil => exact ⟨[],rfl,by simp⟩
  | cons group rest ih =>
    obtain ⟨structure_,held⟩ := readable group List.mem_cons_self
    obtain ⟨units,grouped,built⟩ := ih fun other member => readable other (List.mem_cons_of_mem _ member)
    refine ⟨(group,structure_) :: units,by rw [List.map_cons,grouped],?_⟩
    intro unit member
    rcases List.mem_cons.mp member with rfl | later
    · exact held
    · exact built unit later

theorem views_exist (artifacts : List Artifact)
    (readable : ∀ artifact ∈ artifacts, ∃ view, HasView codec broken objects store artifact view) :
    ∃ views, List.Forall₂ (HasView codec broken objects store) artifacts views := by
  induction artifacts with
  | nil => exact ⟨[],.nil⟩
  | cons artifact rest ih =>
    obtain ⟨view,held⟩ := readable artifact List.mem_cons_self
    obtain ⟨views,more⟩ := ih fun other member => readable other (List.mem_cons_of_mem _ member)
    exact ⟨view :: views,.cons held more⟩

theorem viewed_artifact {artifacts : List Artifact} {views : List ViewArtifact}
    (viewed : List.Forall₂ (HasView codec broken objects store) artifacts views)
      {artifact : Artifact} (member : artifact ∈ artifacts) :
    ∃ view ∈ views, HasView codec broken objects store artifact view := by
  induction viewed with
  | nil => cases member
  | cons held _ ih =>
    rcases List.mem_cons.mp member with rfl | later
    · exact ⟨_,List.mem_cons_self,held⟩
    · obtain ⟨view,listed,other⟩ := ih later
      exact ⟨view,List.mem_cons_of_mem _ listed,other⟩

theorem planned_not_refused {plan : Plan} (planned : Planned codec broken objects store plan) :
    ¬ DumpRefused codec broken objects store := by
  have valid := validate_ok planned.valid
  intro refused
  cases refused with
  | manifest missing => exact missing _ planned.manifest
  | encrypted manifest named encrypted =>
    rw [manifest_unique named planned.manifest,valid.1] at encrypted
    cases encrypted
  | velocyPack manifest artifact named member kind format =>
    rw [manifest_unique named planned.manifest] at member
    exact valid.2 artifact member ⟨kind,format⟩
  | collection manifest group named member missing =>
    rw [manifest_unique named planned.manifest] at member
    obtain ⟨units,grouped,built,-,-⟩ := planned.units
    rw [← grouped] at member
    obtain ⟨unit,listed,rfl⟩ := List.mem_map.mp member
    exact missing unit.2 (built unit listed)
  | view manifest artifact named member kind missing =>
    rw [manifest_unique named planned.manifest] at member
    obtain ⟨view,-,held⟩ := viewed_artifact planned.views (List.mem_filter.mpr ⟨member,by simpa using kind⟩)
    exact missing view held

theorem planned_unless_refused (accepted : ¬ DumpRefused codec broken objects store) :
    ∃ plan, Planned codec broken objects store plan := by
  have readable : ∃ manifest, HasManifest codec broken objects store manifest := by
    by_contra missing
    exact accepted (.manifest fun manifest named => missing ⟨manifest,named⟩)
  obtain ⟨manifest,named⟩ := readable
  have valid : validate manifest = .ok () := by
    apply validate_plain
    · exact Bool.eq_false_iff.mpr fun encrypted => accepted (.encrypted manifest named encrypted)
    · intro artifact member bad
      exact accepted (.velocyPack manifest artifact named member bad.1 bad.2)
  have structures : ∀ group ∈ groupByCollection manifest, ∃ structure_,
      HasStructure codec broken objects store group structure_ := by
    intro group member
    by_contra missing
    exact accepted (.collection manifest group named member fun structure_ held => missing ⟨structure_,held⟩)
  have views : ∀ artifact ∈ viewArtifacts manifest, ∃ view,
      HasView codec broken objects store artifact view := by
    intro artifact member
    obtain ⟨listed,kind⟩ := List.mem_filter.mp member
    by_contra missing
    exact accepted (.view manifest artifact named listed (by simpa using kind) fun view held =>
      missing ⟨view,held⟩)
  obtain ⟨units,grouped,built⟩ := units_exist _ structures
  obtain ⟨shaped,held⟩ := views_exist _ views
  exact ⟨⟨manifest,sortUnits units,databaseOrder units [],shaped⟩,named,valid,
    ⟨units,grouped,built,rfl,rfl⟩,held⟩

end Planning

section Refusing
variable {client : Client} {options : RestoreOptions} {reporting : Bool}

def Quiet (objects : ObjectRef → Option Bytes) (w : World) : Prop := Asked (fun _ => False) objects w

theorem refused_dump_quiet (refused : DumpRefused codec broken objects store) :
    Triple (Answers codec broken) (Quiet objects) (runRestoreWithProgress codec client store options reporting)
      (fun _ _ => False) (Quiet objects) (Quiet objects) := by
  apply triple_bind asked_plan
  intro plan
  exact triple_never fun w holds => planned_not_refused holds.2 refused

theorem refused_checkpoint_quiet (refused : CheckpointRefused codec broken objects store options)
    (unnamed : NamesNoDatabase codec broken objects store options) :
    Triple (Answers codec broken) (Quiet objects) (runRestoreWithProgress codec client store options reporting)
      (fun _ _ => False) (Quiet objects) (Quiet objects) := by
  obtain ⟨manifest,object,named,configured,spoilt⟩ := refused
  apply triple_bind asked_plan
  intro plan
  by_cases planned : Planned codec broken objects store plan
  swap
  · exact triple_never fun w holds => planned holds.2
  have single : (plan.units.any fun unit => unit.1.database.isSome) = false := by
    apply List.any_eq_false.mpr
    intro unit member
    obtain ⟨artifact,listed,collected,same⟩ :=
      (planned_databases planned _).mp ((planned_units planned _).mp ⟨unit,member,rfl⟩)
    rw [← same,unnamed.2 plan.manifest planned.manifest artifact listed collected]
    simp
  have prepared : prepareDatabases client options plan = done () := by
    unfold prepareDatabases
    rw [if_neg (by simp [single]),unnamed.1]
  rw [prepared,done_bind]
  apply triple_bind (triple_weaken (asked_checkpoint plan.manifest.fingerprint)
    (fun _ holds => holds.1) (fun _ _ holds => holds)
    (fun _ quiet => quiet) fun _ quiet => quiet)
  intro checkpoint
  apply triple_never
  intro w holds
  have started := holds.2
  unfold Started at started
  rw [configured] at started
  rcases spoilt with unread | ⟨bytes,stored,foreign⟩
  · exact started.1 unread
  · obtain ⟨-,loaded⟩ := started
    rw [stored] at loaded
    rw [manifest_unique planned.manifest named] at loaded
    exact foreign checkpoint loaded.1 loaded.2

theorem database_before_checkpoint (accepted : ¬ DumpRefused codec broken objects store)
    (naming : ¬ NamesNoDatabase codec broken objects store options) :
    ∃ q w' name, Runs (Answers codec broken)
      (runRestoreWithProgress codec client store options reporting) ⟨objects,[]⟩ q w' ∧
      .sent "_system" (.createDatabase name) true ∈ w'.log := by
  obtain ⟨plan,planned⟩ := planned_unless_refused accepted
  obtain ⟨w,same,reading⟩ := planned_runs (w:=⟨objects,[]⟩) planned
  obtain ⟨w',-,preparing,several,single⟩ := @prepareDatabases_run codec broken client options plan w
  have through : ∃ q, Runs (Answers codec broken)
      (runRestoreWithProgress codec client store options reporting) ⟨objects,[]⟩ q w' :=
    ⟨_,runs_then reading (runs_append preparing _)⟩
  obtain ⟨q,runs⟩ := through
  by_cases named : ∀ unit ∈ plan.units, unit.1.database = none
  · cases chosen : options.createDatabase with
    | some name => exact ⟨q,w',name,runs,single named name chosen⟩
    | none =>
      refine absurd ⟨chosen,?_⟩ naming
      intro manifest held artifact member collected
      rw [manifest_unique held planned.manifest] at member
      obtain ⟨unit,listed,own⟩ :=
        (planned_units planned _).mpr ((planned_databases planned _).mpr ⟨artifact,member,collected,rfl⟩)
      rw [← own,named unit listed]
  · push Not at named
    obtain ⟨unit,member,some_⟩ := named
    obtain ⟨name,own⟩ := Option.ne_none_iff_exists'.mp some_
    exact ⟨q,w',name,runs,several unit member name own ((planned_units planned _).mp ⟨unit,member,own⟩)⟩

theorem refused_restore_mutates_nothing_iff :
    (Refused codec broken objects store options →
    MutatesNothing codec broken objects store client options reporting) ↔
      (CheckpointRefused codec broken objects store options →
        DumpRefused codec broken objects store ∨ NamesNoDatabase codec broken objects store options) := by
  have clean : Triple (Answers codec broken) (Quiet objects)
      (runRestoreWithProgress codec client store options reporting)
      (fun _ _ => False) (Quiet objects) (Quiet objects) →
      MutatesNothing codec broken objects store client options reporting := by
    intro triple q w' runs
    have start : Quiet objects ⟨objects,[]⟩ := asked_start
    have quiet := triple.everywhere _ q w' start runs
    refine ⟨?_,fun database request accepted member => (quiet.2 database request accepted member).elim⟩
    intro summary ended
    rw [ended] at runs
    exact triple.returns _ summary w' start runs
  constructor
  · intro promised refused
    by_contra neither
    push Not at neither
    obtain ⟨q,w',name,runs,sent⟩ := database_before_checkpoint neither.1 neither.2
    have harmless := (promised (.inr refused) q w' runs).2 _ _ _ sent
    cases harmless
  · intro condition refused
    by_cases dump : DumpRefused codec broken objects store
    · exact clean (refused_dump_quiet dump)
    · have checkpoint := refused.resolve_left dump
      exact clean (refused_checkpoint_quiet checkpoint ((condition checkpoint).resolve_left dump))

end Refusing

section Sample

def emptyManifest : Manifest := Manifest.new "shop" "0.1.0" "2026-06-01T00:00:00Z"
def olderCheckpoint : RestoreCheckpoint := .new (Manifest.new "shop" "0.1.0" "2026-05-01T00:00:00Z").fingerprint

def emptyText : Bytes := asciiBytes ("\x7b\"manifest_version\":1,\"tool_version\":\"0.1.0\"," ++
  "\"created_at\":\"2026-06-01T00:00:00Z\",\"database\":\"shop\",\"encryption\":\x7b\"algorithm\":\"none\"\x7d," ++
  "\"artifacts\":[]\x7d")
def olderText : Bytes := asciiBytes "\x7b\"manifest\":\"shop|2026-05-01T00:00:00Z|\",\"completed\":[]\x7d"

def parseManifest (bytes : Bytes) : Except Error Manifest :=
  if bytes = emptyText then .ok emptyManifest else .error (.serialization "expected value at line 1 column 1")
def parseCheckpoint (bytes : Bytes) : Except Error RestoreCheckpoint :=
  if bytes = olderText then .ok olderCheckpoint else .error (.serialization "expected value at line 1 column 1")

def emptyCodec : Codec where
  toVecPretty _ := []
  fromSlice _ := .error (.serialization "expected value at line 1 column 1")
  manifestToJson _ := emptyText
  manifestFromJson := parseManifest
  checkpointToJson _ := olderText
  checkpointFromJson := parseCheckpoint
  encode _ bytes := bytes
  decode _ bytes := .ok bytes
  sha256 _ := []

def emptyObjects (object : ObjectRef) : Option Bytes :=
  if object = ⟨0,Restore.manifestName⟩ then some emptyText
  else if object = ⟨1,"restore.checkpoint.json"⟩ then some olderText
  else none

def resumeOptions : RestoreOptions :=
  {createDatabase := some "copy",checkpoint := some ⟨1,"restore.checkpoint.json"⟩}

theorem emptyObjects_manifest : HasManifest emptyCodec (fun _ => False) emptyObjects 0 emptyManifest := by
  have parser : emptyCodec.manifestFromJson = parseManifest := rfl
  have held : Holds emptyCodec (fun _ => False) emptyObjects 0 Restore.manifestName emptyText :=
    ⟨not_false,emptyText,if_pos rfl,rfl⟩
  refine ⟨emptyText,held,?_⟩
  rw [parser,parseManifest,if_pos rfl]

theorem emptyObjects_planned : Planned emptyCodec (fun _ => False) emptyObjects 0 ⟨emptyManifest,[],[],[]⟩ where
  manifest := emptyObjects_manifest
  valid := rfl
  units := ⟨[],rfl,by simp,rfl,rfl⟩
  views := .nil

theorem emptyObjects_checkpoint :
    CheckpointRefused emptyCodec (fun _ => False) emptyObjects 0 resumeOptions := by
  refine ⟨emptyManifest,⟨1,"restore.checkpoint.json"⟩,emptyObjects_manifest,rfl,.inr ⟨olderText,?_,?_⟩⟩
  · simp [emptyObjects,Restore.manifestName]
  · intro checkpoint parsed
    have read : parseCheckpoint olderText = .ok olderCheckpoint := by rw [parseCheckpoint,if_pos rfl]
    change parseCheckpoint olderText = .ok checkpoint at parsed
    rw [read] at parsed
    cases parsed
    decide

theorem refused_restore_creates_database : Refused emptyCodec (fun _ => False) emptyObjects 0 resumeOptions ∧
    ¬ MutatesNothing emptyCodec (fun _ => False) emptyObjects 0
      {database := "_system"} resumeOptions false := by
  refine ⟨.inr emptyObjects_checkpoint,?_⟩
  intro promised
  obtain ⟨q,w',name,runs,sent⟩ :=
    @database_before_checkpoint emptyCodec (fun _ => False) emptyObjects 0 {database := "_system"}
    resumeOptions false (planned_not_refused emptyObjects_planned) fun unnamed => by cases unnamed.1
  have harmless := (promised q w' runs).2 _ _ _ sent
  cases harmless

end Sample
end ArangoDataTools.RestoreRefusal
