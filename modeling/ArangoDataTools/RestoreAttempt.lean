import ArangoDataTools.RestorePlan
import ArangoDataTools.RestorePhases
import ArangoDataTools.RestoreRefusal

namespace ArangoDataTools.RestoreAttempt
open Interaction Interaction.Program Restore RestoreTrace RestoreReading RestorePhases RestoreRefusal
open RestorePlan (Plain PlainDatabase viewBody split_plain database_plain database_same)

def persisted (codec : Codec) (object : ObjectRef) (objects : ObjectRef → Option Bytes) :
    Option RestoreCheckpoint :=
  (objects object).bind fun bytes => (codec.checkpointFromJson bytes).toOption

def recorded (codec : Codec) (object : ObjectRef) (objects : ObjectRef → Option Bytes) : List String :=
  ((persisted codec object objects).map RestoreCheckpoint.completed).getD []

-- A collection or a view of a dump.
inductive Named where
  | collection (database : Option String) (name : String)
  | view (database : Option String) (name : String)

def Named.id : Named → String
  | collection database name => database.getD "" ++ "::" ++ name
  | view database name => database.getD "" ++ "::view::" ++ name

-- No colon in the names; `Clear` also rules out a database with an empty name.
def Named.Colonless : Named → Prop
  | collection database name => (∀ own, database = some own → Plain own) ∧ Plain name
  | view database name => (∀ own, database = some own → Plain own) ∧ Plain name

def Named.Clear : Named → Prop
  | collection database name => PlainDatabase database ∧ Plain name
  | view database name => PlainDatabase database ∧ Plain name

def unitNamed (unit : RestoreUnit) : Named := .collection unit.1.database unit.1.name
def viewNamed (view : ViewArtifact) : Named := .view view.database view.name
def listed (plan : Plan) : List Named := plan.units.map unitNamed ++ plan.views.map viewNamed

inductive PartEvents (codec : Codec) (manifest : Manifest) (store : Nat) (database name : String) :
    List String → List Event → Prop where
  | nil : PartEvents codec manifest store database name [] []
  | snoc : PartEvents codec manifest store database name paths events →
      codec.decode (compressionOf manifest path) bytes = .ok body →
      PartEvents codec manifest store database name (paths ++ [path])
        (events ++ [.read ⟨store,path⟩ bytes,.sent database (.restoreData name body) true])

def indexEvents (database name : String) (indexes : List Value) : List Event :=
  (indexes.filter fun index => !isImplicit index).map fun index => .sent database (.createIndex name index) true

-- How a run was started and what it did.
structure Past where
  client : Client
  options : RestoreOptions
  log : List Event

def Past.target (run : Past) (database : Option String) : String :=
  (targetClient run.client run.options database).database

def Loaded (codec : Codec) (store : Nat) (manifest : Manifest) (unit : RestoreUnit) (run : Past) : Prop :=
  ∃ events,
    PartEvents codec manifest store (run.target unit.1.database) unit.1.name unit.1.dataPaths events ∧
    (events ++ indexEvents (run.target unit.1.database) unit.1.name unit.2.indexes).Sublist run.log

def Created (view : ViewArtifact) (run : Past) : Prop :=
  .sent (run.target view.database) (.createView (viewBody view)) true ∈ run.log

-- What a recorded identifier stands for has been done in one of the runs.
def Done (codec : Codec) (store : Nat) (plan : Plan) (past : List Past) (id : String) : Prop :=
  (∀ unit ∈ plan.units, unitId unit.1 = id → ∃ run ∈ past, Loaded codec store plan.manifest unit run) ∧
  (∀ view ∈ plan.views, viewUnitId view = id →
    ∃ other ∈ plan.views, other.database = view.database ∧ other.name = view.name ∧ ∃ run ∈ past,
    Created other run)

structure Sound (codec : Codec) (store : Nat) (plan : Plan) (past : List Past)
    (checkpoint : RestoreCheckpoint) :
    Prop where
  fingerprint : checkpoint.manifest = plan.manifest.fingerprint
  distinct : checkpoint.completed.Nodup
  known : ∀ id ∈ checkpoint.completed, ∃ named ∈ listed plan, named.id = id
  finished : ∀ id ∈ checkpoint.completed, Done codec store plan past id

def UnitRequest (unit : RestoreUnit) (request : Request) : Prop :=
  (∃ overwrite, request = .restoreCollection unit.2.parameters [] overwrite) ∨
    (∃ body, request = .restoreData unit.1.name body) ∨
    ∃ index ∈ unit.2.indexes, request = .createIndex unit.1.name index

def ViewRequest (view : ViewArtifact) (request : Request) : Prop :=
  request = .dropView view.name ∨ request = .createView (viewBody view)

-- A request for a database, or for a collection or view that was not recorded.
def Issued (client : Client) (options : RestoreOptions) (plan : Plan) (recorded : List String)
    (database : String)
    (request : Request) : Prop :=
  (∃ name, request = .createDatabase name) ∨
  (∃ unit ∈ plan.units, unitId unit.1 ∉ recorded ∧
    database = (targetClient client options unit.1.database).database ∧
    UnitRequest unit request) ∨
  ∃ view ∈ plan.views, viewUnitId view ∉ recorded ∧
    database = (targetClient client options view.database).database ∧
    ViewRequest view request

-- What is read back from a checkpoint of this dump.
def SavesCheckpoints (codec : Codec) (plan : Plan) : Prop :=
  ∀ completed : List String, completed.Nodup → (∀ id ∈ completed, ∃ named ∈ listed plan, named.id = id) →
    codec.checkpointFromJson (codec.checkpointToJson ⟨plan.manifest.fingerprint,completed⟩) =
      .ok ⟨plan.manifest.fingerprint,completed⟩

section Names

theorem named_inj {one two : Named} (plain : one.Clear) (plain' : two.Clear)
    (equal : one.id = two.id) : one = two := by
  have spread : ∀ (database : Option String) (name : String),
      database.getD "" ++ "::view::" ++ name = database.getD "" ++ "::" ++ ("view::" ++ name) := by
    intro database name
    rw [show "::view::" = "::" ++ "view::" from by decide]
    simp only [String.append_assoc]
  have marked : ∀ name : String, ¬ Plain ("view::" ++ name) := by
    intro name plain
    apply plain
    rw [String.toList_append]
    exact List.mem_append_left _ (by decide)
  cases one with
  | collection database name =>
    cases two with
    | collection database' name' =>
      obtain ⟨databases,names⟩ := split_plain (database_plain plain.1)
        (database_plain plain'.1) equal
      rw [database_same plain.1 plain'.1 databases,names]
    | view database' name' =>
      rw [Named.id,Named.id,spread] at equal
      obtain ⟨-,names⟩ := split_plain (database_plain plain.1) (database_plain plain'.1) equal
      exact absurd (names ▸ plain.2) (marked name')
  | view database name =>
    cases two with
    | collection database' name' =>
      rw [Named.id,Named.id,spread] at equal
      obtain ⟨-,names⟩ := split_plain (database_plain plain.1) (database_plain plain'.1) equal
      exact absurd (names.symm ▸ plain'.2) (marked name)
    | view database' name' =>
      rw [Named.id,Named.id,spread,spread] at equal
      obtain ⟨databases,names⟩ := split_plain (database_plain plain.1)
        (database_plain plain'.1) equal
      have chars := congrArg String.toList names
      simp only [String.toList_append,List.append_cancel_left_eq] at chars
      rw [database_same plain.1 plain'.1 databases,String.toList_inj.mp chars]

def groupKey (group : CollectionGroup) : Option String × String := (group.database,group.name)

theorem add_key (artifact : Artifact) (group : CollectionGroup) : groupKey (group.add artifact) =
    groupKey group := by
  unfold CollectionGroup.add
  cases artifact.kind <;> rfl

theorem addToGroup_keys (artifact : Artifact) (name : String) (groups : List CollectionGroup) :
    (addToGroup artifact name groups).map groupKey =
      if (artifact.database,name) ∈ groups.map groupKey then groups.map groupKey
      else groups.map groupKey ++ [(artifact.database,name)] := by
  induction groups with
  | nil =>
    change [groupKey (CollectionGroup.add artifact ⟨name,artifact.database,"",[]⟩)] = [(artifact.database,name)]
    rw [add_key]
    rfl
  | cons group rest ih =>
    unfold addToGroup
    by_cases same : group.name = name ∧ group.database = artifact.database
    · have key : groupKey group = (artifact.database,name) := by rw [groupKey,same.1,same.2]
      rw [if_pos same,List.map_cons,add_key,key]
      simp [key]
    · have key : groupKey group ≠ (artifact.database,name) := by
        intro equal
        exact same ⟨congrArg Prod.snd equal,congrArg Prod.fst equal⟩
      rw [if_neg same,List.map_cons,ih,List.map_cons]
      by_cases later : (artifact.database,name) ∈ rest.map groupKey
      · rw [if_pos later,if_pos (List.mem_cons_of_mem _ later)]
      · have absent : (artifact.database,name) ∉ groupKey group :: rest.map groupKey := by
          intro member
          rcases List.mem_cons.mp member with equal | found
          · exact key equal.symm
          · exact later found
        rw [if_neg later,if_neg absent]
        rfl

theorem groupArtifacts_keys (artifacts : List Artifact) (groups : List CollectionGroup)
    (distinct : (groups.map groupKey).Nodup) :
    ((groupArtifacts artifacts groups).map groupKey).Nodup := by
  induction artifacts generalizing groups with
  | nil => exact distinct
  | cons artifact rest ih =>
    unfold groupArtifacts
    cases artifact.collection with
    | none => exact ih groups distinct
    | some name =>
      apply ih
      rw [addToGroup_keys]
      by_cases present : (artifact.database,name) ∈ groups.map groupKey
      · rw [if_pos present]
        exact distinct
      · rw [if_neg present]
        exact List.Nodup.append distinct (List.nodup_singleton _) (List.disjoint_singleton.mpr present)

theorem planned_keys {codec : Codec} {broken : ObjectRef → Prop}
    {objects : ObjectRef → Option Bytes} {store : Nat} {plan : Plan}
    (planned : Planned codec broken objects store plan) :
    (plan.units.map fun unit => groupKey unit.1).Nodup := by
  obtain ⟨units,grouped,-,sorted,-⟩ := planned.units
  have keys := groupArtifacts_keys plan.manifest.artifacts [] List.nodup_nil
  have groups : groupArtifacts plan.manifest.artifacts [] = units.map Prod.fst := grouped.symm
  rw [groups,List.map_map] at keys
  have same :=
    (List.perm_insertionSort (fun one two => unitRank (databaseOrder units []) one ≤ unitRank
      (databaseOrder units []) two)
    units).map fun unit => groupKey unit.1
  rw [sorted]
  exact same.nodup_iff.mpr keys

end Names

structure Attempt where
  codec : Codec
  broken : ObjectRef → Prop
  store : Nat
  object : ObjectRef
  start : ObjectRef → Option Bytes
  plan : Plan
  past : List Past
  client : Client
  options : RestoreOptions
  recorded : List String

namespace Attempt
variable (a : Attempt)

abbrev Answers : Answering Op Op.Answer World := RestoreTrace.Answers a.codec a.broken

def here (w : World) : Past := ⟨a.client,a.options,w.log⟩
def runs (w : World) : List Past := a.past ++ [a.here w]

structure Held (w : World) : Prop where
  same : ∀ other, other ≠ a.object → w.objects other = a.start other
  sound : ∀ checkpoint, persisted a.codec a.object w.objects = some checkpoint →
    Sound a.codec a.store a.plan (a.runs w) checkpoint
  issued : ∀ database request accepted, .sent database request accepted ∈ w.log →
    Issued a.client a.options a.plan a.recorded database request

structure Working (checkpoint : RestoreCheckpoint) (w : World) : Prop where
  held : a.Held w
  current : Sound a.codec a.store a.plan (a.runs w) checkpoint
  resumed : ∀ id ∈ a.recorded, id ∈ checkpoint.completed

structure Fits : Prop where
  configured : a.options.checkpoint = some a.object
  keys : (a.plan.units.map fun unit => groupKey unit.1).Nodup
  clear : ∀ named ∈ listed a.plan, named.Clear
  saves : SavesCheckpoints a.codec a.plan

end Attempt

variable {a : Attempt}

section Growing

def Past.Grows (run more : Past) : Prop :=
  more.client = run.client ∧ more.options = run.options ∧ run.log.Sublist more.log

theorem grows_refl (run : Past) : run.Grows run := ⟨rfl,rfl,List.Sublist.refl run.log⟩

theorem grows_target {run more : Past} (grows : run.Grows more) (database : Option String) :
    more.target database = run.target database := by
  unfold Past.target
  rw [grows.1,grows.2.1]

theorem loaded_mono {codec : Codec} {store : Nat} {manifest : Manifest} {unit : RestoreUnit} {run more : Past}
    (grows : run.Grows more) (loaded : Loaded codec store manifest unit run) :
    Loaded codec store manifest unit more := by
  obtain ⟨events,parts,inside⟩ := loaded
  unfold Loaded
  rw [grows_target grows]
  exact ⟨events,parts,inside.trans grows.2.2⟩

theorem created_mono {view : ViewArtifact} {run more : Past} (grows : run.Grows more)
    (created : Created view run) :
    Created view more := by
  unfold Created
  rw [grows_target grows]
  exact grows.2.2.subset created

theorem done_mono {codec : Codec} {store : Nat} {plan : Plan} {past more : List Past} {id : String}
    (grows : ∀ run ∈ past, ∃ longer ∈ more, run.Grows longer) (ended : Done codec store plan past id) :
    Done codec store plan more id := by
  constructor
  · intro unit member named
    obtain ⟨run,listed,loaded⟩ := ended.1 unit member named
    obtain ⟨longer,later,grown⟩ := grows run listed
    exact ⟨longer,later,loaded_mono grown loaded⟩
  · intro view member named
    obtain ⟨other,listed,database,name,run,present,created⟩ := ended.2 view member named
    obtain ⟨longer,later,grown⟩ := grows run present
    exact ⟨other,listed,database,name,longer,later,created_mono grown created⟩

theorem sound_mono {codec : Codec} {store : Nat} {plan : Plan} {past more : List Past}
    {checkpoint : RestoreCheckpoint}
    (grows : ∀ run ∈ past, ∃ longer ∈ more, run.Grows longer) (sound : Sound codec store plan past checkpoint) :
    Sound codec store plan more checkpoint :=
  ⟨sound.fingerprint,sound.distinct,sound.known,fun id member => done_mono grows (sound.finished id member)⟩

theorem runs_note (w : World) (event : Event) : ∀ run ∈ a.runs w, ∃ longer ∈ a.runs (w.note event),
    run.Grows longer := by
  intro run member
  rcases List.mem_append.mp member with earlier | last
  · exact ⟨run,List.mem_append_left _ earlier,grows_refl run⟩
  · rw [List.mem_singleton.mp last]
    exact ⟨a.here (w.note event),List.mem_append_right _ (List.mem_singleton.mpr rfl),rfl,rfl,
      List.sublist_append_left _ _⟩

theorem held_note {w : World} (held : a.Held w) {event : Event}
    (allowed : ∀ database request accepted, event = .sent database request accepted →
      Issued a.client a.options a.plan a.recorded database request) : a.Held (w.note event) := by
  refine ⟨held.same,fun checkpoint stored => sound_mono (runs_note w event) (held.sound checkpoint stored),?_⟩
  intro database request accepted member
  rcases List.mem_append.mp member with earlier | last
  · exact held.issued database request accepted earlier
  · exact allowed database request accepted (List.mem_singleton.mp last).symm

theorem held_read {w : World} (held : a.Held w) (object : ObjectRef) (bytes : Bytes) :
    a.Held (w.note (.read object bytes)) :=
  held_note held fun _ _ _ same => by cases same

theorem held_sent {w : World} (held : a.Held w) {database : String} {request : Request}
    (allowed : Issued a.client a.options a.plan a.recorded database request) (accepted : Bool) :
    a.Held (w.note (.sent database request accepted)) := by
  apply held_note held
  intro _ _ _ same
  cases same
  exact allowed

theorem working_read {checkpoint : RestoreCheckpoint} {w : World} (working : a.Working checkpoint w)
    (object : ObjectRef)
    (bytes : Bytes) : a.Working checkpoint (w.note (.read object bytes)) :=
  ⟨held_read working.held object bytes,sound_mono (runs_note w _) working.current,working.resumed⟩

theorem working_sent {checkpoint : RestoreCheckpoint} {w : World} (working : a.Working checkpoint w)
    {database : String}
    {request : Request} (allowed : Issued a.client a.options a.plan a.recorded database request)
      (accepted : Bool) :
    a.Working checkpoint (w.note (.sent database request accepted)) :=
  ⟨held_sent working.held allowed accepted,sound_mono (runs_note w _) working.current,working.resumed⟩

end Growing

section Recording

theorem pending_new (fits : a.Fits) {checkpoint : RestoreCheckpoint} {id : String}
    (waiting : isDone a.options checkpoint id = false) : id ∉ checkpoint.completed := by
  intro member
  unfold isDone at waiting
  rw [fits.configured,(checkpoint.contains_iff id).mpr member] at waiting
  cases waiting

theorem triple_records (fits : a.Fits) (checkpoint : RestoreCheckpoint) {id : String}
    (fresh : id ∉ checkpoint.completed)
    (known : ∃ named ∈ listed a.plan, named.id = id) :
    Triple a.Answers (fun w => a.Working checkpoint w ∧ Done a.codec a.store a.plan (a.runs w) id)
      (record a.codec a.options checkpoint id) a.Working a.Held a.Held := by
  have after : ∀ w, a.Working checkpoint w ∧ Done a.codec a.store a.plan (a.runs w) id →
      Sound a.codec a.store a.plan (a.runs w) (noted a.options checkpoint id) := by
    intro w holds
    obtain ⟨working,ended⟩ := holds
    have completed : (noted a.options checkpoint id) =
        {checkpoint with completed := checkpoint.completed ++ [id]} := by
      rw [noted,fits.configured]
    rw [completed]
    refine ⟨working.current.fingerprint,?_,?_,?_⟩
    · exact List.Nodup.append working.current.distinct (List.nodup_singleton _)
        (List.disjoint_singleton.mpr fresh)
    · intro other member
      rcases List.mem_append.mp member with earlier | last
      · exact working.current.known other earlier
      · rw [List.mem_singleton.mp last]
        exact known
    · intro other member
      rcases List.mem_append.mp member with earlier | last
      · exact working.current.finished other earlier
      · rw [List.mem_singleton.mp last]
        exact ended
  apply triple_recording
  · intro w _ unconfigured
    rw [fits.configured] at unconfigured
    cases unconfigured
  · intro w object left holds configured leaves
    rw [fits.configured] at configured
    cases configured
    have next := after w holds
    refine ⟨⟨?_,?_,holds.1.held.issued⟩,next,?_⟩
    · intro other unlike
      rw [store_other w unlike]
      exact holds.1.held.same other unlike
    · intro stored found
      unfold persisted at found
      rw [store_same] at found
      rcases leaves with rfl | rfl | ⟨torn,rfl,spoilt⟩
      · exact holds.1.held.sound stored found
      · have whole := fits.saves (noted a.options checkpoint id).completed next.distinct next.known
        rw [← next.fingerprint] at whole
        change (a.codec.checkpointFromJson
          (a.codec.checkpointToJson (noted a.options checkpoint id))).toOption = some stored at found
        rw [whole] at found
        cases found
        exact next
      · change (a.codec.checkpointFromJson torn).toOption = some stored at found
        cases parsed : a.codec.checkpointFromJson torn with
        | ok other => exact absurd parsed (spoilt other)
        | error err => rw [parsed] at found; cases found
    · intro other member
      have kept := holds.1.resumed other member
      rw [noted,fits.configured]
      exact List.mem_append_left _ kept
  · exact fun _ holds => holds.1.held
  · exact fun _ _ working => working.held

end Recording

section Calls
variable {checkpoint : RestoreCheckpoint} {unit : RestoreUnit} {view : ViewArtifact}

theorem unit_issued (fits : a.Fits) {w : World} (working : a.Working checkpoint w)
    (member : unit ∈ a.plan.units)
    (waiting : isDone a.options checkpoint (unitId unit.1) = false) {request : Request}
      (own : UnitRequest unit request) :
    Issued a.client a.options a.plan a.recorded
      (targetClient a.client a.options unit.1.database).database request :=
  .inr (.inl ⟨unit,member,fun earlier => pending_new fits waiting (working.resumed _ earlier),rfl,own⟩)

theorem view_issued (fits : a.Fits) {w : World} (working : a.Working checkpoint w)
    (member : view ∈ a.plan.views)
    (waiting : isDone a.options checkpoint (viewUnitId view) = false) {request : Request}
      (own : ViewRequest view request) :
    Issued a.client a.options a.plan a.recorded
      (targetClient a.client a.options view.database).database request :=
  .inr (.inr ⟨view,member,fun earlier => pending_new fits waiting (working.resumed _ earlier),rfl,own⟩)

theorem triple_collection (fits : a.Fits) (member : unit ∈ a.plan.units)
    (waiting : isDone a.options checkpoint (unitId unit.1) = false) :
    Triple a.Answers (a.Working checkpoint)
      ((targetClient a.client a.options unit.1.database).restoreCollection unit.2.parameters
        [] a.options.overwrite)
      (fun _ => a.Working checkpoint) a.Held a.Held := by
  let target := targetClient a.client a.options unit.1.database
  have sending := @triple_executeOn a.codec a.broken (a.Working checkpoint) target target.database
    (.restoreCollection unit.2.parameters [] a.options.overwrite)
    fun w accepted working =>
    working_sent working (unit_issued fits working member waiting (.inl ⟨_,rfl⟩)) accepted
  exact triple_weaken sending (fun _ working => working) (fun _ _ holds => holds.1)
    (fun _ working => working.held)
    fun _ working => working.held

theorem triple_view (fits : a.Fits) (member : view ∈ a.plan.views)
    (waiting : isDone a.options checkpoint (viewUnitId view) = false) :
    Triple a.Answers (a.Working checkpoint) (restoreView a.client a.options view)
      (fun _ w => a.Working checkpoint w ∧ Created view (a.here w)) a.Held a.Held := by
  have shown := @triple_restoreView a.codec a.broken a.client a.options view (a.Working checkpoint)
    fun w _ accepted working either =>
    working_sent working (view_issued fits working member waiting either) accepted
  exact triple_weaken shown (fun _ working => working) (fun _ _ holds => holds)
    (fun _ working => working.held) fun _ working => working.held

theorem triple_part (fits : a.Fits) (member : unit ∈ a.plan.units)
    (waiting : isDone a.options checkpoint (unitId unit.1) = false) (path : String) (rest : List String) :
    let target := targetClient a.client a.options unit.1.database
    let progress := fun (left : List String) (w : World) => a.Working checkpoint w ∧ ∃ through events,
      through ++ left = unit.1.dataPaths ∧
      PartEvents a.codec a.plan.manifest a.store target.database unit.1.name through events ∧
        events.Sublist w.log
    Triple a.Answers (progress (path :: rest))
      ((readData a.codec a.store a.plan.manifest path).bind fun body => target.restoreData unit.1.name body)
      (fun _ => progress rest) a.Held a.Held := by
  intro target progress
  have held : ∀ left w, progress left w → a.Held w := fun _ _ holds => holds.1.held
  have reading := @triple_lastRead a.codec a.broken (progress (path :: rest)) a.store path
      (compressionOf a.plan.manifest path)
    fun w bytes _ holds => by
      obtain ⟨working,through,events,split,parts,inside⟩ := holds
      exact ⟨working_read working _ bytes,through,events,split,parts,
        inside.trans (List.sublist_append_left _ _)⟩
  apply triple_bind (triple_weaken reading (fun _ holds => holds) (fun _ _ holds => holds) (held _) (held _))
  intro body
  let fetched : World → Prop := fun w => a.Working checkpoint w ∧ ∃ through events bytes,
      through ++ path :: rest = unit.1.dataPaths ∧
    PartEvents a.codec a.plan.manifest a.store target.database unit.1.name through events ∧
    a.codec.decode (compressionOf a.plan.manifest path) bytes = .ok body ∧
      (events ++ [Event.read ⟨a.store,path⟩ bytes]).Sublist w.log
  have sending := @triple_lastAttempt a.codec a.broken fetched target target.database
      (.restoreData unit.1.name body)
    fun w accepted holds => by
      obtain ⟨working,through,events,bytes,split,parts,decoded,inside⟩ := holds
      exact ⟨working_sent working (unit_issued fits working member waiting (.inr (.inl ⟨body,rfl⟩)))
        accepted,through,events,bytes,
        split,parts,decoded,inside.trans (List.sublist_append_left _ _)⟩
  apply triple_weaken sending _ _ (fun _ holds => holds.1.held) fun _ holds => holds.1.held
  · intro w holds
    obtain ⟨before,bytes,⟨working,through,events,split,parts,inside⟩,rfl,-,-,decoded⟩ := holds
    exact ⟨working_read working _ bytes,through,events,bytes,split,parts,decoded,
      inside.append (List.Sublist.refl _)⟩
  · intro _ w holds
    obtain ⟨before,⟨working,through,events,bytes,split,parts,decoded,inside⟩,rfl⟩ := holds
    refine ⟨working_sent working (unit_issued fits working member waiting (.inr (.inl ⟨body,rfl⟩)))
      true,through ++ [path],_,?_,
      parts.snoc decoded,?_⟩
    · rw [List.append_assoc]
      exact split
    · have both := inside.append
          (List.Sublist.refl [Event.sent target.database (.restoreData unit.1.name body) true])
      rw [List.append_assoc] at both
      exact both

theorem indexEvents_append (database name : String) (indexes : List Value) (index : Value) :
    indexEvents database name (indexes ++ [index]) = indexEvents database name indexes ++
      if isImplicit index then [] else [.sent database (.createIndex name index) true] := by
  unfold indexEvents
  by_cases implicit : isImplicit index = true
  · simp [implicit]
  · simp [implicit]

theorem triple_unit (fits : a.Fits) (member : unit ∈ a.plan.units)
    (waiting : isDone a.options checkpoint (unitId unit.1) = false) :
    Triple a.Answers (a.Working checkpoint)
      (loadCollectionData a.codec (targetClient a.client a.options unit.1.database) a.store
        a.plan.manifest unit)
      (fun _ w => a.Working checkpoint w ∧ Loaded a.codec a.store a.plan.manifest unit (a.here w))
        a.Held a.Held := by
  let target := targetClient a.client a.options unit.1.database
  let progress : List String → World → Prop := fun left w => a.Working checkpoint w ∧ ∃ through events,
    through ++ left = unit.1.dataPaths ∧
    PartEvents a.codec a.plan.manifest a.store target.database unit.1.name through events ∧
      events.Sublist w.log
  have loaded : Triple a.Answers (progress unit.1.dataPaths)
      (restoreParts a.codec target a.store a.plan.manifest unit.1.name unit.1.dataPaths)
        (fun _ => progress []) a.Held a.Held := by
    apply triple_restoreParts
    · exact fun path rest => triple_part fits member waiting path rest
    · exact fun _ holds => holds.1.held
  apply triple_bind (triple_weaken loaded
    (fun _ working => ⟨working,[],[],rfl,.nil,List.nil_sublist _⟩) (fun _ _ holds => holds)
    (fun _ held => held) fun _ held => held)
  intro _
  let indexing : List Value → World → Prop := fun left w => a.Working checkpoint w ∧ ∃ events through,
    through ++ left = unit.2.indexes ∧
    PartEvents a.codec a.plan.manifest a.store target.database unit.1.name unit.1.dataPaths events ∧
    (events ++ indexEvents target.database unit.1.name through).Sublist w.log
  have indexed : Triple a.Answers (indexing unit.2.indexes) (createIndexes target unit.1.name unit.2.indexes)
      (fun _ => indexing []) a.Held a.Held := by
    apply triple_createIndexes
    · intro index rest w implicit holds
      obtain ⟨working,events,through,split,parts,inside⟩ := holds
      refine ⟨working,events,through ++ [index],by rw [List.append_assoc]; exact split,parts,?_⟩
      rw [indexEvents_append,if_pos implicit,List.append_nil]
      exact inside
    · intro index rest explicit
      have known : ∀ w, indexing (index :: rest) w →
          Issued a.client a.options a.plan a.recorded target.database (.createIndex unit.1.name index) := by
        intro w holds
        obtain ⟨working,events,through,split,-⟩ := holds
        have present : index ∈ unit.2.indexes := by
          rw [← split]
          exact List.mem_append_right _ List.mem_cons_self
        exact unit_issued fits working member waiting (.inr (.inr ⟨index,present,rfl⟩))
      have sending := @triple_lastAttempt a.codec a.broken (indexing (index :: rest)) target target.database
        (.createIndex unit.1.name index) fun w accepted holds => by
          have allowed := known w holds
          obtain ⟨working,events,through,split,parts,inside⟩ := holds
          exact ⟨working_sent working allowed accepted,events,through,split,parts,
            inside.trans (List.sublist_append_left _ _)⟩
      apply triple_weaken sending (fun _ holds => holds) _ (fun _ holds => holds.1.held)
        fun _ holds => holds.1.held
      intro _ w holds
      obtain ⟨before,indexed,rfl⟩ := holds
      have allowed := known before indexed
      obtain ⟨working,events,through,split,parts,inside⟩ := indexed
      refine ⟨working_sent working allowed true,events,
        through ++ [index],by rw [List.append_assoc]; exact split,parts,?_⟩
      rw [indexEvents_append,if_neg (by simp [explicit]),← List.append_assoc]
      exact inside.append (List.Sublist.refl _)
    · exact fun _ holds => holds.1.held
  apply triple_weaken indexed _ _ (fun _ held => held) fun _ held => held
  · intro w holds
    obtain ⟨working,through,events,split,parts,inside⟩ := holds
    rw [List.append_nil] at split
    rw [split] at parts
    refine ⟨working,events,[],rfl,parts,?_⟩
    simpa [indexEvents] using inside
  · intro _ w holds
    obtain ⟨working,events,through,split,parts,inside⟩ := holds
    rw [List.append_nil] at split
    rw [split] at inside
    exact ⟨working,events,parts,inside⟩

end Calls

section Phases
variable {checkpoint : RestoreCheckpoint} {unit : RestoreUnit} {view : ViewArtifact}

theorem unit_listed {plan : Plan} (member : unit ∈ plan.units) : unitNamed unit ∈ listed plan :=
  List.mem_append_left _ (List.mem_map.mpr ⟨unit,member,rfl⟩)
theorem view_listed {plan : Plan} (member : view ∈ plan.views) : viewNamed view ∈ listed plan :=
  List.mem_append_right _ (List.mem_map.mpr ⟨view,member,rfl⟩)

theorem unit_done (fits : a.Fits) (member : unit ∈ a.plan.units) {w : World}
    (loaded : Loaded a.codec a.store a.plan.manifest unit (a.here w)) :
    Done a.codec a.store a.plan (a.runs w) (unitId unit.1) := by
  have clear := fits.clear _ (unit_listed member)
  constructor
  · intro other present same
    have named : unitNamed other = unitNamed unit := named_inj (fits.clear _ (unit_listed present)) clear same
    have key : groupKey other.1 = groupKey unit.1 := by
      unfold unitNamed at named
      injection named with database name
      rw [groupKey,database,name]
      rfl
    rw [List.inj_on_of_nodup_map fits.keys present member key]
    exact ⟨a.here w,List.mem_append_right _ (List.mem_singleton.mpr rfl),loaded⟩
  · intro other present same
    have named : viewNamed other = unitNamed unit := named_inj (fits.clear _ (view_listed present)) clear same
    cases named

theorem view_done (fits : a.Fits) (member : view ∈ a.plan.views) {w : World}
    (created : Created view (a.here w)) :
    Done a.codec a.store a.plan (a.runs w) (viewUnitId view) := by
  have clear := fits.clear _ (view_listed member)
  constructor
  · intro other present same
    have named : unitNamed other = viewNamed view := named_inj (fits.clear _ (unit_listed present)) clear same
    cases named
  · intro other present same
    have named : viewNamed other = viewNamed view := named_inj (fits.clear _ (view_listed present)) clear same
    unfold viewNamed at named
    injection named with database name
    exact ⟨view,member,database.symm,name.symm,a.here w,
      List.mem_append_right _ (List.mem_singleton.mpr rfl),created⟩

theorem triple_collections (fits : a.Fits) (units : List RestoreUnit)
    (known : ∀ unit ∈ units, unit ∈ a.plan.units) :
    Triple a.Answers (a.Working checkpoint) (createCollections a.client a.options checkpoint units)
      (fun _ => a.Working checkpoint) a.Held a.Held := by
  let inv : List RestoreUnit → World → Prop := fun rest w => a.Working checkpoint w ∧ ∀ unit ∈ rest,
      unit ∈ a.plan.units
  have loop : Triple a.Answers (inv units) (createCollections a.client a.options checkpoint units)
      (fun _ => inv []) a.Held a.Held := by
    apply triple_createCollections
    · exact fun unit rest w _ holds =>
        ⟨holds.1,fun other member => holds.2 other (List.mem_cons_of_mem _ member)⟩
    · intro unit rest waiting
      apply triple_assuming
      intro known
      exact triple_weaken (triple_collection fits (known unit List.mem_cons_self) waiting)
        (fun _ working => working)
        (fun _ _ working => ⟨working,fun other member =>
        known other (List.mem_cons_of_mem _ member)⟩) (fun _ held => held)
        fun _ held => held
    · exact fun _ holds => holds.1.held
  exact triple_weaken loop (fun _ working => ⟨working,known⟩) (fun _ _ holds => holds.1)
    (fun _ held => held) fun _ held => held

theorem triple_views (fits : a.Fits) (views : List ViewArtifact) (known : ∀ view ∈ views, view ∈ a.plan.views)
    (checkpoint : RestoreCheckpoint) (count : Nat) :
    Triple a.Answers (a.Working checkpoint) (restoreViews a.codec a.client a.options views checkpoint count)
      (fun result => a.Working result.1) a.Held a.Held := by
  let inv : List ViewArtifact → RestoreCheckpoint → World → Prop := fun rest reached w =>
    a.Working reached w ∧ ∀ view ∈ rest, view ∈ a.plan.views
  have loop : Triple a.Answers (inv views checkpoint)
      (restoreViews a.codec a.client a.options views checkpoint count)
      (fun result => inv [] result.1) a.Held a.Held := by
    apply triple_restoreViews
    · exact fun view rest reached w _ holds =>
        ⟨holds.1,fun other member => holds.2 other (List.mem_cons_of_mem _ member)⟩
    · intro view rest reached waiting
      apply triple_assuming
      intro known
      have member := known view List.mem_cons_self
      apply triple_bind (triple_view fits member waiting)
      intro _
      apply triple_weaken (triple_records fits reached (pending_new fits waiting)
        ⟨_,view_listed member,rfl⟩) _ _ (fun _ held => held)
        fun _ held => held
      · exact fun w holds => ⟨holds.1,view_done fits member holds.2⟩
      · exact fun _ _ working => ⟨working,fun other later => known other (List.mem_cons_of_mem _ later)⟩
    · exact fun _ _ holds => holds.1.held
  exact triple_weaken loop (fun _ working => ⟨working,known⟩) (fun _ _ holds => holds.1)
    (fun _ held => held) fun _ held => held

theorem triple_data (fits : a.Fits) (reporting : Bool) (units : List RestoreUnit)
    (known : ∀ unit ∈ units, unit ∈ a.plan.units)
    (checkpoint : RestoreCheckpoint) (summary : RestoreSummary) :
    Triple a.Answers (a.Working checkpoint)
      (loadCollections a.codec a.client a.store a.options a.plan.manifest reporting units checkpoint summary)
      (fun result => a.Working result.1) a.Held a.Held := by
  let inv : List RestoreUnit → RestoreCheckpoint → World → Prop := fun rest reached w =>
    a.Working reached w ∧ ∀ unit ∈ rest, unit ∈ a.plan.units
  have loop : Triple a.Answers (inv units checkpoint)
      (loadCollections a.codec a.client a.store a.options a.plan.manifest reporting units checkpoint summary)
      (fun result => inv [] result.1) a.Held a.Held := by
    apply triple_loadCollections
    · exact fun unit rest reached w _ holds =>
        ⟨holds.1,fun other member => holds.2 other (List.mem_cons_of_mem _ member)⟩
    · intro unit rest reached waiting
      apply triple_assuming
      intro known
      have member := known unit List.mem_cons_self
      apply triple_bind (triple_unit fits member waiting)
      intro _
      apply triple_weaken (triple_records fits reached (pending_new fits waiting)
        ⟨_,unit_listed member,rfl⟩) _ _ (fun _ held => held)
        fun _ held => held
      · exact fun w holds => ⟨holds.1,unit_done fits member holds.2⟩
      · exact fun _ _ working => ⟨working,fun other later => known other (List.mem_cons_of_mem _ later)⟩
    · exact fun _ _ _ holds => holds.1.held
  exact triple_weaken loop (fun _ working => ⟨working,known⟩) (fun _ _ holds => holds.1)
    (fun _ held => held) fun _ held => held

theorem working_start (fits : a.Fits) {objects : ObjectRef → Option Bytes} {w : World}
    (same : w.objects = objects) (held : a.Held w)
    (known : a.recorded = recorded a.codec a.object objects)
    (started : Started a.codec a.broken objects a.options a.plan.manifest.fingerprint checkpoint) :
    a.Working checkpoint w := by
  unfold Started at started
  rw [fits.configured] at started
  obtain ⟨-,found⟩ := started
  cases stored : objects a.object with
  | none =>
    rw [stored] at found
    have none_ : a.recorded = [] := by
      rw [known,recorded,persisted,stored]
      rfl
    rw [found]
    exact ⟨held,⟨rfl,List.nodup_nil,fun _ member => (by cases member),fun _ member => (by cases member)⟩,
      fun id member => by rw [none_] at member; cases member⟩
  | some bytes =>
    rw [stored] at found
    have current : persisted a.codec a.object objects = some checkpoint := by
      rw [persisted,stored]
      change (a.codec.checkpointFromJson bytes).toOption = some checkpoint
      rw [found.1]
      rfl
    have all : a.recorded = checkpoint.completed := by
      rw [known,recorded,current]
      rfl
    exact ⟨held,held.sound checkpoint (by rw [same]; exact current),
      fun id member => by rw [all] at member; exact member⟩

theorem triple_restore (fits : a.Fits) {objects : ObjectRef → Option Bytes}
    (planned : Planned a.codec a.broken objects a.store a.plan)
    (known : a.recorded = recorded a.codec a.object objects) (reporting : Bool) :
    Triple a.Answers (fun w => w.objects = objects ∧ a.Held w)
      (runRestoreWithProgress a.codec a.client a.store a.options reporting)
        (fun _ => a.Held) a.Held a.Held := by
  let start : World → Prop := fun w => w.objects = objects ∧ a.Held w
  have held : ∀ w, start w → a.Held w := fun _ holds => holds.2
  have still : ∀ w, start w → w.objects = objects := fun _ holds => holds.1
  have read : ∀ w object bytes, start w → start (w.note (.read object bytes)) :=
    fun _ object bytes holds => ⟨holds.1,held_read holds.2 object bytes⟩
  have created : ∀ w name accepted, start w →
      start (w.note (.sent "_system" (.createDatabase name) accepted)) :=
    fun _ name accepted holds => ⟨holds.1,held_sent holds.2 (.inl ⟨name,rfl⟩) accepted⟩
  apply triple_bind (triple_weaken (triple_readPlan still read) (fun _ holds => holds)
    (fun _ _ holds => holds) held held)
  intro plan
  apply triple_assuming
  intro planned'
  rw [planned_unique planned' planned]
  apply triple_bind (triple_weaken (triple_prepareDatabases created a.plan) (fun _ holds => holds)
    (fun _ _ holds => holds) held held)
  intro _
  apply triple_bind (triple_weaken (triple_initialCheckpoint still read a.plan.manifest.fingerprint)
    (fun _ holds => holds)
    (fun _ _ holds => holds) held held)
  intro checkpoint
  apply triple_assuming
  intro started
  have views : ∀ p : ViewArtifact → Bool, ∀ view ∈ a.plan.views.filter p, view ∈ a.plan.views :=
    fun p view member => (List.mem_filter.mp member).1
  unfold restorePhases
  apply triple_bind (triple_weaken (triple_collections fits a.plan.units fun _ member => member)
    (fun w holds => working_start fits holds.1 holds.2 known started) (fun _ _ working => working)
      (fun _ held => held)
    fun _ held => held)
  intro _
  apply triple_bind (triple_views fits _ (views _) checkpoint 0)
  intro linked
  apply triple_bind (triple_data fits reporting a.plan.units (fun _ member => member) linked.1
    {collections := a.plan.units.length})
  intro loaded
  apply triple_bind (triple_views fits _ (views _) loaded.1 linked.2)
  intro aliased
  exact triple_done (fun _ working => working.held) fun _ working => working.held

end Phases

end ArangoDataTools.RestoreAttempt
