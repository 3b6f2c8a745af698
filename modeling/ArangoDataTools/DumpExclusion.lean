import ArangoDataTools.DumpClaim

namespace ArangoDataTools.DumpExclusion
open Interaction Interaction.Program Dump DumpClaim

-- An object as the destination holds it: its bytes, the run that wrote them
-- (none for an earlier owner) and whether that write ran to its end.
structure Stored (ι : Type) where
  bytes : Bytes
  writer : Option ι
  complete : Bool

abbrev Destination (ι : Type) := ObjectRef → Option (Stored ι)

variable {ι : Type}

-- What the server and the store may answer a run. Each store operation takes
-- effect at one instant; a failed one may have had its effect, and a failed
-- write may leave any beginning of its body. Only a conditional create that
-- finds nothing creates.
inductive Answers (i : ι) : (op : Op) → Destination ι → op.Answer → Destination ι → Prop where
  | send {request : Request} (answer : Except Error request.Response) :
      Answers i (.send database request) w answer w
  | emit : Answers i (.emit event) w () w
  | count : Answers i (.count counter) w () w
  | head : Answers i (.head object) w (.ok ((w object).map fun stored => stored.bytes.length)) w
  | headFailed : Answers i (.head object) w (.error err) w
  | get (held : w object = some stored) : Answers i (.get object) w (.ok stored.bytes) w
  | getFailed : Answers i (.get object) w (.error err) w
  | put : Answers i (.putStream object body) w (.ok body.length)
      (Function.update w object (some ⟨body,some i,true⟩))
  | putFailed : Answers i (.putStream object body) w (.error err) w
  | putTorn : Answers i (.putStream object body) w (.error err)
      (Function.update w object (some ⟨body.take received,some i,false⟩))
  | abort : Answers i (.abortPut object body) w () w
  | abortTorn : Answers i (.abortPut object body) w ()
      (Function.update w object (some ⟨body.take received,some i,false⟩))
  | create (absent : w object = none) : Answers i (.putIfAbsent object body) w (.ok body.length)
      (Function.update w object (some ⟨body,some i,true⟩))
  | present (held : w object ≠ none) : Answers i (.putIfAbsent object body) w
      (.error (.alreadyExists object.path)) w
  | createFailed : Answers i (.putIfAbsent object body) w (.error err) w
  | createTorn (absent : w object = none) : Answers i (.putIfAbsent object body) w (.error err)
      (Function.update w object (some ⟨body.take received,some i,false⟩))
  | delete : Answers i (.delete object) w (.ok ()) (Function.update w object none)
  | deleteFailed : Answers i (.delete object) w (.error err) w
  | deleteLost : Answers i (.delete object) w (.error err) (Function.update w object none)
  | pass : Answers i (.pass item) w false w

-- A single server with one inventory and no documents, and a store without
-- failures: one way of answering the run `i`.
def serving (i : ι) (inventory : Inventory) : Handler Op Op.Answer (Destination ι)
  | .send _ .serverRole, w => (.ok .single,w)
  | .send _ (.replicationBatchCreate _), w => (.ok "1",w)
  | .send _ (.replicationInventory _ _), w => (.ok inventory,w)
  | .send _ (.replicationBatchExtend _ _), w => (.ok (),w)
  | .send _ (.replicationBatchDelete _), w => (.ok (),w)
  | .send _ (.replicationDumpChunk _ _ _ _), w => (.ok ⟨[],0,false⟩,w)
  | .head object, w => (.ok ((w object).map fun stored => stored.bytes.length),w)
  | .putStream object body, w => (.ok body.length,Function.update w object (some ⟨body,some i,true⟩))
  | .putIfAbsent object body, w => match w object with
    | none => (.ok body.length,Function.update w object (some ⟨body,some i,true⟩))
    | some _ => (.error (.alreadyExists object.path),w)
  | .delete object, w => (.ok (),Function.update w object none)
  | op, w => (op.refuse,w)

theorem serving_answers (i : ι) (inventory : Inventory) (op : Op) (w : Destination ι) :
    Answers i op w (serving i inventory op w).1 (serving i inventory op w).2 := by
  cases op with
  | send database request => cases request <;> exact .send _
  | head object => exact .head
  | get object => exact .getFailed
  | putStream object body => exact .put
  | abortPut object received => exact .abort
  | putIfAbsent object body =>
    cases held : w object with
    | none =>
      simp only [serving,held]
      exact .create held
    | some stored =>
      simp only [serving,held]
      exact .present (by rw [held]; simp)
  | delete object => exact .delete
  | emit event => exact .emit
  | count counter => exact .count
  | pass item => exact .pass

section Effects
variable {codec : Codec} {store : Nat} {w w' : Destination ι} {i : ι} {op : Op} {answer : op.Answer} {q : Phase}

theorem idle_unchanged (permitted : permits codec store q op) (answered : Answers i op w answer w')
    (idle : ¬ q.Holding)
    (locked : w (lockAt store) ≠ none) : w' = w := by
  cases q with
  | claimed written => exact absurd trivial idle
  | landed => exact absurd trivial idle
  | spent => exact absurd trivial idle
  | released => cases answered <;> first | rfl | exact permitted.elim
  | outside =>
    cases answered with
    | create absent => rw [permitted] at absent; exact absurd absent locked
    | createTorn absent => rw [permitted] at absent; exact absurd absent locked
    | _ => first | rfl | exact permitted.elim

theorem claim_taken (permitted : permits codec store q op) (answered : Answers i op w answer w')
    (idle : ¬ q.Holding)
    (holding : (advance q op answer).Holding) :
    q = .outside ∧ w (lockAt store) = none ∧ advance q op answer = .claimed [] ∧
      ∃ stored, w' = Function.update w (lockAt store) (some stored) := by
  cases q with
  | claimed written => exact absurd trivial idle
  | landed => exact absurd trivial idle
  | spent => exact absurd trivial idle
  | released => cases answered <;> exact holding.elim
  | outside =>
    cases answered with
    | create absent =>
      rw [permitted] at absent ⊢
      exact ⟨rfl,absent,rfl,_,rfl⟩
    | _ => exact holding.elim

theorem lock_not_artifact {object : ObjectRef} (artifact : IsArtifact store object) :
    lockAt store ≠ object := by
  intro equal
  exact artifact.2.1 (by rw [← equal]; rfl)

theorem manifest_not_artifact {object : ObjectRef} (artifact : IsArtifact store object) :
    manifestAt store ≠ object := by
  intro equal
  exact artifact.2.2 (by rw [← equal]; rfl)

theorem lock_not_manifest (store : Nat) : lockAt store ≠ manifestAt store := by
  simp [lockAt,manifestAt,dumpLockName,manifestName]

-- What a holder writes is an artifact or the manifest, so it keeps its lock
-- until it gives it back.
theorem holder_keeps_lock (permitted : permits codec store q op)
    (answered : Answers i op w answer w') (holding : q.Holding)
    (still : (advance q op answer).Holding) : w' (lockAt store) = w (lockAt store) := by
  have kept : ∀ object stored, (IsArtifact store object ∨ object = manifestAt store) →
      Function.update w object stored (lockAt store) = w (lockAt store) := by
    intro object stored target
    apply Function.update_of_ne
    rcases target with artifact | rfl
    · exact lock_not_artifact artifact
    · exact lock_not_manifest store
  cases q with
  | outside => exact holding.elim
  | released => exact holding.elim
  | claimed written =>
    cases answered with
    | put => exact kept _ _ (permitted.imp id And.left)
    | putTorn => exact kept _ _ (permitted.imp id And.left)
    | abortTorn => exact kept _ _ (.inl permitted)
    | _ => first | rfl | exact permitted.elim
  | landed => cases answered <;> first | rfl | exact permitted.elim | exact still.elim
  | spent => cases answered <;> first | rfl | exact permitted.elim

end Effects

structure Run where
  client : Client
  options : DumpOptions
  reporting : Bool := false

section Runs
variable [DecidableEq ι] (codec : Codec) (store : Nat) (runs : ι → Run)

abbrev Dumps (ι : Type) := Pool ι Op Op.Answer Error Manifest (Destination ι) Phase

def Run.program (run : Run) : Tool Manifest :=
  runDumpWithProgress codec run.client store run.options run.reporting

-- All runs before their first step, the destination in any state.
def initial (w : Destination ι) : Dumps ι := ⟨fun i => (runs i).program codec store,fun _ => .outside,w⟩

def Step : Dumps ι → Event ι Op Op.Answer → Dumps ι → Prop :=
  PoolStep (fun i op w answer w' => Answers i op w answer w') (protocol codec store)

def Reached (allowed : Dumps ι → Event ι Op Op.Answer → Prop) : Dumps ι → Dumps ι → Prop :=
  PoolReached (fun i op w answer w' => Answers i op w answer w') (protocol codec store) allowed

def anyStep : Dumps ι → Event ι Op Op.Answer → Prop := fun _ _ => True

structure Exclusive (s : Dumps ι) : Prop where
  sole : ∀ i j, (s.phases i).Holding → (s.phases j).Holding → i = j
  locked : ∀ i, (s.phases i).Holding → s.world (lockAt store) ≠ none

variable {codec store runs}

omit [DecidableEq ι] in
theorem initial_following (kept : ∀ i, (runs i).options.overwrite = false) (w : Destination ι) :
    Following (protocol codec store) (initial codec store runs w) :=
  fun i => runDump_follows (runs i).client (runs i).reporting (kept i)

omit [DecidableEq ι] in
theorem initial_exclusive (w : Destination ι) : Exclusive store (initial codec store runs w) :=
  ⟨fun _ _ holding => holding.elim,fun _ holding => holding.elim⟩

theorem exclusive_step {s next : Dumps ι} (following : Following (protocol codec store) s)
    (exclusive : Exclusive store s)
    (step : Step codec store s event next) : Exclusive store next := by
  cases step with
  | stop head => exact ⟨exclusive.sole,exclusive.locked⟩
  | @call i op rest answer w head answered =>
    have permitted : permits codec store (s.phases i) op := following_permits following head
    have others : ∀ j, j ≠ i →
        Function.update s.phases i ((protocol codec store).advance (s.phases i) op answer) j =
      s.phases j := fun j differs => Function.update_of_ne differs _ _
    have own : Function.update s.phases i ((protocol codec store).advance (s.phases i) op answer) i =
      advance (s.phases i) op answer := Function.update_self _ _ _
    by_cases held : (s.phases i).Holding
    · -- the holder stays the only one, and its lock stays until it lets go
      have absent : ∀ j, j ≠ i → ¬ (s.phases j).Holding :=
        fun j differs other => differs (exclusive.sole j i other held)
      constructor
      · intro j k one two
        by_cases first : j = i
        · by_cases second : k = i
          · rw [first,second]
          · exact absurd (by simpa only [others k second] using two) (absent k second)
        · exact absurd (by simpa only [others j first] using one) (absent j first)
      · intro j holding
        by_cases equal : j = i
        · subst j
          simp only [own] at holding
          simp only [holder_keeps_lock permitted answered held holding]
          exact exclusive.locked i held
        · exact absurd (by simpa only [others j equal] using holding) (absent j equal)
    · by_cases taken : (advance (s.phases i) op answer).Holding
      · obtain ⟨_,free,_,stored,written⟩ := claim_taken permitted answered held taken
        have nobody : ∀ j, ¬ (s.phases j).Holding := fun j holding => exclusive.locked j holding free
        constructor
        · intro j k one two
          by_cases first : j = i
          · by_cases second : k = i
            · rw [first,second]
            · exact absurd (by simpa only [others k second] using two) (nobody k)
          · exact absurd (by simpa only [others j first] using one) (nobody j)
        · intro j _
          simp [written]
      · have elsewhere : ∀ j, (Function.update s.phases i
            ((protocol codec store).advance (s.phases i) op answer) j).Holding →
            j ≠ i ∧ (s.phases j).Holding := by
          intro j holding
          by_cases equal : j = i
          · subst j
            exact absurd (by simpa only [own] using holding) taken
          · exact ⟨equal,by simpa only [others j equal] using holding⟩
        constructor
        · intro j k one two
          exact exclusive.sole j k (elsewhere j one).2 (elsewhere k two).2
        · intro j holding
          have locked := exclusive.locked j (elsewhere j holding).2
          rw [idle_unchanged permitted answered held locked]
          exact locked

theorem reached_exclusive {allowed : Dumps ι → Event ι Op Op.Answer → Prop} {s : Dumps ι}
    (kept : ∀ i, (runs i).options.overwrite = false) (w : Destination ι)
    (path : Reached codec store allowed (initial codec store runs w) s) :
    Following (protocol codec store) s ∧ Exclusive store s := by
  refine ⟨following_reached (initial_following kept w) path,?_⟩
  apply pool_invariant (initial_exclusive w) (initial_following kept w) _ path
  intro s event next following exclusive _ step
  exact exclusive_step following exclusive step

variable (store) in
structure Frozen (i : ι) (error : Error) (w : Destination ι) (s : Dumps ι) : Prop where
  failed : s.threads i = .fail error
  holding : (s.phases i).Holding
  exclusive : Exclusive store s
  unchanged : s.world = w

theorem frozen_step {i : ι} {s next : Dumps ι} (following : Following (protocol codec store) s)
    (frozen : Frozen store i error w s) (step : Step codec store s event next) :
    Frozen store i error w next := by
  have exclusive := exclusive_step following frozen.exclusive step
  obtain ⟨failed,holding,before,unchanged⟩ := frozen
  cases step with
  | @stop j op rest reason head =>
    have other : i ≠ j := by
      intro equal
      subst equal
      rw [failed] at head
      cases head
    exact ⟨by simpa [Function.update_of_ne other] using failed,holding,exclusive,unchanged⟩
  | @call j op rest answer w head answered =>
    have other : i ≠ j := by
      intro equal
      subst equal
      rw [failed] at head
      cases head
    have idle : ¬ (s.phases j).Holding := fun active => other (before.sole i j holding active)
    have same := idle_unchanged (following_permits following head) answered idle (before.locked i holding)
    refine ⟨by simpa [Function.update_of_ne other] using failed,?_,exclusive,same.trans unchanged⟩
    simpa [Function.update_of_ne other] using holding

theorem frozen_reached {allowed : Dumps ι → Event ι Op Op.Answer → Prop} {i : ι} {s later : Dumps ι}
    (following : Following (protocol codec store) s) (frozen : Frozen store i error w s)
    (path : Reached codec store allowed s later) : Frozen store i error w later := by
  apply pool_invariant frozen following _ path
  intro s event next following frozen _ step
  exact frozen_step following frozen step

-- The object an operation may change.
def touched : Op → Option ObjectRef
  | .putStream object _ | .abortPut object _ | .putIfAbsent object _ | .delete object => some object
  | _ => none

omit [DecidableEq ι] in
theorem answers_frame {w w' : Destination ι} {i : ι} {op : Op} {answer : op.Answer}
    (answered : Answers i op w answer w')
    (changed : w' object ≠ w object) : touched op = some object := by
  have only : ∀ target stored, Function.update w target stored object ≠ w object →
      some target = some object := by
    intro target stored differs
    by_cases equal : object = target
    · rw [equal]
    · exact absurd (Function.update_of_ne equal _ _) differs
  cases answered with
  | put => exact only _ _ changed
  | putTorn => exact only _ _ changed
  | abortTorn => exact only _ _ changed
  | create absent => exact only _ _ changed
  | createTorn absent => exact only _ _ changed
  | delete => exact only _ _ changed
  | deleteLost => exact only _ _ changed
  | _ => exact absurd rfl changed

theorem writer_holds {q : Phase} (permitted : permits codec store q op) (writes : touched op = some object)
    (beyond : object ≠ lockAt store) : q.Holding := by
  cases q with
  | claimed written => trivial
  | landed => trivial
  | spent => trivial
  | released => cases op <;> first | exact permitted.elim | cases writes
  | outside =>
    cases op with
    | putIfAbsent target body =>
      cases writes
      exact absurd permitted beyond
    | _ => first | exact permitted.elim | cases writes

-- One holder at a time; an object other than the lock changes only through an
-- operation of that holder; a failed holder blocks the destination for good.
theorem dumps_exclude_each_other {s : Dumps ι} (kept : ∀ i, (runs i).options.overwrite = false)
    (w : Destination ι)
    (path : Reached codec store anyStep (initial codec store runs w) s) :
    (∀ i j, (s.phases i).Holding → (s.phases j).Holding → i = j) ∧
    (∀ i op answer next object, Step codec store s (.call i op answer) next → touched op = some object →
      object ≠ lockAt store → (s.phases i).Holding) ∧
    (∀ event next object, Step codec store s event next → next.world object ≠ s.world object →
      ∃ i op answer, event = .call i op answer ∧ touched op = some object) ∧
    (∀ i error, s.threads i = .fail error → (s.phases i).Holding →
      ∀ later, Reached codec store anyStep s later → later.world = s.world) := by
  obtain ⟨following,exclusive⟩ := reached_exclusive kept w path
  refine ⟨exclusive.sole,?_,?_,?_⟩
  · intro i op answer next object step writes beyond
    cases step with
    | call head answered => exact writer_holds (following_permits following head) writes beyond
  · intro event next object step changed
    cases step with
    | stop head => exact absurd rfl changed
    | call head answered => exact ⟨_,_,_,rfl,answers_frame answered changed⟩
  · intro i error failed holding later path
    exact (frozen_reached following ⟨failed,holding,exclusive,rfl⟩ path).unchanged

end Runs

def prettyField : String × Value → String
  | (key,.string value) => "  \"" ++ key ++ "\": \"" ++ value ++ "\""
  | (key,_) => "  \"" ++ key ++ "\": null"

def prettyObject : Value → Bytes
  | .object entries => asciiBytes ("\x7b\n" ++ ",\n".intercalate (entries.map prettyField) ++ "\n\x7d")
  | _ => asciiBytes "null"

def sampleView (kind : String) : Value := .object [("name",.string "v"),("type",.string kind)]

def sampleArtifact : Artifact :=
  {path := "v.view.json",kind := .view,
    format := .json,byteSize := (prettyObject (sampleView "arangosearch")).length,
   view := some "v"}
def sampleManifest : Manifest := (Manifest.new "shop" "0.1.0" "2026-06-01T00:00:00Z").push sampleArtifact

def sampleText : Bytes := asciiBytes ("\x7b" ++ "\n".intercalate ["","  \"manifest_version\": 1,",
  "  \"tool_version\": \"0.1.0\",","  \"created_at\": \"2026-06-01T00:00:00Z\",","  \"database\": \"shop\",",
  "  \"encryption\": \x7b","    \"algorithm\": \"none\"","  \x7d,","  \"artifacts\": [","    \x7b",
  "      \"path\": \"v.view.json\",","      \"kind\": \"view\",","      \"format\": \"json\",",
  "      \"compression\": \"none\",","      \"byte_size\": 43,","      \"view\": \"v\"","    \x7d",
    "  ]","\x7d"])

theorem asciiBytes_open (rest : String) : asciiBytes ("\x7b" ++ rest) ≠ [] := by simp [asciiBytes]
theorem sampleText_some : sampleText ≠ [] := asciiBytes_open _

def sampleCodec : Codec where
  toVecPretty := prettyObject
  fromSlice _ := .error (.serialization "expected value at line 1 column 1")
  manifestToJson manifest := if manifest = sampleManifest then sampleText else []
  manifestFromJson bytes := if bytes = sampleText ∧ bytes ≠ [] then .ok sampleManifest
    else .error (.serialization "EOF while parsing a value at line 1 column 0")
  checkpointToJson _ := []
  checkpointFromJson _ := .error (.serialization "EOF while parsing a value at line 1 column 0")
  encode _ bytes := bytes
  decode _ bytes := .ok bytes
  sha256 _ := []

def sampleRun (_ : Bool) : Run :=
  ⟨{database := "shop"},{toolVersion := "0.1.0",createdAt := "2026-06-01T00:00:00Z",database := "shop"},false⟩

def sampleClaimed : Dumps Bool :=
  (initial sampleCodec 0 sampleRun fun _ => none).alone (protocol sampleCodec 0) (serving false {}) false 3

def sampleFailed : Dumps Bool :=
  {sampleClaimed with threads := Function.update sampleClaimed.threads false (.fail .cancelled)}

theorem sampleFailed_reached :
    Reached sampleCodec 0 anyStep (initial sampleCodec 0 sampleRun fun _ => none) sampleFailed :=
  .step (pool_alone (serving_answers false {}) (fun _ _ _ => trivial) 3 _) trivial (.stop rfl)

theorem failed_dump_blocks_destination :
    (sampleFailed.phases false).Holding ∧ sampleFailed.threads false = .fail .cancelled ∧
    (∀ i j, (sampleFailed.phases i).Holding → (sampleFailed.phases j).Holding → i = j) ∧
    ∀ later, Reached sampleCodec 0 anyStep sampleFailed later → later.world = sampleFailed.world := by
  have excluded := dumps_exclude_each_other (fun _ => rfl) _ sampleFailed_reached
  have failed : sampleFailed.threads false = .fail .cancelled := rfl
  have holding : (sampleFailed.phases false).Holding := trivial
  exact ⟨holding,failed,excluded.1,excluded.2.2.2 false .cancelled failed holding⟩

end ArangoDataTools.DumpExclusion
