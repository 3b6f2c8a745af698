import ArangoDataTools.Dump
import ArangoDataTools.Interleaving

namespace ArangoDataTools.DumpClaim
open Interaction Interaction.Program Dump

def lockAt (store : Nat) : ObjectRef := ⟨store,dumpLockName⟩
def manifestAt (store : Nat) : ObjectRef := ⟨store,manifestName⟩

-- Where one dump stands with the destination. `written` are the artifacts
-- whose writes have completed; `spent` is a claim whose last write failed.
inductive Phase where
  | outside
  | claimed (written : List String)
  | landed
  | spent
  | released
  deriving DecidableEq, Repr

def Phase.Holding : Phase → Prop
  | claimed _ | landed | spent => True
  | outside | released => False

def IsArtifact (store : Nat) (object : ObjectRef) : Prop :=
  object.store = store ∧ object.path ≠ dumpLockName ∧ object.path ≠ manifestName

section Protocol
variable (codec : Codec) (store : Nat)

-- What a run without `--overwrite` may do in each phase.
def permits : Phase → Op → Prop
  | _, .send _ _ | _, .emit _ | _, .count _ => True
  | .outside, .head _ => True
  | .outside, .putIfAbsent object _ => object = lockAt store
  | .claimed written, .putStream object body => IsArtifact store object ∨
      object = manifestAt store ∧ ∃ manifest : Manifest, body = codec.manifestToJson manifest ∧
        ∀ artifact ∈ manifest.artifacts, artifact.path ∈ written
  | .claimed _, .abortPut object _ => IsArtifact store object
  | .landed, .delete object => object = lockAt store
  | _, _ => False

def advance (q : Phase) (op : Op) (answer : op.Answer) : Phase :=
  match q, op, answer with
  | .outside, .putIfAbsent _ _, .ok _ => .claimed []
  | .claimed written, .putStream object _, .ok _ =>
    if object.path = manifestName then .landed else .claimed (written ++ [object.path])
  | .claimed _, .putStream _ _, .error _ => .spent
  | .claimed _, .abortPut _ _, _ => .spent
  | .landed, .delete _, _ => .released
  | q, _, _ => q

def protocol : Protocol Op Op.Answer Phase := ⟨permits codec store,advance⟩

abbrev Quiet (p : Tool α) : Prop := ∀ q, Follows (protocol codec store) (fun _ after => after = q) p q

variable {codec store}

theorem quiet_done (value : α) : Quiet codec store (done value) := fun _ => rfl
theorem quiet_fail (error : Error) : Quiet codec store (fail error : Tool α) := fun _ => rfl

theorem quiet_bind {p : Tool α} {f : α → Tool β} (first : Quiet codec store p)
    (rest : ∀ value, Quiet codec store (f value)) :
    Quiet codec store (p.bind f) := by
  intro q
  apply follows_seq (first q)
  · intro value after equal
    subst equal
    exact rest value after
  · intro error after equal
    exact equal

theorem quiet_attempt {p : Tool α} (quiet : Quiet codec store p) : Quiet codec store (attempt p) :=
  fun q => follows_attempt (follows_mono (fun _ _ equal => equal) (quiet q))

theorem quiet_count (counter : Counter) : Quiet codec store (ask (.count counter)) := by
  intro q
  cases q <;> exact ⟨trivial,fun _ => rfl⟩

theorem quiet_emit (event : ProgressEvent) : Quiet codec store (emit event) := by
  intro q
  cases q <;> exact ⟨trivial,fun _ => rfl⟩

theorem quiet_send (database : String) (request : Request) :
    Quiet codec store (ask (.send database request)) := by
  intro q
  cases q <;> exact ⟨trivial,fun _ => rfl⟩

theorem quiet_record (policy : RetryPolicy) (counter : Counter) :
    Quiet codec store (policy.record (fun counter => ask (.count counter)) counter) := by
  unfold RetryPolicy.record
  split
  · exact quiet_count counter
  · exact quiet_done ()

theorem quiet_recordFailure (policy : RetryPolicy) (err : Error) :
    Quiet codec store (policy.recordFailure (fun counter => ask (.count counter)) err) := by
  unfold RetryPolicy.recordFailure
  split
  · exact quiet_record policy .serverErrors
  · exact quiet_done ()

theorem quiet_retryLoop (policy : RetryPolicy) {op : Tool (Except Error α)}
    (quiet : Quiet codec store op) (left : Nat) :
    Quiet codec store (retryLoop policy (fun counter => ask (.count counter)) op left) := by
  induction left with
  | zero =>
    unfold retryLoop
    apply quiet_bind quiet
    intro result
    cases result with
    | ok value => exact quiet_done value
    | error err => exact quiet_bind (quiet_recordFailure policy err) fun _ => quiet_fail err
  | succ left ih =>
    unfold retryLoop
    apply quiet_bind quiet
    intro result
    cases result with
    | ok value => exact quiet_done value
    | error err =>
      apply quiet_bind (quiet_recordFailure policy err)
      intro _
      by_cases transient : err.isRetryable
      · rw [if_pos transient]
        exact quiet_bind (quiet_record policy .retries) fun _ => ih
      · rw [if_neg transient]
        exact quiet_fail err

theorem quiet_executeOn (client : Client) (database : String) (request : Request) :
    Quiet codec store (client.executeOn database request) :=
  quiet_retryLoop client.retry (quiet_send database request) _

theorem quiet_tolerating (status : Nat) {request : Tool Unit} (quiet : Quiet codec store request) :
    Quiet codec store (Client.tolerating status request) := by
  unfold Client.tolerating
  apply quiet_bind (quiet_attempt quiet)
  intro result
  cases result with
  | ok value => exact quiet_done ()
  | error err =>
    cases err with
    | http code message context =>
      simp only
      split
      · exact quiet_done ()
      · exact quiet_fail _
    | _ => exact quiet_fail _

theorem quiet_warn (reporting : Bool) (message : String) : Quiet codec store (warn reporting message) := by
  cases reporting with
  | false => exact quiet_done ()
  | true => exact quiet_emit _

theorem quiet_batchDelete (client : Client) (batch : String) :
    Quiet codec store (client.replicationBatchDelete batch) :=
  quiet_tolerating 404 (quiet_executeOn client client.database _)

theorem quiet_preflight (client : Client) (reporting : Bool) :
    Quiet codec store (preflightTopology client reporting) := by
  unfold preflightTopology
  apply quiet_bind (quiet_attempt (quiet_executeOn client "_system" .serverRole))
  intro result
  cases result with
  | ok role =>
    cases cluster : role.isCluster with
    | true => simpa [cluster] using quiet_fail _
    | false => simpa [cluster] using quiet_done ()
  | error err => exact quiet_warn reporting _

theorem quiet_dataStream (client : Client) (collection batch : String) (chunkSize : Nat) (fromTick : UInt64)
    (read : List Bytes) : Quiet codec store
      (dumpDataStream client collection batch chunkSize fromTick read) := by
  fun_induction dumpDataStream client collection batch chunkSize fromTick read with
  | case1 fromTick read ih =>
    apply quiet_bind (quiet_attempt (quiet_executeOn client client.database _))
    intro result
    cases result with
    | error err => exact quiet_done _
    | ok chunk =>
      simp only
      split
      · rename_i advances
        exact ih chunk advances
      · exact quiet_done _

theorem quiet_collectionDone (progress : DumpProgress) (bytes : Nat) :
    Quiet codec store (progress.collectionDone bytes) := by
  unfold DumpProgress.collectionDone
  cases progress.reporting with
  | false => exact quiet_done _
  | true => exact quiet_bind (quiet_emit _) fun _ => quiet_done _

theorem follows_quiet {p : Tool α} {f : α → Tool β} {post : Except Error β → Phase → Prop} {q : Phase}
    (quiet : Quiet codec store p) (rest : ∀ value, Follows (protocol codec store) post (f value) q)
    (failed : ∀ error, post (.error error) q) : Follows (protocol codec store) post (p.bind f) q := by
  apply follows_seq (quiet q)
  · intro value after equal
    subst equal
    exact rest value
  · intro error after equal
    subst equal
    exact failed error

def Covered (manifest : Manifest) (q : Phase) : Prop :=
  ∃ written, q = .claimed written ∧ ∀ artifact ∈ manifest.artifacts, artifact.path ∈ written

def Wrote (listed : α → Manifest) : Except Error α → Phase → Prop
  | .ok value, q => Covered (listed value) q
  | .error _, _ => True

theorem follows_put {manifest : Manifest} {path : String} {q : Phase} {f : Nat → Tool β}
    {post : Except Error β → Phase → Prop} (covered : Covered manifest q) (plain : path ≠ manifestName)
    (other : path ≠ dumpLockName) (failed : ∀ err q, post (.error err) q)
    (rest : ∀ size q, (∀ artifact : Artifact, artifact.path = path → Covered (manifest.push artifact) q) →
      Follows (protocol codec store) post (f size) q) :
    Follows (protocol codec store) post (((⟨store,path⟩ : ObjectRef).putStream body).bind f) q := by
  obtain ⟨written,rfl,listed⟩ := covered
  refine ⟨.inl ⟨rfl,other,plain⟩,?_⟩
  intro answer
  cases answer with
  | error err => exact failed err _
  | ok size =>
    apply rest size
    intro artifact equal
    refine ⟨written ++ [path],by simp [protocol,advance,plain],?_⟩
    intro entry present
    rw [Manifest.push_artifacts] at present
    rcases List.mem_append.mp present with earlier | last
    · exact List.mem_append.mpr (.inl (listed entry earlier))
    · rw [List.mem_singleton.mp last,equal]
      simp

theorem append_ne {suffix whole : String} (front : String) (differs : ¬ suffix.toList <:+ whole.toList) :
    front ++ suffix ≠ whole := by
  intro equal
  apply differs
  rw [← equal,String.toList_append]
  exact List.suffix_append _ _

theorem structurePath_plain (target : Target) (name : String) :
    structurePath target name ≠ manifestName ∧ structurePath target name ≠ dumpLockName :=
  ⟨append_ne _ (by decide),append_ne _ (by decide)⟩

theorem viewPath_plain (target : Target) (name : String) :
    viewPath target name ≠ manifestName ∧ viewPath target name ≠ dumpLockName :=
  ⟨append_ne _ (by decide),append_ne _ (by decide)⟩

theorem dataPath_plain (target : Target) (compression : Compression) (name : String) :
    dataPath target compression name ≠ manifestName ∧ dataPath target compression name ≠ dumpLockName := by
  cases compression with
  | none => exact ⟨append_ne _ (by decide),append_ne _ (by decide)⟩
  | gzip => exact ⟨append_ne _ (by decide),append_ne _ (by decide)⟩
  | zstd => exact ⟨append_ne _ (by decide),append_ne _ (by decide)⟩

theorem structure_follows {target : Target} {manifest : Manifest} {q : Phase}
    (here : target.store = store) (name : String)
    (collection : InventoryCollection) (covered : Covered manifest q) :
    Follows (protocol codec store) (Wrote id)
      (writeStructureWithPrefix codec target name collection manifest) q := by
  subst here
  obtain ⟨plain,other⟩ := structurePath_plain target name
  unfold writeStructureWithPrefix Target.put
  apply follows_put covered plain other (fun _ _ => trivial)
  intro size after pushed
  exact pushed _ rfl

theorem data_follows {target : Target} {manifest : Manifest} {q : Phase}
    (here : target.store = store) (client : Client)
    (options : DumpOptions) (batch name : String) (covered : Covered manifest q) :
    Follows (protocol codec store) (Wrote id)
      (writeDataWithPrefix codec client target options batch name manifest) q := by
  subst here
  obtain ⟨plain,other⟩ := dataPath_plain target options.compression name
  unfold writeDataWithPrefix Target.put
  apply follows_quiet (quiet_dataStream client name batch options.chunkSize 0 [])
  · intro stream
    cases failure : stream.2 with
    | none =>
      simp only
      apply follows_put covered plain other (fun _ _ => trivial)
      intro size after pushed
      exact pushed _ rfl
    | some err =>
      simp only
      obtain ⟨written,rfl,_⟩ := covered
      exact ⟨⟨rfl,other,plain⟩,fun _ => trivial⟩
  · intro error
    trivial

theorem views_follows {target : Target} {q : Phase} (here : target.store = store) (dumped : List String)
    (reporting : Bool) (views : List Value) (manifest : Manifest) (covered : Covered manifest q) :
    Follows (protocol codec store) (Wrote id)
      (writeViewsWithPrefix codec target dumped reporting views manifest) q := by
  subst here
  induction views generalizing manifest q with
  | nil => exact covered
  | cons view rest ih =>
    unfold writeViewsWithPrefix
    cases named : viewName view with
    | none => trivial
    | some name =>
      obtain ⟨plain,other⟩ := viewPath_plain target name
      simp only
      split
      · apply follows_put covered plain other (fun _ _ => trivial)
        intro size after pushed
        exact ih _ (pushed _ rfl)
      · exact follows_quiet (quiet_warn reporting _) (fun _ => ih manifest covered) fun _ => trivial

theorem collections_follows {target : Target} {q : Phase} (here : target.store = store) (client : Client)
    (options : DumpOptions) (batch : String) (collections : List InventoryCollection) (dumped : List String)
    (progress : DumpProgress) (manifest : Manifest) (covered : Covered manifest q) :
    Follows (protocol codec store) (Wrote fun written => written.2.2)
      (dumpCollections codec client target options batch collections dumped progress manifest) q := by
  induction collections generalizing dumped progress manifest q with
  | nil => exact covered
  | cons collection rest ih =>
    unfold dumpCollections
    split
    · exact ih dumped progress manifest covered
    cases named : collection.name with
    | none => trivial
    | some name =>
      simp only
      split
      · exact ih dumped progress manifest covered
      apply follows_quiet (quiet_executeOn client client.database _) _ (fun _ => trivial)
      intro _
      apply follows_seq (structure_follows here name collection covered) _ (fun _ _ _ => trivial)
      intro withStructure q covered
      apply follows_seq (data_follows here client options batch name covered) _ (fun _ _ _ => trivial)
      intro withData q covered
      apply follows_quiet (quiet_collectionDone progress _) _ (fun _ => trivial)
      intro progress
      exact ih _ progress withData covered

theorem database_follows (codec : Codec) (target : Target) {q : Phase} (here : target.store = store)
    (client : Client)
    (options : DumpOptions) (batch : String) (manifest : Manifest) (progress : DumpProgress)
    (covered : Covered manifest q) :
    Follows (protocol codec store) (Wrote Prod.fst)
      (dumpDbIntoManifest codec client target options batch manifest progress) q := by
  unfold dumpDbIntoManifest
  apply follows_quiet (quiet_executeOn client client.database _) _ (fun _ => trivial)
  intro inventory
  apply follows_seq (collections_follows here client options batch _ [] progress manifest covered) _
    (fun _ _ _ => trivial)
  intro written q covered
  apply follows_seq (views_follows here written.1 written.2.1.reporting _ written.2.2 covered) _
    (fun _ _ _ => trivial)
  intro manifest q covered
  exact covered

def Landed : Except Error α → Phase → Prop
  | .ok _, q => q = .landed
  | .error _, _ => True

theorem putManifest_follows {manifest : Manifest} {q : Phase} (covered : Covered manifest q) :
    Follows (protocol codec store) Landed (putManifest codec store manifest) q := by
  obtain ⟨written,rfl,listed⟩ := covered
  refine ⟨.inr ⟨rfl,manifest,rfl,listed⟩,?_⟩
  intro answer
  cases answer with
  | error err => trivial
  | ok size => simp [Follows,lift,Landed,protocol,advance]

theorem covered_new (database toolVersion createdAt : String) :
    Covered (Manifest.new database toolVersion createdAt) (.claimed []) := ⟨[],rfl,by simp [Manifest.new]⟩

theorem databases_follows {q : Phase} (client : Client) (options : DumpOptions) (databases : List String)
    (manifest : Manifest) (progress : DumpProgress) (covered : Covered manifest q) :
    Follows (protocol codec store) Landed
      (dumpDatabases codec client store options databases manifest progress) q := by
  induction databases generalizing manifest progress q with
  | nil => exact putManifest_follows covered
  | cons db rest ih =>
    unfold dumpDatabases
    apply follows_quiet (quiet_executeOn _ _ _) _ (fun _ => trivial)
    intro batch
    have dumped := database_follows codec ⟨store,"databases/" ++ db ++ "/",some db⟩ rfl
        (client.withDatabase db) options
      batch manifest progress covered
    apply follows_seq dumped _ (fun _ _ _ => trivial)
    intro written q covered
    apply follows_quiet (quiet_attempt (quiet_batchDelete _ batch)) _ (fun _ => trivial)
    intro _
    exact ih written.1 written.2 covered

theorem body_follows (client : Client) (options : DumpOptions) (progress : DumpProgress) :
    Follows (protocol codec store) Landed (runDumpBody codec client store options progress) (.claimed []) := by
  unfold runDumpBody
  split
  · apply follows_quiet (quiet_executeOn client "_system" _) _ (fun _ => trivial)
    intro databases
    exact databases_follows client options databases _ progress (covered_new _ _ _)
  · apply follows_quiet (quiet_executeOn client client.database _) _ (fun _ => trivial)
    intro batch
    have written : Follows (protocol codec store) Landed
        (dumpWithBatch codec client store options batch progress)
        (.claimed []) := by
      unfold dumpWithBatch
      have dumped := database_follows codec {store := store} rfl client options batch _ progress
        (covered_new options.database options.toolVersion options.createdAt)
      apply follows_seq dumped _ (fun _ _ _ => trivial)
      intro manifest q covered
      exact putManifest_follows covered
    apply follows_bind
    apply follows_attempt
    apply follows_mono _ written
    intro result q landed
    apply follows_quiet (quiet_attempt (quiet_batchDelete client batch)) _ (fun _ => trivial)
    intro _
    cases result with
    | ok manifest => exact landed
    | error err => trivial

theorem claim_follows {options : DumpOptions} (kept : options.overwrite = false) :
    Follows (protocol codec store) (fun result q => match result with
      | .ok _ => q = .claimed []
      | .error _ => True) (claimDestination codec store options) .outside := by
  unfold claimDestination
  simp only [kept,Bool.false_eq_true,if_false]
  refine ⟨trivial,?_⟩
  intro answer
  cases answer with
  | error err => trivial
  | ok size =>
    cases size with
    | some size => trivial
    | none =>
      refine ⟨rfl,?_⟩
      intro answer
      cases answer with
      | ok size => exact rfl
      | error err => cases err <;> trivial

theorem runDump_follows (client : Client) {options : DumpOptions} (reporting : Bool)
    (kept : options.overwrite = false) :
    Follows (protocol codec store) (fun _ _ => True)
      (runDumpWithProgress codec client store options reporting) .outside := by
  unfold runDumpWithProgress
  apply follows_quiet (quiet_preflight client reporting) _ (fun _ => trivial)
  intro _
  apply follows_seq (claim_follows kept) _ (fun _ _ _ => trivial)
  intro _ q claimed
  simp only at claimed
  subst claimed
  apply follows_bind
  apply follows_attempt
  apply follows_mono _ (body_follows client options _)
  intro result q landed
  cases result with
  | error err => trivial
  | ok manifest =>
    cases landed
    exact ⟨rfl,fun _ => trivial⟩

end Protocol
end ArangoDataTools.DumpClaim
