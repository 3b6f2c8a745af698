import ArangoDataTools.DumpRestore
import ArangoDataTools.Leases
import ArangoDataTools.ClientRuns

namespace ArangoDataTools.DumpBatches
open Interaction Interaction.Program Dump Leasing
open ClientRuns (triple_retryLoop)

abbrev Log : Type := List (Answered Op Op.Answer)

-- A replication batch, by the database it was created in and its id.
abbrev Batch : Type := String × String

def created : Answered Op Op.Answer → Option Batch
  | ⟨.send database (.replicationBatchCreate _),.ok id⟩ => some (database,id)
  | _ => none

def deleted : Answered Op Op.Answer → Option Batch
  | ⟨.send database (.replicationBatchDelete id),_⟩ => some (database,id)
  | _ => none

def needed : Answered Op Op.Answer → Option Batch
  | ⟨.send database (.replicationBatchExtend id _),_⟩ | ⟨.send database (.replicationInventory id _),_⟩
  | ⟨.send database (.replicationDumpChunk _ id _ _),_⟩ => some (database,id)
  | _ => none

def batches : Leasing (Answered Op Op.Answer) Batch := ⟨created,deleted,needed⟩

def Within (held : List Batch) (op : Op) : Prop :=
  ∀ answer : op.Answer, created ⟨op,answer⟩ = none ∧ deleted ⟨op,answer⟩ = none ∧
    ∀ batch, needed ⟨op,answer⟩ = some batch → batch ∈ held

section Within
variable {held : List Batch} {α : Type}

theorem within_other {op : Op} (other : ∀ database request, op ≠ .send database request) : Within held op := by
  cases op with
  | send database request => exact absurd rfl (other database request)
  | _ => exact fun _ => ⟨rfl,rfl,fun _ none_ => by cases none_⟩

theorem only_ask {op : Op} (within : Within held op) : Only (Within held) (ask op) := only_perform within

theorem only_record (policy : RetryPolicy) (counter : Counter) :
    Only (Within held) (policy.record (fun counter => ask (.count counter)) counter) := by
  unfold RetryPolicy.record
  split
  · exact only_ask (within_other (by simp))
  · trivial

theorem only_recordFailure (policy : RetryPolicy) (err : Error) :
    Only (Within held) (policy.recordFailure (fun counter => ask (.count counter)) err) := by
  unfold RetryPolicy.recordFailure
  split
  · exact only_record policy .serverErrors
  · trivial

theorem only_retryLoop {op : Tool (Except Error α)} (policy : RetryPolicy)
    (attempt : Only (Within held) op) (left : Nat) :
    Only (Within held) (retryLoop policy (fun counter => ask (.count counter)) op left) := by
  induction left with
  | zero =>
    apply only_bind attempt
    intro answer
    cases answer with
    | ok value => trivial
    | error err => exact only_bind (only_recordFailure policy err) fun _ => trivial
  | succ left ih =>
    apply only_bind attempt
    intro answer
    cases answer with
    | ok value => trivial
    | error err =>
      apply only_bind (only_recordFailure policy err)
      intro _
      by_cases transient : err.isRetryable = true
      · rw [if_pos transient]
        exact only_bind (only_record policy .retries) fun _ => ih
      · rw [if_neg transient]
        trivial

theorem only_executeOn (client : Client) {database : String} {request : Request}
    (within : Within held (.send database request)) :
    Only (Within held) (client.executeOn database request) := only_retryLoop client.retry (only_ask within) _

theorem only_warn (reporting : Bool) (message : String) : Only (Within held) (warn reporting message) := by
  unfold warn
  split
  · exact only_ask (within_other (by simp))
  · trivial

theorem only_put (target : Target) (path : String) (body : Bytes) : Only (Within held) (target.put path body) :=
  only_bind (only_ask (within_other (by simp))) only_lift

section Database
variable {client : Client} {batch : String}

theorem only_dumpDataStream (holding : (client.database,batch) ∈ held) (collection : String)
    (chunkSize : Nat) (fromTick : UInt64)
    (read : List Bytes) : Only (Within held)
      (dumpDataStream client collection batch chunkSize fromTick read) := by
  have fetching : ∀ tick, Only (Within held)
      (attempt (client.replicationDumpChunk collection batch tick chunkSize)) := fun tick =>
    only_attempt (only_executeOn client fun _ => ⟨rfl,rfl,fun own same => by cases same; exact holding⟩)
  induction fromTick,read using dumpDataStream.induct with
  | case1 fromTick read ih =>
    rw [dumpDataStream]
    apply only_bind (fetching fromTick)
    intro result
    cases result with
    | error err => trivial
    | ok chunk =>
      by_cases advances : chunk.hasMore ∧ chunk.lastIncludedTick ≠ 0 ∧ fromTick < chunk.lastIncludedTick
      · simp only [dif_pos advances]
        exact ih chunk advances
      · simp only [dif_neg advances]
        trivial

theorem only_writeStructure (codec : Codec) (target : Target) (name : String)
    (collection : InventoryCollection) (manifest : Manifest) :
    Only (Within held) (writeStructureWithPrefix codec target name collection manifest) :=
  only_bind (only_put target _ _) fun _ => trivial

theorem only_writeData (holding : (client.database,batch) ∈ held) (codec : Codec) (target : Target)
    (options : DumpOptions) (name : String)
    (manifest : Manifest) : Only (Within held)
      (writeDataWithPrefix codec client target options batch name manifest) := by
  apply only_bind (only_dumpDataStream holding name options.chunkSize 0 [])
  rintro ⟨bodies,ending⟩
  cases ending with
  | some err => exact only_bind (only_ask (within_other (by simp))) fun _ => trivial
  | none => exact only_bind (only_put target _ _) fun _ => trivial

theorem only_writeViews (codec : Codec) (target : Target) (dumped : List String) (reporting : Bool)
    (views : List Value)
    (manifest : Manifest) : Only (Within held)
      (writeViewsWithPrefix codec target dumped reporting views manifest) := by
  induction views generalizing manifest with
  | nil => trivial
  | cons view rest ih =>
    unfold writeViewsWithPrefix
    cases viewName view with
    | none => trivial
    | some name =>
      by_cases whole : (missingTargets dumped view).isEmpty = true
      · simp only [if_pos whole]
        exact only_bind (only_put target _ _) fun _ => ih _
      · simp only [if_neg whole]
        exact only_bind (only_warn reporting _) fun _ => ih _

theorem only_collectionDone (progress : DumpProgress) (bytes : Nat) :
    Only (Within held) (progress.collectionDone bytes) := by
  unfold DumpProgress.collectionDone
  by_cases reporting : progress.reporting = true
  · simp only [if_pos reporting]
    exact only_bind (only_ask (within_other (by simp))) fun _ => trivial
  · simp only [if_neg reporting]
    trivial

theorem only_dumpCollections (holding : (client.database,batch) ∈ held) (codec : Codec)
    (target : Target) (options : DumpOptions)
    (collections : List InventoryCollection) (dumped : List String) (progress : DumpProgress)
      (manifest : Manifest) :
    Only (Within held) (dumpCollections codec client target options batch collections dumped
      progress manifest) := by
  have extending : Only (Within held) (client.replicationBatchExtend batch options.batchTtlSecs) :=
    only_executeOn client fun _ => ⟨rfl,rfl,fun own same => by cases same; exact holding⟩
  induction collections generalizing dumped progress manifest with
  | nil => trivial
  | cons collection rest ih =>
    unfold dumpCollections
    by_cases skipped : skips options collection = true
    · rw [if_pos skipped]
      exact ih dumped progress manifest
    rw [if_neg skipped]
    cases collection.name with
    | none => trivial
    | some name =>
      by_cases filtered : filteredOut options collection name = true
      · simp only [if_pos filtered]
        exact ih dumped progress manifest
      simp only [if_neg filtered]
      apply only_bind extending
      intro _
      apply only_bind (only_writeStructure codec target name collection manifest)
      intro described
      apply only_bind (only_writeData holding codec target options name described)
      intro written
      exact only_bind (only_collectionDone progress _) fun next => ih _ next written

theorem only_dumpDbIntoManifest (holding : (client.database,batch) ∈ held) (codec : Codec)
    (target : Target) (options : DumpOptions)
    (manifest : Manifest) (progress : DumpProgress) :
    Only (Within held) (dumpDbIntoManifest codec client target options batch manifest progress) := by
  have looking : Only (Within held) (client.replicationInventory batch options.includeSystem) :=
    only_executeOn client fun _ => ⟨rfl,rfl,fun own same => by cases same; exact holding⟩
  apply only_bind looking
  intro inventory
  apply only_bind (only_dumpCollections holding codec target options inventory.collections [] progress manifest)
  rintro ⟨dumped,progress,manifest⟩
  exact only_bind (only_writeViews codec target dumped progress.reporting inventory.views manifest)
    fun _ => trivial

theorem only_putManifest (codec : Codec) (store : Nat) (manifest : Manifest) :
    Only (Within held) (putManifest codec store manifest) :=
  only_bind (only_bind (only_ask (within_other (by simp))) only_lift) fun _ => trivial

end Database

theorem only_preflight (client : Client) (reporting : Bool) :
    Only (Within held) (preflightTopology client reporting) := by
  apply only_bind (only_attempt (only_executeOn client fun _ => ⟨rfl,rfl,fun _ none_ => by cases none_⟩))
  intro result
  cases result with
  | error err => exact only_warn reporting _
  | ok role =>
    dsimp only
    split <;> trivial

theorem only_claim (codec : Codec) (store : Nat) (options : DumpOptions) :
    Only (Within held) (claimDestination codec store options) := by
  have asked : ∀ {op : Op}, (∀ database request, op ≠ .send database request) → Only (Within held) (ask op) :=
    fun other => only_ask (within_other other)
  unfold claimDestination
  apply only_bind
  · by_cases overwrite : options.overwrite = true
    · simp only [if_pos overwrite]
      exact only_bind (asked (by simp)) fun _ => only_bind (asked (by simp)) fun _ => trivial
    · simp only [if_neg overwrite]
      have looked : Only (Within held) (⟨store,manifestName⟩ : ObjectRef).exists :=
        only_bind (asked (by simp)) fun answer => only_bind (only_lift answer) fun _ => trivial
      apply only_bind looked
      intro present
      split <;> trivial
  · intro _
    apply only_bind (asked (by simp))
    intro answer
    cases answer with
    | ok _ => trivial
    | error err => cases err <;> trivial

theorem only_release (store : Nat) : Only (Within held) (releaseDestination store) :=
  only_bind (only_ask (within_other (by simp))) fun _ => trivial

end Within

section Holding
variable {held : List Batch} {log : Log} {α : Type} {store : Nat} {codec : Codec} {options : DumpOptions}

theorem within_holds {op : Op} {answer : op.Answer} (within : Within held op) (holds : batches.Holds held log) :
    batches.Holds held (log ++ [⟨op,answer⟩]) :=
  holds_other holds (within answer).1 (within answer).2.1 (within answer).2.2

theorem triple_within {p : Tool α} (only : Only (Within held) p) :
    Triple recorded (batches.Holds held) p (fun _ => batches.Holds held)
      (batches.Holds held) batches.Covered := by
  have kept := @triple_only _ _ _ _ _ recorded _ (batches.Holds held) p only (by
    rintro op log answer log' within holds rfl
    exact within_holds within holds)
  exact triple_weaken kept (fun _ start => start) (fun _ _ holds => holds) (fun _ holds => holds)
    fun _ holds => holds.covered

theorem triple_counting (counter : Counter) :
    Triple recorded (batches.Holds held) (ask (.count counter)) (fun _ => batches.Holds held)
      (batches.Holds held) batches.Covered :=
  triple_within (only_ask (within_other (by simp)))

theorem triple_create (client : Client) (ttl : Nat) :
    Triple recorded (batches.Holds []) (client.replicationBatchCreate ttl)
      (fun id log => batches.Holds [(client.database,id)] log ∧
        ∃ before, log = before ++ [⟨.send client.database (.replicationBatchCreate ttl),.ok id⟩])
      (batches.Holds []) batches.Covered := by
  refine triple_retryLoop client.retry (triple_perform (fun _ holds => holds.covered) ?_)
    triple_counting (fun _ holds => holds)
    (fun _ _ holds => holds.1.covered) (fun _ holds => holds.covered) _
  rintro log answer log' holds rfl
  cases answer with
  | ok id =>
    have taken : batches.Holds [(client.database,id)]
        (log ++ [⟨.send client.database (.replicationBatchCreate ttl),.ok id⟩]) :=
      holds_take holds rfl rfl rfl
    exact ⟨⟨taken,log,rfl⟩,taken.covered⟩
  | error err =>
    have kept : batches.Holds [] (log ++ [⟨.send client.database (.replicationBatchCreate ttl),.error err⟩]) :=
      holds_other holds rfl rfl fun _ none_ => by cases none_
    exact ⟨kept,kept.covered⟩

theorem triple_delete (client : Client) (id : String) {failed : Log → Prop} :
    Triple recorded (batches.Holds [(client.database,id)]) (attempt (client.replicationBatchDelete id))
      (fun _ => batches.Holds []) failed batches.Covered := by
  let start : Log → Prop := fun log => batches.Holds [(client.database,id)] log ∨ batches.Holds [] log
  have attempted : ∀ log (answer : Except Error Unit), start log →
      batches.Holds [] (log ++ [⟨.send client.database (.replicationBatchDelete id),answer⟩]) := by
    intro log answer holds
    have own : deleted ⟨.send client.database (.replicationBatchDelete id),answer⟩ =
        some (client.database,id) := rfl
    rcases holds with holds | holds
    · exact holds_return holds (fun other same => List.mem_singleton.mp same) rfl own rfl
    · exact holds_return holds (fun other none_ => absurd none_ List.not_mem_nil) rfl own rfl
  have sending : Triple recorded start (client.execute (.replicationBatchDelete id))
      (fun _ => batches.Holds []) (batches.Holds [])
      batches.Covered := by
    refine triple_retryLoop client.retry (triple_perform ?_ ?_) triple_counting (fun _ holds => .inr holds)
      (fun _ _ holds => holds.covered) (fun _ holds => holds.covered) _
    · rintro log (holds | holds) <;> exact holds.covered
    · rintro log answer log' holds rfl
      have returned := attempted log answer holds
      cases answer <;> exact ⟨returned,returned.covered⟩
  have tolerating : Triple recorded start (client.replicationBatchDelete id)
      (fun _ => batches.Holds []) (batches.Holds [])
      batches.Covered := by
    apply triple_bind (triple_attempt sending)
    intro result
    cases result with
    | ok value => exact triple_done (fun _ holds => holds) fun _ holds => holds.covered
    | error err => cases err with
      | http code message context =>
        dsimp only
        split
        · exact triple_done (fun _ holds => holds) fun _ holds => holds.covered
        · exact triple_fail (fun _ holds => holds) fun _ holds => holds.covered
      | _ => exact triple_fail (fun _ holds => holds) fun _ holds => holds.covered
  refine triple_weaken (triple_attempt tolerating) (fun _ holds => .inl holds) ?_
    (fun _ holds => holds) fun _ holds => holds
  intro result log holds
  cases result <;> exact holds

-- One database of the loop, from its creation of a batch, when `dump_db_into_manifest`
-- fails: the `?` after it leaves the loop before the delete.
def Interrupted (codec : Codec) (client : Client) (store : Nat) (options : DumpOptions) (log : Log) : Prop :=
  ∃ database batch before manifest progress err,
    Runs recorded (dumpDbIntoManifest codec (client.withDatabase database)
      ⟨store,"databases/" ++ database ++ "/",some database⟩
        options batch manifest progress)
      (before ++ [⟨.send database (.replicationBatchCreate options.batchTtlSecs),.ok batch⟩]) (fail err) log

def Abandoned (codec : Codec) (client : Client) (store : Nat) (options : DumpOptions) (log : Log) : Prop :=
  batches.Covered log ∧ (batches.Settled log ∨ options.allDatabases = true ∧
    Interrupted codec client store options log)

theorem holds_abandoned {client : Client} (holds : batches.Holds [] log) :
    Abandoned codec client store options log :=
  ⟨holds.covered,.inl holds.settled⟩

theorem triple_runSingle (client : Client) (progress : DumpProgress) (single : options.allDatabases = false) :
    Triple recorded (batches.Holds []) (runDumpBody codec client store options progress)
      (fun _ => batches.Holds [])
      (batches.Holds []) batches.Covered := by
  unfold runDumpBody
  rw [if_neg (by simp [single])]
  apply triple_bind (triple_create client options.batchTtlSecs)
  intro batch
  have dumping : Only (Within [(client.database,batch)])
      (dumpWithBatch codec client store options batch progress) :=
    only_bind (only_dumpDbIntoManifest List.mem_cons_self codec _ options _ progress) fun _ =>
      only_putManifest codec store _
  have dumped : Triple recorded (batches.Holds [(client.database,batch)])
      (attempt (dumpWithBatch codec client store options batch progress))
        (fun _ => batches.Holds [(client.database,batch)])
      (batches.Holds []) batches.Covered := by
    refine triple_weaken (triple_attempt (triple_within dumping)) (fun _ start => start) ?_
      (fun _ holds => holds) fun _ holds => holds
    intro result log holds
    cases result <;> exact holds
  apply triple_bind (triple_weaken dumped (fun _ start => start.1) (fun _ _ holds => holds)
    (fun _ holds => holds) fun _ holds => holds)
  intro result
  exact triple_bind (triple_delete client batch) fun _ =>
    triple_lift (fun _ _ _ holds => holds) (fun _ holds => holds) fun _ holds => holds.covered

theorem triple_dumpDatabases (client : Client) (several : options.allDatabases = true)
    (databases : List String) (manifest : Manifest)
    (progress : DumpProgress) :
    Triple recorded (batches.Holds [])
      (dumpDatabases codec client store options databases manifest progress) (fun _ => batches.Holds [])
      (Abandoned codec client store options) batches.Covered := by
  induction databases generalizing manifest progress with
  | nil =>
    exact triple_weaken (triple_within (only_putManifest codec store manifest))
      (fun _ start => start) (fun _ _ holds => holds)
      (fun _ => holds_abandoned) fun _ holds => holds
  | cons database rest ih =>
    unfold dumpDatabases
    apply triple_bind (triple_weaken
      (triple_create (client.withDatabase database) options.batchTtlSecs) (fun _ start => start)
      (fun _ _ holds => holds) (fun _ => holds_abandoned) fun _ holds => holds)
    intro batch
    let dumping := dumpDbIntoManifest codec (client.withDatabase database)
        ⟨store,"databases/" ++ database ++ "/",some database⟩ options
      batch manifest progress
    have own : ((client.withDatabase database).database,batch) ∈ [(database,batch)] := List.mem_cons_self
    have only : Only (Within [(database,batch)]) dumping :=
      only_dumpDbIntoManifest own codec _ options manifest progress
    have reading := triple_within only
    have dumped : Triple recorded
        (fun log => batches.Holds [(database,batch)] log ∧
          ∃ before, log = before ++ [⟨.send database (.replicationBatchCreate options.batchTtlSecs),.ok batch⟩])
        dumping (fun _ => batches.Holds [(database,batch)])
          (Abandoned codec client store options) batches.Covered := by
      refine ⟨fun log q log' start => reading.everywhere log q log' start.1,
        fun log written log' start => reading.returns log written log' start.1,?_⟩
      rintro log err log' ⟨holds,before,rfl⟩ runs
      exact ⟨reading.everywhere _ _ _ holds runs,
        .inr ⟨several,database,batch,before,manifest,progress,err,runs⟩⟩
    apply triple_bind dumped
    rintro ⟨written,shown⟩
    exact triple_bind (triple_delete (client.withDatabase database) batch) fun _ => ih written shown

theorem triple_runDump (client : Client) (reporting : Bool) :
    Triple recorded (batches.Holds []) (runDumpWithProgress codec client store options reporting) (fun _ => batches.Holds [])
      (Abandoned codec client store options) batches.Covered := by
  have around : ∀ {β : Type} {p : Tool β}, Only (Within []) p → Triple recorded (batches.Holds []) p (fun _ => batches.Holds [])
      (Abandoned codec client store options) batches.Covered :=
    fun only => triple_weaken (triple_within only) (fun _ start => start) (fun _ _ holds => holds) (fun _ => holds_abandoned)
      fun _ holds => holds
  have body : Triple recorded (batches.Holds []) (runDumpBody codec client store options {reporting := reporting})
      (fun _ => batches.Holds []) (Abandoned codec client store options) batches.Covered := by
    by_cases several : options.allDatabases = true
    · unfold runDumpBody
      rw [if_pos several]
      apply triple_bind (around (only_executeOn client fun _ => ⟨rfl,rfl,fun _ none_ => by cases none_⟩))
      intro databases
      exact triple_dumpDatabases client several databases _ _
    · exact triple_weaken (triple_runSingle client _ (by simpa using several)) (fun _ start => start) (fun _ _ holds => holds)
        (fun _ => holds_abandoned) fun _ holds => holds
  apply triple_bind (around (only_preflight client reporting))
  intro _
  apply triple_bind (around (only_claim codec store options))
  intro _
  apply triple_bind (triple_attempt body)
  intro result
  cases result with
  | ok manifest => exact triple_bind (around (only_release store)) fun _ => triple_done (fun _ holds => holds) fun _ holds => holds.covered
  | error err => exact triple_fail (fun _ ended => ended) fun _ ended => ended.1

theorem interrupted_unsettled {client : Client}
    (interrupted : Interrupted codec client store options log) : ¬ batches.Settled log := by
  obtain ⟨database,batch,before,manifest,progress,err,runs⟩ := interrupted
  have own : ((client.withDatabase database).database,batch) ∈ [(database,batch)] := List.mem_cons_self
  have only := only_dumpDbIntoManifest own codec ⟨store,"databases/" ++ database ++ "/",
      some database⟩ options manifest progress
  have kept : batches.Outstanding log (database,batch) := by
    apply only_preserves runs only
    · rintro op log answer log' within outstanding rfl
      refine outstanding_append.mpr (.inr ⟨outstanding,?_⟩)
      have returns : batches.returns ⟨op,answer⟩ = none := (within answer).2.1
      simp [returns]
    · exact outstanding_append.mpr (.inl rfl)
  exact fun settled => settled _ kept

-- Every batch a dump was given is given back before it returns, unless a database of
-- a combined dump is interrupted; and a batch is read only while it is outstanding.
theorem batches_released_unless_interrupted (codec : Codec) (client : Client) (store : Nat)
    (options : DumpOptions) (reporting : Bool)
    (result : Except Error Manifest) (log : Log)
    (runs : Runs recorded (runDumpWithProgress codec client store options reporting) [] (lift result) log) :
    batches.Covered log ∧
      (batches.Settled log ↔ (options.allDatabases = true → ¬ Interrupted codec client store options log)) := by
  have dumped := @triple_runDump store codec options client reporting
  refine ⟨dumped.everywhere _ _ _ holds_start runs,fun settled _ interrupted =>
    interrupted_unsettled interrupted settled,fun whole => ?_⟩
  cases result with
  | ok manifest => exact (dumped.returns _ _ _ holds_start runs).settled
  | error err =>
    rcases (dumped.fails _ _ _ holds_start runs).2 with settled | ⟨several,interrupted⟩
    · exact settled
    · exact absurd interrupted (whole several)

-- A combined dump of one database, whose inventory is answered as given.
def oneDatabase (inventory : Except Error Inventory) : Log → (op : Op) → op.Answer
  | _,.send _ .serverRole => .ok .single
  | _,.send _ .listDatabases => .ok ["a"]
  | _,.send _ (.replicationBatchCreate _) => .ok "1"
  | _,.send _ (.replicationInventory _ _) => inventory
  | _,.send _ (.replicationBatchDelete _) => .ok ()
  | _,.head _ => .ok none
  | _,.putIfAbsent _ body | _,.putStream _ body => .ok body.length
  | _,op => op.refuse

def combined : DumpOptions := {allDatabases := true,toolVersion := "1"}
def combinedDump : Tool Manifest :=
  runDumpWithProgress DumpRestore.sampleCodec {database := "_system"} 0 combined false

theorem empty_database_released :
    let log := (run (scheduled (oneDatabase (.ok {}))) combinedDump []).2
    batches.Covered log ∧ (batches.Settled log ↔
      (combined.allDatabases = true →
      ¬ Interrupted DumpRestore.sampleCodec {database := "_system"} 0 combined log)) :=
  batches_released_unless_interrupted _ _ _ _ _ _ _ (scheduled_recorded (oneDatabase (.ok {})) combinedDump [])

-- The inventory request of the database fails, and its batch is never deleted.
theorem interrupted_batch_leaked :
    ∃ log : Log, Runs recorded combinedDump [] (fail (.http 500 "inventory failed" {})) log ∧
    ¬ batches.Settled log := by
  refine ⟨_,scheduled_recorded (oneDatabase (.error (.http 500 "inventory failed" {}))) combinedDump
    [],fun settled => ?_⟩
  let before : Log := [⟨.send "_system" .serverRole,.ok .single⟩,⟨.head ⟨0,manifestName⟩,.ok none⟩,
    ⟨.putIfAbsent ⟨0,dumpLockName⟩ (lockBody DumpRestore.sampleCodec combined),
      .ok (lockBody DumpRestore.sampleCodec combined).length⟩,⟨.send "_system" .listDatabases,.ok ["a"]⟩]
  refine settled ("a","1") ⟨before,⟨.send "a" (.replicationBatchCreate 600),.ok "1"⟩,
    [⟨.send "a" (.replicationInventory "1" false),.error (.http 500 "inventory failed" {})⟩],?_,rfl,?_⟩
  · exact rfl
  · intro later same
    rw [List.mem_singleton.mp same]
    simp [batches,deleted]

end Holding
end ArangoDataTools.DumpBatches
