import Mathlib.Logic.Function.Basic
import Mathlib.Logic.Relation
import ArangoDataTools.ImportCheckpointTask
import ArangoDataTools.ImportLimiter
import ArangoDataTools.ImportSender

namespace ArangoDataTools.ImportPipeline
open Interaction Interaction.Program

variable {Op : Type} {Ans : Op → Type} {W : Type}

-- The arguments of `run_import_with_checkpoint`. A send is a program of the
-- sender's own effects, which `answers` resolves; a failure is one of the answers.
-- `checkpoint` is what loading the checkpoint object gives, if there is one.
structure ImportRun (Op : Type) (Ans : Op → Type) (W : Type) where
  documents : List (Except Error Value)
  toVec : Value → Except Error Bytes
  batchConfig : BatchConfig
  concurrency : ConcurrencyConfig
  send : Batch → Program Op Ans Error ImportResult
  answers : (op : Op) → W → Ans op → W → Prop
  checkpoint : Option (Except Error (Option ImportCheckpoint)) := none

namespace ImportRun

def stored (run : ImportRun Op Ans W) : Option ImportCheckpoint := match run.checkpoint with
  | some (.ok stored) => stored
  | _ => none
def resume (run : ImportRun Op Ans W) : ImportCheckpoint := run.stored.getD {}
def resumeFrom (run : ImportRun Op Ans W) : Nat := run.resume.committedBatches

def batches (run : ImportRun Op Ans W) : List Batch := (intoBatches run.toVec run.documents run.batchConfig).1
def ending (run : ImportRun Op Ans W) : Option Error := (intoBatches run.toVec run.documents run.batchConfig).2
def wanted (run : ImportRun Op Ans W) (batches : List Batch) : List Batch :=
  batches.filter fun batch => run.resumeFrom < batch.index

def permits (run : ImportRun Op Ans W) (batch : Batch) : Nat :=
  permitsFor batch.byteLen run.concurrency.maxInFlightBytes
def totalPermits (run : ImportRun Op Ans W) : Nat := min run.concurrency.maxInFlightBytes maxPermits

def adaptive (run : ImportRun Op Ans W) : AdaptiveConfig :=
  .new run.concurrency.adaptive run.concurrency.workers

-- `record_success` or `record_error`, as the outcome of the send selects.
def recorded (run : ImportRun Op Ans W) (outcome : Except Error ImportResult) (rtt now : Nat)
    (l : AdaptiveLimiter) :
    AdaptiveLimiter := match outcome with
  | .ok _ => l.recordSuccess run.adaptive rtt now
  | .error err => l.recordError run.adaptive (rateLimitStatus err) now

end ImportRun

-- A batch with the permits it holds until it is dropped.
structure Held where
  batch : Batch
  permits : Nat
  deriving DecidableEq, Repr

def Batch.done_ (batch : Batch) : BatchDone :=
  {index := batch.index,documents := batch.documents,bytes := batch.byteLen}

inductive Producer where
  | reading (rest : List Batch)
  | acquiring (batch : Batch) (rest : List Batch)
  | passing (held : Held) (rest : List Batch)
  | closed

-- Where a worker is in its loop: `receiving` holds the lock on the receiver, `seen`
-- is the notification count when `notified()` was called, and `notifying` has
-- released its slot but not yet called `notify_waiters`.
inductive Phase (Op : Type) (Ans : Op → Type) where
  | locking
  | receiving
  | gating (held : Held)
  | checking (held : Held) (seen : Nat)
  | waiting (held : Held) (seen : Nat)
  | sending (held : Held) (program : Program Op Ans Error ImportResult)
  | recording (held : Held) (outcome : Except Error ImportResult)
  | notifying (held : Held) (outcome : Except Error ImportResult)
  | reporting (held : Held)
  | ended (result : Except Error Unit)
  | joined (result : Except Error Unit)

namespace Phase

def IsReceiving : Phase Op Ans → Prop
  | receiving => True
  | _ => False

def Gone : Phase Op Ans → Prop
  | ended _ | joined _ => True
  | _ => False

def IsJoined : Phase Op Ans → Prop
  | joined _ => True
  | _ => False

end Phase

structure Worker (Op : Type) (Ans : Op → Type) where
  phase : Phase Op Ans := .locking
  summary : ImportSummary := {}

inductive TaskPhase where
  | receiving | writing | lastWriting | ended
  deriving DecidableEq, Repr

-- The checkpoint task with its channel and the object it writes. The last three
-- fields record what an observer sees and are not read by the code.
structure CheckpointTask where
  reports : List BatchDone := []
  tracker : Tracker
  phase : TaskPhase
  stored : Option ImportCheckpoint
  received : List BatchDone := []
  persisted : List ImportCheckpoint := []
  failedWrites : Nat := 0

namespace CheckpointTask

def absorb (t : CheckpointTask) (done_ : BatchDone) (rest : List BatchDone) (due : Bool) : CheckpointTask :=
  {t with reports := rest
          tracker := t.tracker.absorb done_
          received := t.received ++ [done_]
          phase := if (t.tracker.absorb done_).dirty && due then .writing else .receiving}

-- `persist_checkpoint`: a write reported as failed may still have landed.
def persist (t : CheckpointTask) (landed fine : Bool) (next : TaskPhase) : CheckpointTask :=
  {t with tracker := t.tracker.written
          stored := if landed then some t.tracker.state else t.stored
          persisted := if landed then t.persisted ++ [t.tracker.state] else t.persisted
          failedWrites := if fine then t.failedWrites else t.failedWrites + 1
          phase := next}

-- `closed`: every sender of the done channel has been dropped.
inductive Step (closed : Prop) : CheckpointTask → CheckpointTask → Prop where
  | receive (due : Bool) : t.phase = .receiving → t.reports = done_ :: rest →
      Step closed t (t.absorb done_ rest due)
  | write (landed fine : Bool) : t.phase = .writing → (fine = true → landed = true) →
      Step closed t (t.persist landed fine .receiving)
  | close : t.phase = .receiving → t.reports = [] → closed →
      Step closed t {t with phase := if t.tracker.dirty then .lastWriting else .ended}
  | lastWrite (landed fine : Bool) : t.phase = .lastWriting → (fine = true → landed = true) →
      Step closed t (t.persist landed fine .ended)

end CheckpointTask

-- `sent`, `answered` and `dropped` record the batches passed to the sender, the
-- sender's results and the batches given up; no step reads them.
structure State (n : Nat) (Op : Type) (Ans : Op → Type) (W : Type) where
  producer : Producer
  available : Nat
  queue : List Held := []
  receiver : Bool := true
  workers : Fin n → Worker Op Ans
  limiter : AdaptiveLimiter
  task : CheckpointTask
  summary : ImportSummary := {}
  firstError : Option Error := none
  returned : Option (Except Error ImportSummary) := none
  world : W
  sent : List Batch := []
  answered : List (Batch × Except Error ImportResult) := []
  dropped : List Batch := []

namespace State
variable {n : Nat}

def put (s : State n Op Ans W) (i : Fin n) (worker : Worker Op Ans) : State n Op Ans W :=
  {s with workers := Function.update s.workers i worker}

def AllGone (s : State n Op Ans W) : Prop := ∀ i, (s.workers i).phase.Gone

def result (s : State n Op Ans W) : Except Error ImportSummary := match s.firstError with
  | some err => .error err
  | none => .ok s.summary

end State

variable (run : ImportRun Op Ans W)

abbrev RunState (run : ImportRun Op Ans W) : Type := State run.concurrency.workers Op Ans W

-- The state in which every task has been spawned.
def opening (world : W) (now : Nat) : RunState run :=
  {producer := .reading run.batches
   available := run.totalPermits
   workers := fun _ => {}
   limiter := .new run.adaptive now
   task := {tracker := .start run.resume,stored := run.stored,phase := if run.checkpoint.isSome then
     .receiving else .ended}
   world := world}

def runImportWithCheckpoint (world : W) (now : Nat) : Except Error (RunState run) :=
  if run.concurrency.workers = 0 then .error (.config "import requires at least one worker")
  else if run.batchConfig.maxBytes > run.concurrency.maxInFlightBytes then
    .error (.config (s!"batch max_bytes ({run.batchConfig.maxBytes}) exceeds max_in_flight_bytes " ++
      s!"({run.concurrency.maxInFlightBytes}); such a batch could never acquire enough in-flight budget " ++
      "and would deadlock the pipeline"))
  else match run.checkpoint with
    | some (.error err) => .error err
    | _ => .ok (opening run world now)

-- One step of one task. The channel of batches closes for the workers when the
-- producer is done, and for the producer when every worker is gone: dropping the
-- receiver drops what is queued and with it the permits.
inductive Step : RunState run → RunState run → Prop where
  | skip : s.producer = .reading (batch :: rest) → batch.index ≤ run.resumeFrom →
      Step s {s with producer := .reading rest}
  | take : s.producer = .reading (batch :: rest) → run.resumeFrom < batch.index →
      Step s {s with producer := .acquiring batch rest}
  | finish : s.producer = .reading [] → Step s {s with producer := .closed,firstError := run.ending}
  | acquire : s.producer = .acquiring batch rest → run.permits batch ≤ s.available →
      Step s {s with producer := .passing ⟨batch,run.permits batch⟩ rest,available := s.available - run.permits batch}
  | push : s.producer = .passing held rest → s.receiver = true → s.queue.length < run.concurrency.workers * 2 →
      Step s {s with producer := .reading rest,queue := s.queue ++ [held]}
  | giveUp : s.producer = .passing held rest → s.receiver = false →
      Step s {s with producer := .closed,available := s.available + held.permits
                     dropped := s.dropped ++ held.batch :: run.wanted rest}
  | lock : s.workers i = ⟨.locking,summary⟩ → (∀ j, ¬(s.workers j).phase.IsReceiving) →
      Step s (s.put i ⟨.receiving,summary⟩)
  | receive : s.workers i = ⟨.receiving,summary⟩ → s.queue = held :: rest →
      Step s {s.put i ⟨.gating held,summary⟩ with queue := rest}
  | leave : s.workers i = ⟨.receiving,summary⟩ → s.queue = [] → s.producer = .closed →
      Step s (s.put i ⟨.ended (.ok ()),summary⟩)
  | register : s.workers i = ⟨.gating held,summary⟩ →
      Step s (s.put i ⟨.checking held s.limiter.notified,summary⟩)
  | enter : s.workers i = ⟨.checking held seen,summary⟩ → s.limiter.inFlight < s.limiter.limit →
      Step s {s.put i ⟨.sending held (run.send held.batch),summary⟩ with
        limiter := s.limiter.claim,sent := s.sent ++ [held.batch]}
  | wait : s.workers i = ⟨.checking held seen,summary⟩ → s.limiter.limit ≤ s.limiter.inFlight →
      Step s (s.put i ⟨.waiting held seen,summary⟩)
  | wake : s.workers i = ⟨.waiting held seen,summary⟩ → seen < s.limiter.notified →
      Step s (s.put i ⟨.gating held,summary⟩)
  | call : s.workers i = ⟨.sending held (.call op next),summary⟩ → run.answers op s.world answer world →
      Step s {s.put i ⟨.sending held (next answer),summary⟩ with world := world}
  | answer : s.workers i = ⟨.sending held (lift outcome),summary⟩ →
      Step s {s.put i ⟨.recording held outcome,summary⟩ with answered := s.answered ++ [(held.batch,outcome)]}
  | record (rtt now : Nat) : s.workers i = ⟨.recording held outcome,summary⟩ →
      Step s {s.put i ⟨.notifying held outcome,summary⟩ with limiter := run.recorded outcome rtt now s.limiter}
  | succeed : s.workers i = ⟨.notifying held (.ok result),summary⟩ →
      Step s {s.put i ⟨.reporting held,summary.record held.batch result⟩
        with limiter := s.limiter.notifyWaiters}
  | die : s.workers i = ⟨.notifying held (.error err),summary⟩ →
      Step s {s.put i ⟨.ended (.error err),summary⟩ with
        limiter := s.limiter.notifyWaiters,available := s.available + held.permits}
  | report : s.workers i = ⟨.reporting held,summary⟩ → s.task.phase ≠ .ended →
      s.task.reports.length < run.concurrency.workers * 4 →
      Step s {s.put i ⟨.locking,summary⟩ with
        task := {s.task with reports := s.task.reports ++ [Batch.done_ held.batch]},available :=
          s.available + held.permits}
  | unheard : s.workers i = ⟨.reporting held,summary⟩ → s.task.phase = .ended →
      Step s {s.put i ⟨.locking,summary⟩ with available := s.available + held.permits}
  | closeReceiver : s.receiver = true → s.AllGone →
      Step s {s with receiver := false,queue := [],available := s.available + (s.queue.map Held.permits).sum
                     dropped := s.dropped ++ s.queue.map Held.batch}
  | checkpoint : CheckpointTask.Step s.AllGone s.task task → Step s {s with task := task}
  | join : s.producer = .closed → s.workers i = ⟨.ended (.ok ()),summary⟩ →
      Step s {s.put i ⟨.joined (.ok ()),summary⟩ with summary := s.summary.merge summary}
  | joinFailed : s.producer = .closed → s.workers i = ⟨.ended (.error err),summary⟩ →
      Step s {s.put i ⟨.joined (.error err),summary⟩ with firstError := s.firstError.or (some err)}
  | finally_ : s.returned = none → s.producer = .closed → (∀ i, (s.workers i).phase.IsJoined) →
      s.task.phase = .ended →
      Step s {s with returned := some s.result}

def Reachable (s : RunState run) : Prop :=
  ∃ world now opened, runImportWithCheckpoint run world now = .ok opened ∧
    Relation.ReflTransGen (Step run) opened s

variable {run}

theorem runImportWithCheckpoint_inv {world : W} {now : Nat} {opened : RunState run}
    (started : runImportWithCheckpoint run world now = .ok opened) :
    0 < run.concurrency.workers ∧ run.batchConfig.maxBytes ≤ run.concurrency.maxInFlightBytes ∧
      opened = opening run world now := by
  unfold runImportWithCheckpoint at started
  split at started
  · cases started
  · split at started
    · cases started
    · split at started
      · cases started
      · cases started
        exact ⟨by omega,by omega,rfl⟩

theorem reachable_induction {invariant : RunState run → Prop}
    (initial : ∀ world now, invariant (opening run world now))
    (step : ∀ s s', Reachable run s → invariant s → Step run s s' → invariant s')
    {s : RunState run} (reachable : Reachable run s) : invariant s := by
  obtain ⟨world,now,opened,started,path⟩ := reachable
  induction path with
  | refl =>
    obtain ⟨-,-,rfl⟩ := runImportWithCheckpoint_inv started
    exact initial world now
  | tail before moved ih => exact step _ _ ⟨world,now,opened,started,before⟩ ih moved

theorem reachable_workers {s : RunState run} (reachable : Reachable run s) : 0 < run.concurrency.workers := by
  obtain ⟨world,now,opened,started,-⟩ := reachable
  exact (runImportWithCheckpoint_inv started).1

end ArangoDataTools.ImportPipeline
