import ArangoDataTools.ImportPipeline

namespace ArangoDataTools.ImportPipeline
open Interaction Interaction.Program

variable {Op : Type} {Ans : Op → Type} {W : Type}

-- A send that comes to an end: its effects are answered one after the other.
inductive Resolves (answers : (op : Op) → W → Ans op → W → Prop) :
    Program Op Ans Error ImportResult → W → Except Error ImportResult → W → Prop where
  | lift : Resolves answers (lift outcome) w outcome w
  | call (op : Op) (next : Ans op → Program Op Ans Error ImportResult) (answer : Ans op)
      (middle : W) : answers op w answer middle →
      Resolves answers (next answer) middle outcome w' → Resolves answers (.call op next) w outcome w'

-- The schedule of a run with one worker in which every batch is sent before the
-- next one is read.
structure Solo (Op : Type) (Ans : Op → Type) (W : Type) where
  producer : Producer
  available : Nat
  queue : List Held := []
  phase : Phase Op Ans := .locking
  total : ImportSummary := {}
  limiter : AdaptiveLimiter
  task : CheckpointTask
  world : W
  sent : List Batch := []
  answered : List (Batch × Except Error ImportResult) := []

variable {run : ImportRun Op Ans W}

def Solo.state (run : ImportRun Op Ans W) (a : Solo Op Ans W) : RunState run :=
  {producer := a.producer,available := a.available,queue := a.queue,workers := fun _ => ⟨a.phase,a.total⟩
   limiter := a.limiter,task := a.task,world := a.world,sent := a.sent,answered := a.answered}

abbrev Path (run : ImportRun Op Ans W) : RunState run → RunState run → Prop := Relation.ReflTransGen (Step run)

-- Reached by a run that began in this world.
def ReachedFrom (run : ImportRun Op Ans W) (w : W) (s : RunState run) : Prop :=
  ∃ now opened, runImportWithCheckpoint run w now = .ok opened ∧ Path run opened s

theorem ReachedFrom.reachable {s : RunState run} (reached : ReachedFrom run w s) :
    Reachable run s := ⟨w,reached⟩

theorem update_solo (one : run.concurrency.workers = 1) (i : Fin run.concurrency.workers)
    (old new : Worker Op Ans) :
    Function.update (fun _ : Fin run.concurrency.workers => old) i new = fun _ => new := by
  funext j
  have same : j = i := Fin.ext (by omega)
  rw [same,Function.update_self]

def heard (task : CheckpointTask) (batch : Batch) : CheckpointTask :=
  if task.phase = .ended then task else task.absorb (Batch.done_ batch) [] false

structure Solo.Rests (run : ImportRun Op Ans W) (a : Solo Op Ans W) : Prop where
  queue : a.queue = []
  phase : a.phase = .locking
  available : a.available = run.totalPermits
  inFlight : a.limiter.inFlight = 0
  range : a.limiter.InRange run.adaptive
  reports : a.task.reports = []
  task : a.task.phase = .receiving ∨ a.task.phase = .ended
  fine : a.task.failedWrites = 0

theorem heard_reports {task : CheckpointTask} (none_ : task.reports = []) :
    (heard task batch).reports = [] := by
  unfold heard
  split
  · exact none_
  · rfl

theorem heard_failedWrites (task : CheckpointTask) : (heard task batch).failedWrites = task.failedWrites := by
  unfold heard
  split <;> rfl

theorem heard_phase {task : CheckpointTask} (idle : task.phase = .receiving ∨ task.phase = .ended) :
    (heard task batch).phase = .receiving ∨ (heard task batch).phase = .ended := by
  unfold heard
  split
  · exact idle
  · exact .inl (by simp [CheckpointTask.absorb])

section Solo
variable (one : run.concurrency.workers = 1)
include one

theorem solo_put (a : Solo Op Ans W) (i : Fin run.concurrency.workers) (phase : Phase Op Ans)
    (total : ImportSummary) :
    (a.state run).put i ⟨phase,total⟩ = Solo.state run {a with phase := phase,total := total} := by
  unfold State.put Solo.state
  rw [update_solo one]

theorem solo_send (held : Held) {program : Program Op Ans Error ImportResult} (a : Solo Op Ans W)
    (resolves : Resolves run.answers program a.world outcome w') :
    Path run (Solo.state run {a with phase := .sending held program})
      (Solo.state run {a with phase := .sending held (lift outcome),world := w'}) := by
  generalize start : a.world = w at resolves
  induction resolves generalizing a with
  | lift =>
    subst start
    exact .refl
  | call op next answer middle answers resolves ih =>
    subst start
    have step := @Step.call _ _ _ run op answer middle
        (Solo.state run {a with phase := .sending held (.call op next)})
      ⟨0,by omega⟩ held next a.total rfl answers
    rw [solo_put one] at step
    exact .head step (ih {a with world := middle} rfl)

def Solo.answer (run : ImportRun Op Ans W) (a : Solo Op Ans W) (batch : Batch) (rest : List Batch)
    (outcome : Except Error ImportResult) (w : W) : Solo Op Ans W :=
  {a with producer := .reading rest,available := run.totalPermits - run.permits batch
          phase := .notifying ⟨batch,run.permits batch⟩ outcome,limiter :=
          run.recorded outcome 0 0 a.limiter.claim
          world := w,sent := a.sent ++ [batch],answered := a.answered ++ [(batch,outcome)]}

theorem solo_answer (a : Solo Op Ans W) (rests : a.Rests run) (reading : a.producer = .reading (batch :: rest))
    (high : run.resumeFrom < batch.index) (resolves : Resolves run.answers (run.send batch) a.world outcome w') :
    Path run (a.state run) (Solo.state run (a.answer run batch rest outcome w')) := by
  obtain ⟨queue,phase,available,inFlight,range,reports,task,fine⟩ := rests
  obtain ⟨producer,free,waiting,where_,total,l,t,w,sent,answered⟩ := a
  dsimp only at queue phase available inFlight range reports task fine reading resolves ⊢
  subst queue phase available reading
  have zero : Fin run.concurrency.workers := ⟨0,by omega⟩
  have enough : run.permits batch ≤ run.totalPermits := permitsFor_le _ _
  have room : l.inFlight < l.limit := by
    have floor : 1 ≤ l.limit := range.1
    omega
  let held : Held := ⟨batch,run.permits batch⟩
  let base : Solo Op Ans W := {producer := .reading (batch :: rest),available := run.totalPermits,total := total,limiter := l
                               task := t,world := w,sent := sent,answered := answered}
  let early : Solo Op Ans W :=
    {base with producer := .reading rest,available := run.totalPermits - run.permits batch}
  have taken : Step run (base.state run)
      (Solo.state run {base with producer := .acquiring batch rest}) := .take rfl high
  have acquired : Step run (Solo.state run {base with producer := .acquiring batch rest})
      (Solo.state run {early with producer := .passing held rest}) := .acquire rfl enough
  have pushed : Step run (Solo.state run {early with producer := .passing held rest})
      (Solo.state run {early with queue := [held]}) := .push rfl rfl (by simp [Solo.state,one,early,base])
  have locked := Step.lock (s:=Solo.state run {early with queue := [held]}) (i:=zero) rfl
      (fun _ receiving => receiving.elim)
  have received := Step.receive (s:=Solo.state run {early with queue := [held],phase := .receiving})
      (i:=zero) rfl rfl
  have registered := Step.register (s:=Solo.state run {early with phase := .gating held}) (i:=zero) rfl
  have entered := Step.enter (s:=Solo.state run {early with phase := .checking held l.notified})
      (i:=zero) rfl room
  let inside : Solo Op Ans W := {early with limiter := l.claim,sent := sent ++ [batch]}
  have called := solo_send one held inside resolves
  have replied := Step.answer
      (s:=Solo.state run {inside with phase := .sending held (lift outcome),world := w'}) (i:=zero) rfl
  let after : Solo Op Ans W := {inside with world := w',answered := answered ++ [(batch,outcome)]}
  have noted := Step.record (s:=Solo.state run {after with phase := .recording held outcome}) (i:=zero) 0 0 rfl
  rw [solo_put one] at locked received registered entered replied noted
  exact (((((((Relation.ReflTransGen.single taken).tail acquired).tail pushed).tail locked).tail received).tail registered).tail entered).trans
    ((called.tail replied).tail noted)

theorem solo_batch (a : Solo Op Ans W) (rests : a.Rests run) (reading : a.producer = .reading (batch :: rest))
    (high : run.resumeFrom < batch.index)
      (resolves : Resolves run.answers (run.send batch) a.world (.ok result) w') :
    ∃ limiter : AdaptiveLimiter,
      (Solo.Rests run {a with producer := .reading rest,total := a.total.record batch result,limiter := limiter
                              task := heard a.task batch,world := w',sent := a.sent ++ [batch]
                              answered := a.answered ++ [(batch,.ok result)]}) ∧
      Path run (a.state run) (Solo.state run
        {a with producer := .reading rest,total := a.total.record batch result,limiter := limiter
                task := heard a.task batch,world := w',sent := a.sent ++ [batch]
                answered := a.answered ++ [(batch,.ok result)]}) := by
  have answered := solo_answer one a rests reading high resolves
  obtain ⟨queue,phase,available,inFlight,range,reports,task,fine⟩ := rests
  have zero : Fin run.concurrency.workers := ⟨0,by omega⟩
  have enough : run.permits batch ≤ run.totalPermits := permitsFor_le _ _
  let limiter := (run.recorded (.ok result) 0 0 a.limiter.claim).notifyWaiters
  let through : Solo Op Ans W := {a.answer run batch rest (.ok result) w' with
    phase := .reporting ⟨batch,run.permits batch⟩,total := a.total.record batch result,limiter := limiter}
  have added := Step.succeed (s:=Solo.state run (a.answer run batch rest (.ok result) w')) (i:=zero) rfl
  rw [solo_put one] at added
  have path : Path run (a.state run) (through.state run) := answered.tail added
  have released : (through.state run).available + run.permits batch = run.totalPermits :=
    Nat.sub_add_cancel enough
  have recorded := a.limiter.claim.recordSuccess_releases run.adaptive 0 0
  refine ⟨limiter,⟨queue,phase,available,?_,recorded.range range,heard_reports reports,heard_phase task,
    (heard_failedWrites a.task).trans fine⟩,?_⟩
  · have freed : limiter.inFlight = a.limiter.claim.inFlight - 1 := recorded.inFlight
    simpa [AdaptiveLimiter.claim,inFlight] using freed
  · obtain ⟨producer,free,waiting,where_,total,l,t,w,sent,answers⟩ := a
    dsimp only at queue phase available reports task
    subst queue phase available
    rcases task with waiting | ended
    · have open_ : t.phase ≠ .ended := by simp [waiting]
      have reported := Step.report (s:=through.state run) (i:=zero) rfl open_
          (by simp [Solo.state,Solo.answer,through,reports,one])
      rw [solo_put one,released] at reported
      let queued : CheckpointTask := {t with reports := t.reports ++ [Batch.done_ batch]}
      have next : queued.reports = Batch.done_ batch :: [] := by simp [queued,reports]
      have absorbed := Step.checkpoint
          (s:=Solo.state run {through with phase := .locking,task := queued,available := run.totalPermits})
        (CheckpointTask.Step.receive false waiting next)
      have known : heard t batch = queued.absorb (Batch.done_ batch) [] false := by
        simp [heard,open_,CheckpointTask.absorb,queued]
      rw [known]
      exact (path.tail reported).tail absorbed
    · have unheard := Step.unheard (s:=through.state run) (i:=zero) rfl ended
      rw [solo_put one,released] at unheard
      have known : heard t batch = t := by simp [heard,ended]
      rw [known]
      exact path.tail unheard

inductive Accepted (run : ImportRun Op Ans W) : List Batch → W → List (Batch × ImportResult) → W → Prop where
  | nil : Accepted run [] w [] w
  | skip : batch.index ≤ run.resumeFrom → Accepted run rest w accepted w' →
      Accepted run (batch :: rest) w accepted w'
  | send : run.resumeFrom < batch.index → Resolves run.answers (run.send batch) w (.ok result) middle →
      Accepted run rest middle accepted w' → Accepted run (batch :: rest) w ((batch,result) :: accepted) w'

theorem solo_batches (a : Solo Op Ans W) (rests : a.Rests run)
    (reading : a.producer = .reading (batches ++ more))
    (accepted : Accepted run batches a.world results w') :
    ∃ b : Solo Op Ans W, b.Rests run ∧ Path run (a.state run) (b.state run) ∧
    b.producer = .reading more ∧ b.world = w' ∧
      b.answered = a.answered ++ results.map fun answer => (answer.1,.ok answer.2) := by
  generalize start : a.world = w at accepted
  induction accepted generalizing a with
  | nil => exact ⟨a,rests,.refl,reading,start,by simp⟩
  | skip low _ ih =>
    subst start
    have skipped := Step.skip (s:=a.state run) reading low
    obtain ⟨b,resting,path,ended⟩ := ih {a with producer := .reading _}
      ⟨rests.queue,rests.phase,rests.available,rests.inFlight,rests.range,rests.reports,rests.task,
      rests.fine⟩ rfl rfl
    exact ⟨b,resting,.head skipped path,ended⟩
  | send high resolves _ ih =>
    subst start
    obtain ⟨limiter,again,first⟩ := solo_batch one a rests reading high resolves
    obtain ⟨b,resting,path,read,world,answered⟩ := ih _ again rfl rfl
    exact ⟨b,resting,first.trans path,read,world,by simp [answered]⟩

omit one in
theorem task_closes {s : RunState run} (gone : s.AllGone) (empty : s.task.reports = [])
    (idle : s.task.phase = .receiving ∨ s.task.phase = .ended) :
    ∃ task : CheckpointTask, task.phase = .ended ∧ task.failedWrites = s.task.failedWrites ∧
    Path run s {s with task := task} := by
  rcases idle with waiting | stopped
  · have closed := Step.checkpoint (CheckpointTask.Step.close waiting empty gone)
    by_cases dirty : s.task.tracker.dirty
    · rw [if_pos dirty] at closed
      exact ⟨_,by rfl,by rfl,.tail (.single closed) (.checkpoint (.lastWrite true true rfl (fun h => h)))⟩
    · rw [if_neg dirty] at closed
      exact ⟨_,by rfl,by rfl,.single closed⟩
  · exact ⟨s.task,stopped,rfl,.refl⟩

theorem solo_reached (fits : run.batchConfig.maxBytes ≤ run.concurrency.maxInFlightBytes)
    (loaded : ∀ err, run.checkpoint ≠ some (.error err)) (stream : run.batches = batches ++ more)
    (accepted : Accepted run batches w results w') :
    ∃ b : Solo Op Ans W, b.Rests run ∧ ReachedFrom run w (b.state run) ∧ b.producer = .reading more ∧ b.world = w' ∧
      b.answered = results.map fun answer => (answer.1,.ok answer.2) := by
  let first : Solo Op Ans W := {producer := .reading run.batches,available := run.totalPermits,limiter := .new run.adaptive 0,world := w
                                task := {tracker := .start run.resume,stored := run.stored
                                         phase := if run.checkpoint.isSome then .receiving else .ended}}
  have started : runImportWithCheckpoint run w 0 = .ok (first.state run) := by
    unfold runImportWithCheckpoint
    rw [if_neg (by omega),if_neg (by omega)]
    cases checkpoint : run.checkpoint with
    | none => rfl
    | some read => cases read with
      | ok stored => rfl
      | error err => exact (loaded err checkpoint).elim
  have resting : first.Rests run := ⟨rfl,rfl,rfl,rfl,AdaptiveLimiter.new_inRange _ _,rfl,by
    by_cases on : run.checkpoint.isSome <;> simp [first,on],rfl⟩
  obtain ⟨b,rests,path,read,world,answered⟩ := solo_batches one first resting (congrArg _ stream) accepted
  exact ⟨b,rests,⟨0,_,started,path⟩,read,world,answered.trans (List.nil_append _)⟩

theorem solo_prefix (fits : run.batchConfig.maxBytes ≤ run.concurrency.maxInFlightBytes)
    (loaded : ∀ err, run.checkpoint ≠ some (.error err)) (stream : run.batches = batches ++ more)
    (accepted : Accepted run batches w results w') :
    ∃ b : Solo Op Ans W, b.Rests run ∧ Reachable run (b.state run) ∧ b.producer = .reading more ∧ b.world = w' ∧
      b.answered = results.map fun answer => (answer.1,.ok answer.2) := by
  obtain ⟨b,rests,reached,ended⟩ := solo_reached one fits loaded stream accepted
  exact ⟨b,rests,reached.reachable,ended⟩

theorem solo_completes (fits : run.batchConfig.maxBytes ≤ run.concurrency.maxInFlightBytes)
    (loaded : ∀ err, run.checkpoint ≠ some (.error err)) (whole : run.ending = none)
    (accepted : Accepted run run.batches w results w') :
    ∃ s summary, ReachedFrom run w s ∧ s.returned = some (.ok summary) ∧ s.world = w' ∧
      s.answered = (results.map fun answer => (answer.1,.ok answer.2)) ∧ s.task.failedWrites = 0 := by
  have zero : Fin run.concurrency.workers := ⟨0,by omega⟩
  obtain ⟨b,⟨queue,phase,available,inFlight,range,reports,task,fine⟩,reached,read,world,answered⟩ :=
    solo_reached one fits loaded (List.append_nil _).symm accepted
  obtain ⟨producer,free,waiting,where_,total,l,t,last,sent,answers⟩ := b
  dsimp only at queue phase available inFlight range reports task fine read world answered reached
  subst queue phase available read world
  obtain ⟨now,opened,started,path⟩ := reached
  let closed : Solo Op Ans W := {producer := .closed,available := run.totalPermits,total := total,limiter := l,task := t,world := last
                                 sent := sent,answered := answers}
  have finished := Step.finish (s:=Solo.state run {closed with producer := .reading []}) rfl
  rw [whole] at finished
  have locked := Step.lock (s:=closed.state run) (i:=zero) rfl (fun _ receiving => receiving.elim)
  have left := Step.leave (s:=Solo.state run {closed with phase := .receiving}) (i:=zero) rfl rfl rfl
  have joined := Step.join (s:=Solo.state run {closed with phase := .ended (.ok ())}) (i:=zero) rfl rfl
  rw [solo_put one] at locked left joined
  let ended : RunState run := {Solo.state run {closed with phase := .joined (.ok ())} with summary := ImportSummary.merge {} total}
  obtain ⟨task',stopped,same,closes⟩ := task_closes (s:=ended) (fun _ => trivial) reports task
  have returned := Step.finally_ (s:={ended with task := task'}) rfl rfl (fun _ => trivial) stopped
  refine ⟨{ended with task := task',returned := some ended.result},ended.summary,⟨now,opened,started,?_⟩,rfl,rfl,answered,same.trans fine⟩
  exact ((((path.tail finished).tail locked).tail left).tail joined).trans (closes.tail returned)

theorem solo_returns (fits : run.batchConfig.maxBytes ≤ run.concurrency.maxInFlightBytes)
    (loaded : ∀ err, run.checkpoint ≠ some (.error err)) (whole : run.ending = none)
    (accepted : Accepted run run.batches w results w') :
    ∃ s summary, Reachable run s ∧ s.returned = some (.ok summary) ∧ s.world = w' ∧
      s.answered = (results.map fun answer => (answer.1,.ok answer.2)) ∧ s.task.failedWrites = 0 := by
  obtain ⟨s,summary,reached,ended⟩ := solo_completes one fits loaded whole accepted
  exact ⟨s,summary,reached.reachable,ended⟩

theorem solo_fails (fits : run.batchConfig.maxBytes ≤ run.concurrency.maxInFlightBytes)
    (loaded : ∀ err, run.checkpoint ≠ some (.error err)) (stream : run.batches = batches ++ batch :: more)
    (accepted : Accepted run batches w results w') (high : run.resumeFrom < batch.index)
    (refused : Resolves run.answers (run.send batch) w' (.error err) w'') :
    ∃ s, Reachable run s ∧ s.AllGone ∧ s.task.phase = .ended ∧ s.task.failedWrites = 0 ∧
      s.answered = (results.map fun answer => (answer.1,.ok answer.2)) ++ [(batch,.error err)] := by
  have zero : Fin run.concurrency.workers := ⟨0,by omega⟩
  obtain ⟨b,rests,⟨w₀,now,opened,started,path⟩,read,world,answered⟩ := solo_prefix one fits loaded stream accepted
  have failed := solo_answer one b rests read high (world ▸ refused)
  let last := b.answer run batch more (.error err) w''
  let fallen : Solo Op Ans W := {last with phase := .ended (.error err),available := last.available + run.permits batch
                                           limiter := last.limiter.notifyWaiters}
  have died : Step run (last.state run) (fallen.state run) := by
    have step := Step.die (s:=last.state run) (i:=zero) rfl
    rw [solo_put one] at step
    exact step
  obtain ⟨task',stopped,same,closes⟩ := task_closes (s:=fallen.state run) (fun _ => trivial) rests.reports rests.task
  exact ⟨_,⟨w₀,now,opened,started,((path.trans failed).tail died).trans closes⟩,fun _ => trivial,stopped,same.trans rests.fine,
    congrArg (· ++ _) answered⟩

end Solo

end ArangoDataTools.ImportPipeline
