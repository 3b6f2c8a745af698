import ArangoDataTools.ImportEnds

namespace ArangoDataTools.ImportPipeline
open Interaction Interaction.Program Tally

variable {Op : Type} {Ans : Op → Type} {W : Type} {run : ImportRun Op Ans W} {s s' : RunState run}

namespace Phase

def permits : Phase Op Ans → Nat
  | gating held | checking held _ | waiting held _ | sending held _ | recording held _ | notifying held _ | reporting held => held.permits
  | _ => 0

def slots : Phase Op Ans → Nat
  | sending _ _ | recording _ _ => 1
  | _ => 0

def notifies : Phase Op Ans → Nat
  | notifying _ _ => 1
  | _ => 0

-- Registered for the notifications after the first `seen` ones.
def Registered (notified : Nat) : Phase Op Ans → Prop
  | checking _ seen | waiting _ seen => seen ≤ notified
  | _ => True

def Asleep (notified : Nat) : Phase Op Ans → Prop
  | waiting _ seen => notified ≤ seen
  | _ => False

end Phase

def Producer.permits : Producer → Nat
  | passing held _ => held.permits
  | _ => 0

def PermitsKept (run : ImportRun Op Ans W) (available : Nat) (producer : Producer) (queue : List Held)
    (workers : Fin n → Worker Op Ans) : Prop :=
  available + producer.permits + (queue.map Held.permits).sum + tally
    (fun w => w.phase.permits) workers = run.totalPermits

def SlotsKept (l : AdaptiveLimiter) (workers : Fin n → Worker Op Ans) : Prop :=
  l.inFlight = tally (fun w => w.phase.slots) workers

-- No worker sleeps through the notification that concerns it: when one sleeps, the
-- limiter is full or a notification is still to come.
def WakesKept (l : AdaptiveLimiter) (workers : Fin n → Worker Op Ans) : Prop :=
  (∀ i, (workers i).phase.Registered l.notified) ∧
  ((∃ i, (workers i).phase.Asleep l.notified) → l.limit ≤ l.inFlight ∨ ∃ i, 0 < (workers i).phase.notifies)

section Permits
variable {workers : Fin n → Worker Op Ans}

theorem permits_update (held : workers i = old) (new : Worker Op Ans) :
    tally (fun w => w.phase.permits) (Function.update workers i new) + old.phase.permits =
      tally (fun w => w.phase.permits) workers + new.phase.permits :=
  @tally_update _ _ _ _ _ _ (fun w : Worker Op Ans => w.phase.permits) _ _ _ held new

theorem permits_put {new : Worker Op Ans} (held : workers i = old)
    (same : new.phase.permits = old.phase.permits)
    (kept : PermitsKept run available producer queue workers) :
    PermitsKept run available producer queue (Function.update workers i new) := by
  have moved := permits_update held new
  unfold PermitsKept at kept ⊢
  omega

theorem permits_receive {new : Worker Op Ans} {taken : Held} (held : workers i = old)
    (gained : new.phase.permits = old.phase.permits + taken.permits)
    (kept : PermitsKept run available producer (taken :: rest) workers) :
    PermitsKept run available producer rest (Function.update workers i new) := by
  have moved := permits_update held new
  simp only [PermitsKept,List.map_cons,List.sum_cons] at kept ⊢
  omega

theorem permits_release {new : Worker Op Ans} {taken : Held} (held : workers i = old)
    (given : old.phase.permits = new.phase.permits + taken.permits)
    (kept : PermitsKept run available producer queue workers) :
    PermitsKept run (available + taken.permits) producer queue (Function.update workers i new) := by
  have moved := permits_update held new
  unfold PermitsKept at kept ⊢
  omega

end Permits

theorem step_permits (step : Step run s s') (kept : PermitsKept run s.available s.producer s.queue s.workers) :
    PermitsKept run s'.available s'.producer s'.queue s'.workers := by
  cases step with
  | skip at_ _ | take at_ _ | finish at_ => simpa [PermitsKept,at_,Producer.permits] using kept
  | acquire at_ enough =>
    simp only [PermitsKept,at_,Producer.permits] at kept ⊢
    omega
  | push at_ _ _ =>
    simp only [PermitsKept,at_,Producer.permits,List.map_append,List.map_cons,List.map_nil,List.sum_append,List.sum_cons,
      List.sum_nil] at kept ⊢
    omega
  | giveUp at_ _ =>
    simp only [PermitsKept,at_,Producer.permits] at kept ⊢
    omega
  | lock held _ | leave held _ _ | register held | enter held _ | wait held _ | wake held _ | call held _ | answer held
  | record _ _ held | succeed held | join _ held | joinFailed _ held => exact permits_put held rfl kept
  | receive held next => exact permits_receive held (Nat.zero_add _).symm (next ▸ kept)
  | die held | report held _ _ | unheard held _ => exact permits_release held (Nat.zero_add _).symm kept
  | closeReceiver _ _ =>
    simp only [PermitsKept,List.map_nil,List.sum_nil] at kept ⊢
    omega
  | checkpoint _ | finally_ _ _ _ _ => exact kept

theorem recorded_releases (run : ImportRun Op Ans W) (outcome : Except Error ImportResult)
    (rtt now : Nat) (l : AdaptiveLimiter) :
    AdaptiveLimiter.Releases run.adaptive l (run.recorded outcome rtt now l) := by
  cases outcome with
  | ok result => exact l.recordSuccess_releases run.adaptive rtt now
  | error err => exact l.recordError_releases run.adaptive _ now

section Slots
variable {workers : Fin n → Worker Op Ans}

theorem slots_update (held : workers i = old) (new : Worker Op Ans) :
    tally (fun w => w.phase.slots) (Function.update workers i new) + old.phase.slots =
      tally (fun w => w.phase.slots) workers + new.phase.slots :=
  @tally_update _ _ _ _ _ _ (fun w : Worker Op Ans => w.phase.slots) _ _ _ held new

theorem slots_put {l next : AdaptiveLimiter} {new : Worker Op Ans} (held : workers i = old)
    (moved : next.inFlight + old.phase.slots = l.inFlight + new.phase.slots) (kept : SlotsKept l workers) :
    SlotsKept next (Function.update workers i new) := by
  have shifted := slots_update held new
  unfold SlotsKept at kept ⊢
  omega

theorem slots_release {l next : AdaptiveLimiter} {new : Worker Op Ans} (held : workers i = old)
    (had : old.phase.slots = 1)
    (none_ : new.phase.slots = 0) (freed : next.inFlight = l.inFlight - 1) (kept : SlotsKept l workers) :
    SlotsKept next (Function.update workers i new) := by
  have shifted := slots_update held new
  unfold SlotsKept at kept ⊢
  omega

end Slots

theorem step_slots (step : Step run s s') (kept : SlotsKept s.limiter s.workers) : SlotsKept s'.limiter s'.workers := by
  cases step with
  | skip | take | finish | acquire | push | giveUp | closeReceiver | checkpoint | finally_ => exact kept
  | lock held _ | receive held _ | leave held _ _ | register held | enter held _ | wait held _ | wake held _ | call held _
  | answer held | succeed held | die held | report held _ _ | unheard held _ | join _ held | joinFailed _ held =>
    exact slots_put held rfl kept
  | record rtt now held => exact slots_release held rfl rfl (recorded_releases run _ rtt now s.limiter).inFlight kept

section Wakes
variable {workers : Fin n → Worker Op Ans} {l next : AdaptiveLimiter} {new : Worker Op Ans}

theorem registered_mono {phase : Phase Op Ans} (more : notified ≤ later)
    (registered : phase.Registered notified) :
    phase.Registered later := by
  cases phase with
  | checking held seen | waiting held seen => exact Nat.le_trans registered more
  | _ => trivial

theorem wakes_put (held : workers i = old) (registered : new.phase.Registered l.notified)
    (awake : ¬new.phase.Asleep l.notified)
    (quiet : old.phase.notifies = new.phase.notifies) (kept : WakesKept l workers) :
    WakesKept l (Function.update workers i new) := by
  refine ⟨forall_update (fun w : Worker Op Ans => w.phase.Registered l.notified) held
    (fun _ => registered) kept.1,?_⟩
  rintro ⟨j,asleep⟩
  have before : ∃ j, (workers j).phase.Asleep l.notified := by
    by_cases same : j = i
    · subst same
      rw [Function.update_self] at asleep
      exact (awake asleep).elim
    · rw [Function.update_of_ne same] at asleep
      exact ⟨j,asleep⟩
  exact (kept.2 before).imp_right
    (exists_update (fun w : Worker Op Ans => 0 < w.phase.notifies) held (fun some_ => quiet ▸ some_))

theorem wakes_full (held : workers i = old)
    (registered : old.phase.Registered l.notified → new.phase.Registered l.notified)
      (full : l.limit ≤ l.inFlight)
    (kept : WakesKept l workers) : WakesKept l (Function.update workers i new) :=
  ⟨forall_update (fun w : Worker Op Ans => w.phase.Registered l.notified) held registered kept.1,
    fun _ => .inl full⟩

theorem wakes_claim (kept : WakesKept l workers) : WakesKept l.claim workers :=
  ⟨kept.1,fun asleep => (kept.2 asleep).imp_left fun full => by simp only [AdaptiveLimiter.claim]; omega⟩

theorem wakes_notifying (held : workers i = old) (registered : new.phase.Registered next.notified)
    (notifies : 0 < new.phase.notifies)
    (more : l.notified ≤ next.notified) (kept : WakesKept l workers) :
    WakesKept next (Function.update workers i new) := by
  refine ⟨forall_update (fun w : Worker Op Ans => w.phase.Registered next.notified) held (fun _ => registered)
    fun j => registered_mono more (kept.1 j),fun _ => .inr ⟨i,?_⟩⟩
  rw [Function.update_self]
  exact notifies

theorem wakes_notified (held : workers i = old) (registered : new.phase.Registered (l.notified + 1))
    (awake : ¬new.phase.Asleep (l.notified + 1)) (kept : WakesKept l workers) :
    WakesKept l.notifyWaiters (Function.update workers i new) := by
  have all : ∀ j, ¬(workers j).phase.Asleep (l.notified + 1) := by
    intro j asleep
    have seen := kept.1 j
    cases phase : (workers j).phase <;> simp only [phase,Phase.Asleep,Phase.Registered] at asleep seen
    omega
  refine ⟨forall_update (fun w : Worker Op Ans => w.phase.Registered (l.notified + 1)) held
    (fun _ => registered)
    fun j => registered_mono (Nat.le_succ _) (kept.1 j),?_⟩
  rintro ⟨j,asleep⟩
  exact (forall_update (fun w : Worker Op Ans => ¬w.phase.Asleep (l.notified + 1)) held
    (fun _ => awake) all j asleep).elim

end Wakes

theorem step_wakes (step : Step run s s') (kept : WakesKept s.limiter s.workers) : WakesKept s'.limiter s'.workers := by
  cases step with
  | skip | take | finish | acquire | push | giveUp | closeReceiver | checkpoint | finally_ => exact kept
  | lock held _ | receive held _ | leave held _ _ | wake held _ | call held _ | answer held | report held _ _ | unheard held _
  | join _ held | joinFailed _ held => exact wakes_put held trivial (fun asleep => asleep) rfl kept
  | register held => exact wakes_put held (Nat.le_refl s.limiter.notified) (fun asleep => asleep) rfl kept
  | enter held _ => exact wakes_put held trivial (fun asleep => asleep) rfl (wakes_claim kept)
  | wait held full => exact wakes_full held (fun seen => seen) full kept
  | record rtt now held =>
    exact wakes_notifying held trivial Nat.one_pos (recorded_releases run _ rtt now s.limiter).notified kept
  | succeed held | die held => exact wakes_notified held trivial (fun asleep => asleep) kept

theorem step_range (step : Step run s s') (range : s.limiter.InRange run.adaptive) :
    s'.limiter.InRange run.adaptive := by
  cases step with
  | record rtt now held => exact (recorded_releases run _ rtt now s.limiter).range range
  | _ => exact range

-- What the wait graph needs to know about a state.
structure Flowing (s : RunState run) : Prop where
  permits : PermitsKept run s.available s.producer s.queue s.workers
  slots : SlotsKept s.limiter s.workers
  wakes : WakesKept s.limiter s.workers
  range : s.limiter.InRange run.adaptive

theorem opening_flowing (world : W) (now : Nat) : Flowing (opening run world now) := by
  refine ⟨?_,?_,⟨fun _ => trivial,?_⟩,AdaptiveLimiter.new_inRange _ _⟩
  · simp [PermitsKept,opening,Producer.permits,tally_zero,Phase.permits]
  · exact (tally_zero fun _ => rfl).symm
  · rintro ⟨i,asleep⟩
    exact asleep.elim

theorem reachable_flowing (reachable : Reachable run s) : Flowing s :=
  reachable_induction opening_flowing (fun _ _ _ flowing step =>
    ⟨step_permits step flowing.permits,step_slots step flowing.slots,step_wakes step flowing.wakes,
      step_range step flowing.range⟩)
    reachable

def CanStep (s : RunState run) : Prop := ∃ s', Step run s s'

namespace Phase

def Idle : Phase Op Ans → Prop
  | locking | receiving | ended _ | joined _ => True
  | _ => False

theorem idle_permits {phase : Phase Op Ans} (idle : phase.Idle) : phase.permits = 0 := by
  cases phase <;> first | rfl | exact idle.elim

end Phase

theorem task_canStep (open_ : s.task.phase ≠ .ended) (next : s.task.reports ≠ [] ∨ s.AllGone) : CanStep s := by
  cases phase : s.task.phase with
  | ended => exact (open_ phase).elim
  | writing => exact ⟨_,.checkpoint (.write true true phase fun h => h)⟩
  | lastWriting => exact ⟨_,.checkpoint (.lastWrite true true phase fun h => h)⟩
  | receiving => cases reports : s.task.reports with
    | cons done_ rest => exact ⟨_,.checkpoint (.receive true phase reports)⟩
    | nil => exact ⟨_,.checkpoint (.close phase reports (next.resolve_left fun some_ => some_ reports))⟩

theorem busy_canStep (answering : ∀ op w, ∃ answer w', run.answers op w answer w')
    (i : Fin run.concurrency.workers)
    (busy : ¬(s.workers i).phase.Idle) (awake : ¬(s.workers i).phase.Asleep s.limiter.notified) :
    CanStep s := by
  cases held : s.workers i with
  | mk phase summary =>
    rw [held] at busy awake
    cases phase with
    | gating taken => exact ⟨_,.register held⟩
    | checking taken seen =>
      by_cases room : s.limiter.inFlight < s.limiter.limit
      · exact ⟨_,.enter held room⟩
      · exact ⟨_,.wait held (by omega)⟩
    | waiting taken seen => exact ⟨_,.wake held (Nat.lt_of_not_le awake)⟩
    | sending taken program => cases program with
      | done result => exact ⟨_,@Step.answer _ _ _ run s i taken (.ok result) summary held⟩
      | fail err => exact ⟨_,@Step.answer _ _ _ run s i taken (.error err) summary held⟩
      | call op next =>
        obtain ⟨answer,world,answered⟩ := answering op s.world
        exact ⟨_,.call held answered⟩
    | recording taken outcome => exact ⟨_,.record 0 0 held⟩
    | notifying taken outcome => cases outcome with
      | ok result => exact ⟨_,.succeed held⟩
      | error err => exact ⟨_,.die held⟩
    | reporting taken =>
      by_cases stopped : s.task.phase = .ended
      · exact ⟨_,.unheard held stopped⟩
      · by_cases room : s.task.reports.length < run.concurrency.workers * 4
        · exact ⟨_,.report held stopped room⟩
        · refine task_canStep stopped (.inl fun none_ => room ?_)
          have some_ := i.pos
          simp only [none_,List.length_nil]
          omega
    | locking | receiving | ended result | joined result => exact (busy trivial).elim

theorem reading_canStep (reading : s.producer = .reading rest) : CanStep s := by
  cases rest with
  | nil => exact ⟨_,.finish reading⟩
  | cons batch rest =>
    by_cases low : batch.index ≤ run.resumeFrom
    · exact ⟨_,.skip reading low⟩
    · exact ⟨_,.take reading (by omega)⟩

theorem acquiring_canStep (flowing : Flowing s) (idle : ∀ i, (s.workers i).phase.Idle) (empty : s.queue = [])
    (acquiring : s.producer = .acquiring batch rest) : CanStep s := by
  have permits := flowing.permits
  have free : tally (fun w => w.phase.permits) s.workers = 0 := tally_zero fun i => Phase.idle_permits (idle i)
  simp only [PermitsKept,acquiring,Producer.permits,empty,free,List.map_nil,List.sum_nil] at permits
  have enough : run.permits batch ≤ run.totalPermits := permitsFor_le _ _
  exact ⟨_,.acquire acquiring (by omega)⟩

theorem receiving_canStep (flowing : Flowing s) (orderly : Orderly s) (idle : ∀ i, (s.workers i).phase.Idle)
    (held : s.workers i = ⟨.receiving,summary⟩) : CanStep s := by
  cases empty : s.queue with
  | cons taken rest => exact ⟨_,.receive held empty⟩
  | nil => cases producer : s.producer with
    | closed => exact ⟨_,.leave held empty producer⟩
    | reading rest => exact reading_canStep producer
    | acquiring batch rest => exact acquiring_canStep flowing idle empty producer
    | passing taken rest =>
      have open_ : s.receiver = true := by
        by_contra shut
        have gone := (orderly.receiver (by simpa using shut)).1 i
        simp [held,Phase.Gone] at gone
      have some_ := i.pos
      exact ⟨_,.push producer open_ (by simp only [empty,List.length_nil]; omega)⟩

theorem gone_canStep (flowing : Flowing s) (orderly : Orderly s) (running : s.returned = none)
    (gone : s.AllGone) : CanStep s := by
  by_cases open_ : s.receiver = true
  · exact ⟨_,.closeReceiver open_ gone⟩
  have shut : s.receiver = false := by simpa using open_
  have idle : ∀ i, (s.workers i).phase.Idle := fun i => by
    have gone := gone i
    cases phase : (s.workers i).phase <;> first | trivial | simp [phase,Phase.Gone] at gone
  have empty := (orderly.receiver shut).2
  cases producer : s.producer with
  | reading rest => exact reading_canStep producer
  | acquiring batch rest => exact acquiring_canStep flowing idle empty producer
  | passing taken rest => exact ⟨_,.giveUp producer shut⟩
  | closed =>
    by_cases joined : ∀ i, (s.workers i).phase.IsJoined
    · by_cases stopped : s.task.phase = .ended
      · exact ⟨_,.finally_ running producer joined stopped⟩
      · exact task_canStep stopped (.inr gone)
    · push Not at joined
      obtain ⟨i,waiting⟩ := joined
      have gone := gone i
      cases held : s.workers i with
      | mk phase summary =>
        rw [held] at waiting gone
        cases phase with
        | ended result => cases result with
          | ok value => exact ⟨_,.join producer held⟩
          | error err => exact ⟨_,.joinFailed producer held⟩
        | joined result => exact (waiting trivial).elim
        | _ => exact gone.elim

-- The pipeline never gets stuck: until it has returned, some task can move.
theorem import_never_deadlocks (run : ImportRun Op Ans W) (answering : ∀ op w, ∃ answer w',
    run.answers op w answer w')
    (s : RunState run) (reachable : Reachable run s) (running : s.returned = none) : ∃ s', Step run s s' := by
  have flowing := reachable_flowing reachable
  have orderly := reachable_orderly reachable
  by_cases busy : ∃ i, ¬(s.workers i).phase.Idle ∧ ¬(s.workers i).phase.Asleep s.limiter.notified
  · obtain ⟨i,busy,awake⟩ := busy
    exact busy_canStep answering i busy awake
  push Not at busy
  have nobody : ∀ i, (s.workers i).phase.Idle := by
    intro i
    by_contra active
    have asleep := busy i active
    rcases flowing.wakes.2 ⟨i,asleep⟩ with full | ⟨j,notifies⟩
    · have floor : 1 ≤ s.limiter.limit := flowing.range.1
      have slots := flowing.slots
      unfold SlotsKept at slots
      obtain ⟨j,sends⟩ := tally_pos_iff.mp
          (show 0 < tally (fun w : Worker Op Ans => w.phase.slots) s.workers by omega)
      have idle := busy j
      cases phase : (s.workers j).phase <;> simp [phase,Phase.slots,Phase.Idle,Phase.Asleep] at sends idle
    · have idle := busy j
      cases phase : (s.workers j).phase <;> simp [phase,Phase.notifies,Phase.Idle,Phase.Asleep] at notifies idle
  by_cases receiving : ∃ i, (s.workers i).phase.IsReceiving
  · obtain ⟨i,receives⟩ := receiving
    cases held : s.workers i with
    | mk phase summary =>
      rw [held] at receives
      cases phase with
      | receiving => exact receiving_canStep flowing orderly nobody held
      | _ => exact receives.elim
  push Not at receiving
  by_cases gone : s.AllGone
  · exact gone_canStep flowing orderly running gone
  unfold State.AllGone at gone
  push Not at gone
  obtain ⟨i,present⟩ := gone
  cases held : s.workers i with
  | mk phase summary =>
    have idle := nobody i
    have other := receiving i
    rw [held] at present idle other
    cases phase with
    | locking => exact ⟨_,.lock held receiving⟩
    | receiving => exact (other trivial).elim
    | ended result | joined result => exact (present trivial).elim
    | _ => exact idle.elim

-- Two workers under the governor and a checkpoint; the sender may answer anything,
-- and the document alone takes more than the whole byte budget.
def tightRun : ImportRun Unit (fun _ => Except Error ImportResult) Unit :=
  {documents := [.ok .null],toVec := fun _ => .ok [110,117,108,108],batchConfig := {maxBytes := 1,maxDocs := 1}
   concurrency := {workers := 2,maxInFlightBytes := 1,adaptive := true}
   send := fun _ => .call () lift,answers := fun _ _ _ _ => True,checkpoint := some (.ok none)}

theorem tightRun_moves : ∃ s', Step tightRun (opening tightRun () 0) s' :=
  import_never_deadlocks tightRun (fun _ _ => ⟨.ok {},(),trivial⟩) _ ⟨(),0,_,rfl,.refl⟩ rfl

end ArangoDataTools.ImportPipeline
