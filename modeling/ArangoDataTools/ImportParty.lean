import ArangoDataTools.ImportRejection

namespace ArangoDataTools.ImportPipeline
open Interaction Interaction.Program Tally

variable {Op : Type} {Ans : Op → Type} {W : Type} {n : Nat} {run : ImportRun Op Ans W}
  {s s' : RunState run} {w w' : W}

-- An import beside other parties that use the same server: it finds the world as
-- they left it.
def State.at_ (s : State n Op Ans W) (w : W) : State n Op Ans W := {s with world := w}

def ImportRun.blurred (run : ImportRun Op Ans W) : ImportRun Op Ans Unit :=
  {documents := run.documents,toVec := run.toVec,batchConfig := run.batchConfig,
    concurrency := run.concurrency,send := run.send
   answers := fun _ _ _ _ => True,checkpoint := run.checkpoint}

def State.blur (s : State n Op Ans W) : State n Op Ans Unit :=
  {producer := s.producer,available := s.available,queue := s.queue,receiver := s.receiver,
    workers := s.workers,limiter := s.limiter
   task := s.task,summary := s.summary,firstError := s.firstError,returned := s.returned,world :=
     (),sent := s.sent
   answered := s.answered,dropped := s.dropped}

@[simp] theorem blur_at (s : State n Op Ans W) (w : W) : (s.at_ w).blur = s.blur := rfl

theorem step_blur (step : Step run s s') : @Step Op Ans Unit run.blurred s.blur s'.blur := by
  cases step with
  | skip at_ low => exact .skip at_ low
  | take at_ high => exact .take at_ high
  | finish at_ => exact .finish at_
  | acquire at_ room => exact .acquire at_ room
  | push at_ open_ room => exact .push at_ open_ room
  | giveUp at_ closed => exact .giveUp at_ closed
  | lock held free => exact .lock held free
  | receive held next => exact .receive held next
  | leave held empty closed => exact .leave held empty closed
  | register held => exact .register held
  | enter held room => exact .enter held room
  | wait held full => exact .wait held full
  | wake held notified => exact .wake held notified
  | call held _ => exact .call held trivial
  | answer held => exact .answer held
  | record rtt now held => exact .record rtt now held
  | succeed held => exact .succeed held
  | die held => exact .die held
  | report held open_ room => exact .report held open_ room
  | unheard held ended => exact .unheard held ended
  | closeReceiver open_ gone => exact .closeReceiver open_ gone
  | checkpoint moved => exact .checkpoint moved
  | join closed held => exact .join closed held
  | joinFailed closed held => exact .joinFailed closed held
  | finally_ none_ closed joined ended => exact .finally_ none_ closed joined ended

theorem started_blur {opened : RunState run} {now : Nat}
    (started : runImportWithCheckpoint run w now = .ok opened) :
    Reachable run.blurred opened.blur := by
  refine ⟨(),now,opened.blur,?_,.refl⟩
  unfold runImportWithCheckpoint at started ⊢
  split at started
  · cases started
  · rename_i some_
    split at started
    · cases started
    · rename_i fits
      rw [show (if run.blurred.concurrency.workers = 0 then _ else _) = _ from if_neg some_,
        show (if run.blurred.batchConfig.maxBytes > run.blurred.concurrency.maxInFlightBytes then _
          else _) = _ from if_neg fits]
      split at started
      · cases started
      · rename_i unfailing
        cases started
        cases loaded : run.checkpoint with
        | none => simp only [ImportRun.blurred,loaded]; rfl
        | some read =>
          cases read with
          | error err => exact absurd loaded (unfailing err)
          | ok stored => simp only [ImportRun.blurred,loaded]; rfl

theorem moved_blur (reachable : Reachable run.blurred s.blur) (step : Step run (s.at_ w) s') :
    Reachable run.blurred s'.blur := by
  obtain ⟨start,now,opened,started,path⟩ := reachable
  have moved : Step run.blurred (s.at_ w).blur s'.blur := step_blur step
  exact ⟨start,now,opened,started,path.tail moved⟩

section Ends

def CutShort (s : RunState run) : Prop := s.producer = .closed → s.dropped ≠ []

theorem step_cut (step : Step run s s') (cut : CutShort s) : CutShort s' ∨
    s.producer = .reading [] ∧ s'.producer = .closed := by
  cases step with
  | skip _ _ | take _ _ | acquire _ _ | push _ _ _ => exact .inl nofun
  | finish at_ => exact .inr ⟨at_,rfl⟩
  | giveUp _ _ => exact .inl fun _ => List.append_ne_nil_of_right_ne_nil _ (List.cons_ne_nil _ _)
  | closeReceiver _ _ => exact .inl fun closed => List.append_ne_nil_of_left_ne_nil (cut closed) _
  | _ => exact .inl cut

end Ends

section Landings

structure SingleCall (run : ImportRun Op Ans W) (landed : W → Batch → ImportResult → Prop) : Prop where
  calls : ∀ batch outcome, run.send batch ≠ lift outcome
  lands : ∀ batch op next w answer w', batch ∈ run.batches → run.send batch = .call op next →
    run.answers op w answer w' →
    ∃ outcome, next answer = lift outcome ∧ ∀ result, outcome = .ok result → landed w' batch result
  lasts : ∀ sent batch op next w answer w', sent ∈ run.batches → run.send sent = .call op next →
    run.answers op w answer w' →
    ∀ result, landed w batch result → landed w' batch result

def Phase.Answered (run : ImportRun Op Ans W) (landed : Batch → ImportResult → Prop) : Phase Op Ans → Prop
  | sending held program => program = run.send held.batch ∨
      ∃ outcome, program = lift outcome ∧ ∀ result, outcome = .ok result → landed held.batch result
  | _ => True

structure Landing (landed : W → Batch → ImportResult → Prop) (s : RunState run) (w : W) : Prop where
  workers : ∀ i, (s.workers i).phase.Answered run (landed w)
  answered : ∀ answer ∈ acknowledged s.answered, landed w answer.1 answer.2

variable {landed : W → Batch → ImportResult → Prop}

theorem lift_inj {one two : Except Error ImportResult}
    (same : (lift one : Program Op Ans Error ImportResult) = lift two) : one = two := by
  cases one <;> cases two <;> cases same <;> rfl

theorem answered_mono {phase : Phase Op Ans} {landed landed' : Batch → ImportResult → Prop}
    (lasts : ∀ batch result, landed batch result → landed' batch result)
      (answered : phase.Answered run landed) :
    phase.Answered run landed' := by
  cases phase with
  | sending held program =>
    rcases answered with still | ⟨outcome,same,lands⟩
    · exact .inl still
    · exact .inr ⟨outcome,same,fun result ok => lasts _ _ (lands result ok)⟩
  | _ => trivial

theorem landing_mono (lasts : ∀ batch result, landed w batch result → landed w' batch result)
    (landing : Landing landed s w) :
    Landing landed s w' :=
  ⟨fun i => answered_mono lasts (landing.workers i),fun answer present =>
    lasts _ _ (landing.answered answer present)⟩

theorem opening_landing (world : W) (now : Nat) : Landing landed (opening run world now) w :=
  ⟨fun _ => trivial,fun answer present => by cases present⟩

theorem sending_wanted (reachable : Reachable run s) (held : s.workers i = ⟨.sending taken program,summary⟩) :
    taken.batch ∈ run.batches := by
  obtain ⟨all,answered⟩ := reachable_ledger (fun other => if other = taken.batch then 1 else 0) reachable
  simp only [weigh_count] at all answered
  have own : 0 < tally (fun w : Worker Op Ans => w.phase.inSend fun other => if other =
      taken.batch then 1 else 0) s.workers :=
    tally_pos_iff.mpr ⟨i,by simp [held,Phase.inSend]⟩
  have wanted : taken.batch ∈ run.wanted run.batches := List.count_pos_iff.mp (by omega)
  exact List.mem_of_mem_filter wanted

theorem step_landing (single : SingleCall run landed) (inside : ∀ i taken program summary,
      s.workers i = ⟨.sending taken program,summary⟩ → taken.batch ∈ run.batches)
    (step : Step run s s') (landing : Landing landed s s.world) :
    Landing landed s' s'.world ∧ (s'.world = s.world ∨ ∃ batch ∈ run.batches, ∃ op next answer,
      run.send batch = .call op next ∧ run.answers op s.world answer s'.world) := by
  obtain ⟨workers,answers⟩ := landing
  have same : ∀ {i old} {new : Worker Op Ans}, s.workers i = old →
      (old.phase.Answered run (landed s.world) → new.phase.Answered run (landed s.world)) →
      ∀ j, (Function.update s.workers i new j).phase.Answered run (landed s.world) := fun held keeps =>
    forall_update (fun w : Worker Op Ans => w.phase.Answered run (landed s.world)) held keeps workers
  have at_ : ∀ {i old}, s.workers i = old → old.phase.Answered run (landed s.world) :=
    fun held => held ▸ workers _
  cases step with
  | skip | take | finish | acquire | push | giveUp | closeReceiver | checkpoint | finally_ =>
      exact ⟨⟨workers,answers⟩,.inl rfl⟩
  | lock held _ | receive held _ | leave held _ _ | register held | wait held _ | wake held _ | record _ _ held
  | succeed held | die held | report held _ _ | unheard held _ | join _ held | joinFailed _ held =>
    exact ⟨⟨same held fun _ => trivial,answers⟩,.inl rfl⟩
  | enter held room => exact ⟨⟨same held fun _ => .inl rfl,answers⟩,.inl rfl⟩
  | @call op answer world _ i taken next summary held answered =>
    rcases at_ held with still | ⟨outcome,same_,-⟩
    · have present := inside _ _ _ _ held
      obtain ⟨outcome,made,lands⟩ := single.lands _ _ _ _ _ _ present still.symm answered
      have lasts : ∀ batch result, landed s.world batch result → landed world batch result :=
        fun batch result =>
        single.lasts _ batch _ _ _ _ _ present still.symm answered result
      refine ⟨⟨?_,fun answer present => lasts _ _ (answers answer present)⟩,
        .inr ⟨_,present,_,_,_,still.symm,answered⟩⟩
      exact forall_update (fun w : Worker Op Ans => w.phase.Answered run (landed world)) held
        (fun _ => .inr ⟨outcome,made,lands⟩) fun j => answered_mono lasts (workers j)
    · cases outcome <;> cases same_
  | @answer _ _ _ outcome _ held =>
    refine ⟨⟨same held fun _ => trivial,fun answer present => ?_⟩,.inl rfl⟩
    rcases at_ held with still | ⟨other,same_,lands⟩
    · exact absurd still.symm (single.calls _ _)
    · obtain rfl := lift_inj same_
      cases outcome with
      | ok result =>
        rw [acknowledged_ok] at present
        rcases List.mem_append.mp present with earlier | last
        · exact answers answer earlier
        · cases List.mem_singleton.mp last
          exact lands result rfl
      | error err =>
        rw [acknowledged_error] at present
        exact answers answer present

end Landings

section Counts

variable {documents : List Value} {line : Value → Bytes} {verdicts : List (Batch × List Outcome)}
  {answers : List (Batch × ImportResult)}

theorem outcome_counts (outcomes : List Outcome) (never : .updated ∉ outcomes) :
    outcomes.count .created + outcomes.count .ignored + outcomes.count .rejected = outcomes.length := by
  induction outcomes with
  | nil => rfl
  | cons outcome rest ih =>
    simp only [List.mem_cons,not_or] at never
    have tail := ih never.2
    cases outcome with
    | updated => exact absurd rfl never.1
    | _ => simp only [List.count_cons,List.length_cons]; simp; omega

structure Told (answers : List (Batch × ImportResult)) (verdicts : List (Batch × List Outcome)) : Prop where
  tells : List.Forall₂ Tells answers verdicts
  keeps : ∀ verdict ∈ verdicts, .updated ∉ verdict.2

theorem told_counts (told : Told answers verdicts) :
    (ImportSummary.totals answers).created + (ImportSummary.totals answers).ignored +
      (ImportSummary.totals answers).errors =
      UInt64.ofNat (answers.map fun answer => answer.1.documents).sum := by
  obtain ⟨tells,keeps⟩ := told
  induction tells with
  | nil => rfl
  | @cons answer verdict answers verdicts tells _ ih =>
    have tail := ih fun verdict inside => keeps verdict (List.mem_cons_of_mem _ inside)
    have counts := outcome_counts verdict.2 (keeps verdict List.mem_cons_self)
    have here : answer.2.created + answer.2.ignored + answer.2.errors = UInt64.ofNat answer.1.documents := by
      rw [← tells.all,← counts,← tells.created,← tells.ignored,← tells.errors]
      simp only [UInt64.ofNat_add,UInt64.ofNat_toNat]
    rw [List.map_cons,List.sum_cons,UInt64.ofNat_add,← here,← tail]
    change answer.2.created + (ImportSummary.totals answers).created +
      (answer.2.ignored + (ImportSummary.totals answers).ignored) +
      (answer.2.errors + (ImportSummary.totals answers).errors) = _
    ac_rfl

structure Loads (run : ImportRun Op Ans W) (line : Value → Bytes) (documents : List Value) : Prop where
  documents : run.documents = documents.map .ok
  toVec : run.toVec = fun document => .ok (line document)
  checkpoint : run.checkpoint = none

theorem loads_carries (loads : Loads run line documents) : Carries line run.batches documents := by
  unfold ImportRun.batches
  rw [loads.documents,loads.toVec]
  exact (intoBatches_carries run.batchConfig documents).1

theorem loads_wanted (loads : Loads run line documents) : run.wanted run.batches = run.batches := by
  refine List.filter_eq_self.mpr fun batch inside => decide_eq_true ?_
  have start : run.resumeFrom = 0 := by
    unfold ImportRun.resumeFrom ImportRun.resume ImportRun.stored
    rw [loads.checkpoint]
    rfl
  have numbered : batch.index ∈ List.range' 1 run.batches.length :=
    intoBatches_indices run.toVec run.documents run.batchConfig ▸ List.mem_map_of_mem inside
  rw [start]
  exact (List.mem_range'_1.mp numbered).1

theorem carries_count {batches : List Batch} (carries : Carries line batches documents) :
    (batches.map Batch.documents).sum = documents.length := by
  induction carries with
  | nil => rfl
  | cons _ count _ _ ih => rw [List.map_cons,List.sum_cons,ih,count,List.length_append]

theorem loads_counts (loads : Loads run line documents) (reachable : Reachable run s) {summary : ImportSummary}
    (returned : s.returned = some (.ok summary)) (told : Told (acknowledged s.answered) verdicts) :
    summary.created + summary.ignored + summary.errors = UInt64.ofNat documents.length ∧
      summary.errors = UInt64.ofNat (rejections verdicts) := by
  have total := returned_totals reachable returned
  have counts := told_counts told
  have batches := (returned_acknowledged reachable returned).map Batch.documents
  rw [loads_wanted loads,List.map_map] at batches
  have sizes : ((acknowledged s.answered).map fun answer => answer.1.documents).sum = documents.length := by
    rw [← carries_count (loads_carries loads)]
    exact batches.sum_nat
  rw [total]
  exact ⟨counts.trans (congrArg UInt64.ofNat sizes),told_errors told.tells⟩

end Counts

end ArangoDataTools.ImportPipeline
