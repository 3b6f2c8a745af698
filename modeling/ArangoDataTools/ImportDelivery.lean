import Mathlib.Data.List.Count
import ArangoDataTools.ImportLedger
import ArangoDataTools.ImportEnds
import ArangoDataTools.ImportSolo

namespace ArangoDataTools.ImportPipeline
open Interaction Interaction.Program Tally

variable {Op : Type} {Ans : Op → Type} {W : Type} {run : ImportRun Op Ans W} {s : RunState run}

theorem weigh_count (batch : Batch) (batches : List Batch) :
    weigh (fun other => if other = batch then 1 else 0) batches = batches.count batch :=
    indicator_sum batch batches

theorem wanted_nodup (run : ImportRun Op Ans W) : ((run.wanted run.batches).map Batch.index).Nodup :=
  (intoBatches_nodup run.toVec run.documents run.batchConfig).sublist (List.filter_sublist.map _)

theorem sent_wanted (reachable : Reachable run s) : s.sent.Subperm (run.wanted run.batches) := by
  refine List.subperm_ext_iff.mpr fun batch _ => ?_
  obtain ⟨all,-⟩ := reachable_ledger (fun other => if other = batch then 1 else 0) reachable
  simp only [weigh_count] at all
  omega

theorem sent_fresh (reachable : Reachable run s) : (s.sent.map Batch.index).Nodup := by
  obtain ⟨part,same,inside⟩ := sent_wanted reachable
  exact (same.map Batch.index).nodup_iff.mp ((wanted_nodup run).sublist (inside.map _))

theorem sent_beyond (reachable : Reachable run s) (present : batch ∈ s.sent) :
    run.resumeFrom < batch.index := by
  have wanted := (sent_wanted reachable).subset present
  simpa [ImportRun.wanted] using (List.mem_filter.mp wanted).2

theorem answered_ok (answered : List (Batch × Except Error ImportResult)) (none_ : refused answered = 0) :
    (acknowledged answered).map Prod.fst = answered.map Prod.fst := by
  induction answered with
  | nil => rfl
  | cons answer rest ih =>
    obtain ⟨batch,outcome⟩ := answer
    cases outcome with
    | ok result => simpa [acknowledged] using ih (by simpa [refused] using none_)
    | error err => simp [refused] at none_

theorem answered_wanted (reachable : Reachable run s) (present : batch ∈ s.answered.map Prod.fst) :
    batch ∈ run.wanted run.batches := by
  obtain ⟨all,answered⟩ := reachable_ledger (fun other => if other = batch then 1 else 0) reachable
  simp only [weigh_count] at all answered
  have some_ := List.count_pos_iff.mpr present
  exact List.count_pos_iff.mp (by omega)

theorem mem_acknowledged {answered : List (Batch × Except Error ImportResult)} :
    (batch,result) ∈ acknowledged answered ↔ (batch,.ok result) ∈ answered := by
  simp only [acknowledged,List.mem_filterMap]
  constructor
  · rintro ⟨⟨other,outcome⟩,present,found⟩
    cases outcome with
    | ok value =>
      obtain ⟨rfl,rfl⟩ : other = batch ∧ value = result := by simpa using found
      exact present
    | error err => cases found
  · exact fun present => ⟨_,present,rfl⟩

theorem acknowledged_wanted (reachable : Reachable run s) (present : answer ∈ acknowledged s.answered) :
    answer.1 ∈ run.wanted run.batches :=
  answered_wanted reachable (List.mem_map_of_mem (mem_acknowledged.mp present))

theorem exited_phase {phase : Phase Op Ans} (joined : phase.IsJoined) (exited : phase.Exited) :
    phase = .joined (.ok ()) := by
  cases phase with
  | joined result => cases result with
    | ok value => rfl
    | error err => exact exited.elim
  | _ => exact joined.elim

theorem returned_settled (reachable : Reachable run s) (returned : s.returned = some (.ok summary)) :
    run.ending = none ∧ (∀ i, (s.workers i).phase = .joined (.ok ())) ∧ s.producer = .closed ∧
    s.queue = [] ∧ s.dropped = [] ∧
      s.summary = summary := by
  have orderly := reachable_orderly reachable
  obtain ⟨closed,joined,ended,result⟩ := orderly.returned _ returned
  obtain ⟨none_,same⟩ : s.firstError = none ∧ s.summary = summary := by
    unfold State.result at result
    cases found : s.firstError with
    | some err => simp [found] at result
    | none => exact ⟨rfl,by simpa [found] using result.symm⟩
  have exited : ∀ i, (s.workers i).phase = .joined (.ok ()) := fun i =>
    exited_phase (joined i) ((orderly.joins i (joined i)).2 none_)
  have sound : ¬SomeFailed s := by
    rintro ⟨i,failed⟩
    simp [exited i,Phase.Failed] at failed
  refine ⟨(orderly.error closed none_).resolve_right sound,exited,closed,?_,?_,same⟩
  · exact (orderly.exits ⟨0,reachable_workers reachable⟩ (by simp [exited,Phase.Exited])).2
  · by_contra lost
    exact sound (orderly.drops lost)

theorem reachable_counted (reachable : Reachable run s) : Counted s.workers s.answered s.summary := by
  refine reachable_induction ?_ (fun _ _ _ counted step => step_counted step counted) reachable
  intro world now
  refine ⟨tally_zero fun i => ?_,tally_zero fun i => rfl,tally_zero fun i => rfl⟩
  rfl

theorem returned_refused (reachable : Reachable run s)
    (returned : s.returned = some (.ok summary)) : refused s.answered = 0 := by
  obtain ⟨-,exited,-⟩ := returned_settled reachable returned
  obtain ⟨-,failing,-⟩ := reachable_counted reachable
  rw [← failing]
  exact tally_zero fun i => by simp [exited,Phase.failing]

theorem returned_counts (reachable : Reachable run s) (returned : s.returned = some (.ok summary))
    (batch : Batch) :
    (run.wanted run.batches).count batch = s.sent.count batch ∧
      s.sent.count batch = (s.answered.map Prod.fst).count batch := by
  obtain ⟨-,exited,closed,empty,kept,-⟩ := returned_settled reachable returned
  obtain ⟨everywhere,answered⟩ := reachable_ledger (fun other => if other = batch then 1 else 0) reachable
  rw [closed,empty,kept,tally_zero fun i => by simp [exited,Phase.unsent]] at everywhere
  rw [tally_zero fun i => by simp [exited,Phase.inSend]] at answered
  simp only [weigh_count,Producer.ahead,List.map_nil,List.count_nil] at everywhere answered
  omega

theorem returned_acknowledged (reachable : Reachable run s) (returned : s.returned = some (.ok summary)) :
    ((acknowledged s.answered).map Prod.fst).Perm (run.wanted run.batches) := by
  rw [answered_ok _ (returned_refused reachable returned)]
  refine List.perm_iff_count.mpr fun batch => ?_
  obtain ⟨sent,answered⟩ := returned_counts reachable returned batch
  exact (sent.trans answered).symm

theorem returned_totals (reachable : Reachable run s) (returned : s.returned = some (.ok summary)) :
    summary = .totals (acknowledged s.answered) := by
  obtain ⟨-,exited,-,-,-,same⟩ := returned_settled reachable returned
  obtain ⟨recorded,-,merged⟩ := reachable_counted reachable
  rw [← same,← merged,← recorded]
  exact Finset.sum_congr rfl fun i _ => by simp [exited,Phase.merged,Phase.unrecorded]

-- Every batch beyond the resume point is sent exactly once, or the run reports an error.
theorem each_batch_sent_once (run : ImportRun Op Ans W) (s : RunState run) (reachable : Reachable run s) :
    (s.sent.map Batch.index).Nodup ∧ (∀ batch ∈ s.sent, run.resumeFrom < batch.index) ∧
      ∀ summary, s.returned = some (.ok summary) →
        run.ending = none ∧ s.sent.Perm (run.wanted run.batches) ∧
          ((acknowledged s.answered).map Prod.fst).Perm (run.wanted run.batches) ∧
          summary = .totals (acknowledged s.answered) := by
  refine ⟨sent_fresh reachable,fun batch present => sent_beyond reachable present,?_⟩
  intro summary returned
  refine ⟨(returned_settled reachable returned).1,?_,returned_acknowledged reachable returned,
    returned_totals reachable returned⟩
  exact List.perm_iff_count.mpr fun batch => (returned_counts reachable returned batch).1.symm

-- Two documents in two batches, sent by one worker.
def sampleRun : ImportRun Empty (fun _ => Unit) Unit :=
  {documents := [.ok (.bool false),.ok (.bool true)],toVec := fun _ => .ok [49],batchConfig := {maxDocs := 1}
   concurrency := {workers := 1,maxInFlightBytes := 2 ^ 23,adaptive := true}
   send := fun batch => done {created := UInt64.ofNat batch.documents},answers := fun _ _ _ _ => True}

theorem sample_accepted : Accepted sampleRun sampleRun.batches ()
    [(⟨[49,10],1,1⟩,{created := 1}),(⟨[49,10],1,2⟩,{created := 1})] () :=
  .send (by decide) (@Resolves.lift _ _ _ _ (.ok _) _)
    (.send (by decide) (@Resolves.lift _ _ _ _ (.ok _) _) .nil)

theorem sample_batches_sent_once : ∃ s : RunState sampleRun,
    s.sent.Perm sampleRun.batches ∧
    s.returned = some (.ok {created := 2,batches := 2,documentsSent := 2,bytesSent := 4}) := by
  obtain ⟨s,summary,reachable,returned,-,answered,-⟩ :=
    solo_returns rfl (by decide) (by simp [sampleRun]) rfl sample_accepted
  obtain ⟨-,-,settled⟩ := each_batch_sent_once sampleRun s reachable
  obtain ⟨-,sent,-,total⟩ := settled summary returned
  refine ⟨s,sent,?_⟩
  rw [returned,total,answered]
  rfl

end ArangoDataTools.ImportPipeline
