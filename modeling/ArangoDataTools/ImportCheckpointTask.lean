import Mathlib.Algebra.BigOperators.Intervals
import Std.Data.TreeMap.Lemmas
import ArangoDataTools.Manifest

namespace ArangoDataTools

structure BatchDone where
  index : Nat
  documents : Nat
  bytes : Nat
  deriving DecidableEq, Repr

-- The variables of `checkpoint_task`. When a write is due is left to the clock,
-- so `last_write` is not among them.
structure Tracker where
  state : ImportCheckpoint
  nextExpected : Nat
  pending : Std.TreeMap Nat (Nat × Nat) := ∅
  dirty : Bool := false

namespace Tracker

def start (resume : ImportCheckpoint) : Tracker := {state := resume,nextExpected := resume.committedBatches + 1}

def commit (t : Tracker) (documents bytes : Nat) : Tracker :=
  {state := {committedBatches := t.nextExpected,documentsCommitted := t.state.documentsCommitted + documents,
             bytesCommitted := t.state.bytesCommitted + bytes}
   nextExpected := t.nextExpected + 1
   pending := t.pending.erase t.nextExpected
   dirty := true}

-- The inner loop: each turn removes an entry of `pending`.
def drain (t : Tracker) : Tracker :=
  match _ : t.pending[t.nextExpected]? with
  | none => t
  | some (documents,bytes) => drain (t.commit documents bytes)
termination_by t.pending.size
decreasing_by
  rename_i found
  have present : t.nextExpected ∈ t.pending := by simp [Std.TreeMap.mem_iff_isSome_getElem?,found]
  have some_ : t.pending.size ≠ 0 := by
    intro empty
    have none_ := Std.TreeMap.isEmpty_eq_size_eq_zero (t:=t.pending)
    simp [empty,Std.TreeMap.isEmpty_eq_false_iff_exists_mem.mpr ⟨_,present⟩] at none_
  simp only [commit,Std.TreeMap.size_erase,Std.TreeMap.contains_iff_mem.mpr present,if_true]
  omega

def absorb (t : Tracker) (done_ : BatchDone) : Tracker :=
  drain {t with pending := t.pending.insert done_.index (done_.documents,done_.bytes)}

def written (t : Tracker) : Tracker := {t with dirty := false}

-- What the tracker knows when `received` has been absorbed, for batches whose
-- documents and bytes are `sizes`: the mark is the end of an unbroken run from the
-- resume point, the totals are those of that run, and nothing received is lost.
structure Follows (resume : ImportCheckpoint) (sizes : Nat → Nat × Nat) (received : List BatchDone)
    (t : Tracker) : Prop where
  next : t.nextExpected = t.state.committedBatches + 1
  floor : resume.committedBatches ≤ t.state.committedBatches
  unbroken : ∀ j, resume.committedBatches < j → j ≤ t.state.committedBatches → j ∈ received.map BatchDone.index
  documents : t.state.documentsCommitted = resume.documentsCommitted +
    ∑ j ∈ Finset.Ioc resume.committedBatches t.state.committedBatches, (sizes j).1
  bytes : t.state.bytesCommitted = resume.bytesCommitted +
    ∑ j ∈ Finset.Ioc resume.committedBatches t.state.committedBatches, (sizes j).2
  pending : ∀ j size, t.pending[j]? = some size → size = sizes j ∧ j ∈ received.map BatchDone.index
  kept : ∀ j ∈ received.map BatchDone.index, j ≤ t.state.committedBatches ∨ t.pending[j]?.isSome

theorem start_follows (resume : ImportCheckpoint) (sizes : Nat → Nat × Nat) :
    (start resume).Follows resume sizes [] := by
  constructor <;> simp [start]

theorem commit_follows {t : Tracker} (follows : t.Follows resume sizes received)
    (found : t.pending[t.nextExpected]? = some (documents,bytes)) :
    (t.commit documents bytes).Follows resume sizes received := by
  obtain ⟨size,known⟩ := follows.pending _ _ found
  have next := follows.next
  have floor := follows.floor
  constructor
  · rfl
  · simp only [commit]; omega
  · intro j above below
    simp only [commit] at below
    by_cases last : j = t.nextExpected
    · exact last ▸ known
    · exact follows.unbroken j above (by omega)
  · simp only [commit,next,Finset.sum_Ioc_succ_top floor,follows.documents,← Nat.add_assoc]
    rw [← next,← size]
  · simp only [commit,next,Finset.sum_Ioc_succ_top floor,follows.bytes,← Nat.add_assoc]
    rw [← next,← size]
  · intro j size left
    simp only [commit,Std.TreeMap.getElem?_erase] at left
    split at left
    · cases left
    · exact follows.pending j size left
  · intro j reported
    simp only [commit,Std.TreeMap.getElem?_erase]
    rcases follows.kept j reported with below | left
    · exact .inl (by omega)
    · by_cases last : t.nextExpected = j
      · exact .inl (by omega)
      · exact .inr (by simpa [last] using left)

theorem drain_follows {t : Tracker} (follows : t.Follows resume sizes received) :
    t.drain.Follows resume sizes received ∧ t.drain.pending[t.drain.nextExpected]? = none := by
  fun_induction drain t with
  | case1 t found => exact ⟨follows,found⟩
  | case2 t documents bytes found ih => exact ih (commit_follows follows found)

theorem absorb_follows {t : Tracker} {done_ : BatchDone} (follows : t.Follows resume sizes received)
    (sized : sizes done_.index = (done_.documents,done_.bytes)) :
    (t.absorb done_).Follows resume sizes (received ++ [done_]) ∧
      (t.absorb done_).pending[(t.absorb done_).nextExpected]? = none := by
  apply drain_follows
  refine ⟨follows.next,follows.floor,?_,follows.documents,follows.bytes,?_,?_⟩
  · intro j above below
    simp [follows.unbroken j above below]
  · intro j size found
    simp only [Std.TreeMap.getElem?_insert] at found
    split at found
    · rename_i equal
      obtain rfl : done_.index = j := by simpa using equal
      exact ⟨by rw [sized]; simpa using found.symm,by simp⟩
    · obtain ⟨same,known⟩ := follows.pending j size found
      exact ⟨same,by simp [known]⟩
  · intro j reported
    simp only [Std.TreeMap.getElem?_insert]
    by_cases last : done_.index = j
    · exact .inr (by simp [last])
    · have before : j ∈ received.map BatchDone.index := by
        simp only [List.map_append,List.mem_append,List.map_cons,List.map_nil,List.mem_singleton] at reported
        exact reported.resolve_right fun equal => last equal.symm
      rcases follows.kept j before with below | left
      · exact .inl below
      · exact .inr (by simpa [last] using left)

theorem drain_clean {t : Tracker} (clean : t.drain.dirty = false) : t.drain.state = t.state ∧
    t.dirty = false := by
  have moved : t.drain = t ∨ t.drain.dirty = true := by
    clear clean
    fun_induction drain t with
    | case1 t found => exact .inl rfl
    | case2 t documents bytes found ih =>
      refine .inr ?_
      rcases ih with same | dirty
      · rw [same]; rfl
      · exact dirty
  rcases moved with same | dirty
  · rw [same] at clean ⊢
    exact ⟨rfl,clean⟩
  · rw [clean] at dirty
    cases dirty

theorem absorb_clean {t : Tracker} {done_ : BatchDone} (clean : (t.absorb done_).dirty = false) :
    (t.absorb done_).state = t.state ∧ t.dirty = false := drain_clean clean

theorem follows_greatest {t : Tracker} (follows : t.Follows resume sizes received)
    (drained : t.pending[t.nextExpected]? = none) (k : Nat)
    (unbroken : ∀ j, resume.committedBatches < j → j ≤ k → j ∈ received.map BatchDone.index) :
    k ≤ t.state.committedBatches := by
  by_contra beyond
  have next := follows.next
  have floor := follows.floor
  rcases follows.kept t.nextExpected (unbroken _ (by omega) (by omega)) with below | left
  · omega
  · simp [drained] at left

end Tracker
end ArangoDataTools
