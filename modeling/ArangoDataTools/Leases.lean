import Mathlib.Data.List.Basic
import ArangoDataTools.Triples

namespace Interaction
open Program

variable {Op : Type} {Ans : Op → Type} {ε α β W : Type}

-- What an observer of a program sees: each operation with the answer it got.
abbrev Answered (Op : Type) (Ans : Op → Type) : Type := (op : Op) × Ans op

-- The environment that may answer anything and writes down what it answered.
def recorded : Answering Op Ans (List (Answered Op Ans)) :=
  fun op log answer log' => log' = log ++ [⟨op,answer⟩]

-- One schedule of answers; each may depend on everything before it.
def scheduled (schedule : List (Answered Op Ans) → (op : Op) → Ans op) :
    Handler Op Ans (List (Answered Op Ans)) :=
  fun op log => (schedule log op,log ++ [⟨op,schedule log op⟩])

theorem scheduled_recorded (schedule : List (Answered Op Ans) → (op : Op) → Ans op)
    (p : Program Op Ans ε α) (log : List (Answered Op Ans)) :
    Runs recorded p log (lift (run (scheduled schedule) p log).1) (run (scheduled schedule) p log).2 :=
  runs_of_run (scheduled schedule) (fun _ _ => rfl) p log

end Interaction

structure Leasing (E L : Type) where
  takes : E → Option L
  returns : E → Option L
  needs : E → Option L

namespace Leasing
variable {E L : Type} (leasing : Leasing E L) {log : List E} {event : E} {lease : L} {held : List L}

def Outstanding (log : List E) (lease : L) : Prop :=
  ∃ before event after, log = before ++ event :: after ∧ leasing.takes event = some lease ∧
    ∀ later ∈ after, leasing.returns later ≠ some lease

def Settled (log : List E) : Prop := ∀ lease, ¬ leasing.Outstanding log lease

-- A lease is needed only while it is outstanding.
def Covered (log : List E) : Prop :=
  ∀ before event after lease, log = before ++ event :: after → leasing.needs event = some lease →
    leasing.Outstanding before lease

variable {leasing}

theorem outstanding_nil : ¬ leasing.Outstanding [] lease := by
  rintro ⟨before,event,after,none_,-⟩
  simp at none_

theorem split_last {before after : List E} {one : E} (same : log ++ [event] = before ++ one :: after) :
    (after = [] ∧ before = log ∧ one = event) ∨ ∃ rest, after = rest ++ [event] ∧
    log = before ++ one :: rest := by
  rcases List.eq_nil_or_concat after with rfl | ⟨rest,last,rfl⟩
  · obtain ⟨front,last⟩ := List.append_inj' same rfl
    exact .inl ⟨rfl,front.symm,(List.singleton_inj.mp last).symm⟩
  · rw [List.concat_eq_append,← List.cons_append,← List.append_assoc] at same
    obtain ⟨front,last⟩ := List.append_inj' same rfl
    obtain rfl := List.singleton_inj.mp last
    exact .inr ⟨rest,List.concat_eq_append,front⟩

theorem outstanding_append : leasing.Outstanding (log ++ [event]) lease ↔
    leasing.takes event = some lease ∨ leasing.Outstanding log lease ∧ leasing.returns event ≠ some lease := by
  constructor
  · rintro ⟨before,one,after,same,taken,kept⟩
    rcases split_last same with ⟨-,-,rfl⟩ | ⟨rest,rfl,front⟩
    · exact .inl taken
    · exact .inr ⟨⟨before,one,rest,front,taken,fun later present =>
        kept later (List.mem_append_left _ present)⟩,
        kept event (List.mem_append_right _ List.mem_cons_self)⟩
  · rintro (taken | ⟨⟨before,one,after,rfl,taken,kept⟩,still⟩)
    · exact ⟨log,event,[],rfl,taken,fun later none_ => absurd none_ List.not_mem_nil⟩
    · refine ⟨before,one,after ++ [event],by simp,taken,fun later present => ?_⟩
      rcases List.mem_append.mp present with earlier | last
      · exact kept later earlier
      · rwa [List.mem_singleton.mp last]

theorem covered_append (covered : leasing.Covered log)
    (own : ∀ lease, leasing.needs event = some lease → leasing.Outstanding log lease) :
    leasing.Covered (log ++ [event]) := by
  intro before one after lease same needed
  rcases split_last same with ⟨-,rfl,rfl⟩ | ⟨rest,-,same⟩
  · exact own lease needed
  · exact covered before one rest lease same needed

structure Holds (leasing : Leasing E L) (held : List L) (log : List E) : Prop where
  covered : leasing.Covered log
  exactly : ∀ lease, leasing.Outstanding log lease ↔ lease ∈ held

theorem holds_start : leasing.Holds [] [] :=
  ⟨fun before event after _ none_ => by simp at none_,fun lease =>
    iff_of_false outstanding_nil List.not_mem_nil⟩

theorem Holds.settled (holds : leasing.Holds [] log) : leasing.Settled log :=
  fun lease outstanding => List.not_mem_nil ((holds.exactly lease).mp outstanding)

theorem holds_other (holds : leasing.Holds held log) (takes : leasing.takes event = none)
    (returns : leasing.returns event = none)
    (needs : ∀ lease, leasing.needs event = some lease → lease ∈ held) :
    leasing.Holds held (log ++ [event]) := by
  refine ⟨covered_append holds.covered fun lease needed =>
    (holds.exactly lease).mpr (needs lease needed),fun lease => ?_⟩
  rw [outstanding_append,holds.exactly]
  simp [takes,returns]

theorem holds_take (holds : leasing.Holds held log) (takes : leasing.takes event = some lease)
    (returns : leasing.returns event = none)
    (needs : leasing.needs event = none) : leasing.Holds (lease :: held) (log ++ [event]) := by
  refine ⟨covered_append holds.covered fun lease needed => by simp [needs] at needed,fun other => ?_⟩
  rw [outstanding_append,holds.exactly,takes,returns,List.mem_cons]
  simp [eq_comm]

theorem holds_return (holds : leasing.Holds held log) (only : ∀ other ∈ held, other = lease)
    (takes : leasing.takes event = none)
    (returns : leasing.returns event = some lease) (needs : leasing.needs event = none) :
    leasing.Holds [] (log ++ [event]) := by
  refine ⟨covered_append holds.covered fun lease needed => by simp [needs] at needed,fun other => ?_⟩
  rw [outstanding_append,holds.exactly,takes,returns]
  simp only [reduceCtorEq,false_or,List.not_mem_nil,iff_false,not_and,not_not]
  exact fun inside => congrArg some (only other inside).symm

end Leasing
