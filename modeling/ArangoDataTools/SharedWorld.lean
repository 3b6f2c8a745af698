import Mathlib.Logic.Function.Basic
import Mathlib.Logic.Relation

-- Machines that run beside each other in one world. A machine is entered with the world as
-- the others left it.
structure SharedWorld {ι : Type} (S : ι → Type) (W : Type) where
  world : (i : ι) → S i → W
  enter : (i : ι) → S i → W → S i
  moves : (i : ι) → S i → S i → Prop

namespace SharedWorld
variable {ι W : Type} {S : ι → Type}

-- Entering changes the world of a machine and nothing else.
structure Lawful (machines : SharedWorld S W) : Prop where
  world_enter : ∀ i s w, machines.world i (machines.enter i s w) = w
  enter_world : ∀ i s, machines.enter i s (machines.world i s) = s
  enter_enter : ∀ i s w w', machines.enter i (machines.enter i s w) w' = machines.enter i s w'

-- The world that a state holds of its own is the one its machine left last.
structure Together (S : ι → Type) (W : Type) where
  states : (i : ι) → S i
  world : W

def Together.state (machines : SharedWorld S W) (t : Together S W) (i : ι) : S i :=
  machines.enter i (t.states i) t.world

variable [DecidableEq ι] {machines : SharedWorld S W} {t t' : Together S W} {i : ι} {s s' : S i}

def Together.moved (machines : SharedWorld S W) (t : Together S W) (i : ι) (s : S i) : Together S W :=
  ⟨Function.update t.states i s,machines.world i s⟩

inductive Step (machines : SharedWorld S W) : Together S W → Together S W → Prop where
  | move {t : Together S W} {i : ι} {s : S i} (moved : machines.moves i (t.state machines i) s) :
      Step machines t (t.moved machines i s)

abbrev Path (machines : SharedWorld S W) : Together S W → Together S W → Prop :=
  Relation.ReflTransGen (Step machines)

theorem moved_self (lawful : Lawful machines) (t : Together S W) (i : ι) (s : S i) :
    (t.moved machines i s).state machines i = s := by
  simp only [Together.state,Together.moved,Function.update_self,lawful.enter_world]

theorem moved_other {j : ι} (lawful : Lawful machines) (t : Together S W) (s : S i) (other : j ≠ i) :
    (t.moved machines i s).state machines j = machines.enter j (t.state machines j) (machines.world i s) := by
  simp only [Together.state,Together.moved,Function.update_of_ne other,lawful.enter_enter]

-- What each machine keeps true of itself, by its own steps and by the changes of the others.
structure Guaranteed (machines : SharedWorld S W) (holds : (i : ι) → S i → Prop)
    (changes : W → W → Prop) : Prop where
  step : ∀ i s s', holds i s → machines.moves i s s' → holds i s' ∧
    changes (machines.world i s) (machines.world i s')
  stable : ∀ i s w, holds i s → changes (machines.world i s) w → holds i (machines.enter i s w)

section Guarantee
variable {holds : (i : ι) → S i → Prop} {changes : W → W → Prop}

theorem guaranteed_step (lawful : Lawful machines) (guaranteed : Guaranteed machines holds changes)
    (before : ∀ i, holds i (t.state machines i)) (step : Step machines t t') :
    (∀ i, holds i (t'.state machines i)) ∧ changes t.world t'.world := by
  cases step with
  | @move i s moved =>
    obtain ⟨after,changed⟩ := guaranteed.step i _ s (before i) moved
    have world : ∀ j, machines.world j (t.state machines j) = t.world := fun j => lawful.world_enter j _ _
    rw [world] at changed
    refine ⟨fun j => ?_,changed⟩
    by_cases same : j = i
    · subst j
      rwa [moved_self lawful]
    · rw [moved_other lawful t s same]
      refine guaranteed.stable j _ _ (before j) ?_
      rwa [world]

theorem guaranteed_run (lawful : Lawful machines) (guaranteed : Guaranteed machines holds changes)
    (before : ∀ i, holds i (t.state machines i)) (path : Path machines t t') :
    (∀ i, holds i (t'.state machines i)) ∧ Relation.ReflTransGen changes t.world t'.world := by
  induction path with
  | refl => exact ⟨before,.refl⟩
  | tail _ step ih =>
    obtain ⟨after,changed⟩ := guaranteed_step lawful guaranteed ih.1 step
    exact ⟨after,ih.2.tail changed⟩

end Guarantee

theorem alone (lawful : Lawful machines) (t : Together S W)
    (run : Relation.ReflTransGen (machines.moves i) s s') :
    Path machines (t.moved machines i s) (t.moved machines i s') := by
  induction run with
  | refl => exact .refl
  | @tail middle last _ moved ih =>
    have again : (t.moved machines i middle).moved machines i last = t.moved machines i last := by
      simp only [Together.moved,Function.update_idem]
    rw [← again]
    exact ih.tail (.move (by rwa [moved_self lawful]))

end SharedWorld
