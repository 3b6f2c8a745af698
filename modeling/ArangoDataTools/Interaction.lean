namespace Interaction

-- A program performs one operation at a time and continues with its answer.
-- `fail` ends it with an error; an operation whose answer carries an error may
-- still be continued, so ignoring a failed call is expressible.
inductive Program (Op : Type) (Ans : Op → Type) (ε α : Type) : Type where
  | done (value : α)
  | fail (error : ε)
  | call (op : Op) (next : Ans op → Program Op Ans ε α)

variable {Op : Type} {Ans : Op → Type} {ε α β γ W Q : Type}

namespace Program

def bind : Program Op Ans ε α → (α → Program Op Ans ε β) → Program Op Ans ε β
  | done value, f => f value
  | fail error, _ => fail error
  | call op next, f => call op fun answer => (next answer).bind f

instance : Monad (Program Op Ans ε) where
  pure := done
  bind := bind

def perform (op : Op) : Program Op Ans ε (Ans op) := call op done

def lift : Except ε α → Program Op Ans ε α
  | .ok value => done value
  | .error error => fail error

@[simp] theorem pure_eq (value : α) : (pure value : Program Op Ans ε α) = done value := rfl
@[simp] theorem bind_eq (p : Program Op Ans ε α) (f : α → Program Op Ans ε β) : p >>= f = p.bind f := rfl
@[simp] theorem done_bind (value : α) (f : α → Program Op Ans ε β) : (done value).bind f = f value := rfl
@[simp] theorem fail_bind (error : ε) (f : α → Program Op Ans ε β) : (fail error).bind f = fail error := rfl
@[simp] theorem call_bind (op : Op) (next : Ans op → Program Op Ans ε α) (f : α → Program Op Ans ε β) :
    (call op next).bind f = call op fun answer => (next answer).bind f := rfl

theorem bind_assoc (p : Program Op Ans ε α) (f : α → Program Op Ans ε β) (g : β → Program Op Ans ε γ) :
    (p.bind f).bind g = p.bind fun value => (f value).bind g := by
  induction p with
  | done value => rfl
  | fail error => rfl
  | call op next ih => simp only [call_bind,ih]

-- The outcome handed to the caller as a value, as in `let outcome = body.await`.
def attempt : Program Op Ans ε α → Program Op Ans ε (Except ε α)
  | done value => done (.ok value)
  | fail error => done (.error error)
  | call op next => call op fun answer => (next answer).attempt

end Program

open Program

-- A deterministic environment answers every operation and moves its world.
abbrev Handler (Op : Type) (Ans : Op → Type) (W : Type) := (op : Op) → W → Ans op × W

def run (handle : Handler Op Ans W) : Program Op Ans ε α → W → Except ε α × W
  | done value, w => (.ok value,w)
  | fail error, w => (.error error,w)
  | call op next, w => run handle (next (handle op w).1) (handle op w).2

-- `Cut p w w'`: the program started in `w` was stopped before one of its
-- operations, or after its last one, and left the world `w'` behind.
inductive Cut (handle : Handler Op Ans W) : Program Op Ans ε α → W → W → Prop where
  | here : Cut handle p w w
  | call {next : Ans op → Program Op Ans ε α} :
      Cut handle (next (handle op w).1) (handle op w).2 w' → Cut handle (.call op next) w w'

section Run
variable (handle : Handler Op Ans W)

@[simp] theorem run_done (value : α) (w : W) :
    run handle (done value : Program Op Ans ε α) w = (.ok value,w) := rfl
@[simp] theorem run_fail (error : ε) (w : W) :
    run handle (fail error : Program Op Ans ε α) w = (.error error,w) := rfl
@[simp] theorem run_call (op : Op) (next : Ans op → Program Op Ans ε α) (w : W) :
    run handle (call op next) w = run handle (next (handle op w).1) (handle op w).2 := rfl
@[simp] theorem run_perform (op : Op) (w : W) :
    run (ε:=ε) handle (perform op) w = (.ok (handle op w).1,(handle op w).2) := rfl

theorem run_bind (p : Program Op Ans ε α) (f : α → Program Op Ans ε β) (w : W) :
    run handle (p.bind f) w = match run handle p w with
      | (.ok value,w') => run handle (f value) w'
      | (.error error,w') => (.error error,w') := by
  induction p generalizing w with
  | done value => rfl
  | fail error => rfl
  | call op next ih => simp only [call_bind,run_call,ih]

theorem run_bind_ok {p : Program Op Ans ε α} {f : α → Program Op Ans ε β}
    (first : run handle p w = (.ok value,w')) : run handle (p.bind f) w = run handle (f value) w' := by
  rw [run_bind,first]

theorem run_bind_error {p : Program Op Ans ε α} {f : α → Program Op Ans ε β}
    (first : run handle p w = (.error error,w')) : run handle (p.bind f) w = (.error error,w') := by
  rw [run_bind,first]

theorem run_bind_inv {p : Program Op Ans ε α} {f : α → Program Op Ans ε β}
    (ran : run handle (p.bind f) w = (.ok value,w')) :
    ∃ first middle, run handle p w = (.ok first,middle) ∧ run handle (f first) middle = (.ok value,w') := by
  rw [run_bind] at ran
  cases result : run handle p w with
  | mk outcome middle =>
    rw [result] at ran
    cases outcome with
    | ok first => exact ⟨first,middle,rfl,ran⟩
    | error error => cases ran

theorem run_attempt (p : Program Op Ans ε α) (w : W) :
    run handle (attempt p) w = (.ok (run handle p w).1,(run handle p w).2) := by
  induction p generalizing w with
  | done value => rfl
  | fail error => rfl
  | call op next ih => simp only [attempt,run_call,ih]

theorem cut_run (p : Program Op Ans ε α) (w : W) : Cut handle p w (run handle p w).2 := by
  induction p generalizing w with
  | done value => exact .here
  | fail error => exact .here
  | call op next ih => exact .call (ih _ _)

theorem cut_bind {p : Program Op Ans ε α} {f : α → Program Op Ans ε β} :
    Cut handle (p.bind f) w w' ↔ Cut handle p w w' ∨
      ∃ value middle, run handle p w = (.ok value,middle) ∧ Cut handle (f value) middle w' := by
  induction p generalizing w with
  | done value =>
    constructor
    · intro cut; exact .inr ⟨value,w,rfl,cut⟩
    · rintro (cut | ⟨_,_,equal,cut⟩)
      · cases cut; exact .here
      · cases equal; exact cut
  | fail error =>
    constructor
    · intro cut; exact .inl (by cases cut; exact .here)
    · rintro (cut | ⟨_,_,equal,_⟩)
      · cases cut; exact .here
      · cases equal
  | call op next ih =>
    constructor
    · intro cut
      cases cut with
      | here => exact .inl .here
      | call rest =>
        rcases (ih _).mp rest with inside | ⟨value,middle,ran,later⟩
        · exact .inl (.call inside)
        · exact .inr ⟨value,middle,ran,later⟩
    · rintro (cut | ⟨value,middle,ran,later⟩)
      · cases cut with
        | here => exact .here
        | call rest => exact .call ((ih _).mpr (.inl rest))
      · exact .call ((ih _).mpr (.inr ⟨value,middle,ran,later⟩))

theorem cut_seq {p : Program Op Ans ε α} {f : α → Program Op Ans ε β} (mid post : W → Prop)
    (first : ∀ w', Cut handle p w w' → mid w') (ends : ∀ w', mid w' → post w')
    (rest : ∀ value w', mid w' → ∀ w'', Cut handle (f value) w' w'' → post w'')
    (cut : Cut handle (p.bind f) w w') : post w' := by
  rcases (cut_bind handle).mp cut with inside | ⟨value,middle,ran,later⟩
  · exact ends _ (first _ inside)
  · have ended := cut_run handle p w
    rw [ran] at ended
    exact rest value middle (first _ ended) _ later

theorem cut_done {value : α} (cut : Cut handle (done value : Program Op Ans ε α) w w') : w' = w := by
  cases cut with
  | here => rfl

theorem cut_fail {error : ε} (cut : Cut handle (fail error : Program Op Ans ε α) w w') : w' = w := by
  cases cut with
  | here => rfl

theorem cut_perform {op : Op} (cut : Cut handle (perform op : Program Op Ans ε (Ans op)) w w') :
    w' = w ∨ w' = (handle op w).2 := by
  cases cut with
  | here => exact .inl rfl
  | call rest => exact .inr (cut_done handle rest)

theorem cut_attempt {p : Program Op Ans ε α} : Cut handle (attempt p) w w' ↔ Cut handle p w w' := by
  induction p generalizing w with
  | done value => exact ⟨fun cut => by rw [cut_done handle cut]; exact .here,
      fun cut => by rw [cut_done handle cut]; exact .here⟩
  | fail error => exact ⟨fun cut => by rw [cut_done handle cut]; exact .here,
      fun cut => by rw [cut_fail handle cut]; exact .here⟩
  | call op next ih =>
    constructor
    · intro cut
      cases cut with
      | here => exact .here
      | call rest => exact .call ((ih _).mp rest)
    · intro cut
      cases cut with
      | here => exact .here
      | call rest => exact .call ((ih _).mpr rest)

end Run
end Interaction
