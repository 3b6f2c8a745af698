import ArangoDataTools.Interaction

namespace Interaction
open Program

variable {Op : Type} {Ans : Op → Type} {ε α β ι W : Type}

abbrev Answering (Op : Type) (Ans : Op → Type) (W : Type) := (op : Op) → W → Ans op → W → Prop

-- A run of a program up to some point, with what is left of it there.
inductive Runs (answers : Answering Op Ans W) : Program Op Ans ε α → W → Program Op Ans ε α → W → Prop where
  | here (p : Program Op Ans ε α) (w : W) : Runs answers p w p w
  | call (op : Op) (next : Ans op → Program Op Ans ε α) (answer : Ans op) (middle : W) :
      answers op w answer middle →
      Runs answers (next answer) middle q w' → Runs answers (.call op next) w q w'

section Runs
variable {answers stricter : Answering Op Ans W}

theorem runs_done {value : α} (runs : Runs answers (done value : Program Op Ans ε α) w q w') :
    q = done value ∧ w' = w := by
  cases runs with
  | here => exact ⟨rfl,rfl⟩

theorem runs_fail {error : ε} (runs : Runs answers (fail error : Program Op Ans ε α) w q w') :
    q = fail error ∧ w' = w := by
  cases runs with
  | here => exact ⟨rfl,rfl⟩

theorem runs_trans {p q r : Program Op Ans ε α} (first : Runs answers p w q w')
    (second : Runs answers q w' r w'') :
    Runs answers p w r w'' := by
  induction first with
  | here => exact second
  | call op next answer middle answered _ ih => exact .call op next answer middle answered (ih second)

theorem runs_mono {p q : Program Op Ans ε α}
    (weaker : ∀ op w answer w', stricter op w answer w' → answers op w answer w')
    (runs : Runs stricter p w q w') : Runs answers p w q w' := by
  induction runs with
  | here p w => exact .here p w
  | call op next answer middle answered _ ih => exact .call op next answer middle (weaker _ _ _ _ answered) ih

theorem runs_append {p q : Program Op Ans ε α} (runs : Runs answers p w q w') (f : α → Program Op Ans ε β) :
    Runs answers (p.bind f) w (q.bind f) w' := by
  induction runs with
  | here p w => exact .here _ _
  | call op next answer middle answered _ ih => exact .call op _ answer middle answered ih

theorem runs_then {p : Program Op Ans ε α} {f : α → Program Op Ans ε β} {q : Program Op Ans ε β}
    (first : Runs answers p w (done value) middle) (rest : Runs answers (f value) middle q w') :
    Runs answers (p.bind f) w q w' := runs_trans (runs_append first f) rest

theorem runs_bind {p : Program Op Ans ε α} {f : α → Program Op Ans ε β} {q : Program Op Ans ε β}
    (runs : Runs answers (p.bind f) w q w') :
    (∃ p', (∀ value, q ≠ done value) ∧ (∀ value, p' ≠ done value) ∧ Runs answers p w p' w') ∨
      ∃ value middle, Runs answers p w (done value) middle ∧ Runs answers (f value) middle q w' := by
  induction p generalizing w with
  | done value => exact .inr ⟨value,w,.here _ _,runs⟩
  | fail error =>
    obtain ⟨rfl,rfl⟩ := runs_fail runs
    exact .inl ⟨fail error,by simp,by simp,.here _ _⟩
  | call op next ih =>
    cases runs with
    | here => exact .inl ⟨call op next,by simp,by simp,.here _ _⟩
    | call _ _ answer middle answered rest =>
      rcases ih answer rest with ⟨p',going,unfinished,inside⟩ | ⟨value,later,first,second⟩
      · exact .inl ⟨p',going,unfinished,.call _ _ answer middle answered inside⟩
      · exact .inr ⟨value,later,.call _ _ answer middle answered first,second⟩

theorem runs_bind_done {p : Program Op Ans ε α} {f : α → Program Op Ans ε β}
    (runs : Runs answers (p.bind f) w (done value) w') :
    ∃ first middle, Runs answers p w (done first) middle ∧ Runs answers (f first) middle (done value) w' := by
  rcases runs_bind runs with ⟨p',going,-⟩ | later
  · exact (going value rfl).elim
  · exact later

end Runs

def Only (kind : Op → Prop) : Program Op Ans ε α → Prop
  | done _ | fail _ => True
  | call op next => kind op ∧ ∀ answer, Only kind (next answer)

theorem only_bind {kind : Op → Prop} {p : Program Op Ans ε α} {f : α → Program Op Ans ε β} (first : Only kind p)
    (rest : ∀ value, Only kind (f value)) : Only kind (p.bind f) := by
  induction p with
  | done value => exact rest value
  | fail error => trivial
  | call op next ih => exact ⟨first.1,fun answer => ih answer (first.2 answer)⟩

theorem only_attempt {kind : Op → Prop} {p : Program Op Ans ε α} (only : Only kind p) :
    Only kind (attempt p) := by
  induction p with
  | done value => trivial
  | fail error => trivial
  | call op next ih => exact ⟨only.1,fun answer => ih answer (only.2 answer)⟩

theorem only_lift {kind : Op → Prop} (result : Except ε α) : Only kind (lift result : Program Op Ans ε α) := by
  cases result <;> trivial

theorem only_perform {kind : Op → Prop} {op : Op} (holds : kind op) :
    Only kind (perform op : Program Op Ans ε (Ans op)) :=
  ⟨holds,fun _ => trivial⟩

theorem only_preserves {answers : Answering Op Ans W} {kind : Op → Prop} {invariant : W → Prop}
    {p q : Program Op Ans ε α}
    (runs : Runs answers p w q w') (only : Only kind p)
    (kept : ∀ op w answer w', kind op → invariant w → answers op w answer w' → invariant w')
      (start : invariant w) : invariant w' := by
  induction runs with
  | here => exact start
  | call op next answer middle answered _ ih => exact ih (only.2 answer) (kept _ _ _ _ only.1 start answered)

theorem only_strengthen {answers stronger : Answering Op Ans W} {kind : Op → Prop}
    {invariant : W → Prop} {p q : Program Op Ans ε α}
    (runs : Runs answers p w q w') (only : Only kind p)
    (kept : ∀ op w answer w', kind op → invariant w → answers op w answer w' → invariant w' ∧
    stronger op w answer w')
    (start : invariant w) : Runs stronger p w q w' := by
  induction runs with
  | here p w => exact .here p w
  | call op next answer middle answered _ ih =>
    obtain ⟨still,strong⟩ := kept _ _ _ _ only.1 start answered
    exact .call op next answer middle strong (ih (only.2 answer) still)

def each : List ι → (ι → Program Op Ans ε Unit) → Program Op Ans ε Unit
  | [],_ => done ()
  | item :: rest,body => (body item).bind fun _ => each rest body

theorem runs_each {answers : Answering Op Ans W} {body : ι → Program Op Ans ε Unit} {q : Program Op Ans ε Unit}
    (reached : List ι → W → Prop) (stopped : W → Prop) (items : List ι) (start : reached items w)
    (through : ∀ item rest w w', item ∈ items → reached (item :: rest) w →
    Runs answers (body item) w (done ()) w' → reached rest w')
    (inside : ∀ item rest w q w', item ∈ items → reached (item :: rest) w →
    Runs answers (body item) w q w' → stopped w')
    (last : ∀ w, reached [] w → stopped w)
    (runs : Runs answers (each items body) w q w') : stopped w' ∧ (q = done () → reached [] w') := by
  induction items generalizing w with
  | nil =>
    obtain ⟨-,rfl⟩ := runs_done runs
    exact ⟨last _ start,fun _ => start⟩
  | cons item rest ih =>
    rcases runs_bind runs with ⟨p',going,-,part⟩ | ⟨_,middle,first,more⟩
    · exact ⟨inside item rest w p' w' List.mem_cons_self start part,fun ended => (going () ended).elim⟩
    · exact ih (through item rest w middle List.mem_cons_self start first)
        (fun other more w w' present => through other more w w' (List.mem_cons_of_mem _ present))
        (fun other more w q w' present => inside other more w q w' (List.mem_cons_of_mem _ present)) more

theorem only_each {kind : Op → Prop} {body : ι → Program Op Ans ε Unit} (items : List ι)
    (only : ∀ item ∈ items, Only kind (body item)) :
    Only kind (each items body) := by
  induction items with
  | nil => trivial
  | cons item rest ih =>
    exact only_bind (only item List.mem_cons_self) fun _ => ih fun other present =>
      only other (List.mem_cons_of_mem _ present)

theorem each_ends {answers : Answering Op Ans W} {body : ι → Program Op Ans ε Unit} (items : List ι) (w : W)
    (ends : ∀ item ∈ items, ∀ w, ∃ w', Runs answers (body item) w (done ()) w') :
    ∃ w', Runs answers (each items body) w (done ()) w' := by
  induction items generalizing w with
  | nil => exact ⟨w,.here _ _⟩
  | cons item rest ih =>
    obtain ⟨middle,first⟩ := ends item List.mem_cons_self w
    obtain ⟨w',more⟩ := ih middle fun other present => ends other (List.mem_cons_of_mem _ present)
    exact ⟨w',runs_then first more⟩

end Interaction
