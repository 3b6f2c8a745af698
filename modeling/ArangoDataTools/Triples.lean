import ArangoDataTools.Answering

namespace Interaction
open Program

variable {Op : Type} {Ans : Op → Type} {ε α β ι W : Type}

-- What holds of every run of a program from a world that meets `pre`: `always`
-- wherever it is stopped, `post` where it returns and `fault` where it fails.
structure Triple (answers : Answering Op Ans W) (pre : W → Prop) (p : Program Op Ans ε α) (post : α → W → Prop)
    (fault always : W → Prop) : Prop where
  everywhere : ∀ w q w', pre w → Runs answers p w q w' → always w'
  returns : ∀ w value w', pre w → Runs answers p w (done value) w' → post value w'
  fails : ∀ w error w', pre w → Runs answers p w (fail error) w' → fault w'

theorem runs_split {answers : Answering Op Ans W} {p : Program Op Ans ε α}
    {f : α → Program Op Ans ε β} {q : Program Op Ans ε β}
    (runs : Runs answers (p.bind f) w q w') :
    (∃ p', q = p'.bind f ∧ (∀ value, p' ≠ done value) ∧ Runs answers p w p' w') ∨
      ∃ value middle, Runs answers p w (done value) middle ∧ Runs answers (f value) middle q w' := by
  induction p generalizing w with
  | done value => exact .inr ⟨value,w,.here _ _,runs⟩
  | fail error =>
    obtain ⟨rfl,rfl⟩ := runs_fail runs
    exact .inl ⟨fail error,rfl,by simp,.here _ _⟩
  | call op next ih =>
    cases runs with
    | here => exact .inl ⟨call op next,rfl,by simp,.here _ _⟩
    | call _ _ answer middle answered rest =>
      rcases ih answer rest with ⟨p',same,unfinished,inside⟩ | ⟨value,later,first,second⟩
      · exact .inl ⟨p',same,unfinished,.call _ _ answer middle answered inside⟩
      · exact .inr ⟨value,later,.call _ _ answer middle answered first,second⟩

theorem runs_bind_fail {answers : Answering Op Ans W} {p : Program Op Ans ε α}
    {f : α → Program Op Ans ε β} {error : ε}
    (runs : Runs answers (p.bind f) w (fail error) w') :
    Runs answers p w (fail error) w' ∨ ∃ value middle, Runs answers p w (done value) middle ∧
    Runs answers (f value) middle (fail error) w' := by
  rcases runs_split runs with ⟨p',same,unfinished,inside⟩ | later
  · cases p' with
    | done value => exact absurd rfl (unfinished value)
    | fail other =>
      cases same
      exact .inl inside
    | call op next => cases same
  · exact .inr later

theorem runs_bind_lift {answers : Answering Op Ans W} {p : Program Op Ans ε α}
    {f : α → Program Op Ans ε β} {result : Except ε β}
    (runs : Runs answers (p.bind f) w (lift result) w')
      (unfailing : ∀ error after, ¬ Runs answers p w (fail error) after) :
    ∃ value middle, Runs answers p w (done value) middle ∧ Runs answers (f value) middle (lift result) w' := by
  cases result with
  | ok value => exact runs_bind_done runs
  | error error =>
    rcases runs_bind_fail runs with failed | later
    · exact absurd failed (unfailing error w')
    · exact later

theorem perform_answers {answers : Answering Op Ans W} {op : Op} {answer : Ans op}
    (runs : Runs answers (perform op : Program Op Ans ε (Ans op)) w (done answer) w') :
    answers op w answer w' := by
  cases runs with
  | call _ _ _ middle answered rest =>
    obtain ⟨same,rfl⟩ := runs_done rest
    cases same
    exact answered

theorem perform_unfailing {answers : Answering Op Ans W} {op : Op} {error : ε} :
    ¬ Runs answers (perform op : Program Op Ans ε (Ans op)) w (fail error) w' := by
  intro runs
  cases runs with
  | call _ _ _ middle _ rest => cases (runs_done rest).1

theorem runs_attempt {answers : Answering Op Ans W} {p : Program Op Ans ε α} {q : Program Op Ans ε (Except ε α)}
    (runs : Runs answers (attempt p) w q w') : ∃ p', q = attempt p' ∧ Runs answers p w p' w' := by
  induction p generalizing w with
  | done value =>
    obtain ⟨rfl,rfl⟩ := runs_done runs
    exact ⟨done value,rfl,.here _ _⟩
  | fail error =>
    obtain ⟨rfl,rfl⟩ := runs_done runs
    exact ⟨fail error,rfl,.here _ _⟩
  | call op next ih =>
    cases runs with
    | here => exact ⟨call op next,rfl,.here _ _⟩
    | call _ _ answer middle answered rest =>
      obtain ⟨p',same,inside⟩ := ih answer rest
      exact ⟨p',same,.call _ _ answer middle answered inside⟩

theorem attempt_runs {answers : Answering Op Ans W} {p q : Program Op Ans ε α} (runs : Runs answers p w q w') :
    Runs answers (attempt p) w (attempt q) w' := by
  induction runs with
  | here p w => exact .here _ _
  | call op next answer middle answered _ ih => exact .call op _ answer middle answered ih

theorem attempt_returns {answers : Answering Op Ans W} {p : Program Op Ans ε α} {result : Except ε α}
    (runs : Runs answers (attempt p) w (done result) w') :
    match result with
    | .ok value => Runs answers p w (done value) w'
    | .error error => Runs answers p w (fail error) w' := by
  obtain ⟨p',same,inside⟩ := runs_attempt runs
  cases p' with
  | done value => cases same; exact inside
  | fail error => cases same; exact inside
  | call op next => cases same

theorem attempt_lift {answers : Answering Op Ans W} {p : Program Op Ans ε α} {result : Except ε α}
    (runs : Runs answers (attempt p) w (done result) w') : Runs answers p w (lift result) w' := by
  have returned := attempt_returns runs
  cases result with
  | ok value => exact returned
  | error error => exact returned

theorem attempt_unfailing {answers : Answering Op Ans W} {p : Program Op Ans ε α} {error : ε} :
    ¬ Runs answers (attempt p) w (fail error) w' := by
  intro runs
  obtain ⟨p',same,-⟩ := runs_attempt runs
  cases p' <;> cases same

theorem lift_returns {answers : Answering Op Ans W} {result : Except ε α} {value : α}
    (runs : Runs answers (lift result) w (done value) w') : result = .ok value ∧ w' = w := by
  cases result with
  | ok other =>
    obtain ⟨same,rfl⟩ := runs_done runs
    cases same
    exact ⟨rfl,rfl⟩
  | error error => cases (runs_fail runs).1

theorem runs_until {answers stricter : Answering Op Ans W} {p q : Program Op Ans ε α}
    (runs : Runs answers p w q w') :
    Runs stricter p w q w' ∨ ∃ op next middle answer after, Runs stricter p w (call op next) middle ∧
      answers op middle answer after ∧ ¬ stricter op middle answer after := by
  induction runs with
  | here p w => exact .inl (.here _ _)
  | @call w _ _ op next answer middle answered _ ih =>
    by_cases same : stricter op w answer middle
    · rcases ih with through | ⟨op',next',before,answer',after,inside,differs⟩
      · exact .inl (.call op next answer middle same through)
      · exact .inr ⟨op',next',before,answer',after,.call op next answer middle same inside,differs⟩
    · exact .inr ⟨op,next,w,answer,middle,.here _ _,answered,same⟩

theorem runs_of_run {answers : Answering Op Ans W} (handle : Handler Op Ans W)
    (agrees : ∀ op w, answers op w (handle op w).1 (handle op w).2) (p : Program Op Ans ε α) (w : W) :
    Runs answers p w (lift (run handle p w).1) (run handle p w).2 := by
  induction p generalizing w with
  | done value => exact .here _ _
  | fail error => exact .here _ _
  | call op next ih => exact .call op next _ _ (agrees op w) (ih _ _)

section Rules
variable {answers : Answering Op Ans W} {pre : W → Prop} {fault always : W → Prop}

theorem triple_weaken {stronger : W → Prop} {p : Program Op Ans ε α} {post weaker : α → W → Prop}
    {fault' always' : W → Prop}
    (triple : Triple answers pre p post fault always) (before : ∀ w, stronger w → pre w)
      (after : ∀ value w, post value w → weaker value w)
    (failed : ∀ w, fault w → fault' w) (kept : ∀ w, always w → always' w) :
      Triple answers stronger p weaker fault' always' where
  everywhere w q w' start runs := kept w' (triple.everywhere w q w' (before w start) runs)
  returns w value w' start runs := after value w' (triple.returns w value w' (before w start) runs)
  fails w error w' start runs := failed w' (triple.fails w error w' (before w start) runs)

theorem triple_fewer {stricter : Answering Op Ans W} {p : Program Op Ans ε α} {post : α → W → Prop}
    (weaker : ∀ op w answer w', stricter op w answer w' → answers op w answer w')
      (triple : Triple answers pre p post fault always) :
    Triple stricter pre p post fault always where
  everywhere w q w' start runs := triple.everywhere w q w' start (runs_mono weaker runs)
  returns w value w' start runs := triple.returns w value w' start (runs_mono weaker runs)
  fails w error w' start runs := triple.fails w error w' start (runs_mono weaker runs)

theorem triple_never {p : Program Op Ans ε α} {post : α → W → Prop} (never : ∀ w, ¬ pre w) :
    Triple answers pre p post fault always where
  everywhere w _ _ start _ := absurd start (never w)
  returns w _ _ start _ := absurd start (never w)
  fails w _ _ start _ := absurd start (never w)

theorem triple_assuming {fact : Prop} {p : Program Op Ans ε α} {post : α → W → Prop}
    (triple : fact → Triple answers pre p post fault always) :
    Triple answers (fun w => pre w ∧ fact) p post fault always where
  everywhere w q w' start := (triple start.2).everywhere w q w' start.1
  returns w value w' start := (triple start.2).returns w value w' start.1
  fails w error w' start := (triple start.2).fails w error w' start.1

theorem triple_some {pre : ι → W → Prop} {p : Program Op Ans ε α} {post : α → W → Prop}
    (triple : ∀ i, Triple answers (pre i) p post fault always) :
    Triple answers (fun w => ∃ i, pre i w) p post fault always where
  everywhere w q w' start := start.elim fun i holds => (triple i).everywhere w q w' holds
  returns w value w' start := start.elim fun i holds => (triple i).returns w value w' holds
  fails w error w' start := start.elim fun i holds => (triple i).fails w error w' holds

theorem triple_done {value : α} {post : α → W → Prop} (holds : ∀ w, pre w → post value w)
    (kept : ∀ w, pre w → always w) :
    Triple answers pre (done value : Program Op Ans ε α) post fault always where
  everywhere w q w' start runs := by
    obtain ⟨-,rfl⟩ := runs_done runs
    exact kept _ start
  returns w other w' start runs := by
    obtain ⟨same,rfl⟩ := runs_done runs
    cases same
    exact holds _ start
  fails w error w' start runs := by cases (runs_done runs).1

theorem triple_fail {error : ε} {post : α → W → Prop} (holds : ∀ w, pre w → fault w)
    (kept : ∀ w, pre w → always w) :
    Triple answers pre (fail error : Program Op Ans ε α) post fault always where
  everywhere w q w' start runs := by
    obtain ⟨-,rfl⟩ := runs_fail runs
    exact kept _ start
  returns w value w' start runs := by cases (runs_fail runs).1
  fails w other w' start runs := by
    obtain ⟨-,rfl⟩ := runs_fail runs
    exact holds _ start

theorem triple_lift {result : Except ε α} {post : α → W → Prop}
    (holds : ∀ value w, result = .ok value → pre w → post value w)
    (failed : ∀ w, pre w → fault w) (kept : ∀ w, pre w → always w) :
    Triple answers pre (lift result : Program Op Ans ε α) post fault always := by
  cases result with
  | ok value => exact triple_done (fun w start => holds value w rfl start) kept
  | error error => exact triple_fail failed kept

theorem triple_perform {op : Op} {post : Ans op → W → Prop} (kept : ∀ w, pre w → always w)
    (answered : ∀ w answer w', pre w → answers op w answer w' → post answer w' ∧ always w') :
    Triple answers pre (perform op : Program Op Ans ε (Ans op)) post fault always where
  everywhere w q w' start runs := by
    cases runs with
    | here => exact kept _ start
    | call _ _ answer middle step rest =>
      obtain ⟨-,rfl⟩ := runs_done rest
      exact (answered w answer _ start step).2
  returns w value w' start runs := by
    cases runs with
    | call _ _ answer middle step rest =>
      obtain ⟨same,rfl⟩ := runs_done rest
      cases same
      exact (answered w _ _ start step).1
  fails w error w' start runs := by
    cases runs with
    | call _ _ answer middle step rest => cases (runs_done rest).1

theorem triple_bind {p : Program Op Ans ε α} {f : α → Program Op Ans ε β} {mid : α → W → Prop}
    {post : β → W → Prop}
    (first : Triple answers pre p mid fault always)
      (rest : ∀ value, Triple answers (mid value) (f value) post fault always) :
    Triple answers pre (p.bind f) post fault always where
  everywhere w q w' start runs := by
    rcases runs_split runs with ⟨p',-,-,inside⟩ | ⟨value,middle,through,later⟩
    · exact first.everywhere w p' w' start inside
    · exact (rest value).everywhere middle q w' (first.returns w value middle start through) later
  returns w result w' start runs := by
    rcases runs_split runs with ⟨p',same,unfinished,-⟩ | ⟨value,middle,through,later⟩
    · cases p' with
      | done value => exact absurd rfl (unfinished value)
      | _ => cases same
    · exact (rest value).returns middle result w' (first.returns w value middle start through) later
  fails w error w' start runs := by
    rcases runs_split runs with ⟨p',same,unfinished,inside⟩ | ⟨value,middle,through,later⟩
    · cases p' with
      | done value => exact absurd rfl (unfinished value)
      | fail other => exact first.fails w other w' start inside
      | call op next => cases same
    · exact (rest value).fails middle error w' (first.returns w value middle start through) later

theorem triple_attempt {p : Program Op Ans ε α} {post : α → W → Prop}
    (triple : Triple answers pre p post fault always)
    {failed : W → Prop} :
    Triple answers pre (attempt p) (fun result w => match result with
      | .ok value => post value w
      | .error _ => fault w) failed always where
  everywhere w q w' start runs := by
    obtain ⟨p',-,inside⟩ := runs_attempt runs
    exact triple.everywhere w p' w' start inside
  returns w result w' start runs := by
    obtain ⟨p',same,inside⟩ := runs_attempt runs
    cases p' with
    | done value =>
      cases same
      exact triple.returns w value w' start inside
    | fail error =>
      cases same
      exact triple.fails w error w' start inside
    | call op next => cases same
  fails w error w' start runs := by
    obtain ⟨p',same,-⟩ := runs_attempt runs
    cases p' <;> cases same

theorem triple_only {kind : Op → Prop} {invariant : W → Prop} {p : Program Op Ans ε α} (only : Only kind p)
    (kept : ∀ op w answer w', kind op → invariant w → answers op w answer w' → invariant w') :
    Triple answers invariant p (fun _ => invariant) invariant invariant where
  everywhere _ _ _ start runs := only_preserves runs only kept start
  returns _ _ _ start runs := only_preserves runs only kept start
  fails _ _ _ start runs := only_preserves runs only kept start

end Rules
end Interaction
