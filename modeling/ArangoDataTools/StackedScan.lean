import ArangoDataTools.CheckedScan

namespace CheckedScan

section Stack

variable {ε σ α β : Type} {m m' : Machine ε σ α} {f f' : α → Machine ε σ β} {s t : Scan σ} {depth : Nat}

theorem bind_ok {a : α} (ran : m s = .ok (a,t)) : (m >>= f) s = f a t := by
  show (m s).bind (fun reached => f reached.1 reached.2) = _
  rw [ran]
  rfl

theorem bind_error {stop : Stop ε} (ran : m s = .error stop) : (m >>= f) s = .error stop := by
  show (m s).bind (fun reached => f reached.1 reached.2) = _
  rw [ran]
  rfl

theorem loop_leave {body : β → Machine ε σ (Turn β α)} {value : β} {a : α}
    (left : body value s = .ok (.leave a,t)) :
    loop body value s = .ok (a,t) :=
  (bind_ok (show size s = .ok (s.chars.length,s) from rfl)).trans
    ((bind_ok (show here s = .ok (s.pos,s) from rfl)).trans ((bind_ok left).trans rfl))

theorem overflow_bind : (m >>= f) s = .error .overflow ↔
    m s = .error .overflow ∨ ∃ a t, m s = .ok (a,t) ∧ f a t = .error .overflow := by
  cases ran : m s with
  | error stop =>
    rw [bind_error ran]
    constructor
    · intro same
      cases same
      exact .inl rfl
    · rintro (same | ⟨a,t,other,_⟩)
      · cases same
        rfl
      · cases other
  | ok reached =>
    rw [bind_ok ran]
    refine ⟨fun overflows => .inr ⟨_,_,rfl,overflows⟩,?_⟩
    rintro (other | ⟨a,t,same,overflows⟩)
    · cases other
    · cases same
      exact overflows

theorem safe_fits {post : α → Scan σ → Prop} (safe : Safe m s post) : m s ≠ .error .overflow := by
  intro overflows
  rw [Safe,overflows] at safe
  exact safe

theorem safe_ok {post : α → Scan σ → Prop} (safe : Safe m s post) {a : α} (ran : m s = .ok (a,t)) :
    t.chars = s.chars ∧ t.pos ≤ t.chars.length ∧ post a t := by
  unfold Safe at safe
  rwa [ran] at safe

def Agrees (less more : Machine ε σ α) : Prop := ∀ s, less s = .error .overflow ∨ less s = more s

theorem agrees_refl : Agrees m m := fun _ => .inr rfl

theorem agrees_overflow : Agrees (halt .overflow) m := fun _ => .inl rfl

theorem agrees_trans {m'' : Machine ε σ α} (first : Agrees m m') (second : Agrees m' m'') : Agrees m m'' := by
  intro s
  rcases first s with overflows | same
  · exact .inl overflows
  · rw [same]
    exact second s

theorem agrees_bind (first : Agrees m m') (second : ∀ a, Agrees (f a) (f' a)) :
    Agrees (m >>= f) (m' >>= f') := by
  intro s
  rcases first s with overflows | same
  · exact .inl (bind_error overflows)
  · cases ran : m' s with
    | error stop => exact .inr ((bind_error (same.trans ran)).trans (bind_error ran).symm)
    | ok reached =>
      rw [bind_ok (same.trans ran),bind_ok ran]
      exact second _ _

theorem agrees_after (second : ∀ a, Agrees (f a) (f' a)) : Agrees (m >>= f) (m >>= f') :=
  agrees_bind agrees_refl second

theorem agrees_deeper {entry : Nat} (same : Agrees m m') : Agrees (deeper entry m) (deeper entry m') := by
  refine agrees_after fun pos => ?_
  split_ifs
  · exact agrees_refl
  · exact same

theorem agrees_loopFrom {body body' : β → Machine ε σ (Turn β α)}
    (round : ∀ value, Agrees (body value) (body' value)) (fuel : Nat)
    (value : β) : Agrees (loopFrom body fuel value) (loopFrom body' fuel value) := by
  induction fuel generalizing value with
  | zero => exact agrees_refl
  | succ fuel ih =>
    refine agrees_after fun entry => agrees_bind (round value) fun turn => ?_
    cases turn with
    | leave a => exact agrees_refl
    | again next => exact agrees_deeper (ih next)

theorem agrees_loop {body body' : β → Machine ε σ (Turn β α)}
    (round : ∀ value, Agrees (body value) (body' value)) (value : β) :
    Agrees (loop body value) (loop body' value) := agrees_after fun _ => agrees_loopFrom round _ value

theorem deeper_moved {entry : Nat} (moved : entry < s.pos) : deeper entry m s = m s := by
  refine (bind_ok (show here s = .ok (s.pos,s) from rfl)).trans ?_
  rw [if_neg (Nat.not_le.mpr moved)]

def Stacked (call : Nat → Machine ε σ α) : Prop := ∀ depth, Agrees (call depth) (call (depth + 1))

theorem stacked_le {call : Nat → Machine ε σ α} (stacked : Stacked call) {less more : Nat}
    (order : less ≤ more) :
    Agrees (call less) (call more) := by
  induction order with
  | refl => exact agrees_refl
  | step _ ih => exact agrees_trans ih (stacked _)

theorem stacked_ok {call : Nat → Machine ε σ α} (stacked : Stacked call) {other : Nat} {reached : α × Scan σ}
    (ran : call other s = .ok reached) (depth : Nat) : call depth s = .error .overflow ∨
    call depth s = .ok reached := by
  rcases Nat.le_total depth other with less | more
  · rcases stacked_le stacked less s with overflows | same
    · exact .inl overflows
    · exact .inr (same.trans ran)
  · rcases stacked_le stacked more s with overflows | same
    · rw [ran] at overflows
      cases overflows
    · exact .inr (same.symm.trans ran)

theorem stacked_safe {call : Nat → Machine ε σ α} (stacked : Stacked call) {enough : Nat}
    {post : α → Scan σ → Prop}
    (safe : Safe (call enough) s post) {a : α} (ran : call depth s = .ok (a,t)) :
    t.chars = s.chars ∧ t.pos ≤ t.chars.length ∧ post a t := by
  rcases stacked_ok stacked ran enough with overflows | same
  · exact absurd overflows (safe_fits safe)
  · exact safe_ok safe same

end Stack

section Rounds

variable {ε σ α β : Type} {body : Nat → β → Machine ε σ (Turn β α)} {s t u : Scan σ}
  {value next last : β} {depth : Nat}

-- The rounds of a loop from one to another, each with as much of the stack as it needs.
inductive Rounds (body : Nat → β → Machine ε σ (Turn β α)) : β → Scan σ → β → Scan σ → Prop where
  | none {value : β} {s : Scan σ} : Rounds body value s value s
  | more {depth : Nat} {value next last : β} {s t u : Scan σ} : body depth value s =
      .ok (.again next,t) → Rounds body next t last u →
      Rounds body value s last u

theorem loopFrom_overflow {fuel : Nat} (overflows : loopFrom (body depth) fuel value s = .error .overflow) :
    ∃ last t, Rounds body value s last t ∧ body depth last t = .error .overflow := by
  induction fuel generalizing value s with
  | zero => cases overflows
  | succ fuel ih =>
    rcases overflow_bind.mp overflows with never | ⟨entry,_,here_,rest⟩
    · cases never
    · cases here_
      rcases overflow_bind.mp rest with first | ⟨turn,t,ran,rest⟩
      · exact ⟨value,s,.none,first⟩
      · cases turn with
        | leave a => cases rest
        | again next =>
          have rest : deeper s.pos (loopFrom (body depth) fuel next) t = .error .overflow := rest
          rcases overflow_bind.mp rest with never | ⟨pos,_,here_,rest⟩
          · cases never
          · cases here_
            split_ifs at rest
            · cases rest
            · obtain ⟨last,u,rounds,overflows⟩ := ih rest
              exact ⟨last,u,.more ran rounds,overflows⟩

def Taking (body : Nat → β → Machine ε σ (Turn β α)) (start : Scan σ) : Prop :=
  ∀ depth value next t u, t.chars = start.chars → start.pos ≤ t.pos → t.pos ≤ t.chars.length →
    body depth value t = .ok (.again next,u) →
    u.chars = t.chars ∧ u.pos ≤ u.chars.length ∧ t.pos < u.pos

theorem rounds_onward (taking : Taking body s) (chars : t.chars = s.chars) (from_ : s.pos ≤ t.pos)
    (within : t.pos ≤ t.chars.length)
    (rounds : Rounds body value t last u) : u.chars = s.chars ∧ t.pos ≤ u.pos ∧ u.pos ≤ u.chars.length := by
  induction rounds with
  | none => exact ⟨chars,Nat.le_refl _,within⟩
  | more ran _ ih =>
    obtain ⟨same,inside,further⟩ := taking _ _ _ _ _ chars from_ within ran
    obtain ⟨chars',onward,within'⟩ := ih (same.trans chars) (by omega) inside
    exact ⟨chars',by omega,within'⟩

theorem loopFrom_overflows (stacked : ∀ value, Stacked fun depth => body depth value) (taking : Taking body s)
    (rounds : Rounds body value t last u) (overflows : body depth last u = .error .overflow)
      {fuel : Nat} (chars : t.chars = s.chars)
    (from_ : s.pos ≤ t.pos) (within : t.pos ≤ t.chars.length) (enough : t.chars.length < t.pos + fuel) :
    loopFrom (body depth) fuel value t = .error .overflow := by
  induction rounds generalizing fuel with
  | none =>
    obtain ⟨fuel,rfl⟩ := Nat.exists_eq_succ_of_ne_zero (show fuel ≠ 0 by omega)
    exact (bind_ok (show here _ = .ok (_,_) from rfl)).trans (bind_error overflows)
  | @more other value next last t v u ran rounds ih =>
    obtain ⟨fuel,rfl⟩ := Nat.exists_eq_succ_of_ne_zero (show fuel ≠ 0 by omega)
    obtain ⟨same,inside,further⟩ := taking _ _ _ _ _ chars from_ within ran
    refine (bind_ok (show here _ = .ok (_,_) from rfl)).trans ?_
    rcases stacked_ok (stacked value) ran depth with first | again
    · exact bind_error first
    · refine (bind_ok again).trans ((bind_ok (show here v = .ok (v.pos,v) from rfl)).trans ?_)
      rw [if_neg (Nat.not_le.mpr further)]
      have length := congrArg List.length same
      exact ih overflows (same.trans chars) (by omega) inside (by omega)

theorem loop_overflow_iff (stacked : ∀ value, Stacked fun depth => body depth value) (taking : Taking body s)
    (within : s.pos ≤ s.chars.length) : loop (body depth) value s = .error .overflow ↔
      ∃ last t, Rounds body value s last t ∧ body depth last t = .error .overflow := by
  have begun : loop (body depth) value s = loopFrom (body depth) (s.chars.length + 1) value s :=
    bind_ok (show size s = .ok (s.chars.length,s) from rfl)
  rw [begun]
  exact ⟨loopFrom_overflow,fun ⟨_,_,rounds,overflows⟩ =>
    loopFrom_overflows stacked taking rounds overflows rfl (Nat.le_refl _) within (by omega)⟩

end Rounds
end CheckedScan
