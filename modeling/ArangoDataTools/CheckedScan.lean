import Mathlib.Algebra.GroupWithZero.Nat
import ArangoDataTools.TextScan

namespace CheckedScan

-- How a scan ends without a value: with an error it returns, or with what it must never
-- do. A round of a loop, or a nested call, that took no character has stalled; a call for
-- which the stack has no room overflows.
inductive Stop (ε : Type) where
  | error (err : ε)
  | panic (message : String)
  | stalled
  | endless
  | overflow

structure Scan (σ : Type) where
  chars : List Char
  pos : Nat
  state : σ

abbrev Machine (ε σ α : Type) := StateT (Scan σ) (Except (Stop ε)) α

inductive Turn (β α : Type) where
  | again (value : β)
  | leave (value : α)

section Primitives

variable {ε σ α β : Type}

def halt (stop : Stop ε) : Machine ε σ α := fun _ => .error stop

def failAt (failure : List Char → ε) : Machine ε σ α :=
  fun s => .error (.error (failure (s.chars.take s.pos).reverse))

def here : Machine ε σ Nat := fun s => .ok (s.pos,s)
def size : Machine ε σ Nat := fun s => .ok (s.chars.length,s)
def charAt (index : Nat) : Machine ε σ (Option Char) := fun s => .ok (s.chars[index]?,s)
def peekAt (offset : Nat) : Machine ε σ (Option Char) := fun s => .ok (s.chars[s.pos + offset]?,s)
def peek : Machine ε σ (Option Char) := peekAt 0
def bump (count : Nat) : Machine ε σ Unit := fun s => .ok ((),{s with pos := s.pos + count})
def current : Machine ε σ σ := fun s => .ok (s.state,s)
def update (change : σ → σ) : Machine ε σ Unit := fun s => .ok ((),{s with state := change s.state})

def nextChar : Machine ε σ (Option Char) := fun s =>
  match s.chars[s.pos]? with
  | some c => .ok (some c,{s with pos := s.pos + 1})
  | none => .ok (none,s)

-- `chars[start..stop]`
def slice (start stop : Nat) : Machine ε σ (List Char) := fun s =>
  if start ≤ stop ∧ stop ≤ s.chars.length then .ok ((s.chars.take stop).drop start,s)
  else .error (.panic "slice index out of range")

-- `pos -= count`
def goBack (count : Nat) : Machine ε σ Unit := fun s =>
  if count ≤ s.pos then .ok ((),{s with pos := s.pos - count})
    else .error (.panic "attempt to subtract with overflow")

def subtract (a b : Nat) : Machine ε σ Nat :=
  if b ≤ a then pure (a - b) else halt (.panic "attempt to subtract with overflow")

def deeper (entry : Nat) (call : Machine ε σ α) : Machine ε σ α := do
  if (← here) ≤ entry then halt .stalled else call

-- `fuel` bounds the rounds.
def loopFrom (body : β → Machine ε σ (Turn β α)) : Nat → β → Machine ε σ α
  | 0, _ => halt .endless
  | fuel + 1, value => do
    let entry ← here
    match ← body value with
    | .leave result => return result
    | .again value => deeper entry (loopFrom body fuel value)

def loop (body : β → Machine ε σ (Turn β α)) (value : β) : Machine ε σ α := do
  loopFrom body ((← size) + 1) value

-- `while let Some(c) = self.peek() { if inClass(c) { self.pos += 1 } else { break } }`
def takeIn (inClass : Char → Bool) : Machine ε σ Unit :=
  loop (fun _ => do
    match ← peek with
    | some c =>
      if inClass c then do
        bump 1
        return .again ()
      else return .leave ()
    | none => return .leave ()) ()

-- `for _ in 0..count { code = code * 16 + digit }` in a `u32`, and the character it is the
-- code of.
def hexFrom (truncated invalid unknown : Machine ε σ Char) (code : Nat) : Nat → Machine ε σ Char
  | 0 => match TextScan.fromCode code with
    | some c => pure c
    | none => unknown
  | count + 1 => do
    match ← nextChar with
    | none => truncated
    | some c => match TextScan.toDigit c with
      | none => invalid
      | some digit =>
        if code * 16 + digit < 2 ^ 32 then hexFrom truncated invalid unknown (code * 16 + digit) count
        else halt (.panic "attempt to add with overflow")

def scanning (text : List Char) (scan : Machine ε Unit α) : Machine ε σ α := fun s =>
  match scan ⟨text,0,()⟩ with
  | .ok (a,_) => .ok (a,s)
  | .error stop => .error stop

end Primitives

section Judgements

variable {ε σ α β : Type} {m : Machine ε σ α} {f : α → Machine ε σ β} {s t : Scan σ}
  {post mid : α → Scan σ → Prop}
  {after : β → Scan σ → Prop}

-- From `s` the scan ends with an error of its own, or with a value and within the text.
def Safe (m : Machine ε σ α) (s : Scan σ) (post : α → Scan σ → Prop) : Prop :=
  match m s with
  | .ok (a,t) => t.chars = s.chars ∧ t.pos ≤ t.chars.length ∧ post a t
  | .error (.error _) => True
  | .error _ => False

theorem safe_cases : Safe m s post ↔
    (∃ a t, m s = .ok (a,t) ∧ t.chars = s.chars ∧ t.pos ≤ t.chars.length ∧ post a t) ∨
    ∃ err, m s = .error (.error err) := by
  unfold Safe
  cases found : m s with
  | ok reached => exact ⟨fun holds =>
      .inl ⟨_,_,rfl,holds⟩,by rintro (⟨a,t,same,holds⟩ | ⟨err,same⟩) <;> cases same; exact holds⟩
  | error stop => cases stop <;> simp

@[simp] theorem safe_pure {a : α} : Safe (pure a : Machine ε σ α) s post ↔ s.pos ≤ s.chars.length ∧ post a s :=
  ⟨And.right,fun holds => ⟨rfl,holds⟩⟩

@[simp] theorem safe_failAt {failure : List Char → ε} :
    Safe (failAt failure : Machine ε σ α) s post ↔ True := Iff.rfl
@[simp] theorem safe_error {err : ε} : Safe (halt (.error err) : Machine ε σ α) s post ↔ True := Iff.rfl
@[simp] theorem safe_here {f : Nat → Machine ε σ β} : Safe (here >>= f) s after ↔
    Safe (f s.pos) s after := Iff.rfl
@[simp] theorem safe_size {f : Nat → Machine ε σ β} : Safe (size >>= f) s after ↔
    Safe (f s.chars.length) s after := Iff.rfl
@[simp] theorem safe_charAt {index : Nat} {f : Option Char → Machine ε σ β} :
    Safe (charAt index >>= f) s after ↔ Safe (f s.chars[index]?) s after := Iff.rfl
@[simp] theorem safe_peekAt {offset : Nat} {f : Option Char → Machine ε σ β} :
    Safe (peekAt offset >>= f) s after ↔ Safe (f s.chars[s.pos + offset]?) s after := Iff.rfl
@[simp] theorem safe_peek {f : Option Char → Machine ε σ β} : Safe (peek >>= f) s after ↔
    Safe (f s.chars[s.pos]?) s after := Iff.rfl
@[simp] theorem safe_current {f : σ → Machine ε σ β} : Safe (current >>= f) s after ↔
    Safe (f s.state) s after := Iff.rfl
@[simp] theorem safe_bump {count : Nat} {f : Unit → Machine ε σ β} :
    Safe (bump count >>= f) s after ↔ Safe (f ()) {s with pos := s.pos + count} after := Iff.rfl
@[simp] theorem safe_update {change : σ → σ} {f : Unit → Machine ε σ β} :
    Safe (update change >>= f) s after ↔ Safe (f ()) {s with state := change s.state} after := Iff.rfl
@[simp] theorem safe_updated {change : σ → σ} {post : Unit → Scan σ → Prop} :
    Safe (update change : Machine ε σ Unit) s post ↔
    s.pos ≤ s.chars.length ∧ post () {s with state := change s.state} := ⟨And.right,fun holds => ⟨rfl,holds⟩⟩

theorem safe_bind (first : Safe m s mid)
    (second : ∀ a t, t.chars = s.chars → t.pos ≤ t.chars.length → mid a t → Safe (f a) t after) :
    Safe (m >>= f) s after := by
  rcases safe_cases.mp first with ⟨a,t,ran,chars,within,holds⟩ | ⟨err,ran⟩
  · have bound : (m >>= f) s = f a t := by
      show (m s).bind (fun reached => f reached.1 reached.2) = _
      rw [ran]
      rfl
    have later := second a t chars within holds
    unfold Safe at later ⊢
    rwa [bound,← chars]
  · have bound : (m >>= f) s = .error (.error err) := by
      show (m s).bind (fun reached => f reached.1 reached.2) = _
      rw [ran]
      rfl
    unfold Safe
    rw [bound]
    trivial

-- What never happens: a panic, a loop without end.
def Returns (result : Except (Stop ε) α) : Prop := (∃ a, result = .ok a) ∨ ∃ err, result = .error (.error err)

theorem safe_returns (safe : Safe m s post) {f : α × Scan σ → β} : Returns ((m s).map f) := by
  rcases safe_cases.mp safe with ⟨a,t,ran,-⟩ | ⟨err,ran⟩
  · exact .inl ⟨f (a,t),by rw [ran]; rfl⟩
  · exact .inr ⟨err,by rw [ran]; rfl⟩

theorem safe_mono {weaker : α → Scan σ → Prop} (safe : Safe m s post)
    (implies : ∀ a t, t.chars = s.chars → t.pos ≤ t.chars.length → post a t → weaker a t) :
    Safe m s weaker := by
  rcases safe_cases.mp safe with ⟨a,t,ran,chars,within,holds⟩ | failed
  · exact safe_cases.mpr (.inl ⟨a,t,ran,chars,within,implies a t chars within holds⟩)
  · exact safe_cases.mpr (.inr failed)

theorem safe_slice {start stop : Nat} {f : List Char → Machine ε σ β} (order : start ≤ stop)
    (inside : stop ≤ s.chars.length)
    (rest : Safe (f ((s.chars.take stop).drop start)) s after) : Safe (slice start stop >>= f) s after := by
  have ran : (slice start stop >>= f) s = f ((s.chars.take stop).drop start) s := by
    show (slice start stop s).bind (fun reached => f reached.1 reached.2) = _
    rw [slice,if_pos ⟨order,inside⟩]
    rfl
  unfold Safe at rest ⊢
  rwa [ran]

theorem safe_sliced {start stop : Nat} {post : List Char → Scan σ → Prop} (order : start ≤ stop)
    (inside : stop ≤ s.chars.length)
    (within : s.pos ≤ s.chars.length) (holds : post ((s.chars.take stop).drop start) s) :
    Safe (slice start stop : Machine ε σ _) s post := by
  unfold Safe
  rw [slice,if_pos ⟨order,inside⟩]
  exact ⟨rfl,within,holds⟩

theorem present {index : Nat} {c : Char} (found : s.chars[index]? = some c) : index < s.chars.length :=
  (List.getElem?_eq_some_iff.mp found).1

theorem safe_nextChar {f : Option Char → Machine ε σ β}
    (taken : ∀ c, s.chars[s.pos]? = some c → Safe (f (some c)) {s with pos := s.pos + 1} after)
    (ended : s.chars[s.pos]? = none → Safe (f none) s after) : Safe (nextChar >>= f) s after := by
  cases found : s.chars[s.pos]? with
  | none =>
    have ran : (nextChar >>= f) s = f none s := by
      show (nextChar s).bind (fun reached => f reached.1 reached.2) = _
      rw [nextChar,found]
      rfl
    have rest := ended found
    unfold Safe at rest ⊢
    rwa [ran]
  | some c =>
    have ran : (nextChar >>= f) s = f (some c) {s with pos := s.pos + 1} := by
      show (nextChar s).bind (fun reached => f reached.1 reached.2) = _
      rw [nextChar,found]
      rfl
    have rest := taken c found
    unfold Safe at rest ⊢
    rwa [ran]

theorem safe_goBack {count : Nat} {f : Unit → Machine ε σ β} (fits : count ≤ s.pos)
    (rest : Safe (f ()) {s with pos := s.pos - count} after) :
    Safe (goBack count >>= f) s after := by
  have ran : (goBack count >>= f) s = f () {s with pos := s.pos - count} := by
    show (goBack count s).bind (fun reached => f reached.1 reached.2) = _
    rw [goBack,if_pos fits]
    rfl
  unfold Safe at rest ⊢
  rwa [ran]

theorem safe_subtract {a b : Nat} {f : Nat → Machine ε σ β} (fits : b ≤ a) (rest : Safe (f (a - b)) s after) :
    Safe (subtract a b >>= f) s after := by
  rw [subtract,if_pos fits]
  exact rest

theorem safe_deeper {entry : Nat} (further : entry < s.pos) (rest : Safe m s post) :
    Safe (deeper entry m) s post := by
  unfold deeper
  rw [safe_here,if_neg (Nat.not_le.mpr further)]
  exact rest

theorem safe_scanning {text : List Char} {scan : Machine ε Unit α} {reads : α → Scan Unit → Prop}
    {f : α → Machine ε σ β}
    (within : Safe scan ⟨text,0,()⟩ reads) (rest : ∀ a, Safe (f a) s after) :
    Safe (scanning text scan >>= f) s after := by
  rcases safe_cases.mp within with ⟨a,t,ran,-⟩ | ⟨err,ran⟩
  · have bound : (scanning text scan >>= f) s = f a s := by
      show (scanning text scan s).bind (fun reached => f reached.1 reached.2) = _
      rw [scanning,ran]
      rfl
    have later := rest a
    unfold Safe at later ⊢
    rwa [bound]
  · have bound : (scanning text scan >>= f) s = .error (.error err) := by
      show (scanning text scan s).bind (fun reached => f reached.1 reached.2) = _
      rw [scanning,ran]
      rfl
    unfold Safe
    rw [bound]
    trivial

theorem safe_loopFrom {body : β → Machine ε σ (Turn β α)} {holds : β → Scan σ → Prop} {fuel : Nat}
    {value : β} {start : Nat}
    (round : ∀ value t, t.chars = s.chars → start ≤ t.pos → t.pos ≤ t.chars.length → holds value t →
    Safe (body value) t fun turn u =>
      match turn with
      | .again value => t.pos < u.pos ∧ holds value u
      | .leave a => post a u)
    (chars : t.chars = s.chars) (from_ : start ≤ t.pos) (within : t.pos ≤ t.chars.length)
      (first : holds value t)
    (enough : t.chars.length < t.pos + fuel) : Safe (loopFrom body fuel value) t post := by
  induction fuel generalizing value t with
  | zero => omega
  | succ fuel ih =>
    unfold loopFrom
    rw [safe_here]
    refine safe_bind (round value t chars from_ within first) fun turn u same inside next => ?_
    cases turn with
    | leave a => exact safe_pure.mpr ⟨inside,next⟩
    | again value =>
      have same' := congrArg List.length same
      exact safe_deeper next.1 (ih (same.trans chars) (by omega) inside next.2 (by omega))

theorem safe_loop {body : β → Machine ε σ (Turn β α)} {value : β} (holds : β → Scan σ → Prop)
    (within : s.pos ≤ s.chars.length) (first : holds value s)
    (round : ∀ value t, t.chars = s.chars → s.pos ≤ t.pos → t.pos ≤ t.chars.length → holds value t →
    Safe (body value) t fun turn u =>
      match turn with
      | .again value => t.pos < u.pos ∧ holds value u
      | .leave a => post a u) : Safe (loop body value) s post := by
  unfold loop
  rw [safe_size]
  exact safe_loopFrom round rfl (Nat.le_refl _) within first (by omega)

def ahead (inClass : Char → Bool) (chars : List Char) (pos : Nat) : List Char :=
  (chars.drop pos).takeWhile inClass

theorem ahead_end {inClass : Char → Bool} {chars : List Char} {pos : Nat}
    (none_ : chars[pos]? = none) : ahead inClass chars pos = [] := by
  rw [ahead,List.drop_eq_nil_of_le (List.getElem?_eq_none_iff.mp none_),List.takeWhile_nil]

theorem ahead_some {inClass : Char → Bool} {chars : List Char} {pos : Nat} {c : Char}
    (found : chars[pos]? = some c) :
    ahead inClass chars pos = if inClass c then c :: ahead inClass chars (pos + 1) else [] := by
  obtain ⟨inside,rfl⟩ := List.getElem?_eq_some_iff.mp found
  rw [ahead,← List.getElem_cons_drop inside,List.takeWhile_cons,ahead]

theorem ahead_slice (inClass : Char → Bool) (chars : List Char) (pos : Nat) :
    (chars.take (pos + (ahead inClass chars pos).length)).drop pos = ahead inClass chars pos := by
  rw [List.drop_take,Nat.add_sub_cancel_left]
  exact (List.prefix_iff_eq_take.mp (List.takeWhile_prefix inClass)).symm

theorem safe_takeIn {inClass : Char → Bool} (within : s.pos ≤ s.chars.length) :
    Safe (takeIn inClass : Machine ε σ Unit) s fun _ t =>
    t.state = s.state ∧ t.pos = s.pos + (ahead inClass s.chars s.pos).length := by
  -- What is still ahead shrinks as the position moves on.
  refine safe_loop (fun _ t => t.state = s.state ∧
    t.pos + (ahead inClass t.chars t.pos).length = s.pos + (ahead inClass s.chars s.pos).length)
      within ⟨rfl,rfl⟩ ?_
  intro _ t chars _ inside ⟨same,left⟩
  rw [safe_peek]
  cases found : t.chars[t.pos]? with
  | none =>
    rw [ahead_end found,List.length_nil,Nat.add_zero] at left
    exact safe_pure.mpr ⟨inside,same,left⟩
  | some c =>
    rw [ahead_some found] at left
    by_cases belongs : inClass c = true
    · rw [if_pos belongs,List.length_cons] at left
      simp only [if_pos belongs]
      exact ⟨rfl,present found,Nat.lt_succ_self _,
        same,by show t.pos + 1 + (ahead inClass t.chars (t.pos + 1)).length = _; omega⟩
    · rw [if_neg belongs,List.length_nil,Nat.add_zero] at left
      simp only [if_neg belongs]
      exact safe_pure.mpr ⟨inside,same,left⟩

theorem toDigit_small {c : Char} {digit : Nat} (found : TextScan.toDigit c = some digit) : digit < 16 := by
  have order : ∀ {low high : Char}, low ≤ high → low.toNat ≤ high.toNat := fun less => less
  unfold TextScan.toDigit TextScan.isAsciiDigit at found
  split_ifs at found with decimal lower upper
  · simp only [Bool.and_eq_true,decide_eq_true_eq] at decimal
    have bound := order decimal.2
    cases found
    have nine : '9'.toNat = 57 := rfl
    omega
  · have bound := order lower.2
    cases found
    have last : 'f'.toNat = 102 := rfl
    omega
  · have bound := order upper.2
    cases found
    have last : 'F'.toNat = 70 := rfl
    omega

theorem safe_hexFrom {truncated invalid unknown : Machine ε σ Char} {reads : Char → Scan σ → Prop}
    (stops : ∀ t, Safe truncated t reads)
    (refuses : ∀ t, Safe invalid t reads) (rejects : ∀ t, Safe unknown t reads)
      {count code done : Nat} (few : done + count ≤ 8)
    (small : code < 16 ^ done) (within : s.pos ≤ s.chars.length)
    (holds : ∀ c t, t.chars = s.chars → s.pos ≤ t.pos → t.state = s.state → reads c t) :
    Safe (hexFrom truncated invalid unknown code count) s reads := by
  induction count generalizing s code done with
  | zero =>
    unfold hexFrom
    cases TextScan.fromCode code with
    | none => exact rejects s
    | some c => exact safe_pure.mpr ⟨within,holds c s rfl (Nat.le_refl _) rfl⟩
  | succ count ih =>
    unfold hexFrom
    refine safe_nextChar (fun c found => ?_) fun _ => stops s
    cases digit : TextScan.toDigit c with
    | none => simpa only [digit] using refuses _
    | some value =>
      have little := toDigit_small digit
      have next : code * 16 + value < 16 ^ (done + 1) := by rw [Nat.pow_succ]; omega
      have fits : code * 16 + value < 2 ^ 32 := by
        have power : 16 ^ (done + 1) ≤ 16 ^ 8 := Nat.pow_le_pow_right (by decide) (by omega)
        omega
      simp only [digit,if_pos fits]
      exact ih (by omega) next (present found) fun c t chars later state =>
        holds c t chars (by exact Nat.le_of_succ_le later) state

end Judgements
end CheckedScan
