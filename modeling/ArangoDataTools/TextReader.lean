import ArangoDataTools.TextScan

namespace TextReader

-- A position in a text, what was read before it latest first, and the state a
-- reader carries along.
structure Cursor (σ : Type) where
  passed : List Char
  rest : List Char
  state : σ

abbrev Reader (ε σ α : Type) := StateT (Cursor σ) (Except ε) α

section Primitives

variable {ε σ : Type}

def peek : Reader ε σ (Option Char) := fun cursor => .ok (cursor.rest.head?,cursor)

def peekAt (offset : Nat) : Reader ε σ (Option Char) := fun cursor => .ok (cursor.rest[offset]?,cursor)

def ahead : Reader ε σ (List Char) := fun cursor => .ok (cursor.rest,cursor)

def nextChar : Reader ε σ (Option Char) := fun cursor =>
  match cursor.rest with
  | [] => .ok (none,cursor)
  | c :: rest => .ok (some c,{ cursor with passed := c :: cursor.passed, rest })

def advance (count : Nat) : Reader ε σ Unit := fun cursor =>
  .ok ((),{ cursor with passed := (cursor.rest.take count).reverse ++ cursor.passed, rest := cursor.rest.drop count })

def retreat (count : Nat) : Reader ε σ Unit := fun cursor =>
  .ok ((),{ cursor with passed := cursor.passed.drop count, rest := (cursor.passed.take count).reverse ++ cursor.rest })

def readWhile (inClass : Char → Bool) : Reader ε σ (List Char) := fun cursor =>
  .ok (cursor.rest.takeWhile inClass,
    { cursor with passed := (cursor.rest.takeWhile inClass).reverse ++ cursor.passed, rest := cursor.rest.dropWhile inClass })

def current : Reader ε σ σ := fun cursor => .ok (cursor.state,cursor)

def update (change : σ → σ) : Reader ε σ Unit :=
  fun cursor => .ok ((),{ cursor with state := change cursor.state })

def failAt (failure : List Char → ε) : Reader ε σ α := fun cursor => .error (failure cursor.passed)

end Primitives

section Judgements

variable {ε σ α β : Type} {reader : Reader ε σ α} {next : α → Reader ε σ β}
  {text rest more word : List Char} {s t u : σ} {a : α} {b : β}
variable {c : Char} {inClass : Char → Bool}

-- From `text` in state `s`, wherever it stands, the reader returns `a` with
-- `rest` left in state `t`.
def Reads (reader : Reader ε σ α) (text : List Char) (s : σ) (a : α) (rest : List Char) (t : σ) : Prop :=
  ∀ passed, ∃ later, reader ⟨passed,text,s⟩ = .ok (a,⟨later,rest,t⟩)

def Fails (reader : Reader ε σ α) (text : List Char) (s : σ) : Prop :=
  ∀ passed, ∃ failure, reader ⟨passed,text,s⟩ = .error failure

theorem reads_pure : Reads (pure a : Reader ε σ α) text s a text s := fun passed => ⟨passed,rfl⟩

theorem reads_bind (first : Reads reader text s a rest t) (second : Reads (next a) rest t b more u) :
    Reads (reader >>= next) text s b more u := by
  intro passed
  obtain ⟨middle,read⟩ := first passed
  obtain ⟨later,then_read⟩ := second middle
  refine ⟨later,?_⟩
  show (reader ⟨passed,text,s⟩).bind (fun reached => next reached.1 reached.2) = _
  rw [read]
  exact then_read

theorem fails_bind (first : Fails reader text s) : Fails (reader >>= next) text s := by
  intro passed
  obtain ⟨failure,read⟩ := first passed
  refine ⟨failure,?_⟩
  show (reader ⟨passed,text,s⟩).bind (fun reached => next reached.1 reached.2) = _
  rw [read]
  rfl

theorem fails_after (first : Reads reader text s a rest t) (second : Fails (next a) rest t) :
    Fails (reader >>= next) text s := by
  intro passed
  obtain ⟨middle,read⟩ := first passed
  obtain ⟨failure,then_read⟩ := second middle
  refine ⟨failure,?_⟩
  show (reader ⟨passed,text,s⟩).bind (fun reached => next reached.1 reached.2) = _
  rw [read]
  exact then_read

theorem fails_following (first : ∀ passed, ∃ a later rest, reader ⟨passed,text,s⟩ = .ok (a,⟨later,rest,t⟩))
    (second : ∀ a rest, Fails (next a) rest t) : Fails (reader >>= next) text s := by
  intro passed
  obtain ⟨a,middle,rest,read⟩ := first passed
  obtain ⟨failure,then_read⟩ := second a rest middle
  refine ⟨failure,?_⟩
  show (reader ⟨passed,text,s⟩).bind (fun reached => next reached.1 reached.2) = _
  rw [read]
  exact then_read

theorem fails_failAt (failure : List Char → ε) : Fails (failAt failure : Reader ε σ α) text s :=
  fun passed => ⟨failure passed,rfl⟩

theorem reads_peek : Reads (peek : Reader ε σ _) text s text.head? text s := fun passed => ⟨passed,rfl⟩

theorem reads_peekAt (offset : Nat) :
    Reads (peekAt offset : Reader ε σ _) text s text[offset]? text s := fun passed => ⟨passed,rfl⟩

theorem reads_ahead : Reads (ahead : Reader ε σ _) text s text text s := fun passed => ⟨passed,rfl⟩

theorem reads_nextChar : Reads (nextChar : Reader ε σ _) (c :: rest) s (some c) rest s :=
  fun passed => ⟨c :: passed,rfl⟩

theorem reads_end : Reads (nextChar : Reader ε σ _) [] s none [] s := fun passed => ⟨passed,rfl⟩

theorem reads_advance (count : Nat) (length : word.length = count) :
    Reads (advance count : Reader ε σ _) (word ++ rest) s () rest s := by
  subst length
  exact fun passed => ⟨_,by rw [advance,List.drop_left]⟩

theorem reads_step : Reads (advance 1 : Reader ε σ _) (c :: rest) s () rest s := fun _ => ⟨_,rfl⟩

theorem reads_word (all : ∀ c ∈ word, inClass c = true) (stops : TextScan.Stops inClass rest) :
    Reads (readWhile inClass : Reader ε σ _) (word ++ rest) s word rest s := by
  intro passed
  refine ⟨word.reverse ++ passed,?_⟩
  rw [readWhile,TextScan.takeWhile_word all stops,TextScan.dropWhile_word all stops]

theorem reads_giveBack {given : List Char} (count : List Char → Nat) (then_read : List Char → Reader ε σ β)
    (all : ∀ c ∈ word ++ given, inClass c = true) (stops : TextScan.Stops inClass rest) (counted : count (word ++ given) = given.length)
    (second : Reads (then_read (word ++ given)) (given ++ rest) s b more u) :
    Reads (readWhile inClass >>= fun scanned => retreat (count scanned) >>= fun _ => then_read scanned) (word ++ (given ++ rest)) s b more u := by
  intro passed
  have reading : (readWhile inClass : Reader ε σ _) ⟨passed,word ++ (given ++ rest),s⟩ =
      .ok (word ++ given,⟨(word ++ given).reverse ++ passed,rest,s⟩) := by
    rw [readWhile,← List.append_assoc,TextScan.takeWhile_word all stops,TextScan.dropWhile_word all stops]
  have giving : (retreat given.length : Reader ε σ _) ⟨(word ++ given).reverse ++ passed,rest,s⟩ =
      .ok ((),⟨word.reverse ++ passed,given ++ rest,s⟩) := by
    have reversed : (word ++ given).reverse ++ passed = given.reverse ++ (word.reverse ++ passed) := by simp
    have taken : (given.reverse ++ (word.reverse ++ passed)).take given.length = given.reverse :=
      List.take_left' List.length_reverse
    have dropped : (given.reverse ++ (word.reverse ++ passed)).drop given.length = word.reverse ++ passed :=
      List.drop_left' List.length_reverse
    rw [retreat,reversed,taken,dropped,List.reverse_reverse]
  obtain ⟨later,read⟩ := second (word.reverse ++ passed)
  refine ⟨later,?_⟩
  show ((readWhile inClass : Reader ε σ _) ⟨passed,word ++ (given ++ rest),s⟩).bind
    (fun r => ((retreat (count r.1) : Reader ε σ _) r.2).bind fun q => then_read r.1 q.2) = _
  rw [reading]
  show ((retreat (count (word ++ given)) : Reader ε σ _) ⟨(word ++ given).reverse ++ passed,rest,s⟩).bind
    (fun q => then_read (word ++ given) q.2) = _
  rw [counted,giving]
  exact read

theorem reads_current : Reads (current : Reader ε σ _) text s s text s := fun passed => ⟨passed,rfl⟩

theorem reads_update (change : σ → σ) : Reads (update change : Reader ε σ _) text s () text
    (change s) := fun passed => ⟨passed,rfl⟩

-- A reader that follows a specification: it returns its result with a rest that
-- satisfies `ends`, and fails where there is no result.
def Yields (reader : Reader ε σ α) (text : List Char) (s : σ) (result : Option (α × σ))
    (ends : List Char → Prop) : Prop :=
  match result with
  | some (a,t) => ∃ rest, ends rest ∧ Reads reader text s a rest t
  | none => Fails reader text s

variable {ρ : Type} {result : Option ρ} {view : ρ → α × σ} {later : ρ → Option (β × σ)}
  {ends closes : List Char → Prop}

theorem yields_reads (ended : ends rest) (reads : Reads reader text s a rest t) :
    Yields reader text s (some (a,t)) ends :=
  ⟨rest,ended,reads⟩

theorem yields_after (first : Reads reader text s a rest t) (second : Yields (next a) rest t found closes) :
    Yields (reader >>= next) text s found closes := by
  cases found with
  | none => exact fails_after first second
  | some found =>
    obtain ⟨more,ended,reads⟩ := second
    exact ⟨more,ended,reads_bind first reads⟩

theorem yields_bind (first : Yields reader text s (result.map view) ends)
    (second : ∀ r rest, result = some r → ends rest →
    Yields (next (view r).1) rest (view r).2 (later r) closes) :
    Yields (reader >>= next) text s (result.bind later) closes := by
  cases result with
  | none => exact fails_bind first
  | some r =>
    obtain ⟨rest,ended,reads⟩ := first
    exact yields_after reads (second r rest rfl ended)

theorem yields_close {after : ρ → β × σ} (first : Yields reader text s (result.map view) ends)
    (second : ∀ r rest, ends rest → ∃ more, closes more ∧
    Reads (next (view r).1) rest (view r).2 (after r).1 more (after r).2) :
    Yields (reader >>= next) text s (result.map after) closes := by
  cases result with
  | none => exact fails_bind first
  | some r =>
    obtain ⟨rest,ended,reads⟩ := first
    obtain ⟨more,closed,then_reads⟩ := second r rest ended
    exact ⟨more,closed,reads_bind reads then_reads⟩

theorem yields_finish {after : ρ → β × σ} (first : Yields reader text s (result.map view) ends)
    (second : ∀ r rest, Reads (next (view r).1) rest (view r).2 (after r).1 rest (after r).2) :
    Yields (reader >>= next) text s (result.map after) ends :=
  yields_close first fun r rest ended => ⟨rest,ended,second r rest⟩

theorem yields_map (change : α → β) (first : Yields reader text s (result.map view) ends) :
    Yields (reader >>= fun a => pure (change a)) text s
      (result.map fun r => (change (view r).1,(view r).2)) ends :=
  yields_finish first fun _ _ => reads_pure

theorem yields_weaken {found : Option (α × σ)} (yields : Yields reader text s found ends)
    (weaker : ∀ rest, ends rest → closes rest) :
    Yields reader text s found closes := by
  cases found with
  | none => exact yields
  | some found =>
    obtain ⟨rest,ended,reads⟩ := yields
    exact ⟨rest,weaker rest ended,reads⟩

end Judgements
end TextReader
