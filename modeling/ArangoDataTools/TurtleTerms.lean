import ArangoDataTools.TurtleNumerals

namespace ArangoDataTools.Turtle
open TextScan TextReader

variable {text rest gap word label name : List Char} {token : Token} {tokens more : List Token}
  {s : Env} {c : Char} {α : Type}

section Layout

variable {ends : Token → List Char → List Char → Prop}

theorem gap_nil (whole : Gap gap) (visible : Visible (gap ++ rest)) : gap = [] := by
  cases whole with
  | nil => rfl
  | @space c gap white _ =>
    have dark := (visible c rfl).1
    rw [white] at dark
    cases dark
  | comment _ _ => exact absurd rfl (visible '#' rfl).2

theorem isSign_visible (sign : isSign c = true) : isWhitespace c = false ∧ c ≠ '#' := by
  simp only [isSign,Bool.or_eq_true,decide_eq_true_eq] at sign
  rcases sign with rfl | rfl <;> exact ⟨rfl,by decide⟩

theorem digit_visible (digit : isAsciiDigit c = true) : isWhitespace c = false ∧ c ≠ '#' := by
  simp only [isAsciiDigit,Bool.and_eq_true,decide_eq_true_eq,Char.le_def,UInt32.le_iff_toNat_le] at digit
  have low : 48 ≤ c.toNat := digit.1
  have high : c.toNat ≤ 57 := digit.2
  have hash : c ≠ '#' := by
    rintro rfl
    revert low
    decide
  refine ⟨?_,hash⟩
  simp only [isWhitespace,Bool.or_eq_false_iff,Bool.and_eq_false_iff,decide_eq_false_iff_not]
  omega

def NumberStart (c : Char) : Prop := isSign c = true ∨ isAsciiDigit c = true ∨ c = '.'

theorem number_start (form : NumberForm) : ∃ c tail, form.text = c :: tail ∧ NumberStart c := by
  have unsigned : ∃ c tail, form.whole ++ (form.fractionText ++ form.exponentText) = c :: tail ∧
      NumberStart c := by
    by_cases empty : form.whole = []
    · have fraction := form.nonempty.resolve_left fun some => some empty
      exact ⟨'.',form.fraction ++
        form.exponentText,by simp [empty,NumberForm.fractionText,fraction],.inr (.inr rfl)⟩
    · obtain ⟨d,digits,shape⟩ := List.exists_cons_of_ne_nil empty
      exact ⟨d,_,by rw [shape,List.cons_append],.inr (.inl (form.wholes d (by simp [shape])))⟩
  rcases form.signs with none | ⟨c,shape,sign⟩
  · obtain ⟨c,tail,begins,starts⟩ := unsigned
    exact ⟨c,tail,by rw [NumberForm.text,none,List.nil_append,begins],starts⟩
  · exact ⟨c,_,by rw [NumberForm.text,shape,List.singleton_append],.inl sign⟩

theorem numberStart_visible (starts : NumberStart c) : isWhitespace c = false ∧ c ≠ '#' := by
  rcases starts with sign | digit | rfl
  · exact isSign_visible sign
  · exact digit_visible digit
  · exact ⟨rfl,by decide⟩

theorem lower_letter (letter : isAsciiAlphabetic (toAsciiLowercase c) = true) : isAsciiAlphabetic c = true := by
  unfold toAsciiLowercase at letter
  split at letter
  · rename_i upper
    simp [isAsciiAlphabetic,upper]
  · exact letter

theorem letter_visible (letter : isAsciiAlphabetic c = true) : isWhitespace c = false ∧ c ≠ '#' := by
  simp only [isAsciiAlphabetic,Bool.or_eq_true,Bool.and_eq_true,decide_eq_true_eq,Char.le_def,
    UInt32.le_iff_toNat_le] at letter
  have range : 97 ≤ c.toNat ∧ c.toNat ≤ 122 ∨ 65 ≤ c.toNat ∧ c.toNat ≤ 90 := letter
  have hash : c ≠ '#' := by
    rintro rfl
    revert range
    decide
  refine ⟨?_,hash⟩
  simp only [isWhitespace,Bool.or_eq_false_iff,Bool.and_eq_false_iff,decide_eq_false_iff_not]
  omega

def Token.Proper : Token → Prop
  | .keyword word => word ≠ [] ∧ ∀ c ∈ word, isAsciiAlphabetic c = true
  | _ => True

theorem keyword_letters {keyword : List Char} (same : word.map toAsciiLowercase = keyword)
    (letters : ∀ c ∈ keyword, isAsciiAlphabetic c = true) : ∀ c ∈ word, isAsciiAlphabetic c = true := by
  intro c member
  exact lower_letter (letters _ (same ▸ List.mem_map_of_mem member))

theorem iriText_begins {form : IriForm} (text_of : IriText form word) : ∃ c tail, word = c :: tail ∧
    (c = '<' ∨ NameStart c) := by
  cases text_of with
  | reference _ => exact ⟨_,_,rfl,.inl rfl⟩
  | @prefixed label name label_form _ =>
    obtain ⟨c,tail,begins,starts⟩ := name_start label_form name
    exact ⟨c,tail,begins,.inr starts⟩
  | @escaped label pieces label_form _ _ =>
    obtain ⟨c,tail,begins,starts⟩ := name_start label_form (pieces.flatMap pieceText)
    exact ⟨c,tail,begins,.inr starts⟩

theorem literalText_begins {form : LiteralForm} (text_of : LiteralText form word) :
    ∃ c tail, word = c :: tail ∧ (IsQuote c ∨ NumberStart c ∨ isAsciiAlphabetic c = true) := by
  have string : ∀ {value text}, StringText value text → ∀ x, ∃ c tail, text ++ x = c :: tail ∧
      (IsQuote c ∨ NumberStart c ∨ isAsciiAlphabetic c = true) := by
    intro value text text_of x
    obtain ⟨quote,tail,rfl,kind⟩ := stringText_begins text_of
    exact ⟨quote,tail ++ x,rfl,.inl kind⟩
  cases text_of with
  | plain text_of => simpa using string text_of []
  | tagged text_of _ _ _ => exact string text_of _
  | typed text_of _ _ _ => exact string text_of _
  | number =>
    rename_i form
    obtain ⟨c,tail,begins,starts⟩ := number_start form
    exact ⟨c,tail,begins,.inr (.inl starts)⟩
  | @pointed sign whole s digits mark sign_form nonempty all _ _ _ _ =>
    rcases sign_form with rfl | ⟨c,rfl,is_sign⟩
    · obtain ⟨d,digits,rfl⟩ := List.exists_cons_of_ne_nil nonempty
      exact ⟨d,_,rfl,.inr (.inl (.inr (.inl (all d (by simp)))))⟩
    · exact ⟨c,_,rfl,.inr (.inl (.inl is_sign))⟩
  | @boolean value => cases value <;> exact ⟨_,_,rfl,.inr (.inr rfl)⟩

theorem token_begins (proper : token.Proper) (text_of : TokenText token word) :
    ∃ c tail, word = c :: tail ∧ isWhitespace c = false ∧ c ≠ '#' := by
  cases text_of with
  | @mark c member =>
    refine ⟨c,[],rfl,?_⟩
    simp only [List.mem_cons,List.not_mem_nil,or_false] at member
    rcases member with rfl | rfl | rfl | rfl | rfl | rfl | rfl <;> exact ⟨rfl,by decide⟩
  | a => exact ⟨_,_,rfl,rfl,by decide⟩
  | iri text_of =>
    obtain ⟨c,tail,rfl,rfl | starts⟩ := iriText_begins text_of
    · exact ⟨_,_,rfl,rfl,by decide⟩
    · have visible : Visible (c :: tail) := nameStart_visible starts
      exact ⟨c,tail,rfl,visible c rfl⟩
  | label _ _ => exact ⟨_,_,rfl,rfl,by decide⟩
  | literal text_of =>
    obtain ⟨c,tail,rfl,quote | number | letter⟩ := literalText_begins text_of
    · exact ⟨c,tail,rfl,(quote_kinds quote).2.2⟩
    · exact ⟨c,tail,rfl,numberStart_visible number⟩
    · exact ⟨c,tail,rfl,letter_visible letter⟩
  | directive => exact ⟨_,_,rfl,rfl,by decide⟩
  | keyword same =>
    have letters := keyword_letters same proper.2
    cases word with
    | nil => exact absurd same.symm proper.1
    | cons c tail => exact ⟨c,tail,rfl,letter_visible (letters c (by simp))⟩
  | @binder label form =>
    obtain ⟨c,tail,begins,starts⟩ := name_start form []
    have visible : Visible (c :: tail) := nameStart_visible starts
    exact ⟨c,tail,begins,visible c rfl⟩

theorem token_visible (proper : token.Proper) (text_of : TokenText token word) (rest : List Char) :
    Visible (word ++ rest) := by
  obtain ⟨c,tail,rfl,kind⟩ := token_begins proper text_of
  exact visible_cons kind

theorem laid_length (proper : ∀ token ∈ tokens, token.Proper) (laid : Placed ends tokens text) :
    tokens.length ≤ text.length := by
  induction laid with
  | nil _ => exact Nat.zero_le _
  | comment _ _ => exact Nat.zero_le _
  | @cons token tokens gap word rest _ text_of _ _ ih =>
    obtain ⟨first,others⟩ := List.forall_mem_cons.mp proper
    obtain ⟨c,tail,shape,_⟩ := token_begins first text_of
    have tail_length := ih others
    simp only [List.length_cons,List.length_append,shape]
    omega

theorem reads_gap (proper : token.Proper) (laid : Placed ends (token :: tokens) text) :
    ∃ after, Reads skipWs text s () after s ∧ Visible after ∧ Placed ends (token :: tokens) after := by
  cases laid with
  | @cons _ _ gap word rest whole text_of ended tail =>
    have visible := token_visible proper text_of rest
    exact ⟨word ++ rest,reads_skipWs whole visible,visible,.cons .nil text_of ended tail⟩

theorem laid_token (laid : Placed ends (token :: tokens) text) (visible : Visible text) :
    ∃ word rest, text = word ++ rest ∧ TokenText token word ∧ ends token word rest ∧
    Placed ends tokens rest := by
  cases laid with
  | @cons _ _ gap word rest whole text_of ended tail =>
    obtain rfl := gap_nil whole visible
    exact ⟨word,rest,rfl,text_of,ended,tail⟩

theorem laid_mark (laid : Placed ends (.mark c :: tokens) text) (visible : Visible text) : ∃ rest,
    text = c :: rest ∧ Placed ends tokens rest := by
  obtain ⟨word,rest,rfl,text_of,_,tail⟩ := laid_token laid visible
  cases text_of
  exact ⟨rest,rfl,tail⟩

theorem reads_markGap (laid : Placed ends (.mark c :: tokens) text) :
    ∃ rest, Reads skipWs text s () (c :: rest) s ∧ Visible (c :: rest) ∧
    Placed ends (.mark c :: tokens) (c :: rest) ∧ Placed ends tokens rest := by
  have proper : (Token.mark c).Proper := trivial
  obtain ⟨after,reads,visible,laid⟩ := reads_gap proper laid
  obtain ⟨rest,rfl,tail⟩ := laid_mark laid visible
  exact ⟨rest,reads,visible,laid,tail⟩

theorem reads_lastGap (laid : Placed ends [] text) : Reads skipWs text s () [] s := by
  cases laid with
  | nil whole =>
    have reads : Reads skipWs (text ++ []) s () [] s := reads_skipWs whole (fun _ member => nomatch member)
    rwa [List.append_nil] at reads
  | @comment gap body whole single =>
    refine reads_bind reads_ahead ?_
    have reads : Reads (advance (gap ++ '#' :: body).length : Parse Unit)
        ((gap ++ '#' :: body) ++ []) s () [] s := reads_advance _ rfl
    rw [List.append_nil] at reads
    rw [gap_length whole,hash_length,end_comment_length single]
    simpa using reads

theorem yields_skipped {next : Unit → Parse α} {found : Option (α × Env)} {ends : List Char → Prop}
    (visible : Visible text)
    (yields : Yields (skipWs >>= next) text s found ends) : Yields (next ()) text s found ends := by
  have same : ∀ passed, (skipWs >>= next) ⟨passed,text,s⟩ = next () ⟨passed,text,s⟩ := by
    intro passed
    show next () ⟨(text.take (gapLength false text)).reverse ++ passed,text.drop (gapLength false text),s⟩ = _
    rw [visible_length visible]
    rfl
  cases found with
  | none => exact fun passed => same passed ▸ yields passed
  | some found =>
    obtain ⟨rest,ended,reads⟩ := yields
    exact ⟨rest,ended,fun passed => same passed ▸ reads passed⟩

theorem yields_gap {after : List Char} {next : Unit → Parse α} {found : Option (α × Env)}
    {ends : List Char → Prop}
    (reads : Reads skipWs text s () after s) (visible : Visible after)
      (yields : Yields (skipWs >>= next) after s found ends) :
    Yields (skipWs >>= next) text s found ends := yields_after reads (yields_skipped visible yields)

end Layout

section Leaves

variable {scope : Scope} {form : IriForm} {fuel : Nat} {ends : List Char → Prop}

theorem boundary_stops (boundary : isTokenBoundary rest.head? = true) : Stops isAsciiAlphabetic rest := by
  intro c member
  rw [show rest.head? = some c from member] at boundary
  by_contra letter
  simp only [Bool.not_eq_false] at letter
  have visible := (letter_visible letter).1
  simp only [isTokenBoundary,visible,Bool.false_or,decide_eq_true_eq,List.mem_cons,List.not_mem_nil,
    or_false] at boundary
  rcases boundary with rfl | rfl | rfl | rfl | rfl | rfl | rfl <;> cases letter

theorem reads_boolean {value : Bool} (text_of : LiteralText (.boolean value) word)
    (boundary : isTokenBoundary rest.head? = true) :
    Reads booleanLiteral (word ++ rest) s
      (.literal (if value then "true" else "false") (some xsdBoolean) none) rest s := by
  cases text_of
  have letters : ∀ c ∈ if value = true then ['t','r','u','e'] else ['f','a','l','s','e'],
      isAsciiAlphabetic c = true := by
    cases value <;> exact List.forall_iff_forall_mem.mp (by decide)
  refine reads_bind (reads_word letters (boundary_stops boundary)) ?_
  cases value <;> exact reads_pure

theorem boolean_peeked {value : Bool} (text_of : LiteralText (.boolean value) word)
    (boundary : isTokenBoundary rest.head? = true) :
    peekBoolean (word ++ rest) = true := by
  cases text_of
  cases value <;> simp [peekBoolean,← List.head?_eq_getElem?,boundary]

theorem name_unpeeked (label_form : LabelForm label)
    (clear : (IriForm.prefixed label []).misread [['t','r','u','e'],['f','a','l','s','e']] id =
    false) (x : List Char) :
    peekBoolean (label ++ ':' :: x) = false := by
  have yes := opens_false rfl label_form ['t','r','u','e'] x clear (by simp) (by simp)
  have no := opens_false rfl label_form ['f','a','l','s','e'] x clear (by simp) (by simp)
  simp only [List.map_id,List.length_cons,List.length_nil] at yes no
  simpa [peekBoolean] using ⟨fun same => by simpa using fun boundary => yes ⟨same,boundary⟩,
    fun same => by simpa using fun boundary => no ⟨same,boundary⟩⟩

theorem yields_verb {name : Verb} (readable : name.readable scope.labels = true)
    (text_of : TokenText name.token word) (ended : Ends name.token word rest) :
    Yields verb (word ++ rest) scope.env ((scope.verb name).map fun iri => (iri,scope.env)) (· = rest) := by
  have proper : name.token.Proper := by cases name <;> trivial
  refine yields_after (skipWs_visible (token_visible proper text_of rest)) (yields_after reads_ahead ?_)
  cases name with
  | a =>
    cases text_of
    have found : (['a'] ++ rest).head? = some 'a' ∧ isTokenBoundary (['a'] ++ rest)[1]? = true :=
      ⟨rfl,by rw [← ended,List.head?_eq_getElem?]; rfl⟩
    rw [if_pos found]
    exact yields_after reads_step (yields_reads rfl reads_pure)
  | iri form =>
    cases text_of with
    | iri text_of =>
      have other : ¬((word ++ rest).head? = some 'a' ∧ isTokenBoundary (word ++ rest)[1]? = true) := by
        rcases readable_begins text_of readable with ⟨tail,rfl⟩ | ⟨label,tail,rfl,label_form,clear⟩
        · exact fun both => absurd both.1 (by simp)
        · have kept := opens_false rfl label_form ['a'] (tail ++ rest) clear (by simp) (by simp)
          rw [label_shape]
          rintro ⟨first,boundary⟩
          obtain ⟨tail,shape⟩ := List.head?_eq_some_iff.mp first
          rw [shape] at kept boundary
          exact kept ⟨rfl,boundary⟩
      rw [if_neg other]
      have found : Yields iriOrBlank (word ++ rest) scope.env
          ((scope.resolve form).map fun iri => (Node.iri iri,scope.env)) (· = rest) :=
        yields_iriOrBlank (readable_plain readable) text_of ended
      exact yields_finish found fun _ _ => reads_pure

theorem yields_objectNode {ρ : Type} {found : Option ρ} {view : ρ → Node × Env}
    (visible : isWhitespace c = false ∧ c ≠ '#')
    (marks : c ≠ '[' ∧ c ≠ '(' ∧ c ≠ '"' ∧ c ≠ '\'')
      (number : ¬(c = '+' ∨ c = '-' ∨ c = '.' ∨ isAsciiDigit c = true))
    (boolean : ¬((c = 't' ∨ c = 'f') ∧ peekBoolean (c :: text) = true))
      (node : Yields iriOrBlank (c :: text) s (found.map view) ends) :
    Yields (object (fuel + 1)) (c :: text) s (found.map fun r => (.node (view r).1,(view r).2)) ends := by
  rw [object]
  refine yields_after (skipWs_visible (visible_cons visible)) (yields_after reads_ahead ?_)
  rw [List.head?_cons]
  obtain ⟨bracket,parenthesis,double,single⟩ := marks
  split
  · rename_i same
    exact absurd (Option.some.inj same) bracket
  · rename_i same
    exact absurd (Option.some.inj same) parenthesis
  · rename_i same
    exact absurd (Option.some.inj same) double
  · rename_i same
    exact absurd (Option.some.inj same) single
  · rename_i same
    cases same
    rw [if_neg number,if_neg boolean]
    exact yields_map (fun found => Object.node found) node
  · rename_i none
    cases none

theorem nameStart_number (starts : NameStart c) : ¬(c = '+' ∨ c = '-' ∨ c = '.' ∨ isAsciiDigit c = true) := by
  rintro (same | same | same | digit)
  · exact nameStart_ne starts (by decide) same
  · exact nameStart_ne starts (by decide) same
  · exact nameStart_ne starts (by decide) same
  · have range : 48 ≤ c.toNat ∧ c.toNat ≤ 57 := by
      simpa [isAsciiDigit,Char.le_def,UInt32.le_iff_toNat_le] using digit
    rcases starts.1 with rfl | letter | high
    · revert range
      decide
    · simp only [isAsciiAlphabetic,Bool.or_eq_true,Bool.and_eq_true,decide_eq_true_eq,Char.le_def,
        UInt32.le_iff_toNat_le] at letter
      have range : 97 ≤ c.toNat ∧ c.toNat ≤ 122 ∨ 65 ≤ c.toNat ∧ c.toNat ≤ 90 := letter
      omega
    · omega

theorem yields_iriObject (readable : (Tree.iri form).readable scope.labels = true)
    (text_of : IriText form word) (ended : IriEnds form rest) :
    Yields (object (fuel + 1)) (word ++ rest) scope.env
      ((scope.resolve form).map fun iri => (Object.node (.iri iri),scope.env)) (· = rest) := by
  have node : Yields iriOrBlank (word ++ rest) scope.env _ (· = rest) :=
    yields_iriOrBlank (readable_plain readable) text_of ended
  rcases readable_begins text_of readable with ⟨tail,rfl⟩ | ⟨label,tail,rfl,label_form,clear⟩
  · exact yields_objectNode ⟨rfl,by decide⟩ (by decide) (by decide) (fun both => absurd both.1 (by decide)) node
  · have unpeeked := name_unpeeked label_form clear (tail ++ rest)
    rw [label_shape] at node ⊢
    obtain ⟨c,tail,begins,starts⟩ := name_start label_form (tail ++ rest)
    rw [begins] at node unpeeked ⊢
    have visible : Visible (c :: tail) := nameStart_visible starts
    refine yields_objectNode (visible c rfl) ?_ (nameStart_number starts)
      (fun both => by simp [unpeeked] at both) node
    exact ⟨nameStart_ne starts (by decide),nameStart_ne starts (by decide),
      nameStart_ne starts (by decide),nameStart_ne starts (by decide)⟩

theorem reads_labelNode (text_of : TokenText (.label name) word) (stops : Stops isPnLocalChar rest) :
    Reads iriOrBlank (word ++ rest) scope.env (.blank (codeLabel (.named (String.ofList name))))
      rest scope.env := by
  cases text_of with
  | label nonempty all =>
    refine reads_bind (skipWs_visible (visible_cons ⟨rfl,by decide⟩)) (reads_bind reads_peek ?_)
    exact reads_bind (reads_blankLabel nonempty all stops) reads_pure

theorem reads_labelObject (text_of : TokenText (.label name) word) (stops : Stops isPnLocalChar rest) :
    Reads (object (fuel + 1)) (word ++ rest) scope.env
      (.node (.blank (codeLabel (.named (String.ofList name))))) rest scope.env := by
  have node : Reads iriOrBlank (word ++ rest) scope.env _ rest _ := reads_labelNode text_of stops
  cases text_of with
  | label nonempty all =>
    rw [object]
    refine reads_bind (skipWs_visible (visible_cons ⟨rfl,by decide⟩)) (reads_bind reads_ahead ?_)
    exact reads_bind node reads_pure

theorem literal_object {literal : LiteralForm} {value : Value} (found : scope.literal literal = some value) :
    value.object codeLabel = .literal (value.object codeLabel).term := by
  cases literal with
  | string content suffix =>
    cases suffix with
    | typed datatype =>
      obtain ⟨iri,_,rfl⟩ := Option.map_eq_some_iff.mp found
      rfl
    | _ =>
      cases found
      rfl
  | _ =>
    cases found
    rfl

theorem literal_objects (literal : LiteralForm) :
    (scope.literal literal).map (fun value => (value.object codeLabel,scope.env)) =
    (scope.literal literal).map fun value => (Object.literal (value.object codeLabel).term,scope.env) := by
  cases found : scope.literal literal with
  | none => rfl
  | some value =>
    rw [Option.map_some,Option.map_some,← literal_object found]

theorem yields_stringObject {value : List Char} {suffix : Suffix}
    (readable : (LiteralForm.string value suffix).readable scope.labels = true)
    (text_of : LiteralText (.string value suffix) word)
    (ended : Ends (.literal (.string value suffix)) word rest) :
    Yields (object (fuel + 1)) (word ++ rest) scope.env
      ((scope.literal (.string value suffix)).map fun found => (found.object codeLabel,scope.env))
        (· = rest) := by
  have read : Yields stringLiteral (word ++ rest) scope.env _ (· = rest) :=
    yields_stringLiteral readable text_of ended
  have begins : ∃ quote tail, word ++ rest = quote :: tail ∧ IsQuote quote := by
    have string : ∀ {text}, StringText value text → ∀ x, ∃ quote tail,
        text ++ x ++ rest = quote :: tail ∧ IsQuote quote := by
      intro text text_of x
      obtain ⟨quote,tail,rfl,kind⟩ := stringText_begins text_of
      exact ⟨quote,tail ++ x ++ rest,rfl,kind⟩
    cases text_of with
    | plain text_of => simpa using string text_of []
    | tagged text_of _ _ _ => exact string text_of _
    | typed text_of _ _ _ => exact string text_of _
  obtain ⟨quote,tail,shape,kind⟩ := begins
  rw [shape] at read ⊢
  rw [object,literal_objects]
  refine yields_after (skipWs_visible (visible_cons (quote_kinds kind).2.2)) (yields_after reads_ahead ?_)
  have mapped := yields_map Object.literal read
  rcases kind with rfl | rfl
  · exact mapped
  · exact mapped

theorem reads_numberObject {form : NumberForm} (ended : form.Ends rest) :
    Reads (object (fuel + 1)) (form.text ++ rest) s
      (.literal (.literal (String.ofList form.text) (some form.datatype) none)) rest s := by
  have read := reads_numeric (s := s) ended
  obtain ⟨c,tail,shape,starts⟩ := number_start form
  have visible := numberStart_visible starts
  have number : c = '+' ∨ c = '-' ∨ c = '.' ∨ isAsciiDigit c = true := by
    rcases starts with sign | digit | dot
    · simp only [isSign,Bool.or_eq_true,decide_eq_true_eq] at sign
      exact sign.elim .inl fun minus => .inr (.inl minus)
    · exact .inr (.inr (.inr digit))
    · exact .inr (.inr (.inl dot))
  have other : ∀ d, isAsciiDigit d = false → d ≠ '+' ∧ d ≠ '-' ∧ d ≠ '.' → c ≠ d := by
    intro d no_digit no_mark same
    subst same
    rcases number with plus | minus | dot | digit
    · exact no_mark.1 plus
    · exact no_mark.2.1 minus
    · exact no_mark.2.2 dot
    · rw [digit] at no_digit
      cases no_digit
  have head : form.text ++ rest = c :: (tail ++ rest) := by rw [shape,List.cons_append]
  rw [head] at read ⊢
  rw [object]
  refine reads_bind (skipWs_visible (visible_cons visible)) (reads_bind reads_ahead ?_)
  rw [List.head?_cons]
  split
  · rename_i same
    exact absurd (Option.some.inj same) (other '[' rfl (by decide))
  · rename_i same
    exact absurd (Option.some.inj same) (other '(' rfl (by decide))
  · rename_i same
    exact absurd (Option.some.inj same) (other '"' rfl (by decide))
  · rename_i same
    exact absurd (Option.some.inj same) (other '\'' rfl (by decide))
  · rename_i same
    cases same
    rw [if_pos number]
    exact reads_bind read reads_pure
  · rename_i none
    cases none

theorem reads_booleanObject {value : Bool} (text_of : LiteralText (.boolean value) word)
    (boundary : isTokenBoundary rest.head? = true) :
    Reads (object (fuel + 1)) (word ++ rest) s
      (.literal (.literal (if value then "true" else "false") (some xsdBoolean) none)) rest s := by
  have read := reads_boolean (s := s) text_of boundary
  have peeked := boolean_peeked text_of boundary
  cases text_of
  rw [object]
  cases value with
  | true =>
    refine reads_bind (skipWs_visible (visible_cons ⟨rfl,by decide⟩)) (reads_bind reads_ahead ?_)
    show Reads (if 't' = '+' ∨ _ then _ else if ('t' = 't' ∨ 't' = 'f') ∧ peekBoolean _ = true then
      _ else _) _ _ _ _ _
    rw [if_neg (by decide),if_pos ⟨.inl rfl,peeked⟩]
    exact reads_bind read reads_pure
  | false =>
    refine reads_bind (skipWs_visible (visible_cons ⟨rfl,by decide⟩)) (reads_bind reads_ahead ?_)
    show Reads (if 'f' = '+' ∨ _ then _ else if ('f' = 't' ∨ 'f' = 'f') ∧ peekBoolean _ = true then
      _ else _) _ _ _ _ _
    rw [if_neg (by decide),if_pos ⟨.inr rfl,peeked⟩]
    exact reads_bind read reads_pure

theorem yields_literalObject {literal : LiteralForm}
    (readable : literal.readable scope.labels = true) (text_of : LiteralText literal word)
    (ended : Ends (.literal literal) word rest) :
    Yields (object (fuel + 1)) (word ++ rest) scope.env
      ((scope.literal literal).map fun found => (found.object codeLabel,scope.env)) (· = rest) := by
  cases literal with
  | string value suffix => exact yields_stringObject readable text_of ended
  | number form =>
    cases text_of
    exact yields_reads rfl (reads_numberObject ended)
  | pointed sign whole exponent => cases readable
  | boolean value => exact yields_reads rfl (reads_booleanObject text_of ended)

end Leaves
end ArangoDataTools.Turtle
