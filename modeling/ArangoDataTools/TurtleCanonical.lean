import ArangoDataTools.TurtleDocuments

namespace ArangoDataTools.Turtle
open TextScan TextReader

variable {text rest word : List Char} {token : Token} {tokens : List Token} {items : List Item}

section Canonical

def Compact : Token → List Char → Prop
  | .literal (.string value (.tagged tag)),word => ∃ text, StringText value text ∧ word = text ++ '@' :: tag
  | .literal (.string value (.typed datatype)),word =>
    ∃ text name, StringText value text ∧ IriText datatype name ∧ word = text ++ '^' :: '^' :: name
  | _,_ => True

-- The tokens with one space between every two.
def Canonical (tokens : List Token) (text : List Char) : Prop :=
  ∃ words, List.Forall₂ (fun token word => TokenText token word ∧ Compact token word) tokens words ∧
    text = [' '].intercalate words

def Separated (rest : List Char) : Prop := rest = [] ∨ ∃ tail, rest = ' ' :: tail

theorem separated_head (separated : Separated rest) : rest.head? = none ∨ rest.head? = some ' ' := by
  rcases separated with rfl | ⟨tail,rfl⟩
  · exact .inl rfl
  · exact .inr rfl

theorem separated_stops {inClass : Char → Bool} (separated : Separated rest)
    (space : inClass ' ' = false) : Stops inClass rest := by
  rcases separated with rfl | ⟨tail,rfl⟩
  · exact stops_nil
  · exact stops_cons space

theorem separated_ne (separated : Separated rest) {c : Char} (other : c ≠ ' ') : rest.head? ≠ some c := by
  rcases separated_head separated with none | space
  · rw [none]
    exact nofun
  · rw [space]
    exact fun same => other (Option.some.inj same).symm

theorem separated_boundary (separated : Separated rest) : isTokenBoundary rest.head? = true := by
  rcases separated_head separated with head | head <;> rw [head] <;> rfl

theorem separated_name (separated : Separated rest) : NameEnds rest :=
  ⟨[],rest,rfl,nofun,separated_stops separated rfl⟩

theorem separated_iri (form : IriForm) (separated : Separated rest) : IriEnds form rest := by
  cases form with
  | reference _ => trivial
  | _ => exact separated_name separated

theorem separated_ends (text_of : TokenText token word) (compact : Compact token word)
    (separated : Separated rest) : Ends token word rest := by
  cases token with
  | mark | binder => trivial
  | a | keyword => exact separated_boundary separated
  | iri form => exact separated_iri form separated
  | label | directive => exact separated_stops separated rfl
  | literal form =>
    cases form with
    | string value suffix =>
      cases suffix with
      | plain =>
        cases text_of with
        | literal text_of =>
          cases text_of with
          | plain text_of =>
            refine ⟨separated_ne separated (by decide),?_,?_⟩
            · rcases separated with rfl | ⟨tail,rfl⟩
              · exact nofun
              · exact fun same => absurd (List.cons.inj same).1 (by decide)
            · intro quote shape
              obtain ⟨first,tail,begins,kind⟩ := stringText_begins text_of
              rw [shape] at begins
              obtain rfl : quote = first := (List.cons.inj begins).1
              exact separated_ne separated (kind.elim (by rintro rfl; decide) (by rintro rfl; decide))
      | tagged tag => exact ⟨compact,separated_stops separated rfl⟩
      | typed datatype =>
        obtain ⟨text,name,text_of,name_of,shape⟩ := compact
        exact ⟨⟨text,[],name,text_of,.nil,name_of,shape⟩,separated_iri datatype separated⟩
    | number form =>
      refine ⟨separated_stops separated rfl,
        fun _ => ⟨separated_ne separated (by decide),separated_ne separated (by decide)⟩,?_⟩
      rintro _ _ c tail rfl
      exact absurd rfl (separated_ne separated (show '.' ≠ ' ' by decide))
    | pointed => trivial
    | boolean value => exact separated_boundary separated

abbrev Apart : List Token → List Char → Prop := Placed fun token word rest => Compact token word ∧
    Separated rest

theorem apart_sound : Sound fun token word rest => Compact token word ∧ Separated rest :=
  fun _ _ _ text_of ended => separated_ends text_of ended.1 ended.2

theorem placed_space {ends : Token → List Char → List Char → Prop} {c : Char}
    (white : isWhitespace c = true) (placed : Placed ends tokens text) :
    Placed ends tokens (c :: text) := by
  cases placed with
  | nil whole => exact .nil (.space white whole)
  | @comment gap body whole single =>
    have spaced : Placed ends [] ((c :: gap) ++ '#' :: body) := .comment (.space white whole) single
    exact spaced
  | @cons token tokens gap word rest whole text_of ended tail =>
    have spaced : Placed ends (token :: tokens) ((c :: gap) ++ (word ++ rest)) :=
      .cons (.space white whole) text_of ended tail
    exact spaced

theorem words_apart {words : List (List Char)}
    (spelled : List.Forall₂ (fun token word => TokenText token word ∧ Compact token word) tokens words) :
    Apart tokens ([' '].intercalate words) := by
  induction spelled with
  | nil => exact .nil .nil
  | @cons token word tokens words first others ih =>
    cases words with
    | nil =>
      cases others
      have last : Apart [token] ([] ++ (word ++ [])) := .cons .nil first.1 ⟨first.2,.inl rfl⟩ (.nil .nil)
      simpa [List.intercalate] using last
    | cons second words =>
      have spaced : Apart tokens (' ' :: [' '].intercalate (second :: words)) := placed_space rfl ih
      have whole : Apart (token :: tokens) ([] ++ (word ++ ' ' :: [' '].intercalate (second :: words))) :=
        .cons .nil first.1 ⟨first.2,.inr ⟨_,rfl⟩⟩ spaced
      simpa [List.intercalate] using whole

theorem canonical_apart (canonical : Canonical tokens text) : Apart tokens text := by
  obtain ⟨words,spelled,rfl⟩ := canonical
  exact words_apart spelled

end Canonical

section Names

theorem index_inj {m n : Nat} (same : toString m = toString n) : m = n := by
  have digits : Nat.toDigits 10 m = Nat.toDigits 10 n := by
    rw [← Nat.toList_repr,← Nat.toList_repr]
    exact congrArg String.toList same
  rw [← Nat.ofDigitChars_toDigits (by decide) (Nat.le_refl 10) (n := m),digits,
    Nat.ofDigitChars_toDigits (by decide) (Nat.le_refl 10)]

-- `u_` and `_bnl` keep the labels of the text apart from the new ones.
theorem codeLabel_injective : Function.Injective codeLabel := by
  intro left right same
  have apart : ∀ label index, codeLabel (.named label) ≠ codeLabel (.fresh index) := by
    intro label index same
    have texts : "u_" ++ label = "_bnl" ++ toString index := same
    have letters := congrArg (fun text => text.toList.head?) texts
    simp at letters
  cases left with
  | named label =>
    cases right with
    | named other =>
      rw [String.append_right_inj "u_" |>.mp same]
    | fresh index => exact absurd same (apart label index)
  | fresh index =>
    cases right with
    | named label => exact absurd same.symm (apart label index)
    | fresh other =>
      rw [index_inj (String.append_right_inj "_bnl" |>.mp same)]

end Names

section Meaning

-- Parsing gives the statements a document stands for, up to the names of blank
-- nodes, or an error where it uses a prefix that is not declared.
def ParsedAs (items : List Item) (text : List Char) : Prop :=
  match expandDocument items with
  | some facts => ∃ name : Blank → String, Function.Injective name ∧
      parseTurtle text = .ok (facts.map (Fact.triple name))
  | none => ∃ failure, parseTurtle text = .error failure

theorem placed_parsed {ends : Token → List Char → List Char → Prop} (sound : Sound ends)
    (readable : readableDocument items = true)
    (placed : Placed ends (documentTokens items) text) : ParsedAs items text := by
  have parsed := parse_laid sound readable placed
  unfold ParsedAs
  cases found : expandDocument items with
  | none => simpa only [found] using parsed
  | some facts =>
    rw [found] at parsed
    exact ⟨codeLabel,codeLabel_injective,parsed⟩

theorem canonical_parsed (readable : readableDocument items = true)
    (canonical : Canonical (documentTokens items) text) : ParsedAs items text :=
  placed_parsed apart_sound readable (canonical_apart canonical)

-- What comes after an unknown prefix need not be readable: `<s> <p> u:x . <s> a.b:c <o> .`
example : readableDocument
    [.statement (.iri (.reference ['s'])) rfl
      (.entry (.iri (.reference ['p'])) (.one (.iri (.prefixed ['u'] ['x']))) 0),
      .statement (.iri (.reference ['s'])) rfl
        (.entry (.iri (.prefixed ['a','.','b'] ['c'])) (.one (.iri (.reference ['o']))) 0)] = true := by
  decide

def sampleDocument : List Item :=
  [.binding .turtle ['e'] ['x'],
   .statement (.iri (.prefixed ['e'] ['s'])) rfl
     (.entry .a (.more (.label ['b']) (.one (.collection (.last (.literal (.boolean true)))))) 1)]

-- `@prefix e: <x> . e:s a _:b , ( true ) ; .`
theorem sample_parsed : ParsedAs sampleDocument
    "@prefix e: <x> . e:s a _:b , ( true ) ; .".toList := by
  have reference : IriText (.reference ['x']) ['<','x','>'] := .reference (.raw ⟨by decide,by decide⟩ .nil)
  have label : LabelForm ['e'] :=
    ⟨by unfold LabelChars; exact List.forall_iff_forall_mem.mp (by decide),by rintro c ⟨⟩; decide⟩
  have name : IriText (.prefixed ['e'] ['s']) ['e',':','s'] :=
    .prefixed label ⟨List.forall_iff_forall_mem.mp (by decide),by decide⟩
  have words : List.Forall₂ (fun token word => TokenText token word ∧ Compact token word)
      (documentTokens sampleDocument)
      ["@prefix".toList,"e:".toList,"<x>".toList,['.'],"e:s".toList,['a'],"_:b".toList,[','],['('],
      "true".toList,[')'],[';'],['.']] :=
    .cons ⟨.directive,trivial⟩
      (.cons ⟨.binder label,trivial⟩ (.cons ⟨.iri reference,trivial⟩ (.cons ⟨.mark (by decide),trivial⟩
      (.cons ⟨.iri name,trivial⟩
        (.cons ⟨.a,trivial⟩ (.cons ⟨.label (by decide) (List.forall_iff_forall_mem.mp (by decide)),
        trivial⟩ (.cons ⟨.mark (by decide),trivial⟩
        (.cons ⟨.mark (by decide),trivial⟩ (.cons ⟨.literal .boolean,trivial⟩ (.cons ⟨.mark (by decide),trivial⟩
          (.cons ⟨.mark (by decide),trivial⟩ (.cons ⟨.mark (by decide),trivial⟩ .nil))))))))))))
  exact canonical_parsed (by decide) ⟨_,words,rfl⟩

theorem fails_loneDot {c : Char} {s : Env} {fuel : Nat} (no_digit : isAsciiDigit c = false) :
    Fails (object fuel) ('.' :: c :: rest) s := by
  cases fuel with
  | zero =>
    rw [object]
    exact fails_failAt _
  | succ fuel =>
    have scanned : scanNumeral true false false ('.' :: c :: rest) = ⟨[],false,false⟩ := by
      have no_point : ¬('.' = '.' ∧ (!false) = true ∧ (!false) = true ∧
          (c :: rest).head?.any isAsciiDigit = true) := by
        simp [no_digit]
      rw [scanNumeral,if_neg (by decide),if_neg (by decide),if_neg no_point,if_neg (by decide)]
    have numeral : Fails numericLiteral ('.' :: c :: rest) s := by
      refine fails_after reads_ahead ?_
      rw [scanned]
      refine fails_after (reads_advance 0 (show ([] : List Char).length = 0 from rfl)) ?_
      rw [if_pos (show (!([] : List Char).any isAsciiDigit) = true from rfl)]
      exact fails_failAt _
    rw [object]
    exact fails_after (skipWs_visible (visible_cons ⟨rfl,by decide⟩))
      (fails_after reads_ahead (fails_bind numeral))

theorem fails_dottedVerb {c : Char} {s : Env} {node : Node} {fuel : Nat} (no_digit : isAsciiDigit c = false) :
    Fails (predicateObjectList fuel node) ('a' :: '.' :: c :: rest) s := by
  have visible : Visible ('a' :: '.' :: c :: rest) := visible_cons ⟨rfl,by decide⟩
  have dotted : Visible ('.' :: c :: rest) := visible_cons ⟨rfl,by decide⟩
  cases fuel with
  | zero =>
    rw [predicateObjectList]
    exact fails_failAt _
  | succ fuel =>
    rw [predicateObjectList]
    have read : Reads verb ('a' :: '.' :: c :: rest) s rdfType ('.' :: c :: rest) s := by
      refine reads_bind (skipWs_visible visible) (reads_bind reads_ahead ?_)
      rw [if_pos ⟨rfl,rfl⟩]
      exact reads_bind reads_step reads_pure
    refine fails_after (skipWs_visible visible) (fails_after read (fails_bind ?_))
    cases fuel with
    | zero =>
      rw [objectList]
      exact fails_failAt _
    | succ fuel =>
      rw [objectList]
      exact fails_after (skipWs_visible dotted) (fails_bind (fails_loneDot no_digit))

def dottedStatement : Item :=
  .statement (.iri (.reference ['s'])) rfl
    (.entry (.iri (.prefixed ['a','.','b'] ['c'])) (.one (.iri (.reference ['o']))) 0)

def dottedDocument : List Item := [.binding .turtle ['a','.','b'] ['x'],dottedStatement]

def dottedText : List Char := "@prefix a.b: <x> . <s> a.b:c <o> .".toList

theorem dotted_canonical : Canonical (documentTokens dottedDocument) dottedText := by
  have reference : ∀ c, Free '>' c → IriText (.reference [c]) ['<',c,'>'] :=
    fun c free => .reference (.raw free .nil)
  have label : LabelForm ['a','.','b'] :=
    ⟨by unfold LabelChars; exact List.forall_iff_forall_mem.mp (by decide),by rintro c ⟨⟩; decide⟩
  have name : IriText (.prefixed ['a','.','b'] ['c']) ['a','.','b',':','c'] :=
    .prefixed label ⟨List.forall_iff_forall_mem.mp (by decide),by decide⟩
  have words : List.Forall₂ (fun token word => TokenText token word ∧ Compact token word)
      (documentTokens dottedDocument)
      ["@prefix".toList,"a.b:".toList,"<x>".toList,['.'],"<s>".toList,"a.b:c".toList,"<o>".toList,['.']] :=
    .cons ⟨.directive,trivial⟩
      (.cons ⟨.binder label,trivial⟩ (.cons ⟨.iri (reference 'x' ⟨by decide,by decide⟩),trivial⟩
      (.cons ⟨.mark (by decide),trivial⟩
        (.cons ⟨.iri (reference 's' ⟨by decide,by decide⟩),trivial⟩ (.cons ⟨.iri name,trivial⟩
        (.cons ⟨.iri (reference 'o' ⟨by decide,by decide⟩),trivial⟩
          (.cons ⟨.mark (by decide),trivial⟩ .nil)))))))
  exact ⟨_,words,rfl⟩

theorem fails_dottedStatement {scope : Scope} {depth fuel : Nat} (enough : 4 < depth)
    (apart : Apart dottedStatement.tokens text) :
    Fails (document depth fuel) text scope.env := by
  cases fuel with
  | zero =>
    rw [document]
    exact fails_failAt _
  | succ fuel =>
    let subject : Tree .object := .iri (.reference ['s'])
    have shape : dottedStatement.tokens =
        subject.tokens ++ .iri (.prefixed ['a','.','b'] ['c']) :: [.iri (.reference ['o']),.mark '.'] := rfl
    rw [shape] at apart
    obtain ⟨after,gap,visible,standing⟩ := reads_treeGap subject scope.env apart
    obtain ⟨c,tail,rfl,other,unprefixed,unbased⟩ :=
      @statement_dispatch _ _ _ scope.labels subject rfl rfl standing visible
    have unprefixed : matchesKeywordCi ['p','r','e','f','i','x'] (c :: tail) = false := unprefixed
    have unbased : matchesKeywordCi ['b','a','s','e'] (c :: tail) = false := unbased
    have statement_fails : Fails (statement depth) (c :: tail) scope.env := by
      have found : Yields (Turtle.subject depth) (c :: tail) scope.env _ _ :=
        yields_subject apart_sound subject rfl rfl standing visible enough
      rw [expandSubject_iri] at found
      obtain ⟨rest,inside,read⟩ := found
      obtain ⟨after,gap,shown,there⟩ :=
        reads_gap (s := scope.env) (show (Token.iri (.prefixed ['a','.','b'] ['c'])).Proper from trivial) inside
      obtain ⟨word,rest,rfl,text_of,_,_⟩ := laid_token there shown
      cases text_of with
      | iri text_of =>
        cases text_of with
        | prefixed _ _ =>
          rw [statement]
          exact fails_after read (fails_after gap (fails_bind (fails_dottedVerb rfl)))
    have dispatched : statement depth = if c = '@' then directive
        else if matchesKeywordCi ['p','r','e','f','i','x'] (c :: tail) ||
          matchesKeywordCi ['b','a','s','e'] (c :: tail) then sparqlDirective
        else statement depth := by
      rw [if_neg other,unprefixed,unbased,Bool.or_false,if_neg Bool.false_ne_true]
    have read : Yields (document depth (fuel + 1)) text scope.env none (fun _ => True) :=
      yields_document gap dispatched (fails_bind statement_fails)
    exact read

theorem dotted_rejected : ∃ failure, parseTurtle dottedText = .error failure := by
  have apart := canonical_apart dotted_canonical
  have read : Yields (document (4 * dottedText.length + 4) (dottedText.length + 1)) dottedText (Scope.env {})
      ((expandItem (.binding .turtle ['a','.','b'] ['x']) {}).bind fun _ => none) (fun _ => True) :=
    yields_itemDocument apart_sound (.binding .turtle ['a','.','b'] ['x']) rfl apart (by decide)
      fun _ _ _ tail => fails_dottedStatement (by decide) tail
  obtain ⟨failure,failed⟩ := read []
  have start : Scope.env {} = {} := rfl
  rw [start] at failed
  exact ⟨failure,by rw [parseTurtle,failed]; rfl⟩

theorem dotted_misparsed : Canonical (documentTokens dottedDocument) dottedText ∧
    ¬ParsedAs dottedDocument dottedText := by
  refine ⟨dotted_canonical,?_⟩
  rintro ⟨name,_,parsed⟩
  obtain ⟨failure,failed⟩ := dotted_rejected
  rw [failed] at parsed
  cases parsed

end Meaning
end ArangoDataTools.Turtle
