import ArangoDataTools.RdfRendering
import ArangoDataTools.TurtleCanonical

namespace ArangoDataTools.RdfReading
open TextScan

section Reading

def stripCarriage : List Char → List Char
  | '\r' :: line => line
  | line => line

-- The lines of a buffered reader: `current` is the line read so far, latest
-- character first.
def linesFrom (current : List Char) : List Char → List (List Char)
  | [] => if current = [] then [] else [current.reverse]
  | c :: rest =>
    if c = '\n' then (stripCarriage current).reverse :: linesFrom [] rest
    else linesFrom (c :: current) rest

def lines (text : List Char) : List (List Char) := linesFrom [] text

def readLines (format : RdfFormat) (lineNo : Nat) : List (List Char) → List RdfTriple × Option Error
  | [] => ([],none)
  | line :: rest =>
    match RdfLines.parseStatement line format with
    | .error failure => ([],some (.config s!"RDF parse error on line {lineNo + 1}: {failure.display}"))
    | .ok none => readLines format (lineNo + 1) rest
    | .ok (some triple) => (triple :: (readLines format (lineNo + 1) rest).1,
        (readLines format (lineNo + 1) rest).2)

def readRdfTriples (text : List Char) : RdfFormat → List RdfTriple × Option Error
  | .turtle =>
    match Turtle.parseTurtle text with
    | .ok triples => (triples,none)
    | .error failure => ([],some failure)
  | format => readLines format 0 (lines text)

end Reading

section Rendering

def LineFree (close c : Char) : Prop := c ≠ close ∧ c ≠ '\\' ∧ c ≠ '\n'

-- Letters, digits and `_`.
def isNameChar (c : Char) : Bool := isAsciiAlphanumeric c || c = '_' || (0x7F < c.toNat && !isWhitespace c)

inductive IriWord : String → List Char → Prop where
  | iri {iri : String} {body : List Char} : Spells (LineFree '>') (fun _ => none) iri.toList body →
      IriWord iri ('<' :: body ++ ['>'])

inductive LabelWord : String → List Char → Prop where
  | label {label : String} : label.toList ≠ [] → (∀ c ∈ label.toList, isNameChar c = true) →
      LabelWord label ('_' :: ':' :: label.toList)

inductive QuotedWord : String → List Char → Prop where
  | quoted {value : String} {body : List Char} : Spells (LineFree '"') RdfLines.namedEscape value.toList body →
      QuotedWord value ('"' :: body ++ ['"'])

inductive ResourceWord : RdfResource → List Char → Prop where
  | iri {iri : String} {word : List Char} : IriWord iri word → ResourceWord (.iri iri) word
  | blank {label : String} {word : List Char} : LabelWord label word → ResourceWord (.blankNode label) word

inductive TermWord : RdfTerm → List Char → Prop where
  | iri {iri : String} {word : List Char} : IriWord iri word → TermWord (.iri iri) word
  | blank {label : String} {word : List Char} : LabelWord label word → TermWord (.blankNode label) word
  | plain {value : String} {word : List Char} : QuotedWord value word → TermWord (.literal value none none) word
  | typed {value datatype : String} {word suffix : List Char} : QuotedWord value word →
      IriWord datatype suffix →
      TermWord (.literal value (some datatype) none) (word ++ '^' :: '^' :: suffix)
  | tagged {value tag : String} {word : List Char} : QuotedWord value word → tag.toList ≠ [] →
      (∀ c ∈ tag.toList, RdfLines.isTagChar c = true) →
      TermWord (.literal value none (some tag)) (word ++ '@' :: tag.toList)

inductive TripleLine : RdfTriple → List Char → Prop where
  | line {subject : RdfResource} {predicate : String} {object : RdfTerm} {a b c : List Char} :
      ResourceWord subject a → IriWord predicate b → TermWord object c →
      TripleLine ⟨subject,predicate,object,none⟩ (a ++ ' ' :: (b ++ ' ' :: (c ++ [' ','.'])))

-- One triple on each line; the last line feed may be missing.
inductive Lined : List RdfTriple → List Char → Prop where
  | nil : Lined [] []
  | last {triple : RdfTriple} {line : List Char} : TripleLine triple line → Lined [triple] line
  | cons {triple : RdfTriple} {triples : List RdfTriple} {line text : List Char} :
      TripleLine triple line → Lined triples text →
      Lined (triple :: triples) (line ++ '\n' :: text)

end Rendering

variable {triple : RdfTriple} {triples : List RdfTriple} {line rest text current word : List Char}

section Lines

theorem spells_line {close : Char} {names : Char → Option Char} {value : List Char}
    (spells : Spells (LineFree close) names value text)
    (named : names '\n' = none) : '\n' ∉ text := by
  induction spells with
  | nil => exact List.not_mem_nil
  | raw free _ ih => exact List.not_mem_cons_of_ne_of_not_mem free.2.2.symm ih
  | @named name _ _ _ found _ ih =>
    have other : '\n' ≠ name := by
      rintro rfl
      rw [named] at found
      cases found
    exact List.not_mem_cons_of_ne_of_not_mem (by decide) (List.not_mem_cons_of_ne_of_not_mem other ih)
  | @coded name _ _ digits _ _ kind hex _ ih =>
    have other : '\n' ≠ name := by rcases kind with ⟨rfl,_⟩ | ⟨rfl,_⟩ <;> decide
    have no_digit : '\n' ∉ digits := by
      intro member
      obtain ⟨_,digit⟩ := hex_digits hex '\n' member
      exact absurd digit nofun
    simp only [List.cons_append,List.mem_cons,List.mem_append,not_or]
    exact ⟨by decide,other,no_digit,ih⟩

theorem linesFrom_line (single : '\n' ∉ line) (current rest : List Char) :
    linesFrom current (line ++ '\n' :: rest) = (stripCarriage (line.reverse ++ current)).reverse ::
      lines rest := by
  induction line generalizing current with
  | nil => rfl
  | cons first line ih =>
    obtain ⟨other,single⟩ := List.ne_and_not_mem_of_not_mem_cons single
    rw [List.cons_append,linesFrom,if_neg other.symm,ih single,List.reverse_cons,List.append_assoc,
      List.singleton_append]

theorem linesFrom_last (single : '\n' ∉ line) (current : List Char) :
    linesFrom current line = if line.reverse ++ current = [] then []
      else [(line.reverse ++ current).reverse] := by
  induction line generalizing current with
  | nil => rfl
  | cons first line ih =>
    obtain ⟨other,single⟩ := List.ne_and_not_mem_of_not_mem_cons single
    rw [linesFrom,if_neg other.symm,ih single,List.reverse_cons,List.append_assoc,List.singleton_append]

variable {iri label value : String} {resource : RdfResource} {term : RdfTerm}

theorem iriWord_line (word_of : IriWord iri word) : '\n' ∉ word := by
  cases word_of with
  | iri spells =>
    have body := spells_line spells rfl
    simpa using body

theorem nameChar_kind {c : Char} (kind : isNameChar c = true) : isWhitespace c = false ∧
    Turtle.isPnLocalChar c = true := by
  simp only [isNameChar,Bool.or_eq_true,Bool.and_eq_true,decide_eq_true_eq,Bool.not_eq_true'] at kind
  rcases kind with (letter | rfl) | ⟨high,visible⟩
  · refine ⟨?_,by simp [Turtle.isPnLocalChar,letter]⟩
    simp only [isAsciiAlphanumeric,Bool.or_eq_true] at letter
    exact letter.elim (fun letter => (Turtle.letter_visible letter).1) fun digit =>
      (Turtle.digit_visible digit).1
  · exact ⟨rfl,rfl⟩
  · exact ⟨visible,by simp [Turtle.isPnLocalChar,high]⟩

theorem labelWord_line (word_of : LabelWord label word) : '\n' ∉ word := by
  cases word_of with
  | label _ kinds =>
    have inside : '\n' ∉ label.toList := fun member => absurd (nameChar_kind (kinds '\n' member)).1 (by decide)
    simpa using inside

theorem quotedWord_line (word_of : QuotedWord value word) : '\n' ∉ word := by
  cases word_of with
  | quoted spells =>
    have body := spells_line spells rfl
    simpa using body

theorem resourceWord_line (word_of : ResourceWord resource word) : '\n' ∉ word := by
  cases word_of with
  | iri word_of => exact iriWord_line word_of
  | blank word_of => exact labelWord_line word_of

theorem termWord_line (word_of : TermWord term word) : '\n' ∉ word := by
  cases word_of with
  | iri word_of => exact iriWord_line word_of
  | blank word_of => exact labelWord_line word_of
  | plain word_of => exact quotedWord_line word_of
  | typed word_of datatype => simpa using ⟨quotedWord_line word_of,iriWord_line datatype⟩
  | @tagged value tag _ word_of _ kinds =>
    have inside : '\n' ∉ tag.toList := fun member => absurd (kinds '\n' member) (by decide)
    simpa using ⟨quotedWord_line word_of,inside⟩

theorem tripleLine_line (line_of : TripleLine triple line) : '\n' ∉ line := by
  cases line_of with
  | line subject predicate object =>
    simpa using ⟨resourceWord_line subject,iriWord_line predicate,termWord_line object⟩

theorem tripleLine_kept (line_of : TripleLine triple line) : (stripCarriage line.reverse).reverse = line := by
  cases line_of with
  | @line _ _ _ a b c _ _ _ =>
    have shape : (a ++ ' ' :: (b ++ ' ' :: (c ++ [' ','.']))).reverse =
        '.' :: (a ++ ' ' :: (b ++ ' ' :: (c ++ [' ']))).reverse := by simp
    rw [shape]
    show ('.' :: (a ++ ' ' :: (b ++ ' ' :: (c ++ [' ']))).reverse).reverse = _
    simp

theorem lines_cons (line_of : TripleLine triple line) (rest : List Char) :
    lines (line ++ '\n' :: rest) = line :: lines rest := by
  rw [lines,linesFrom_line (tripleLine_line line_of),List.append_nil,tripleLine_kept line_of]

theorem lines_last (line_of : TripleLine triple line) : lines line = [line] := by
  have nonempty : line.reverse ≠ [] := by
    cases line_of
    simp
  rw [lines,linesFrom_last (tripleLine_line line_of),List.append_nil,if_neg nonempty,List.reverse_reverse]

end Lines

section Statements

variable {iri label value : String} {resource : RdfResource} {term : RdfTerm}

theorem iriWord_text (word_of : IriWord iri word) : RdfLines.IriText iri word := by
  cases word_of with
  | iri spells => exact .iri (spells_mono spells (fun _ free => ⟨free.1,free.2.1⟩) fun _ _ => nofun)

theorem labelWord_text (word_of : LabelWord label word) : RdfLines.LabelText label word := by
  cases word_of with
  | label nonempty kinds =>
    refine .label nonempty fun c member => ?_
    have visible := (nameChar_kind (kinds c member)).1
    have bracket : c ≠ '<' := by rintro rfl; exact absurd (kinds '<' member) (by decide)
    have quote : c ≠ '"' := by rintro rfl; exact absurd (kinds '"' member) (by decide)
    simp [RdfLines.isLabelChar,visible,bracket,quote]

theorem quotedWord_text (word_of : QuotedWord value word) : RdfLines.QuotedText value word := by
  cases word_of with
  | quoted spells => exact .quoted (spells_mono spells (fun _ free => ⟨free.1,free.2.1⟩) fun _ _ found => found)

theorem resourceWord_text (word_of : ResourceWord resource word) : RdfLines.ResourceText resource word := by
  cases word_of with
  | iri word_of => exact .iri (iriWord_text word_of)
  | blank word_of => exact .blank (labelWord_text word_of)

theorem termWord_text (word_of : TermWord term word) : RdfLines.TermText term word := by
  cases word_of with
  | iri word_of => exact .iri (iriWord_text word_of)
  | blank word_of => exact .blank (labelWord_text word_of)
  | plain word_of => exact .plain (quotedWord_text word_of)
  | typed word_of datatype => exact .typed (quotedWord_text word_of) (iriWord_text datatype)
  | tagged word_of nonempty kinds => exact .tagged (quotedWord_text word_of) nonempty kinds

theorem parse_tripleLine (line_of : TripleLine triple line) :
    RdfLines.parseStatement line .nTriples = .ok (some triple) := by
  have space : RdfLines.Separator [' '] := ⟨by simp,List.forall_iff_forall_mem.mp (by decide)⟩
  cases line_of with
  | @line subject name object _ _ _ subject_of predicate_of object_of =>
    have rendered : RdfLines.Rendered ⟨subject,name,object,none⟩ _ :=
      .triple (resourceWord_text subject_of) space (iriWord_text predicate_of) space
        (termWord_text object_of) space
    exact RdfLines.parse_rendered rendered .nTriples (.inr rfl)

theorem readLines_lined (lined : Lined triples text) (lineNo : Nat) :
    readLines .nTriples lineNo (lines text) = (triples,none) := by
  induction lined generalizing lineNo with
  | nil => rfl
  | last line_of => simp only [lines_last line_of,readLines,parse_tripleLine line_of]
  | cons line_of _ ih => simp only [lines_cons line_of,readLines,parse_tripleLine line_of,ih]

end Statements

section Agreement

open Turtle (Tree Item Token Vertex Fact Scope Laid TokenText Compact Separated)

def relabelResource : RdfResource → RdfResource
  | .iri iri => .iri iri
  | .blankNode label => .blankNode ("u_" ++ label)

def relabelTerm : RdfTerm → RdfTerm
  | .iri iri => .iri iri
  | .blankNode label => .blankNode ("u_" ++ label)
  | .literal value datatype language => .literal value datatype language

-- A triple under the labels that the Turtle parser gives to blank nodes.
def relabel (triple : RdfTriple) : RdfTriple :=
  { triple with subject := relabelResource triple.subject, object := relabelTerm triple.object }

def subjectTree : RdfResource → Tree .object
  | .iri iri => .iri (.reference iri.toList)
  | .blankNode label => .label label.toList

def suffixForm (datatype language : Option String) : Turtle.Suffix :=
  match datatype,language with
  | some datatype,_ => .typed (.reference datatype.toList)
  | none,some tag => .tagged tag.toList
  | none,none => .plain

def objectTree : RdfTerm → Tree .object
  | .iri iri => .iri (.reference iri.toList)
  | .blankNode label => .label label.toList
  | .literal value datatype language => .literal (.string value.toList (suffixForm datatype language))

theorem subject_node (resource : RdfResource) : (subjectTree resource).isNode = true := by
  cases resource <;> rfl

def entriesTree (triple : RdfTriple) : Tree .entries :=
  .entry (.iri (.reference triple.predicate.toList)) (.one (objectTree triple.object)) 0

def statementItem (triple : RdfTriple) : Item :=
  .statement (subjectTree triple.subject) (subject_node triple.subject) (entriesTree triple)

theorem statement_clear (triple : RdfTriple) : (statementItem triple).clear = true := by
  have subject : Turtle.subjectClear (subjectTree triple.subject) = true := by cases triple.subject <;> rfl
  have object : (objectTree triple.object).clear = true := by
    cases triple.object with
    | literal value datatype language => cases datatype <;> cases language <;> rfl
    | _ => rfl
  simp [statementItem,Item.clear,subject,entriesTree,Tree.clear,Turtle.Verb.clear,Turtle.IriForm.misread,object]

def resourceVertex : RdfResource → Vertex
  | .iri iri => .iri iri
  | .blankNode label => .blank (.named label)

def termValue : RdfTerm → Turtle.Value
  | .iri iri => .vertex (.iri iri)
  | .blankNode label => .vertex (.blank (.named label))
  | .literal value datatype language => .literal value datatype language

def tripleFact (triple : RdfTriple) : Fact :=
  ⟨resourceVertex triple.subject,triple.predicate,termValue triple.object⟩

theorem fact_triple (line_of : TripleLine triple line) :
    (tripleFact triple).triple Turtle.codeLabel = relabel triple := by
  cases line_of with
  | @line subject name object _ _ _ _ _ _ => cases subject <;> cases object <;> rfl

theorem reference_bare {scope : Scope} (bare : scope.base = none) (iri : String) :
    scope.reference iri.toList = iri := by
  simp [Scope.reference,bare]

theorem expand_object {scope : Scope} (bare : scope.base = none) (word_of : TermWord term word) :
    Turtle.expand (objectTree term) scope = some (termValue term,scope) := by
  cases word_of <;>
    simp [objectTree,suffixForm,Turtle.expand,Scope.resolve,Scope.literal,reference_bare bare,termValue]

theorem expand_statement {scope : Scope} (bare : scope.base = none) (line_of : TripleLine triple line) :
    Turtle.expandItem (statementItem triple) scope =
      some (scope.assert (tripleFact triple).subject (tripleFact triple).predicate
        (tripleFact triple).object) := by
  cases line_of with
  | @line subject name object _ _ _ _ _ object_of =>
    have expanded := expand_object bare object_of
    have subject_expanded : Turtle.expandSubject (subjectTree subject) scope =
        some (resourceVertex subject,scope) := by
      cases subject <;> simp [subjectTree,Turtle.expandSubject,Turtle.expand,Scope.resolve,
        reference_bare bare,resourceVertex]
    simp [statementItem,entriesTree,Turtle.expandItem,subject_expanded,Turtle.expand,Scope.verb,
      Scope.resolve,reference_bare bare,expanded,
      tripleFact]

theorem expand_lined (lined : Lined triples text) (scope : Scope) (bare : scope.base = none) :
    Turtle.expandItems (triples.map statementItem) scope =
    some { scope with facts := scope.facts ++ triples.map tripleFact } := by
  induction lined generalizing scope with
  | nil => simp [Turtle.expandItems]
  | last line_of => simp [Turtle.expandItems,expand_statement bare line_of,Scope.assert,tripleFact]
  | @cons triple triples line text line_of _ ih =>
    have later : (scope.assert (tripleFact triple).subject (tripleFact triple).predicate
        (tripleFact triple).object).base = none := bare
    rw [List.map_cons,Turtle.expandItems,expand_statement bare line_of,Option.bind_some,ih _ later]
    simp [Scope.assert]

theorem iriWord_token (word_of : IriWord iri word) : TokenText (.iri (.reference iri.toList)) word := by
  cases word_of with
  | iri spells => exact .iri (.reference (spells_mono spells (fun _ free => ⟨free.1,free.2.1⟩) fun _ _ found => found))

theorem labelWord_token (word_of : LabelWord label word) : TokenText (.label label.toList) word := by
  cases word_of with
  | label nonempty kinds => exact .label nonempty fun c member => (nameChar_kind (kinds c member)).2

theorem quotedWord_string (word_of : QuotedWord value word) : Turtle.StringText value.toList word := by
  cases word_of with
  | quoted spells => exact .short (.inl rfl) (spells_mono spells (fun _ free => ⟨free.1,free.2.1⟩) fun _ _ found => found)

theorem resourceWord_token (word_of : ResourceWord resource word) :
    ∃ token, (subjectTree resource).tokens = [token] ∧ TokenText token word ∧ Compact token word := by
  cases word_of with
  | iri word_of => exact ⟨_,rfl,iriWord_token word_of,trivial⟩
  | blank word_of => exact ⟨_,rfl,labelWord_token word_of,trivial⟩

theorem termWord_token (word_of : TermWord term word) :
    ∃ token, (objectTree term).tokens = [token] ∧ TokenText token word ∧ Compact token word := by
  cases word_of with
  | iri word_of => exact ⟨_,rfl,iriWord_token word_of,trivial⟩
  | blank word_of => exact ⟨_,rfl,labelWord_token word_of,trivial⟩
  | plain word_of => exact ⟨_,rfl,.literal (.plain (quotedWord_string word_of)),trivial⟩
  | typed word_of datatype =>
    have string := quotedWord_string word_of
    cases iriWord_token datatype with
    | iri name =>
      exact ⟨_,rfl,.literal (.typed string .nil .nil name),⟨_,_,string,name,rfl⟩⟩
  | tagged word_of nonempty kinds =>
    have string := quotedWord_string word_of
    exact ⟨_,rfl,.literal (.tagged string .nil nonempty kinds),⟨_,string,rfl⟩⟩

theorem line_laid {more : List Token} (line_of : TripleLine triple line) (laid : Laid more rest) :
    Laid ((statementItem triple).tokens ++ more) (line ++ rest) := by
  have space : Turtle.Gap [' '] := .space rfl .nil
  have spaced : ∀ tail, Separated (' ' :: tail) := fun tail => .inr ⟨tail,rfl⟩
  cases line_of with
  | @line subject name object a b c subject_of predicate_of object_of =>
    obtain ⟨first,first_tokens,first_text,first_compact⟩ := resourceWord_token subject_of
    obtain ⟨last,last_tokens,last_text,last_compact⟩ := termWord_token object_of
    have second_text := iriWord_token predicate_of
    have point : TokenText (.mark '.') ['.'] := .mark (by decide)
    have closing : Laid (.mark '.' :: more) ([' '] ++ (['.'] ++ rest)) := .cons space point trivial laid
    have object_laid : Laid (last :: .mark '.' :: more) ([' '] ++ (c ++ ([' '] ++ (['.'] ++ rest)))) :=
      .cons space last_text (Turtle.separated_ends last_text last_compact (spaced _)) closing
    have predicate_laid : Laid (.iri (.reference name.toList) :: last :: .mark '.' :: more)
        ([' '] ++ (b ++ ([' '] ++ (c ++ ([' '] ++ (['.'] ++ rest)))))) :=
        .cons space second_text trivial object_laid
    have whole : Laid (first :: .iri (.reference name.toList) :: last :: .mark '.' :: more)
        ([] ++ (a ++ ([' '] ++ (b ++ ([' '] ++ (c ++ ([' '] ++ (['.'] ++ rest)))))))) :=
      .cons .nil first_text (Turtle.separated_ends first_text first_compact (spaced _)) predicate_laid
    simpa [statementItem,entriesTree,Item.tokens,Tree.tokens,Turtle.Verb.token,first_tokens,
      last_tokens] using whole

theorem lined_laid (lined : Lined triples text) :
    Laid (Turtle.documentTokens (triples.map statementItem)) text := by
  induction lined with
  | nil => exact .nil .nil
  | @last triple line line_of =>
    have whole := line_laid line_of (.nil .nil)
    simpa [Turtle.documentTokens] using whole
  | @cons triple triples line text line_of _ ih =>
    have broken : Laid (Turtle.documentTokens (triples.map statementItem)) ('\n' :: text) :=
      Turtle.placed_space rfl ih
    have whole := line_laid line_of broken
    simpa [Turtle.documentTokens] using whole

theorem facts_relabel (lined : Lined triples text) :
    (triples.map tripleFact).map (Fact.triple Turtle.codeLabel) = triples.map relabel := by
  induction lined with
  | nil => rfl
  | last line_of => simp only [List.map_cons,List.map_nil,fact_triple line_of]
  | cons line_of _ ih => simp only [List.map_cons,fact_triple line_of,ih]

-- The Turtle parser reads N-Triples as the line reader does, up to labels.
theorem turtle_agrees (lined : Lined triples text) :
    readRdfTriples text .nTriples = (triples,none) ∧ Turtle.parseTurtle text = .ok (triples.map relabel) := by
  refine ⟨readLines_lined lined 0,?_⟩
  have clear : Turtle.clearDocument (triples.map statementItem) = true := by
    simp [Turtle.clearDocument,statement_clear]
  have parsed := Turtle.parse_laid Turtle.laid_sound (Turtle.clear_readable clear) (lined_laid lined)
  rw [Turtle.expandDocument,expand_lined lined {} rfl] at parsed
  rw [← facts_relabel lined]
  exact parsed

theorem two_lines_agree : readRdfTriples "_:b <p> \"\\n\"@en .\n<\\u0073> <p> _:b .\n".toList .nTriples =
      ([⟨.blankNode "b","p",.literal "\n" none (some "en"),none⟩,⟨.iri "s","p",.blankNode "b",none⟩],none) ∧
    Turtle.parseTurtle "_:b <p> \"\\n\"@en .\n<\\u0073> <p> _:b .\n".toList =
      .ok [⟨.blankNode "u_b","p",.literal "\n" none (some "en"),none⟩,
      ⟨.iri "s","p",.blankNode "u_b",none⟩] := by
  have label : LabelWord "b" ['_',':','b'] := .label (by decide) (List.forall_iff_forall_mem.mp (by decide))
  have p : Spells (LineFree '>') (fun _ => none) "p".toList ['p'] := .raw ⟨by decide,by decide,by decide⟩ .nil
  have predicate : IriWord "p" ['<','p','>'] := .iri p
  have point : HexNames 4 0 ['0','0','7','3'] 's' := ⟨rfl,rfl⟩
  have letter : Spells (LineFree '>') (fun _ => none) "s".toList ['\\','u','0','0','7','3'] :=
    .coded (.inl ⟨rfl,rfl⟩) point .nil
  have subject : IriWord "s" ['<','\\','u','0','0','7','3','>'] := .iri letter
  have feed : Spells (LineFree '"') RdfLines.namedEscape "\n".toList ['\\','n'] := .named rfl .nil
  have value : QuotedWord "\n" ['"','\\','n','"'] := .quoted feed
  have first := TripleLine.line (.blank label) predicate
      (.tagged value (show "en".toList ≠ [] by decide) (List.forall_iff_forall_mem.mp (by decide)))
  have second := TripleLine.line (.iri subject) predicate (.blank label)
  exact turtle_agrees (.cons first (.cons second .nil))

end Agreement
end ArangoDataTools.RdfReading
