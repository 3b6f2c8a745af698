import ArangoDataTools.Turtle

namespace ArangoDataTools.Turtle
open TextScan

section Forms

-- `escaped` is a prefixed name some of whose characters are written with a
-- backslash: its pieces are those characters, marked, and the others.
inductive IriForm where
  | reference (raw : List Char)
  | prefixed (label name : List Char)
  | escaped (label : List Char) (pieces : List (Bool × Char))
  deriving DecidableEq, Repr

inductive Suffix where
  | plain
  | tagged (tag : List Char)
  | typed (datatype : IriForm)
  deriving DecidableEq, Repr

-- A numeral whose `.`, if it has one, is followed by a digit.
structure NumberForm where
  sign : List Char
  whole : List Char
  fraction : List Char
  exponent : Option (Char × List Char × List Char)
  signs : sign = [] ∨ ∃ c, sign = [c] ∧ isSign c = true
  wholes : ∀ c ∈ whole, isAsciiDigit c = true
  fractions : ∀ c ∈ fraction, isAsciiDigit c = true
  nonempty : whole ≠ [] ∨ fraction ≠ []
  exponents : ∀ mark s digits, exponent = some (mark,s,digits) → (mark = 'e' ∨ mark = 'E') ∧
    (s = [] ∨ ∃ c, s = [c] ∧ isSign c = true) ∧
    digits ≠ [] ∧ ∀ c ∈ digits, isAsciiDigit c = true

def NumberForm.fractionText (form : NumberForm) : List Char := if form.fraction = [] then []
    else '.' :: form.fraction

def NumberForm.exponentText (form : NumberForm) : List Char :=
  match form.exponent with
  | none => []
  | some (mark,s,digits) => mark :: s ++ digits

def NumberForm.text (form : NumberForm) : List Char :=
  form.sign ++ (form.whole ++ (form.fractionText ++ form.exponentText))

def NumberForm.datatype (form : NumberForm) : String :=
  if form.exponent.isSome then xsdDouble else if form.fraction ≠ [] then xsdDecimal else xsdInteger

-- `pointed` is a double whose `.` is followed by its exponent.
inductive LiteralForm where
  | string (value : List Char) (suffix : Suffix)
  | number (form : NumberForm)
  | pointed (sign whole exponent : List Char)
  | boolean (value : Bool)

inductive Verb where
  | a
  | iri (form : IriForm)
  deriving DecidableEq, Repr

inductive Kind where
  | object | objects | entries | items
  deriving DecidableEq, Repr

-- `objects` is an object list, `entries` a predicate-object list, `items` what a
-- collection holds. Every `;` beyond one is an empty entry.
inductive Tree : Kind → Type where
  | iri (form : IriForm) : Tree .object
  | label (name : List Char) : Tree .object
  | literal (form : LiteralForm) : Tree .object
  | anonymous : Tree .object
  | properties (entries : Tree .entries) : Tree .object
  | empty : Tree .object
  | collection (items : Tree .items) : Tree .object
  | one (object : Tree .object) : Tree .objects
  | more (object : Tree .object) (rest : Tree .objects) : Tree .objects
  | entry (verb : Verb) (objects : Tree .objects) (closing : Nat) : Tree .entries
  | entries (verb : Verb) (objects : Tree .objects) (extra : Nat) (rest : Tree .entries) : Tree .entries
  | last (object : Tree .object) : Tree .items
  | item (object : Tree .object) (rest : Tree .items) : Tree .items

def Tree.isNode : Tree .object → Bool
  | .literal _ => false
  | _ => true

inductive Style where
  | turtle | sparql
  deriving DecidableEq, Repr

inductive Item where
  | binding (style : Style) (label iri : List Char)
  | base (style : Style) (iri : List Char)
  | statement (subject : Tree .object) (node : subject.isNode = true) (entries : Tree .entries)
  | bare (entries : Tree .entries)

end Forms

section Expansion

inductive Blank where
  | named (label : String)
  | fresh (index : Nat)
  deriving DecidableEq, Repr

inductive Vertex where
  | iri (iri : String)
  | blank (blank : Blank)
  deriving DecidableEq, Repr

inductive Value where
  | vertex (vertex : Vertex)
  | literal (value : String) (datatype language : Option String)
  deriving DecidableEq, Repr

structure Fact where
  subject : Vertex
  predicate : String
  object : Value
  deriving DecidableEq, Repr

structure Scope where
  base : Option String := none
  prefixes : List (String × String) := []
  blanks : Nat := 0
  facts : List Fact := []
  deriving DecidableEq, Repr

def isSchemeChar (c : Char) : Bool := isAsciiAlphanumeric c || c = '+' || c = '-' || c = '.'

-- `scheme:` comes first.
def isAbsolute (raw : List Char) : Bool :=
  (raw.takeWhile isSchemeChar).head?.any isAsciiAlphabetic && (raw.dropWhile isSchemeChar).head? = some ':'

namespace Scope

def reference (scope : Scope) (raw : List Char) : String :=
  if isAbsolute raw then String.ofList raw else scope.base.getD "" ++ String.ofList raw

def resolve (scope : Scope) : IriForm → Option String
  | .reference raw => some (scope.reference raw)
  | .prefixed label name => (scope.prefixes.lookup (String.ofList label)).map (· ++ String.ofList name)
  | .escaped label pieces => (scope.prefixes.lookup (String.ofList label)).map
      (· ++ String.ofList (pieces.map (·.2)))

def verb (scope : Scope) : Verb → Option String
  | .a => some rdfType
  | .iri form => scope.resolve form

def literal (scope : Scope) : LiteralForm → Option Value
  | .string value .plain => some (.literal (String.ofList value) none none)
  | .string value (.tagged tag) => some (.literal (String.ofList value) none (some (String.ofList tag)))
  | .string value (.typed datatype) => (scope.resolve datatype).map fun iri =>
      .literal (String.ofList value) (some iri) none
  | .number form => some (.literal (String.ofList form.text) (some form.datatype) none)
  | .pointed sign whole exponent =>
      some (.literal (String.ofList (sign ++ whole ++ '.' :: exponent)) (some xsdDouble) none)
  | .boolean value => some (.literal (if value then "true" else "false") (some xsdBoolean) none)

def allocate (scope : Scope) : Vertex × Scope :=
  (.blank (.fresh (scope.blanks + 1)),{ scope with blanks := scope.blanks + 1 })

def assert (scope : Scope) (subject : Vertex) (predicate : String) (object : Value) : Scope :=
  { scope with facts := scope.facts ++ [{ subject, predicate, object }] }

def cells (cell : Vertex) : List Value → Scope → Scope
  | [], scope => scope
  | [value], scope => (scope.assert cell rdfFirst value).assert cell rdfRest (.vertex (.iri rdfNil))
  | value :: values, scope =>
    let (next,scope) := (scope.assert cell rdfFirst value).allocate
    cells next values (scope.assert cell rdfRest (.vertex next))

end Scope

def Meaning : Kind → Type
  | .object => Scope → Option (Value × Scope)
  | .objects => Vertex → String → Scope → Option Scope
  | .entries => Vertex → Scope → Option Scope
  | .items => Scope → Option (List Value × Scope)

def expand : {k : Kind} → Tree k → Meaning k
  | _, .iri form => fun scope => (scope.resolve form).map fun iri => (.vertex (.iri iri),scope)
  | _, .label name => fun scope => some (.vertex (.blank (.named (String.ofList name))),scope)
  | _, .literal form => fun scope => (scope.literal form).map fun value => (value,scope)
  | _, .anonymous => fun scope => some (.vertex scope.allocate.1,scope.allocate.2)
  | _, .properties entries => fun scope =>
    (expand entries scope.allocate.1 scope.allocate.2).map fun later => (.vertex scope.allocate.1,later)
  | _, .empty => fun scope => some (.vertex (.iri rdfNil),scope)
  | _, .collection items => fun scope => (expand items scope).map fun (values,later) =>
    (.vertex later.allocate.1,later.allocate.2.cells later.allocate.1 values)
  | _, .one object => fun subject predicate scope =>
    (expand object scope).map fun (value,later) => later.assert subject predicate value
  | _, .more object rest => fun subject predicate scope =>
    (expand object scope).bind fun (value,later) => expand rest subject predicate
      (later.assert subject predicate value)
  | _, .entry verb objects _ => fun subject scope => (scope.verb verb).bind fun predicate =>
      expand objects subject predicate scope
  | _, .entries verb objects _ rest => fun subject scope =>
    (scope.verb verb).bind fun predicate => (expand objects subject predicate scope).bind
      fun later => expand rest subject later
  | _, .last object => fun scope => (expand object scope).map fun (value,later) => ([value],later)
  | _, .item object rest => fun scope => (expand object scope).bind fun (value,middle) =>
    (expand rest middle).map fun (values,later) => (value :: values,later)

def expandSubject (tree : Tree .object) (scope : Scope) : Option (Vertex × Scope) :=
  (expand tree scope).bind fun (value,later) =>
    match value with
    | .vertex vertex => some (vertex,later)
    | .literal .. => none

def expandItem : Item → Scope → Option Scope
  | .binding _ label iri, scope =>
    some { scope with prefixes := (String.ofList label,scope.reference iri) :: scope.prefixes }
  | .base _ iri, scope => some { scope with base := some (scope.reference iri) }
  | .statement subject _ entries, scope => (expandSubject subject scope).bind fun (vertex,later) =>
      expand entries vertex later
  | .bare entries, scope => expand entries scope.allocate.1 scope.allocate.2

def expandItems : List Item → Scope → Option Scope
  | [], scope => some scope
  | item :: items, scope => (expandItem item scope).bind fun later => expandItems items later

def expandDocument (items : List Item) : Option (List Fact) := (expandItems items {}).map (·.facts)

end Expansion

section Naming

def codeLabel : Blank → String
  | .named label => "u_" ++ label
  | .fresh index => s!"_bnl{index}"

def Vertex.node (name : Blank → String) : Vertex → Node
  | .iri reference => .iri reference
  | .blank unnamed => .blank (name unnamed)

def Value.object (name : Blank → String) : Value → Object
  | .vertex found => .node (found.node name)
  | .literal value datatype language => .literal (.literal value datatype language)

def Fact.triple (name : Blank → String) (fact : Fact) : RdfTriple where
  subject := (fact.subject.node name).intoResource
  predicate := fact.predicate
  object := (fact.object.object name).term
  graph := none

def Scope.env (scope : Scope) : Env :=
  ⟨scope.base,scope.prefixes,scope.blanks,scope.facts.map (Fact.triple codeLabel)⟩

end Naming
end ArangoDataTools.Turtle
