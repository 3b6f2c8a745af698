import Mathlib.Data.List.DropRight
import ArangoDataTools.Errors
import ArangoDataTools.RdfTerms
import ArangoDataTools.TextReader

namespace ArangoDataTools.Turtle
open TextScan TextReader

def rdfType : String := "http://www.w3.org/1999/02/22-rdf-syntax-ns#type"
def rdfFirst : String := "http://www.w3.org/1999/02/22-rdf-syntax-ns#first"
def rdfRest : String := "http://www.w3.org/1999/02/22-rdf-syntax-ns#rest"
def rdfNil : String := "http://www.w3.org/1999/02/22-rdf-syntax-ns#nil"
def xsdInteger : String := "http://www.w3.org/2001/XMLSchema#integer"
def xsdDecimal : String := "http://www.w3.org/2001/XMLSchema#decimal"
def xsdDouble : String := "http://www.w3.org/2001/XMLSchema#double"
def xsdBoolean : String := "http://www.w3.org/2001/XMLSchema#boolean"

inductive Node where
  | iri (iri : String)
  | blank (label : String)
  deriving DecidableEq, Repr

def Node.intoResource : Node → RdfResource
  | .iri name => .iri name
  | .blank label => .blankNode label

def Node.intoTerm : Node → RdfTerm
  | .iri name => .iri name
  | .blank label => .blankNode label

inductive Object where
  | node (node : Node)
  | literal (term : RdfTerm)
  deriving DecidableEq, Repr

def Object.term : Object → RdfTerm
  | .node found => found.intoTerm
  | .literal term => term

-- The parser's fields other than its position. The first entry of a prefix is
-- the one that counts.
structure Env where
  base : Option String := none
  prefixes : List (String × String) := []
  blankCounter : Nat := 0
  triples : List RdfTriple := []
  deriving DecidableEq, Repr

def Env.push (env : Env) (triple : RdfTriple) : Env := { env with triples := env.triples ++ [triple] }
def Env.bind (env : Env) (name iri : String) : Env := { env with prefixes := (name,iri) :: env.prefixes }

abbrev Parse (α : Type) := Reader Error Env α

def position (passed : List Char) : Nat × Nat :=
  passed.reverse.foldl (fun (line,col) c => if c = '\n' then (line + 1,1) else (line,col + 1)) (1,1)

def fail (message : String) : Parse α :=
  failAt fun passed => .config
    s!"Turtle parse error at line {(position passed).1}, column {(position passed).2}: {message}"

section Lexing

-- `char::is_alphanumeric` matters for ASCII only: every other character is
-- allowed anyway.
def isPnPrefixChar (c : Char) : Bool := isAsciiAlphanumeric c || c = '_' || c = '-' || c = '.' || 0x7F < c.toNat
def isPnLocalChar (c : Char) : Bool := isAsciiAlphanumeric c || c = '_' || c = '-' || c = '.' ||
    c = '%' || c = ':' || 0x7F < c.toNat
def isTagChar (c : Char) : Bool := isAsciiAlphanumeric c || c = '-'

def gapLength (inComment : Bool) : List Char → Nat
  | [] => 0
  | c :: rest =>
    if inComment then gapLength (c ≠ '\n') rest + 1
    else if isWhitespace c then gapLength false rest + 1
    else if c = '#' then gapLength true rest + 1
    else 0

def skipWs : Parse Unit := do
  let text ← ahead
  advance (gapLength false text)

def expect (expected : Char) : Parse Unit := do
  match ← nextChar with
  | some c =>
    if c = expected then pure ()
    else fail s!"expected '{expected}', found '{c}'"
  | none => fail s!"expected '{expected}', found end of input"

def isTokenBoundary : Option Char → Bool
  | none => true
  | some c => isWhitespace c || c ∈ ['<','"','\'','.',';',',','#']

def toAsciiLowercase (c : Char) : Char := if 'A' ≤ c ∧ c ≤ 'Z' then Char.ofNat (c.toNat + 32) else c

def matchesKeywordCi (keyword : List Char) (text : List Char) : Bool :=
  (text.take keyword.length).map toAsciiLowercase = keyword && isTokenBoundary text[keyword.length]?

def peekBoolean (text : List Char) : Bool :=
  (text.take 4 = ['t','r','u','e'] && isTokenBoundary text[4]?) ||
  (text.take 5 = ['f','a','l','s','e'] && isTokenBoundary text[5]?)

def readBareWord : Parse (List Char) := readWhile isAsciiAlphabetic

def readHexFrom (code : Nat) : Nat → Parse Char
  | 0 =>
    match fromCode code with
    | some c => pure c
    | none => fail "invalid unicode code point"
  | size + 1 => do
    match ← nextChar with
    | none => fail "truncated unicode escape"
    | some c =>
      match toDigit c with
      | some digit => readHexFrom (code * 16 + digit) size
      | none => fail "invalid hex in unicode escape"

def readHex (size : Nat) : Parse Char := readHexFrom 0 size

def schemeRest : List Char → Bool
  | [] => false
  | c :: rest =>
    if c = ':' then true
    else if isAsciiAlphanumeric c || c = '+' || c = '-' || c = '.' then schemeRest rest
    else false

def hasScheme : List Char → Bool
  | [] => false
  | c :: rest => isAsciiAlphabetic c && schemeRest rest

def resolveIri (base : Option String) (raw : List Char) : String :=
  if hasScheme raw then String.ofList raw
  else match base with
    | some base => base ++ String.ofList raw
    | none => String.ofList raw

-- The loop of `read_iri_ref`.
def iriRefRest : Nat → Parse (List Char)
  | 0 => fail "unterminated IRI"
  | fuel + 1 => do
    match ← nextChar with
    | none => fail "unterminated IRI"
    | some c =>
      if c = '>' then pure []
      else if c = '\\' then
        match ← nextChar with
        | none => fail "bad IRI escape"
        | some name =>
          if name = 'u' ∨ name = 'U' then do
            let decoded ← readHex (if name = 'u' then 4 else 8)
            return decoded :: (← iriRefRest fuel)
          else fail s!"invalid IRI escape '\\{name}'"
      else return c :: (← iriRefRest fuel)

def readIriRef : Parse String := do
  expect '<'
  let raw ← iriRefRest ((← ahead).length + 1)
  return resolveIri (← current).base raw

def readBlankLabel : Parse String := do
  expect '_'
  expect ':'
  let label ← readWhile isPnLocalChar
  if label = [] then fail "empty blank node label"
  else return "u_" ++ String.ofList label

-- A local part may not end with `.`: what was read too far is given back.
def readLocal : Parse (List Char) := do
  let overread ← readWhile isPnLocalChar
  let name := overread.rdropWhile (· = '.')
  retreat (overread.length - name.length)
  return name

def readPrefixedName : Parse String := do
  let label ← readWhile fun c => c ≠ ':' && isPnPrefixChar c
  match ← peek with
  | some c => if c ≠ ':' then fail s!"unexpected character '{c}' in term"
  | none => pure ()
  expect ':'
  let name ← readLocal
  match (← current).prefixes.lookup (String.ofList label) with
  | some iri => return iri ++ String.ofList name
  | none => fail s!"unknown prefix '{String.ofList label}:'"

def readPrefixBinding : Parse (String × String) := do
  let label ← readWhile fun c => c ≠ ':' && !isWhitespace c
  match ← peek with
  | some c => if c ≠ ':' then fail "expected ':' after prefix label"
  | none => pure ()
  expect ':'
  skipWs
  let iri ← readIriRef
  return (String.ofList label,iri)

def iriOrBlank : Parse Node := do
  skipWs
  match ← peek with
  | some '<' => return .iri (← readIriRef)
  | some '_' => return .blank (← readBlankLabel)
  | some _ => return .iri (← readPrefixedName)
  | none => fail "expected a term"

def readStringEscape : Parse Char := do
  match ← nextChar with
  | none => fail "dangling escape in string"
  | some 't' => pure '\t'
  | some 'b' => pure '\x08'
  | some 'n' => pure '\n'
  | some 'r' => pure '\r'
  | some 'f' => pure '\x0C'
  | some '"' => pure '"'
  | some '\'' => pure '\''
  | some '\\' => pure '\\'
  | some 'u' => readHex 4
  | some 'U' => readHex 8
  | some other => fail s!"invalid string escape '\\{other}'"

-- The loop of `read_string_body`.
def stringBodyRest (quote : Char) (triple : Bool) : Nat → Parse (List Char)
  | 0 => fail "unterminated string literal"
  | fuel + 1 => do
    match ← nextChar with
    | none => fail "unterminated string literal"
    | some c =>
      if c = quote then
        if !triple then pure []
        else if (← peek) = some quote ∧ (← peekAt 1) = some quote then do
          advance 2
          pure []
        else return c :: (← stringBodyRest quote triple fuel)
      else if c = '\\' then do
        let decoded ← readStringEscape
        return decoded :: (← stringBodyRest quote triple fuel)
      else return c :: (← stringBodyRest quote triple fuel)

def readStringBody (quote : Char) (triple : Bool) : Parse (List Char) := do
  stringBodyRest quote triple ((← ahead).length + 1)

def readSuffix : Parse (Option String × Option String) := do
  match ← peek with
  | some '@' => do
    advance 1
    let tag ← readWhile isTagChar
    if tag = [] then fail "empty language tag"
    else return (none,some (String.ofList tag))
  | some '^' =>
    if (← peekAt 1) = some '^' then do
      advance 2
      skipWs
      if (← peek) = some '<' then return (some (← readIriRef),none)
      else return (some (← readPrefixedName),none)
    else return (none,none)
  | _ => return (none,none)

def stringLiteral : Parse RdfTerm := do
  match ← nextChar with
  | none => fail "caller checked quote"
  | some quote =>
    let triple := decide ((← peek) = some quote ∧ (← peekAt 1) = some quote)
    if triple then advance 2
    let value ← readStringBody quote triple
    let (datatype,language) ← readSuffix
    return .literal (String.ofList value) datatype language

-- How far the loop of `numeric_literal` reads, and what it has seen.
structure Numeral where
  text : List Char := []
  hasDot : Bool := false
  hasExp : Bool := false
  deriving DecidableEq, Repr

def Numeral.prepend (numeral : Numeral) (c : Char) : Numeral := { numeral with text := c :: numeral.text }

def isSign (c : Char) : Bool := c = '+' || c = '-'

-- `signed`: a sign may come next, at the start and after the exponent mark.
def scanNumeral (signed hasDot hasExp : Bool) : List Char → Numeral
  | [] => ⟨[],hasDot,hasExp⟩
  | c :: rest =>
    if signed && isSign c then (scanNumeral false hasDot hasExp rest).prepend c
    else if isAsciiDigit c then (scanNumeral false hasDot hasExp rest).prepend c
    else if c = '.' ∧ !hasDot ∧ !hasExp ∧ rest.head?.any isAsciiDigit then
      (scanNumeral false true hasExp rest).prepend c
    else if (c = 'e' ∨ c = 'E') ∧ !hasExp then (scanNumeral true hasDot true rest).prepend c
    else ⟨[],hasDot,hasExp⟩

def numericLiteral : Parse RdfTerm := do
  let numeral := scanNumeral true false false (← ahead)
  advance numeral.text.length
  if !numeral.text.any isAsciiDigit then fail "expected an object"
  else
    let datatype := if numeral.hasExp then xsdDouble else if numeral.hasDot then xsdDecimal else xsdInteger
    return .literal (String.ofList numeral.text) (some datatype) none

def booleanLiteral : Parse RdfTerm := do
  let word ← readBareWord
  if word = ['t','r','u','e'] ∨ word = ['f','a','l','s','e'] then
    return .literal (String.ofList word) (some xsdBoolean) none
  else fail s!"expected a term, found '{String.ofList word}'"

def freshBlank : Parse Node := do
  update fun env => { env with blankCounter := env.blankCounter + 1 }
  return .blank s!"_bnl{(← current).blankCounter}"

def verb : Parse String := do
  skipWs
  let text ← ahead
  if text.head? = some 'a' ∧ isTokenBoundary text[1]? then do
    advance 1
    return rdfType
  else
    match ← iriOrBlank with
    | .iri iri => return iri
    | .blank _ => fail "a predicate must be an IRI, not a blank node"

end Lexing

section Structure

def pushTriple (subject : Node) (predicate : String) (object : RdfTerm) : Parse Unit :=
  update (·.push { subject := subject.intoResource, predicate, object, graph := none })

-- The cells after the first of a collection: `current` is the cell that holds
-- the next item.
def chain (current : Node) : List RdfTerm → Parse Unit
  | [] => pure ()
  | item :: rest => do
    pushTriple current rdfFirst item
    match rest with
    | [] => pushTriple current rdfRest (.iri rdfNil)
    | rest => do
      let cell ← freshBlank
      pushTriple current rdfRest cell.intoTerm
      chain cell rest

-- The parser recurses as deep as the text nests; `fuel` bounds the depth of
-- calls.
mutual

def object : Nat → Parse Object
  | 0 => fail "out of fuel"
  | fuel + 1 => do
    skipWs
    let text ← ahead
    match text.head? with
    | some '[' => return .node (← blankNodePropertyList fuel)
    | some '(' => return .node (← collection fuel)
    | some '"' | some '\'' => return .literal (← stringLiteral)
    | some c =>
      if c = '+' ∨ c = '-' ∨ c = '.' ∨ isAsciiDigit c then return .literal (← numericLiteral)
      else if (c = 't' ∨ c = 'f') ∧ peekBoolean text then return .literal (← booleanLiteral)
      else return .node (← iriOrBlank)
    | none => return .node (← iriOrBlank)

def blankNodePropertyList : Nat → Parse Node
  | 0 => fail "out of fuel"
  | fuel + 1 => do
    expect '['
    let node ← freshBlank
    skipWs
    if (← peek) = some ']' then do
      advance 1
      return node
    else do
      predicateObjectList fuel node
      skipWs
      expect ']'
      return node

def collection : Nat → Parse Node
  | 0 => fail "out of fuel"
  | fuel + 1 => do
    expect '('
    let items ← collectionItems fuel
    if items = [] then return .iri rdfNil
    else do
      let head ← freshBlank
      chain head items
      return head

def collectionItems : Nat → Parse (List RdfTerm)
  | 0 => fail "out of fuel"
  | fuel + 1 => do
    skipWs
    match ← peek with
    | some ')' => do
      advance 1
      return []
    | none => fail "unterminated collection"
    | some _ => do
      let item ← object fuel
      return item.term :: (← collectionItems fuel)

-- `verb objectList (';' verb objectList)*`
def predicateObjectList : Nat → Node → Parse Unit
  | 0, _ => fail "out of fuel"
  | fuel + 1, subject => do
    skipWs
    let predicate ← verb
    objectList fuel subject predicate
    skipWs
    if (← peek) = some ';' then do
      advance 1
      skipWs
      match ← peek with
      | some '.' | some ']' | none => pure ()
      | some _ => predicateObjectList fuel subject
    else pure ()

def objectList : Nat → Node → String → Parse Unit
  | 0, _, _ => fail "out of fuel"
  | fuel + 1, subject, predicate => do
    skipWs
    let item ← object fuel
    pushTriple subject predicate item.term
    skipWs
    if (← peek) = some ',' then do
      advance 1
      objectList fuel subject predicate
    else pure ()

end

def subject (fuel : Nat) : Parse Node := do
  skipWs
  match ← peek with
  | some '[' => blankNodePropertyList fuel
  | some '(' => collection fuel
  | _ => iriOrBlank

def statement (fuel : Nat) : Parse Unit := do
  let node ← subject fuel
  skipWs
  predicateObjectList fuel node
  skipWs
  expect '.'

def directive : Parse Unit := do
  expect '@'
  let word ← readBareWord
  if word = ['p','r','e','f','i','x'] then do
    skipWs
    let (name,iri) ← readPrefixBinding
    update (·.bind name iri)
  else if word = ['b','a','s','e'] then do
    skipWs
    let iri ← readIriRef
    update fun env => { env with base := some iri }
  else fail s!"unknown directive '@{String.ofList word}'"
  skipWs
  expect '.'

def sparqlDirective : Parse Unit := do
  let word ← readBareWord
  skipWs
  if word.map toAsciiLowercase = ['p','r','e','f','i','x'] then do
    let (name,iri) ← readPrefixBinding
    update (·.bind name iri)
  else if word.map toAsciiLowercase = ['b','a','s','e'] then do
    let iri ← readIriRef
    update fun env => { env with base := some iri }
  else fail "guarded by matches_keyword_ci"

def document (depth : Nat) : Nat → Parse Unit
  | 0 => fail "out of fuel"
  | fuel + 1 => do
    skipWs
    let text ← ahead
    match text.head? with
    | none => pure ()
    | some c => do
      if c = '@' then directive
      else if matchesKeywordCi ['p','r','e','f','i','x'] text ||
        matchesKeywordCi ['b','a','s','e'] text then sparqlDirective
      else statement depth
      document depth fuel

def parseTurtle (input : List Char) : Except Error (List RdfTriple) :=
  (document (4 * input.length + 4) (input.length + 1) ⟨[],input,{}⟩).map fun ended => ended.2.state.triples

end Structure
end ArangoDataTools.Turtle
