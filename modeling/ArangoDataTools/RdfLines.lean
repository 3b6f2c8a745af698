import Mathlib.Data.List.DropRight
import ArangoDataTools.Errors
import ArangoDataTools.RdfTerms

namespace ArangoDataTools.RdfLines
open TextScan

-- A reader takes the characters from the cursor on and leaves the cursor where
-- the returned characters begin.
abbrev Reader (α : Type) := List Char → Except Error (α × List Char)

def isBlank (c : Char) : Bool := c = ' ' || c = '\t'

def skipWs (text : List Char) : List Char := text.dropWhile isBlank

def readHexFrom (code : Nat) : Nat → Reader Char
  | 0, text =>
    match fromCode code with
    | some c => .ok (c,text)
    | none => .error (.config "invalid unicode code point in escape")
  | _ + 1, [] => .error (.config "truncated unicode escape")
  | size + 1, c :: rest =>
    match toDigit c with
    | some digit => readHexFrom (code * 16 + digit) size rest
    | none => .error (.config "invalid hex digit in unicode escape")

def readHex (size : Nat) : Reader Char := readHexFrom 0 size

def namedEscape : Char → Option Char
  | 't' => some '\t'
  | 'b' => some '\x08'
  | 'n' => some '\n'
  | 'r' => some '\r'
  | 'f' => some '\x0C'
  | '"' => some '"'
  | '\'' => some '\''
  | '\\' => some '\\'
  | _ => none

theorem readHexFrom_length {size code : Nat} {text rest : List Char} {c : Char}
    (read : readHexFrom code size text = .ok (c,rest)) :
    rest.length ≤ text.length := by
  induction size generalizing code text with
  | zero =>
    rw [readHexFrom] at read
    cases point : fromCode code <;> rw [point] at read <;> cases read
    exact Nat.le_refl _
  | succ size ih =>
    cases text with
    | nil => cases read
    | cons first text =>
      rw [readHexFrom] at read
      cases digit : toDigit first with
      | none => rw [digit] at read; cases read
      | some value =>
        rw [digit] at read
        exact Nat.le_succ_of_le (ih read)

-- The loop of `decode_escapes`.
def decodeFrom : List Char → Except Error (List Char)
  | [] => .ok []
  | '\\' :: rest =>
    match rest with
    | [] => .error (.config "dangling escape backslash")
    | name :: rest =>
      if name = 'u' ∨ name = 'U' then
        match read : readHex (if name = 'u' then 4 else 8) rest with
        | .error failure => .error failure
        | .ok (c,rest) =>
          have := readHexFrom_length read
          (decodeFrom rest).map (c :: ·)
      else
        match namedEscape name with
        | some c => (decodeFrom rest).map (c :: ·)
        | none => .error (.config ("invalid escape '\\" ++ String.singleton name ++ "'"))
  | c :: rest => (decodeFrom rest).map (c :: ·)
  termination_by text => text.length

def decodeEscapes (raw : List Char) : Except Error (List Char) :=
  if '\\' ∈ raw then decodeFrom raw else .ok raw

-- The loop of `read_iri` and `read_literal`: everything up to the closing
-- character, escape pairs kept as they stand.
def readRaw (close : Char) (what : String) : Reader (List Char)
  | [] => .error (.config ("unterminated " ++ what))
  | c :: rest =>
    if c = close then .ok ([],rest)
    else if c = '\\' then
      match rest with
      | [] => .error (.config ("dangling escape in " ++ what))
      | next :: rest => (readRaw close what rest).map fun (raw,rest) => ('\\' :: next :: raw,rest)
    else (readRaw close what rest).map fun (raw,rest) => (c :: raw,rest)

def readIri : Reader String
  | '<' :: text => do
    let (raw,rest) ← readRaw '>' "IRI" text
    let iri ← decodeEscapes raw
    return (String.ofList iri,rest)
  | _ => .error (.config "expected '<' to start an IRI")

def isLabelChar (c : Char) : Bool := !(isWhitespace c || c = '<' || c = '"')

def readBlank : Reader String
  | '_' :: ':' :: text =>
    if text.takeWhile isLabelChar = [] then .error (.config "empty blank node label")
    else .ok (String.ofList (text.takeWhile isLabelChar),text.dropWhile isLabelChar)
  | _ => .error (.config "expected '_:' to start a blank node")

def isTagChar (c : Char) : Bool := isAsciiAlphanumeric c || c = '-'

def readSuffix (value : List Char) : Reader RdfTerm
  | '^' :: '^' :: rest => (readIri rest).map fun (datatype,rest) =>
      (.literal (String.ofList value) (some datatype) none,rest)
  | '@' :: rest =>
    if rest.takeWhile isTagChar = [] then .error (.config "empty language tag")
    else .ok (.literal (String.ofList value) none (some (String.ofList (rest.takeWhile isTagChar))),
      rest.dropWhile isTagChar)
  | rest => .ok (.literal (String.ofList value) none none,rest)

def readLiteral : Reader RdfTerm
  | '"' :: text => do
    let (raw,rest) ← readRaw '"' "literal" text
    let value ← decodeEscapes raw
    readSuffix value rest
  | _ => .error (.config "expected '\"' to start a literal")

def readResource (text : List Char) : Except Error (RdfResource × List Char) :=
  match text.head? with
  | some '<' => (readIri text).map fun (iri,rest) => (.iri iri,rest)
  | some '_' => (readBlank text).map fun (label,rest) => (.blankNode label,rest)
  | _ => .error (.config "expected an IRI or blank node")

def readObject (text : List Char) : Except Error (RdfTerm × List Char) :=
  match text.head? with
  | some '<' => (readIri text).map fun (iri,rest) => (.iri iri,rest)
  | some '_' => (readBlank text).map fun (label,rest) => (.blankNode label,rest)
  | some '"' => readLiteral text
  | _ => .error (.config "expected an IRI, blank node, or literal object")

def trim (text : List Char) : List Char := (text.dropWhile isWhitespace).rdropWhile isWhitespace

def graphName : RdfResource → String
  | .iri iri => iri
  | .blankNode label => "_:" ++ label

def readGraph (format : RdfFormat) (rest : List Char) : Except Error (Option String × List Char) :=
  if rest.head? = some '.' then .ok (none,rest)
  else if format = .nQuads then (readResource rest).map fun (graph,rest) => (some (graphName graph),skipWs rest)
  else .error (.config "unexpected token after object; expected '.'")

def parseStatement (line : List Char) (format : RdfFormat) : Except Error (Option RdfTriple) :=
  if trim line = [] ∨ (trim line).head? = some '#' then .ok none
  else do
    let (subject,rest) ← readResource (skipWs line)
    if (skipWs rest).head? = some '<' then
      let (predicate,rest) ← readIri (skipWs rest)
      let (object,rest) ← readObject (skipWs rest)
      let (graph,rest) ← readGraph format (skipWs rest)
      if rest.head? = some '.' then return some { subject, predicate, object, graph }
      else .error (.config "statement must end with '.'")
    else .error (.config "predicate must be an IRI")

end ArangoDataTools.RdfLines
