import ArangoDataTools.CheckedScan
import ArangoDataTools.RdfLines

namespace ArangoDataTools.LineScan
open TextScan CheckedScan RdfLines

abbrev Scanner (α : Type) := Machine Error Unit α

def fail (message : String) : Scanner α := halt (.error (.config message))

section Reading

def skipWs : Scanner Unit := takeIn isBlank

def readHex (count : Nat) : Scanner Char :=
  hexFrom (fail "truncated unicode escape") (fail "invalid hex digit in unicode escape")
    (fail "invalid unicode code point in escape") 0 count

-- The loop of `decode_escapes`, over the text it decodes.
def decodeFrom : Scanner (List Char) :=
  loop (fun out => do
    match ← nextChar with
    | none => return .leave out
    | some c =>
      if c ≠ '\\' then return .again (out ++ [c])
      else
        match ← nextChar with
        | none => fail "dangling escape backslash"
        | some name =>
          if name = 'u' ∨ name = 'U' then do
            let decoded ← readHex (if name = 'u' then 4 else 8)
            return .again (out ++ [decoded])
          else match namedEscape name with
            | some decoded => return .again (out ++ [decoded])
            | none => fail ("invalid escape '\\" ++ String.singleton name ++ "'")) []

def decodeEscapes (raw : List Char) : Scanner (List Char) :=
  if '\\' ∈ raw then scanning raw decodeFrom else return raw

-- The loop of `read_iri` and `read_literal`.
def readRaw (close : Char) (what : String) : Scanner (List Char) :=
  loop (fun raw => do
    match ← nextChar with
    | none => fail ("unterminated " ++ what)
    | some c =>
      if c = close then return .leave raw
      else if c = '\\' then
        match ← nextChar with
        | none => fail ("dangling escape in " ++ what)
        | some next => return .again (raw ++ ['\\',next])
      else return .again (raw ++ [c])) []

def readIri : Scanner String := do
  if (← peek) ≠ some '<' then fail "expected '<' to start an IRI"
  else do
    bump 1
    let raw ← readRaw '>' "IRI"
    return String.ofList (← decodeEscapes raw)

def readBlank : Scanner String := do
  if (← peek) ≠ some '_' ∨ (← peekAt 1) ≠ some ':' then fail "expected '_:' to start a blank node"
  else do
    bump 2
    let start ← here
    takeIn isLabelChar
    if (← here) = start then fail "empty blank node label"
    else return String.ofList (← slice start (← here))

def readLanguage : Scanner String := do
  bump 1
  let start ← here
  takeIn isTagChar
  if (← here) = start then fail "empty language tag"
  else return String.ofList (← slice start (← here))

def readSuffix : Scanner (Option String × Option String) := do
  match ← peek with
  | some '^' =>
    if (← peekAt 1) = some '^' then do
      bump 2
      let datatype ← readIri
      return (some datatype,none)
    else return (none,none)
  | some '@' => do
    let tag ← readLanguage
    return (none,some tag)
  | _ => return (none,none)

def readLiteral : Scanner RdfTerm := do
  if (← peek) ≠ some '"' then fail "expected '\"' to start a literal"
  else do
    bump 1
    let raw ← readRaw '"' "literal"
    let value ← decodeEscapes raw
    let (datatype,language) ← readSuffix
    return .literal (String.ofList value) datatype language

def readResource : Scanner RdfResource := do
  match ← peek with
  | some '<' => return .iri (← readIri)
  | some '_' => return .blankNode (← readBlank)
  | _ => fail "expected an IRI or blank node"

def readObject : Scanner RdfTerm := do
  match ← peek with
  | some '<' => return .iri (← readIri)
  | some '_' => return .blankNode (← readBlank)
  | some '"' => readLiteral
  | _ => fail "expected an IRI, blank node, or literal object"

def readGraph (format : RdfFormat) : Scanner (Option String) := do
  if (← peek) = some '.' then return none
  else if format = .nQuads then do
    let graph ← readResource
    skipWs
    return some (graphName graph)
  else fail "unexpected token after object; expected '.'"

def statement (format : RdfFormat) : Scanner RdfTriple := do
  skipWs
  let subject ← readResource
  skipWs
  if (← peek) ≠ some '<' then fail "predicate must be an IRI"
  else do
    let predicate ← readIri
    skipWs
    let object ← readObject
    skipWs
    let graph ← readGraph format
    if (← peek) ≠ some '.' then fail "statement must end with '.'"
    else return { subject, predicate, object, graph }

def parseStatement (line : List Char) (format : RdfFormat) : Except (Stop Error) (Option RdfTriple) :=
  if trim line = [] ∨ (trim line).head? = some '#' then .ok none
  else (statement format ⟨line,0,()⟩).map fun reached => some reached.1

end Reading

section Safety

variable {s : Scan Unit} {after : α → Scan Unit → Prop}

def Sound (reader : Scanner α) : Prop := ∀ s : Scan Unit, s.pos ≤ s.chars.length →
    Safe reader s fun _ t => s.pos ≤ t.pos

@[simp] theorem safe_fail {message : String} : Safe (fail message : Scanner α) s after ↔ True := Iff.rfl

theorem skipWs_sound : Sound skipWs := fun s within => safe_mono (safe_takeIn within)
    fun _ t _ _ reads => by omega

theorem readHex_sound {count : Nat} (few : count ≤ 8) : Sound (readHex count) := by
  intro s within
  have small : 0 < 16 ^ 0 := by decide
  have stops : ∀ (message : String) (t : Scan Unit), Safe (fail message : Scanner Char) t fun _ u =>
      s.pos ≤ u.pos :=
    fun _ _ => trivial
  exact safe_hexFrom (stops _) (stops _) (stops _) (show 0 + count ≤ 8 by omega) small within
    fun _ _ _ onward _ => onward

theorem decodeFrom_sound : Sound decodeFrom := by
  intro s within
  refine safe_loop (fun _ _ => True) within trivial fun out t _ from_ inside _ => ?_
  refine safe_nextChar (fun c found => ?_) fun _ => safe_pure.mpr ⟨inside,from_⟩
  by_cases plain : c ≠ '\\'
  · simp only [if_pos plain]
    exact safe_pure.mpr ⟨present found,Nat.lt_succ_self _,trivial⟩
  · simp only [if_neg plain]
    refine safe_nextChar (fun name named => ?_) fun _ => trivial
    have moved : t.pos < t.pos + 1 + 1 := by omega
    by_cases coded : name = 'u' ∨ name = 'U'
    · simp only [if_pos coded]
      refine safe_bind (readHex_sound (by split_ifs <;> omega) _ (present named))
        fun decoded u _ inside' onward => ?_
      exact safe_pure.mpr ⟨inside',Nat.lt_of_lt_of_le moved onward,trivial⟩
    · simp only [if_neg coded]
      cases namedEscape name with
      | none => trivial
      | some decoded => exact safe_pure.mpr ⟨present named,moved,trivial⟩

theorem safe_decodeEscapes {raw : List Char} {f : List Char → Scanner α}
    (rest : ∀ value, Safe (f value) s after) :
    Safe (decodeEscapes raw >>= f) s after := by
  unfold decodeEscapes
  split_ifs
  · exact safe_scanning (decodeFrom_sound ⟨raw,0,()⟩ (Nat.zero_le _)) rest
  · exact rest raw

theorem readRaw_sound {close : Char} {what : String} : Sound (readRaw close what) := by
  intro s within
  refine safe_loop (fun _ _ => True) within trivial fun raw t _ from_ inside _ => ?_
  refine safe_nextChar (fun c found => ?_) fun _ => trivial
  by_cases closed : c = close
  · simp only [if_pos closed]
    exact safe_pure.mpr ⟨present found,Nat.le_succ_of_le from_⟩
  · by_cases escape : c = '\\'
    · simp only [if_neg closed,if_pos escape]
      refine safe_nextChar (fun next named => ?_) fun _ => trivial
      exact safe_pure.mpr ⟨present named,Nat.lt_succ_of_lt (Nat.lt_succ_self _),trivial⟩
    · simp only [if_neg closed,if_neg escape]
      exact safe_pure.mpr ⟨present found,Nat.lt_succ_self _,trivial⟩

theorem readIri_sound : Sound readIri := by
  intro s within
  unfold readIri
  rw [safe_peek]
  split_ifs with absent
  · trivial
  · rw [safe_bump]
    have opened : s.pos + 1 ≤ s.chars.length := present (not_not.mp absent)
    refine safe_bind (readRaw_sound _ opened) fun raw t _ inside onward => ?_
    exact safe_decodeEscapes fun value => safe_pure.mpr ⟨inside,Nat.le_of_succ_le onward⟩

theorem safe_run {inClass : Char → Bool} {message : String} {f : List Char → String}
    (within : s.pos ≤ s.chars.length) :
    Safe (do
      let start ← here
      takeIn inClass
      if (← here) = start then fail message
      else return f (← slice start (← here)) : Scanner String) s fun _ t => s.pos ≤ t.pos := by
  rw [safe_here]
  refine safe_bind (safe_takeIn within) fun _ t _ inside reads => ?_
  have onward : s.pos ≤ t.pos := by omega
  rw [safe_here]
  split_ifs
  · trivial
  · rw [safe_here]
    exact safe_slice onward inside (safe_pure.mpr ⟨inside,onward⟩)

theorem readBlank_sound : Sound readBlank := by
  intro s within
  unfold readBlank
  rw [safe_peek,safe_peekAt]
  split_ifs with absent
  · trivial
  · rw [safe_bump]
    have opened : s.pos + 1 < s.chars.length := present (not_not.mp (not_or.mp absent).2)
    exact safe_mono (safe_run opened) fun _ t _ _ onward => by
      have onward' : s.pos + 2 ≤ t.pos := onward
      omega

theorem safe_readLanguage (begun : s.pos < s.chars.length) : Safe readLanguage s fun _ t => s.pos ≤ t.pos := by
  unfold readLanguage
  rw [safe_bump]
  exact safe_mono (safe_run begun) fun _ t _ _ onward => Nat.le_of_succ_le onward

theorem readSuffix_sound : Sound readSuffix := by
  intro s within
  unfold readSuffix
  rw [safe_peek]
  split
  · rename_i found
    rw [safe_peekAt]
    split_ifs with second
    · rw [safe_bump]
      have opened : s.pos + 1 < s.chars.length := present second
      refine safe_bind (readIri_sound _ opened) fun datatype t _ inside onward => safe_pure.mpr ⟨inside,?_⟩
      have onward' : s.pos + 2 ≤ t.pos := onward
      omega
    · exact safe_pure.mpr ⟨within,Nat.le_refl _⟩
  · rename_i found
    exact safe_bind (safe_readLanguage (present found)) fun tag t _ inside onward =>
      safe_pure.mpr ⟨inside,onward⟩
  · exact safe_pure.mpr ⟨within,Nat.le_refl _⟩

theorem readLiteral_sound : Sound readLiteral := by
  intro s within
  unfold readLiteral
  rw [safe_peek]
  split_ifs with absent
  · trivial
  · rw [safe_bump]
    have opened : s.pos + 1 ≤ s.chars.length := present (not_not.mp absent)
    refine safe_bind (readRaw_sound _ opened) fun raw t _ inside body => ?_
    refine safe_decodeEscapes fun value => ?_
    refine safe_bind (readSuffix_sound t inside) fun suffix u _ within' onward => ?_
    exact safe_pure.mpr ⟨within',(Nat.le_of_succ_le body).trans onward⟩

theorem readResource_sound : Sound readResource := by
  intro s within
  unfold readResource
  rw [safe_peek]
  split
  · exact safe_bind (readIri_sound s within) fun iri t _ inside onward => safe_pure.mpr ⟨inside,onward⟩
  · exact safe_bind (readBlank_sound s within) fun label t _ inside onward => safe_pure.mpr ⟨inside,onward⟩
  · trivial

theorem readObject_sound : Sound readObject := by
  intro s within
  unfold readObject
  rw [safe_peek]
  split
  · exact safe_bind (readIri_sound s within) fun iri t _ inside onward => safe_pure.mpr ⟨inside,onward⟩
  · exact safe_bind (readBlank_sound s within) fun label t _ inside onward => safe_pure.mpr ⟨inside,onward⟩
  · exact readLiteral_sound s within
  · trivial

theorem readGraph_sound {format : RdfFormat} : Sound (readGraph format) := by
  intro s within
  unfold readGraph
  rw [safe_peek]
  split_ifs
  · exact safe_pure.mpr ⟨within,Nat.le_refl _⟩
  · refine safe_bind (readResource_sound s within) fun graph t _ inside onward => ?_
    refine safe_bind (skipWs_sound t inside) fun _ u _ inside' gap => ?_
    exact safe_pure.mpr ⟨inside',onward.trans gap⟩
  · trivial

theorem statement_sound {format : RdfFormat} (within : s.pos ≤ s.chars.length) :
    Safe (statement format) s fun _ _ => True := by
  unfold statement
  refine safe_bind (skipWs_sound s within) fun _ t _ inside _ => ?_
  refine safe_bind (readResource_sound t inside) fun subject u _ inside _ => ?_
  refine safe_bind (skipWs_sound u inside) fun _ v _ inside _ => ?_
  rw [safe_peek]
  split_ifs
  · trivial
  · refine safe_bind (readIri_sound v inside) fun predicate w _ inside _ => ?_
    refine safe_bind (skipWs_sound w inside) fun _ x _ inside _ => ?_
    refine safe_bind (readObject_sound x inside) fun object y _ inside _ => ?_
    refine safe_bind (skipWs_sound y inside) fun _ z _ inside _ => ?_
    refine safe_bind (readGraph_sound z inside) fun graph t _ inside _ => ?_
    rw [safe_peek]
    split_ifs
    · trivial
    · exact safe_pure.mpr ⟨inside,trivial⟩

theorem parseStatement_returns (line : List Char) (format : RdfFormat) :
    Returns (parseStatement line format) := by
  unfold parseStatement
  split_ifs
  · exact .inl ⟨none,rfl⟩
  · exact safe_returns (statement_sound (Nat.zero_le _))

end Safety

end ArangoDataTools.LineScan
