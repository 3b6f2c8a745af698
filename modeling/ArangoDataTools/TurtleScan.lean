import ArangoDataTools.CheckedScan
import ArangoDataTools.Turtle

namespace ArangoDataTools.TurtleScan
open TextScan CheckedScan Turtle

-- The parser over its vector and index, with what must never happen told apart.
abbrev Parser := Scan Env
abbrev Scanner (α : Type) := Machine Error Env α

def fail (message : String) : Scanner α :=
  failAt fun passed => .config
    s!"Turtle parse error at line {(position passed).1}, column {(position passed).2}: {message}"

section Lexing

def skipComment : Scanner Unit :=
  loop (fun _ => do
    match ← peek with
    | some c => do
      bump 1
      if c = '\n' then return .leave () else return .again ()
    | none => return .leave ()) ()

def skipWs : Scanner Unit :=
  loop (fun _ => do
    match ← peek with
    | some c =>
      if isWhitespace c then do
        bump 1
        return .again ()
      else if c = '#' then do
        skipComment
        return .again ()
      else return .leave ()
    | none => return .leave ()) ()

def expect (expected : Char) : Scanner Unit := do
  match ← nextChar with
  | some c =>
    if c = expected then return ()
    else fail s!"expected '{expected}', found '{c}'"
  | none => fail s!"expected '{expected}', found end of input"

def tokenBoundary (index : Nat) : Scanner Bool := do
  return isTokenBoundary (← charAt index)

def matchesKeywordCi (keyword : List Char) : Scanner Bool := do
  let start ← here
  let stop := start + keyword.length
  if (← size) < stop then return false
  else do
    let candidate ← slice start stop
    if candidate.map toAsciiLowercase = keyword then tokenBoundary stop else return false

def peekWord (word : List Char) : Scanner Bool := do
  let start ← here
  let rest ← slice start (← size)
  if rest.take word.length = word then tokenBoundary (start + word.length) else return false

def peekBoolean : Scanner Bool := do
  if ← peekWord ['t','r','u','e'] then return true else peekWord ['f','a','l','s','e']

def readBareWord : Scanner (List Char) := do
  let start ← here
  takeIn isAsciiAlphabetic
  slice start (← here)

def readHex (count : Nat) : Scanner Char :=
  hexFrom (fail "truncated unicode escape") (fail "invalid hex in unicode escape")
    (fail "invalid unicode code point") 0 count

-- The loop of `read_iri_ref`.
def iriRefRest : Scanner (List Char) :=
  loop (fun raw => do
    match ← nextChar with
    | none => fail "unterminated IRI"
    | some c =>
      if c = '>' then return .leave raw
      else if c = '\\' then do
        match ← nextChar with
        | none => fail "bad IRI escape"
        | some name =>
          if name = 'u' ∨ name = 'U' then do
            let decoded ← readHex (if name = 'u' then 4 else 8)
            return .again (raw ++ [decoded])
          else fail s!"invalid IRI escape '\\{name}'"
      else return .again (raw ++ [c])) []

def readIriRef : Scanner String := do
  expect '<'
  let raw ← iriRefRest
  return resolveIri (← current).base raw

def readBlankLabel : Scanner String := do
  expect '_'
  expect ':'
  let start ← here
  takeIn isPnLocalChar
  if (← here) = start then fail "empty blank node label"
  else return "u_" ++ String.ofList (← slice start (← here))

def readPrefix : Scanner Unit :=
  loop (fun _ => do
    match ← peek with
    | some c =>
      if c = ':' then return .leave ()
      else if isPnPrefixChar c then do
        bump 1
        return .again ()
      else fail s!"unexpected character '{c}' in term"
    | none => return .leave ()) ()

-- A local part may not end with `.`: what was read too far is given back.
def readPrefixedName : Scanner String := do
  let start ← here
  readPrefix
  let label ← slice start (← here)
  expect ':'
  let localStart ← here
  takeIn isPnLocalChar
  let overread ← slice localStart (← here)
  let name := overread.rdropWhile (· = '.')
  let trimmed ← subtract (← here) (localStart + name.length)
  goBack trimmed
  match (← current).prefixes.lookup (String.ofList label) with
  | some iri => return iri ++ String.ofList name
  | none => fail s!"unknown prefix '{String.ofList label}:'"

def readBindingLabel : Scanner Unit :=
  loop (fun _ => do
    match ← peek with
    | some c =>
      if c = ':' then return .leave ()
      else if isWhitespace c then fail "expected ':' after prefix label"
      else do
        bump 1
        return .again ()
    | none => return .leave ()) ()

def readPrefixBinding : Scanner (String × String) := do
  let start ← here
  readBindingLabel
  let name ← slice start (← here)
  expect ':'
  skipWs
  let iri ← readIriRef
  return (String.ofList name,iri)

def iriOrBlank : Scanner Node := do
  skipWs
  match ← peek with
  | some '<' => return .iri (← readIriRef)
  | some '_' => return .blank (← readBlankLabel)
  | some _ => return .iri (← readPrefixedName)
  | none => fail "expected a term"

end Lexing

section Lexed

variable {s : Parser} {after : α → Parser → Prop}

@[simp] theorem safe_fail {message : String} {post : α → Parser → Prop} :
    Safe (fail message) s post ↔ True := Iff.rfl

theorem safe_skipComment (within : s.pos ≤ s.chars.length) (begun : s.pos < s.chars.length) :
    Safe skipComment s fun _ t => s.pos < t.pos := by
  refine safe_loop (fun _ t => t = s ∨ s.pos < t.pos) within (.inl rfl) fun _ t chars from_ inside _ => ?_
  rw [safe_peek]
  cases found : t.chars[t.pos]? with
  | none =>
    refine safe_pure.mpr ⟨inside,?_⟩
    have ended := List.getElem?_eq_none_iff.mp found
    have same := congrArg List.length chars
    show s.pos < t.pos
    omega
  | some c =>
    have moved : s.pos < t.pos + 1 := by omega
    by_cases line : c = '\n'
    · simp only [if_pos line,safe_bump]
      exact safe_pure.mpr ⟨present found,moved⟩
    · simp only [if_neg line,safe_bump]
      exact safe_pure.mpr ⟨present found,Nat.lt_succ_self _,.inr moved⟩

theorem safe_skipWs (within : s.pos ≤ s.chars.length) : Safe skipWs s fun _ t => s.pos ≤ t.pos := by
  refine safe_loop (fun _ _ => True) within trivial fun _ t chars from_ inside _ => ?_
  rw [safe_peek]
  cases found : t.chars[t.pos]? with
  | none => exact safe_pure.mpr ⟨inside,from_⟩
  | some c =>
    by_cases space : isWhitespace c = true
    · simp only [if_pos space,safe_bump]
      exact safe_pure.mpr ⟨present found,Nat.lt_succ_self _,trivial⟩
    · by_cases comment : c = '#'
      · simp only [if_neg space,if_pos comment]
        exact safe_bind (safe_skipComment inside (present found)) fun _ u _ within_ moved =>
          safe_pure.mpr ⟨within_,moved,trivial⟩
      · simp only [if_neg space,if_neg comment]
        exact safe_pure.mpr ⟨inside,from_⟩

theorem safe_expected {expected : Char} :
    Safe (expect expected) s fun _ t => s.chars[s.pos]? = some expected ∧ t.pos = s.pos + 1 := by
  unfold expect
  refine safe_nextChar (fun c found => ?_) fun _ => trivial
  by_cases same : c = expected
  · simp only [if_pos same]
    exact safe_pure.mpr ⟨present found,same ▸ found,rfl⟩
  · simp only [if_neg same]
    trivial

theorem safe_expect {expected : Char} : Safe (expect expected) s fun _ t => s.pos < t.pos :=
  safe_mono safe_expected fun _ _ _ _ reads => by omega

theorem safe_tokenBoundary {index : Nat} (within : s.pos ≤ s.chars.length) :
    Safe (tokenBoundary index) s fun found t => t = s ∧ found = isTokenBoundary s.chars[index]? := by
  unfold tokenBoundary
  rw [safe_charAt]
  exact safe_pure.mpr ⟨within,rfl,rfl⟩

theorem safe_matchesKeywordCi {keyword : List Char} (within : s.pos ≤ s.chars.length) :
    Safe (matchesKeywordCi keyword) s fun found t =>
    t = s ∧ (found = true → ((s.chars.drop s.pos).take keyword.length).map toAsciiLowercase = keyword ∧
      isTokenBoundary s.chars[s.pos + keyword.length]? = true) := by
  unfold matchesKeywordCi
  simp only [safe_here,safe_size]
  by_cases short : s.chars.length < s.pos + keyword.length
  · rw [if_pos short]
    exact safe_pure.mpr ⟨within,rfl,fun no => absurd no Bool.false_ne_true⟩
  · rw [if_neg short]
    refine safe_slice (Nat.le_add_right _ _) (Nat.not_lt.mp short) ?_
    rw [List.drop_take,Nat.add_sub_cancel_left]
    split_ifs with same
    · exact safe_mono (safe_tokenBoundary within) fun found t _ _ reads =>
        ⟨reads.1,fun yes => ⟨same,reads.2 ▸ yes⟩⟩
    · exact safe_pure.mpr ⟨within,rfl,fun no => absurd no Bool.false_ne_true⟩

theorem safe_peekWord {word : List Char} (within : s.pos ≤ s.chars.length) :
    Safe (peekWord word) s fun _ t => t = s := by
  unfold peekWord
  simp only [safe_here,safe_size]
  refine safe_slice within (Nat.le_refl _) ?_
  split_ifs
  · exact safe_mono (safe_tokenBoundary within) fun _ _ _ _ reads => reads.1
  · exact safe_pure.mpr ⟨within,rfl⟩

theorem safe_peekBoolean (within : s.pos ≤ s.chars.length) : Safe peekBoolean s fun _ t => t = s := by
  unfold peekBoolean
  refine safe_bind (safe_peekWord within) fun found t _ _ same => ?_
  cases same
  split_ifs
  · exact safe_pure.mpr ⟨within,rfl⟩
  · exact safe_peekWord within

theorem safe_readBareWord (within : s.pos ≤ s.chars.length) : Safe readBareWord s fun word t =>
    word = ahead isAsciiAlphabetic s.chars s.pos ∧ t.pos = s.pos + word.length := by
  unfold readBareWord
  rw [safe_here]
  refine safe_bind (safe_takeIn within) fun _ t chars inside reads => ?_
  rw [safe_here]
  obtain ⟨-,pos⟩ := reads
  refine safe_sliced (by omega) inside inside ?_
  rw [chars,pos,ahead_slice]
  exact ⟨rfl,rfl⟩

theorem safe_readHex {count : Nat} (few : count ≤ 8) (within : s.pos ≤ s.chars.length) :
    Safe (readHex count) s fun _ t => s.pos ≤ t.pos := by
  have small : 0 < 16 ^ 0 := by decide
  have stops : ∀ (message : String) (t : Parser), Safe (fail message : Scanner Char) t fun _ u =>
      s.pos ≤ u.pos := fun _ _ => trivial
  exact safe_hexFrom (stops _) (stops _) (stops _) (show 0 + count ≤ 8 by omega) small within
    fun _ _ _ onward _ => onward

theorem safe_iriRefRest (within : s.pos ≤ s.chars.length) : Safe iriRefRest s fun _ t => s.pos ≤ t.pos := by
  refine safe_loop (fun _ _ => True) within trivial fun raw t _ from_ _ _ => ?_
  refine safe_nextChar (fun c found => ?_) fun _ => trivial
  by_cases close : c = '>'
  · simp only [if_pos close]
    exact safe_pure.mpr ⟨present found,Nat.le_succ_of_le from_⟩
  · by_cases escape : c = '\\'
    · simp only [if_neg close,if_pos escape]
      refine safe_nextChar (fun name named => ?_) fun _ => trivial
      by_cases coded : name = 'u' ∨ name = 'U'
      · simp only [if_pos coded]
        refine safe_bind (safe_readHex (by split_ifs <;> omega) (present named))
          fun decoded u _ inside onward => ?_
        exact safe_pure.mpr ⟨inside,Nat.lt_of_lt_of_le (Nat.lt_succ_of_lt (Nat.lt_succ_self _)) onward,trivial⟩
      · simp only [if_neg coded]
        trivial
    · simp only [if_neg close,if_neg escape]
      exact safe_pure.mpr ⟨present found,Nat.lt_succ_self _,trivial⟩

theorem safe_readIriRef : Safe readIriRef s fun _ t => s.pos < t.pos := by
  unfold readIriRef
  refine safe_bind safe_expect fun _ t chars inside begun => ?_
  refine safe_bind (safe_iriRefRest inside) fun raw u _ within onward => ?_
  rw [safe_current]
  exact safe_pure.mpr ⟨within,Nat.lt_of_lt_of_le begun onward⟩

theorem safe_readBlankLabel : Safe readBlankLabel s fun _ t => s.pos < t.pos := by
  unfold readBlankLabel
  refine safe_bind safe_expect fun _ t _ _ first => ?_
  refine safe_bind safe_expect fun _ u _ inside second => ?_
  rw [safe_here]
  refine safe_bind (safe_takeIn inside) fun _ v chars within reads => ?_
  rw [safe_here]
  have onward : u.pos ≤ v.pos := by omega
  split_ifs with empty
  · trivial
  · rw [safe_here]
    exact safe_slice onward within (safe_pure.mpr ⟨within,by omega⟩)

-- Where a local part starts: behind the first colon.
def LocalStart (s : Parser) (start : Nat) : Prop :=
  ∃ label rest, s.chars.drop s.pos = label ++ ':' :: rest ∧ ':' ∉ label ∧ start = s.pos + label.length + 1

theorem safe_readPrefix (within : s.pos ≤ s.chars.length) : Safe readPrefix s fun _ t =>
    ∃ label, s.chars.drop s.pos = label ++ t.chars.drop t.pos ∧ ':' ∉ label ∧ t.pos = s.pos + label.length := by
  refine safe_loop (fun _ t => ∃ label, s.chars.drop s.pos = label ++ t.chars.drop t.pos ∧
    ':' ∉ label ∧ t.pos = s.pos + label.length)
    within ⟨[],rfl,List.not_mem_nil,rfl⟩ fun _ t _ _ inside read => ?_
  rw [safe_peek]
  cases found : t.chars[t.pos]? with
  | none => exact safe_pure.mpr ⟨inside,read⟩
  | some c =>
    by_cases colon : c = ':'
    · simp only [if_pos colon]
      exact safe_pure.mpr ⟨inside,read⟩
    · by_cases allowed : isPnPrefixChar c = true
      · simp only [if_neg colon,if_pos allowed,safe_bump]
        refine safe_pure.mpr ⟨present found,Nat.lt_succ_self _,?_⟩
        obtain ⟨label,cut,clean,pos⟩ := read
        obtain ⟨more,rfl⟩ := List.getElem?_eq_some_iff.mp found
        refine ⟨label ++ [t.chars[t.pos]],?_,?_,?_⟩
        · rw [cut,← List.getElem_cons_drop more,List.append_assoc]
          rfl
        · rw [List.mem_append,List.mem_singleton]
          exact not_or.mpr ⟨clean,fun same => colon same.symm⟩
        · rw [List.length_append,List.length_singleton]
          show t.pos + 1 = _
          omega
      · simp only [if_neg colon,if_neg allowed]
        trivial

theorem safe_localPart (within : s.pos ≤ s.chars.length) :
    Safe readPrefixedName s fun _ t => ∃ start, LocalStart s start ∧ start ≤ t.pos := by
  unfold readPrefixedName
  rw [safe_here]
  refine safe_bind (safe_readPrefix within) fun _ t _ inside read => ?_
  obtain ⟨label,cut,clean,pos⟩ := read
  rw [safe_here]
  refine safe_slice (by omega) inside ?_
  refine safe_bind safe_expected fun _ u _ inside' colon => ?_
  have started : LocalStart s u.pos := by
    obtain ⟨more,found⟩ := List.getElem?_eq_some_iff.mp colon.1
    rw [← List.getElem_cons_drop more,found] at cut
    exact ⟨label,_,cut,clean,by omega⟩
  rw [safe_here]
  refine safe_bind (safe_takeIn inside') fun _ v chars within' reads => ?_
  obtain ⟨-,pos⟩ := reads
  rw [safe_here]
  refine safe_slice (by omega) within' ?_
  rw [chars,pos,ahead_slice]
  have shorter : ((ahead isPnLocalChar u.chars u.pos).rdropWhile (· = '.')).length ≤
      (ahead isPnLocalChar u.chars u.pos).length :=
    (List.rdropWhile_prefix (· = '.') _).length_le
  rw [safe_here]
  refine safe_subtract (by omega) ?_
  refine safe_goBack (by omega) ?_
  rw [safe_current]
  cases v.state.prefixes.lookup (String.ofList ((t.chars.take t.pos).drop s.pos)) with
  | none => trivial
  | some iri => exact safe_pure.mpr ⟨(Nat.sub_le _ _).trans within',u.pos,started,by show u.pos ≤ v.pos - _; omega⟩

-- Holds between where a call starts and where it ends, wherever in the text it starts.
def Ensures (call : Scanner α) (relation : Parser → Parser → Prop) : Prop :=
  ∀ s : Parser, s.pos ≤ s.chars.length → Safe call s fun _ t => relation s t

theorem safe_readPrefixedName (within : s.pos ≤ s.chars.length) : Safe readPrefixedName s fun _ t =>
    s.pos < t.pos :=
  safe_mono (safe_localPart within) fun _ t _ _ ⟨start,⟨label,_,_,_,placed⟩,behind⟩ => by omega

theorem safe_readBindingLabel (within : s.pos ≤ s.chars.length) : Safe readBindingLabel s fun _ t =>
    s.pos ≤ t.pos := by
  refine safe_loop (fun _ _ => True) within trivial fun _ t _ from_ inside _ => ?_
  rw [safe_peek]
  cases found : t.chars[t.pos]? with
  | none => exact safe_pure.mpr ⟨inside,from_⟩
  | some c =>
    by_cases colon : c = ':'
    · simp only [if_pos colon]
      exact safe_pure.mpr ⟨inside,from_⟩
    · by_cases space : isWhitespace c = true
      · simp only [if_neg colon,if_pos space]
        trivial
      · simp only [if_neg colon,if_neg space,safe_bump]
        exact safe_pure.mpr ⟨present found,Nat.lt_succ_self _,trivial⟩

theorem safe_readPrefixBinding (within : s.pos ≤ s.chars.length) :
    Safe readPrefixBinding s fun _ t => s.pos < t.pos := by
  unfold readPrefixBinding
  rw [safe_here]
  refine safe_bind (safe_readBindingLabel within) fun _ t _ inside onward => ?_
  rw [safe_here]
  refine safe_slice onward inside ?_
  refine safe_bind safe_expect fun _ u _ inside' colon => ?_
  refine safe_bind (safe_skipWs inside') fun _ v _ _ gap => ?_
  exact safe_bind safe_readIriRef fun iri w _ within' further => safe_pure.mpr ⟨within',by omega⟩

theorem safe_iriOrBlank (within : s.pos ≤ s.chars.length) : Safe iriOrBlank s fun _ t => s.pos < t.pos := by
  unfold iriOrBlank
  refine safe_bind (safe_skipWs within) fun _ t _ inside gap => ?_
  rw [safe_peek]
  split
  · exact safe_bind safe_readIriRef fun iri u _ within' further => safe_pure.mpr ⟨within',by omega⟩
  · exact safe_bind safe_readBlankLabel fun label u _ within' further => safe_pure.mpr ⟨within',by omega⟩
  · exact safe_bind (safe_readPrefixedName inside) fun name u _ within' further =>
      safe_pure.mpr ⟨within',by omega⟩
  · trivial

end Lexed

section Literals

def readStringEscape : Scanner Char := do
  match ← nextChar with
  | none => fail "dangling escape in string"
  | some 't' => return '\t'
  | some 'b' => return '\x08'
  | some 'n' => return '\n'
  | some 'r' => return '\r'
  | some 'f' => return '\x0C'
  | some '"' => return '"'
  | some '\'' => return '\''
  | some '\\' => return '\\'
  | some 'u' => readHex 4
  | some 'U' => readHex 8
  | some other => fail s!"invalid string escape '\\{other}'"

def readStringBody (quote : Char) (triple : Bool) : Scanner (List Char) :=
  loop (fun value => do
    match ← nextChar with
    | none => fail "unterminated string literal"
    | some c =>
      if c = quote then
        if !triple then return .leave value
        else if (← peek) = some quote ∧ (← peekAt 1) = some quote then do
          bump 2
          return .leave value
        else return .again (value ++ [c])
      else if c = '\\' then do
        let decoded ← readStringEscape
        return .again (value ++ [decoded])
      else return .again (value ++ [c])) []

def readLanguage : Scanner String := do
  bump 1
  let start ← here
  takeIn isTagChar
  if (← here) = start then fail "empty language tag"
  else return String.ofList (← slice start (← here))

def readDatatype : Scanner String := do
  bump 2
  skipWs
  if (← peek) = some '<' then readIriRef else readPrefixedName

def readSuffix : Scanner (Option String × Option String) := do
  match ← peek with
  | some '@' => do
    let tag ← readLanguage
    return (none,some tag)
  | some '^' =>
    if (← peekAt 1) = some '^' then do
      let datatype ← readDatatype
      return (some datatype,none)
    else return (none,none)
  | _ => return (none,none)

def stringLiteral : Scanner RdfTerm := do
  match ← nextChar with
  | none => halt (.panic "caller checked quote")
  | some quote => do
    let triple := decide ((← peek) = some quote ∧ (← peekAt 1) = some quote)
    bump (if triple then 2 else 0)
    let value ← readStringBody quote triple
    let (datatype,language) ← readSuffix
    return .literal (String.ofList value) datatype language

def takeSign : Scanner Unit := do
  match ← peek with
  | some c => if isSign c then bump 1 else return ()
  | none => return ()

-- The loop of `numeric_literal`, with whether a point and an exponent were seen.
def numeralRest : Scanner (Bool × Bool) :=
  loop (fun (hasDot,hasExp) => do
    match ← peek with
    | none => return .leave (hasDot,hasExp)
    | some c =>
      if isAsciiDigit c then do
        bump 1
        return .again (hasDot,hasExp)
      else if c = '.' ∧ !hasDot ∧ !hasExp then
        if (← peekAt 1).any isAsciiDigit then do
          bump 1
          return .again (true,hasExp)
        else return .leave (hasDot,hasExp)
      else if (c = 'e' ∨ c = 'E') ∧ !hasExp then do
        bump 1
        takeSign
        return .again (hasDot,true)
      else return .leave (hasDot,hasExp)) (false,false)

def numericLiteral : Scanner RdfTerm := do
  let start ← here
  takeSign
  let (hasDot,hasExp) ← numeralRest
  let text ← slice start (← here)
  if !text.any isAsciiDigit then fail "expected an object"
  else
    let datatype := if hasExp then xsdDouble else if hasDot then xsdDecimal else xsdInteger
    return .literal (String.ofList text) (some datatype) none

def booleanLiteral : Scanner RdfTerm := do
  let word ← readBareWord
  if word = ['t','r','u','e'] ∨ word = ['f','a','l','s','e'] then
    return .literal (String.ofList word) (some xsdBoolean) none
  else fail s!"expected a term, found '{String.ofList word}'"

variable {s : Parser}

theorem safe_readStringEscape : Safe readStringEscape s fun _ t => s.pos < t.pos := by
  unfold readStringEscape
  refine safe_nextChar (fun c found => ?_) fun _ => trivial
  have named : ∀ c : Char, Safe (pure c : Scanner Char) {s with pos := s.pos + 1} fun _ t =>
      s.pos < t.pos := fun c =>
    safe_pure.mpr ⟨present found,Nat.lt_succ_self _⟩
  have coded : ∀ count ≤ 8, Safe (readHex count) {s with pos := s.pos + 1} fun _ t =>
      s.pos < t.pos := fun count few =>
    safe_mono (safe_readHex few (present found)) fun _ _ _ _ onward => onward
  split <;> first | trivial | exact named _ | exact coded _ (by decide)

theorem safe_readStringBody {quote : Char} {triple : Bool} (within : s.pos ≤ s.chars.length) :
    Safe (readStringBody quote triple) s fun _ t => s.pos ≤ t.pos := by
  refine safe_loop (fun _ _ => True) within trivial fun value t _ from_ _ _ => ?_
  refine safe_nextChar (fun c found => ?_) fun _ => trivial
  have further : t.pos + 1 ≤ t.chars.length := present found
  by_cases closes : c = quote
  · simp only [if_pos closes]
    cases triple with
    | false => exact safe_pure.mpr ⟨further,Nat.le_succ_of_le from_⟩
    | true =>
      simp only [Bool.not_true,Bool.false_eq_true,if_false,safe_peek,safe_peekAt]
      split_ifs with both
      · have last : t.pos + 1 + 1 < t.chars.length := present both.2
        rw [safe_bump]
        exact safe_pure.mpr ⟨by show t.pos + 1 + 2 ≤ t.chars.length; omega,by show s.pos ≤ t.pos + 1 + 2; omega⟩
      · exact safe_pure.mpr ⟨further,Nat.lt_succ_self _,trivial⟩
  · by_cases escape : c = '\\'
    · simp only [if_neg closes,if_pos escape]
      refine safe_bind safe_readStringEscape fun decoded u _ inside onward => ?_
      exact safe_pure.mpr ⟨inside,(Nat.lt_succ_self _).trans onward,trivial⟩
    · simp only [if_neg closes,if_neg escape]
      exact safe_pure.mpr ⟨further,Nat.lt_succ_self _,trivial⟩

theorem safe_readLanguage (present_ : s.pos < s.chars.length) : Safe readLanguage s fun _ t =>
    s.pos ≤ t.pos := by
  unfold readLanguage
  rw [safe_bump,safe_here]
  have inside : s.pos + 1 ≤ s.chars.length := present_
  refine safe_bind (safe_takeIn inside) fun _ t chars within reads => ?_
  have onward : t.pos = s.pos + 1 + _ := reads.2
  rw [safe_here]
  split_ifs with empty
  · trivial
  · rw [safe_here]
    exact safe_slice (by show s.pos + 1 ≤ t.pos; omega) within (safe_pure.mpr ⟨within,by omega⟩)

theorem safe_readDatatype (inside : s.pos + 2 ≤ s.chars.length) : Safe readDatatype s fun _ t =>
    s.pos ≤ t.pos := by
  unfold readDatatype
  rw [safe_bump]
  have within : ({s with pos := s.pos + 2} : Parser).pos ≤ s.chars.length := inside
  refine safe_bind (safe_skipWs within) fun _ t _ inside' gap => ?_
  have further : s.pos + 2 ≤ t.pos := gap
  rw [safe_peek]
  split_ifs
  · exact safe_mono safe_readIriRef fun _ u _ _ onward => by omega
  · exact safe_mono (safe_readPrefixedName inside') fun _ u _ _ onward => by omega

theorem safe_readSuffix (within : s.pos ≤ s.chars.length) : Safe readSuffix s fun _ t => s.pos ≤ t.pos := by
  unfold readSuffix
  rw [safe_peek]
  split
  · rename_i found
    exact safe_bind (safe_readLanguage (present found)) fun tag t _ inside onward =>
      safe_pure.mpr ⟨inside,onward⟩
  · rename_i found
    rw [safe_peekAt]
    split_ifs with second
    · have next : s.pos + 1 < s.chars.length := present second
      exact safe_bind (safe_readDatatype next) fun datatype t _ inside onward => safe_pure.mpr ⟨inside,onward⟩
    · exact safe_pure.mpr ⟨within,Nat.le_refl _⟩
  · exact safe_pure.mpr ⟨within,Nat.le_refl _⟩

theorem safe_stringLiteral (quoted : ∃ c, s.chars[s.pos]? = some c) :
    Safe stringLiteral s fun _ t => s.pos < t.pos := by
  obtain ⟨c,here_⟩ := quoted
  unfold stringLiteral
  refine safe_nextChar (fun quote found => ?_) fun none_ => by rw [here_] at none_; cases none_
  have further : s.pos + 1 ≤ s.chars.length := present found
  simp only [safe_peek,safe_peekAt,safe_bump]
  have opened : s.pos + 1 +
      (if decide (s.chars[s.pos + 1]? = some quote ∧ s.chars[s.pos + 1 + 1]? = some quote) =
      true then 2 else 0) ≤
      s.chars.length := by
    split_ifs with triple
    · have last := present (of_decide_eq_true triple).2
      omega
    · exact further
  refine safe_bind (safe_readStringBody opened) fun value t _ inside body => ?_
  refine safe_bind (safe_readSuffix inside) fun suffix u _ within onward => ?_
  have begun : s.pos + 1 + _ ≤ t.pos := body
  exact safe_pure.mpr ⟨within,by omega⟩

theorem safe_takeSign (within : s.pos ≤ s.chars.length) : Safe takeSign s fun _ t => s.pos ≤ t.pos := by
  unfold takeSign
  rw [safe_peek]
  split
  · rename_i found
    split_ifs
    · exact ⟨rfl,present found,Nat.le_succ _⟩
    · exact safe_pure.mpr ⟨within,Nat.le_refl _⟩
  · exact safe_pure.mpr ⟨within,Nat.le_refl _⟩

theorem safe_numeralRest (within : s.pos ≤ s.chars.length) : Safe numeralRest s fun _ t => s.pos ≤ t.pos := by
  refine safe_loop (fun _ _ => True) within trivial fun flags t _ from_ inside _ => ?_
  obtain ⟨hasDot,hasExp⟩ := flags
  simp only [safe_peek]
  cases found : t.chars[t.pos]? with
  | none => exact safe_pure.mpr ⟨inside,from_⟩
  | some c =>
    simp only
    have further : t.pos + 1 ≤ t.chars.length := present found
    by_cases digit : isAsciiDigit c = true
    · simp only [if_pos digit,safe_bump]
      exact safe_pure.mpr ⟨further,Nat.lt_succ_self _,trivial⟩
    · by_cases point : c = '.' ∧ (!hasDot) = true ∧ (!hasExp) = true
      · simp only [if_neg digit,if_pos point,safe_peekAt]
        split_ifs
        · rw [safe_bump]
          exact safe_pure.mpr ⟨further,Nat.lt_succ_self _,trivial⟩
        · exact safe_pure.mpr ⟨inside,from_⟩
      · by_cases exponent : (c = 'e' ∨ c = 'E') ∧ (!hasExp) = true
        · simp only [if_neg digit,if_neg point,if_pos exponent,safe_bump]
          refine safe_bind (safe_takeSign further) fun _ u _ inside' onward => ?_
          exact safe_pure.mpr ⟨inside',Nat.lt_of_lt_of_le (Nat.lt_succ_self _) onward,trivial⟩
        · simp only [if_neg digit,if_neg point,if_neg exponent]
          exact safe_pure.mpr ⟨inside,from_⟩

theorem safe_numericLiteral (within : s.pos ≤ s.chars.length) : Safe numericLiteral s fun _ t =>
    s.pos < t.pos := by
  unfold numericLiteral
  rw [safe_here]
  refine safe_bind (safe_takeSign within) fun _ t _ inside sign => ?_
  refine safe_bind (safe_numeralRest inside) fun seen u _ inside' digits => ?_
  rw [safe_here]
  refine safe_slice (sign.trans digits) inside' ?_
  by_cases empty : (!((u.chars.take u.pos).drop s.pos).any isAsciiDigit) = true
  · rw [if_pos empty]
    trivial
  · rw [if_neg empty]
    refine safe_pure.mpr ⟨inside',?_⟩
    by_contra still
    have none_ : (u.chars.take u.pos).drop s.pos = [] := by
      rw [List.drop_eq_nil_iff,List.length_take]
      omega
    rw [none_] at empty
    exact empty rfl

theorem safe_booleanLiteral (within : s.pos ≤ s.chars.length) : Safe booleanLiteral s fun _ t =>
    s.pos < t.pos := by
  unfold booleanLiteral
  refine safe_bind (safe_readBareWord within) fun word t _ inside reads => ?_
  split_ifs with either
  · refine safe_pure.mpr ⟨inside,?_⟩
    rw [reads.2]
    rcases either with rfl | rfl <;> simp
  · trivial

end Literals
end ArangoDataTools.TurtleScan
