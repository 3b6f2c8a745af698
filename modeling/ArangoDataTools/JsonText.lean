import Mathlib.Data.List.Basic

namespace JsonText

def quote : UInt8 := 34
def comma : UInt8 := 44
def colon : UInt8 := 58
def openBracket : UInt8 := 91
def backslash : UInt8 := 92
def closeBracket : UInt8 := 93
def openBrace : UInt8 := 123
def closeBrace : UInt8 := 125

def isSpace (b : UInt8) : Bool := b = 32 || b = 9 || b = 10 || b = 13
def isDigit (b : UInt8) : Bool := 48 ≤ b && b ≤ 57
def isHex (b : UInt8) : Bool := isDigit b || (65 ≤ b && b ≤ 70) || (97 ≤ b && b ≤ 102)

def isPlain (b : UInt8) : Bool :=
  b ≠ quote && b ≠ comma && b ≠ openBracket && b ≠ closeBracket && b ≠ openBrace &&
    b ≠ closeBrace && b ≠ 12 && !isSpace b

def Spaces (text : List UInt8) : Prop := ∀ b ∈ text, isSpace b = true

instance : DecidablePred Spaces := List.decidableBAll (isSpace · = true)

inductive StringBody : List UInt8 → Prop where
  | nil : StringBody []
  | raw (c : Char) : 32 ≤ c.toNat → c ≠ '"' → c ≠ '\\' → StringBody rest →
      StringBody (String.utf8EncodeChar c ++ rest)
  | escape (c : UInt8) : c ∈ [34,92,47,98,102,110,114,116] → StringBody rest →
      StringBody (backslash :: c :: rest)
  | unicode (digits : List UInt8) : digits.length = 4 → (∀ d ∈ digits, isHex d = true) → StringBody rest →
      StringBody (backslash :: 117 :: digits ++ rest)

def Digits (text : List UInt8) : Prop := text ≠ [] ∧ ∀ d ∈ text, isDigit d = true

structure NumberText (text : List UInt8) : Prop where
  parts : ∃ sign whole fraction exponent, text = sign ++ whole ++ fraction ++ exponent ∧
    (sign = [] ∨ sign = [45]) ∧
    (whole = [48] ∨ Digits whole ∧ whole.head? ≠ some 48) ∧
    (fraction = [] ∨ ∃ digits, Digits digits ∧ fraction = 46 :: digits) ∧
    (exponent = [] ∨ ∃ e sign digits, (e = 101 ∨ e = 69) ∧ (sign = [] ∨ sign = [43] ∨ sign = [45]) ∧
    Digits digits ∧
      exponent = e :: sign ++ digits)

inductive Kind where
  | value | elements | members
  deriving DecidableEq, Repr

-- The grammar of RFC 8259 over bytes: a value without surrounding whitespace, or
-- what stands between brackets or braces.
inductive Text : Kind → List UInt8 → Prop where
  | literal : text ∈ [[110,117,108,108],[116,114,117,101],[102,97,108,115,101]] → Text .value text
  | number : NumberText text → Text .value text
  | string : StringBody body → Text .value (quote :: body ++ [quote])
  | noElements : Spaces gap → Text .value (openBracket :: gap ++ [closeBracket])
  | array : Text .elements listed → Text .value (openBracket :: listed ++ [closeBracket])
  | noMembers : Spaces gap → Text .value (openBrace :: gap ++ [closeBrace])
  | object : Text .members listed → Text .value (openBrace :: listed ++ [closeBrace])
  | element : Spaces before → Text .value text → Spaces after → Text .elements (before ++ text ++ after)
  | elements : Spaces before → Text .value text → Spaces after → Text .elements more →
      Text .elements (before ++ text ++ after ++ comma :: more)
  | member : Spaces before → StringBody key → Spaces middle → Spaces gap → Text .value text → Spaces after →
      Text .members (before ++ (quote :: key ++ [quote]) ++ middle ++ colon :: gap ++ text ++ after)
  | members : Spaces before → StringBody key → Spaces middle → Spaces gap → Text .value text →
      Spaces after → Text .members more →
      Text .members (before ++ (quote :: key ++ [quote]) ++ middle ++ colon :: gap ++ text ++
        after ++ comma :: more)

-- A value with the whitespace a parser of single values skips.
def Padded (text : List UInt8) : Prop := ∃ before core after, Spaces before ∧ Text .value core ∧
    Spaces after ∧ text = before ++ core ++ after

-- The text of a whole array.
def ArrayDocument (text : List UInt8) : Prop := ∃ before inner after, Spaces before ∧
    (Spaces inner ∨ Text .elements inner) ∧ Spaces after ∧
  text = before ++ (openBracket :: inner ++ [closeBracket]) ++ after

section Bytes

theorem ofNat_avoids (low : 128 ≤ n) (high : n < 256) :
    UInt8.ofNat n ≠ quote ∧ UInt8.ofNat n ≠ backslash ∧ UInt8.ofNat n ≠ 12 := by
  have value : (UInt8.ofNat n).toNat = n := by simp only [UInt8.toNat_ofNat']; omega
  refine ⟨?_,?_,?_⟩ <;> intro same <;> have values := congrArg UInt8.toNat same <;> rw [value] at values <;>
    simp [quote,backslash] at values <;> omega

theorem utf8_bytes (c : Char) (low : 32 ≤ c.toNat) (notQuote : c ≠ '"') (notBackslash : c ≠ '\\') :
    ∀ b ∈ String.utf8EncodeChar c, b ≠ quote ∧ b ≠ backslash ∧ b ≠ 12 := by
  have bound : c.val.toNat < 1114112 := by
    rcases c.valid with below | ⟨_,below⟩
    · exact Nat.lt_trans below (by decide)
    · exact below
  intro b member
  unfold String.utf8EncodeChar at member
  simp only at member
  split at member
  · have single : b = UInt8.ofNat c.val.toNat := by simpa using member
    have value : b.toNat = c.val.toNat := by rw [single,UInt8.toNat_ofNat']; omega
    have ascii : ∀ k : Nat, b.toNat = k → c.val.toNat = k := fun k same => value ▸ same
    refine ⟨?_,?_,?_⟩
    · rintro rfl
      exact notQuote (Char.ext (UInt32.toNat_inj.mp (ascii 34 rfl)))
    · rintro rfl
      exact notBackslash (Char.ext (UInt32.toNat_inj.mp (ascii 92 rfl)))
    · rintro rfl
      have twelve : c.toNat = 12 := ascii 12 rfl
      omega
  · split at member
    · simp only [List.mem_cons,List.not_mem_nil,or_false] at member
      rcases member with rfl | rfl <;> exact ofNat_avoids (by omega) (by omega)
    · split at member
      · simp only [List.mem_cons,List.not_mem_nil,or_false] at member
        rcases member with rfl | rfl | rfl <;> exact ofNat_avoids (by omega) (by omega)
      · simp only [List.mem_cons,List.not_mem_nil,or_false] at member
        rcases member with rfl | rfl | rfl | rfl <;> exact ofNat_avoids (by omega) (by omega)

theorem plain_digit (digit : isDigit b = true) : isPlain b = true := by
  simp only [isDigit,Bool.and_eq_true,decide_eq_true_eq,UInt8.le_iff_toNat_le] at digit
  have avoids : ∀ k : UInt8, (k.toNat < 48 ∨ 57 < k.toNat) → b ≠ k := by
    rintro k outside rfl
    have low : 48 ≤ b.toNat := digit.1
    have high : b.toNat ≤ 57 := digit.2
    omega
  simp only [isPlain,isSpace]
  simp [avoids quote (by decide),avoids comma (by decide),avoids openBracket (by decide),
    avoids closeBracket (by decide),
    avoids openBrace (by decide),avoids closeBrace (by decide),avoids 12 (by decide),
    avoids 32 (by decide),avoids 9 (by decide),
    avoids 10 (by decide),avoids 13 (by decide)]

theorem hex_not_formFeed (hex : isHex b = true) : b ≠ 12 := by
  rintro rfl
  exact absurd hex (by decide)

theorem digits_plain (digits : Digits text) : ∀ b ∈ text, isPlain b = true :=
  fun b member => plain_digit (digits.2 b member)

theorem number_plain (number : NumberText text) : text ≠ [] ∧ ∀ b ∈ text, isPlain b = true := by
  obtain ⟨sign,whole,fraction,exponent,rfl,signed,whole_form,fraction_form,exponent_form⟩ := number.parts
  have whole_digits : Digits whole := by
    rcases whole_form with rfl | ⟨digits,_⟩
    · exact ⟨by simp,by simp [isDigit]⟩
    · exact digits
  refine ⟨by simp [whole_digits.1],fun b member => ?_⟩
  simp only [List.mem_append] at member
  rcases member with ((inSign | inWhole) | inFraction) | inExponent
  · rcases signed with rfl | rfl
    · simp at inSign
    · rw [List.mem_singleton.mp inSign]; decide
  · exact digits_plain whole_digits b inWhole
  · rcases fraction_form with rfl | ⟨digits,form,rfl⟩
    · simp at inFraction
    · rcases List.mem_cons.mp inFraction with rfl | inDigits
      · decide
      · exact digits_plain form b inDigits
  · rcases exponent_form with rfl | ⟨e,sign,digits,mark,signs,form,rfl⟩
    · simp at inExponent
    · simp only [List.cons_append,List.mem_cons,List.mem_append] at inExponent
      rcases inExponent with rfl | inSign | inDigits
      · rcases mark with rfl | rfl <;> decide
      · rcases signs with rfl | rfl | rfl
        · simp at inSign
        · rw [List.mem_singleton.mp inSign]; decide
        · rw [List.mem_singleton.mp inSign]; decide
      · exact digits_plain form b inDigits

theorem literal_plain (literal : text ∈ [[110,117,108,108],[116,114,117,101],[102,97,108,115,101]]) :
    text ≠ [] ∧ ∀ b ∈ text, isPlain b = true := by
  rcases List.mem_cons.mp literal with rfl | rest
  · exact ⟨by simp,List.forall_iff_forall_mem.mp (by decide)⟩
  · rcases List.mem_pair.mp rest with rfl | rfl <;> exact ⟨by simp,List.forall_iff_forall_mem.mp (by decide)⟩

end Bytes

section Separators

-- Where a byte stands: outside strings, after the last byte that is not
-- whitespace, or inside a string.
inductive Position where
  | outside (previous : UInt8)
  | quoted (escaped : Bool)
  deriving DecidableEq, Repr

def Position.next : Position → UInt8 → Option Position
  | outside previous, byte =>
    if isSpace byte then some (outside previous)
    else if byte = quote then some (quoted false)
    else if byte = comma ∧ (previous = openBracket ∨ previous = comma) then none
    else if byte = closeBracket ∧ previous = comma then none
    else some (outside byte)
  | quoted true, _ => some (quoted false)
  | quoted false, byte =>
    if byte = backslash then some (quoted true)
    else if byte = quote then some (outside quote)
    else some (quoted false)

def Position.run : Position → List UInt8 → Option Position
  | position, [] => some position
  | position, byte :: rest => (position.next byte).bind fun next => next.run rest

def SeparatorsPlaced (text : List UInt8) : Prop := ((Position.outside colon).run text).isSome = true

instance : DecidablePred SeparatorsPlaced := fun _ => inferInstanceAs (Decidable (_ = true))

variable {position next : Position} {text rest gap body : List UInt8} {byte : UInt8}

theorem run_append (position : Position) (text rest : List UInt8) :
    position.run (text ++ rest) = (position.run text).bind fun next => next.run rest := by
  induction text generalizing position with
  | nil => rfl
  | cons byte text ih =>
    simp only [List.cons_append,Position.run]
    cases position.next byte with
    | none => rfl
    | some next => exact ih next

theorem run_then (first : position.run text = some next) : position.run (text ++ rest) = next.run rest := by
  rw [run_append,first]
  rfl

theorem run_trans (first : position.run text = some next) (second : next.run rest = some last) :
    position.run (text ++ rest) = some last := by
  rw [run_then first]
  exact second

theorem run_cons (step : position.next byte = some next) : position.run (byte :: rest) = next.run rest := by
  rw [Position.run,step]
  rfl

theorem space_stays (space : isSpace byte = true) :
    (Position.outside previous).next byte = some (.outside previous) := if_pos space

theorem run_spaces (spaces : Spaces gap) (previous : UInt8) :
    (Position.outside previous).run gap = some (.outside previous) := by
  induction gap with
  | nil => rfl
  | cons byte gap ih =>
    rw [run_cons (space_stays (spaces byte (by simp)))]
    exact ih fun b member => spaces b (List.mem_cons_of_mem _ member)

theorem run_plain (nonempty : text ≠ []) (plain : ∀ b ∈ text, isPlain b = true) (previous : UInt8) :
    ∃ last, isPlain last = true ∧ (Position.outside previous).run text = some (.outside last) := by
  induction text generalizing previous with
  | nil => exact absurd rfl nonempty
  | cons byte text ih =>
    have first := plain byte (by simp)
    have moves : (Position.outside previous).next byte = some (.outside byte) := by
      simp only [isPlain,Bool.and_eq_true,decide_eq_true_eq,Bool.not_eq_true'] at first
      simp [Position.next,first]
    rw [run_cons moves]
    by_cases last : text = []
    · exact ⟨byte,first,by rw [last]; rfl⟩
    · exact ih last (fun b member => plain b (List.mem_cons_of_mem _ member)) byte

theorem run_quoted (bytes : ∀ b ∈ text, b ≠ quote ∧ b ≠ backslash) :
    (Position.quoted false).run text = some (.quoted false) := by
  induction text with
  | nil => rfl
  | cons byte text ih =>
    have first := bytes byte (by simp)
    have stays : (Position.quoted false).next byte = some (.quoted false) := by simp [Position.next,first]
    rw [run_cons stays]
    exact ih fun b member => bytes b (List.mem_cons_of_mem _ member)

theorem begins_string (previous : UInt8) : (Position.outside previous).next quote = some (.quoted false) := rfl
theorem begins_escape : (Position.quoted false).next backslash = some (.quoted true) := rfl
theorem ends_escape (byte : UInt8) : (Position.quoted true).next byte = some (.quoted false) := rfl

theorem hex_inert (hex : isHex b = true) : b ≠ quote ∧ b ≠ backslash := by
  constructor <;> rintro rfl <;> exact absurd hex (by decide)

theorem run_body (body : StringBody text) : (Position.quoted false).run text = some (.quoted false) := by
  induction body with
  | nil => rfl
  | raw c low notQuote notBackslash _ ih =>
    rw [run_then (run_quoted fun b member => ⟨(utf8_bytes c low notQuote notBackslash b member).1,
      (utf8_bytes c low notQuote notBackslash b member).2.1⟩)]
    exact ih
  | escape c _ _ ih => exact ih
  | unicode digits _ hex _ ih =>
    rw [List.cons_append,List.cons_append,run_cons begins_escape,run_cons (ends_escape _),
      run_then (run_quoted fun b member => hex_inert (hex b member))]
    exact ih

theorem run_string (body : StringBody text) (previous : UInt8) :
    (Position.outside previous).run (quote :: text ++ [quote]) = some (.outside quote) := by
  rw [List.cons_append,run_cons (begins_string _),run_then (run_body body)]
  rfl

def Position.settled (position : Position) : Prop :=
  ∃ last, last ≠ openBracket ∧ last ≠ comma ∧ position = .outside last

theorem open_bracket (previous : UInt8) : (Position.outside previous).next openBracket =
    some (.outside openBracket) := rfl
theorem open_brace (previous : UInt8) : (Position.outside previous).next openBrace =
    some (.outside openBrace) := rfl
theorem close_brace (previous : UInt8) : (Position.outside previous).next closeBrace =
    some (.outside closeBrace) := rfl
theorem colon_follows (previous : UInt8) : (Position.outside previous).next colon = some (.outside colon) := rfl

theorem close_bracket (value : previous ≠ comma) :
    (Position.outside previous).next closeBracket = some (.outside closeBracket) := by
  have steps : isSpace closeBracket = false ∧ closeBracket ≠ quote ∧ closeBracket ≠ comma := by decide
  simp [Position.next,value,steps]

theorem comma_follows (bracket : previous ≠ openBracket) (value : previous ≠ comma) :
    (Position.outside previous).next comma = some (.outside comma) := by
  have steps : isSpace comma = false ∧ comma ≠ quote ∧ comma ≠ closeBracket := by decide
  simp [Position.next,bracket,value,steps]

theorem run_text (text : Text kind t) : ∀ previous, ∃ after, (Position.outside previous).run t =
    some after ∧ after.settled := by
  have plain_runs : ∀ {t : List UInt8}, (t ≠ [] ∧ ∀ b ∈ t, isPlain b = true) → ∀ previous,
      ∃ after, (Position.outside previous).run t = some after ∧ after.settled := by
    intro t plain previous
    obtain ⟨last,inert,runs⟩ := run_plain plain.1 plain.2 previous
    simp only [isPlain,Bool.and_eq_true,decide_eq_true_eq] at inert
    exact ⟨_,runs,last,by simp [inert],by simp [inert],rfl⟩
  have closes : ∀ {byte : UInt8}, byte ≠ openBracket → byte ≠ comma → (Position.outside byte).settled :=
    fun bracket value => ⟨_,bracket,value,rfl⟩
  induction text with
  | literal literal => exact plain_runs (literal_plain literal)
  | number number => exact plain_runs (number_plain number)
  | string body => exact fun previous => ⟨_,run_string body previous,closes (by decide) (by decide)⟩
  | noElements spaces =>
    intro previous
    rw [List.cons_append,run_cons (open_bracket previous),run_then (run_spaces spaces _),
      run_cons (close_bracket (by decide))]
    exact ⟨_,rfl,closes (by decide) (by decide)⟩
  | array _ ih =>
    intro previous
    obtain ⟨_,runs,last,_,value,rfl⟩ := ih openBracket
    rw [List.cons_append,run_cons (open_bracket previous),run_then runs,run_cons (close_bracket value)]
    exact ⟨_,rfl,closes (by decide) (by decide)⟩
  | noMembers spaces =>
    intro previous
    rw [List.cons_append,run_cons (open_brace previous),run_then (run_spaces spaces _),run_cons (close_brace _)]
    exact ⟨_,rfl,closes (by decide) (by decide)⟩
  | object _ ih =>
    intro previous
    obtain ⟨_,runs,last,_,value,rfl⟩ := ih openBrace
    rw [List.cons_append,run_cons (open_brace previous),run_then runs,run_cons (close_brace _)]
    exact ⟨_,rfl,closes (by decide) (by decide)⟩
  | element before _ after ih =>
    intro previous
    obtain ⟨_,runs,last,bracket,value,rfl⟩ := ih previous
    exact ⟨_,run_trans (run_trans (run_spaces before _) runs) (run_spaces after last),closes bracket value⟩
  | elements before _ after _ ih more =>
    intro previous
    obtain ⟨_,runs,last,bracket,value,rfl⟩ := ih previous
    rw [run_then (run_trans (run_trans (run_spaces before _) runs) (run_spaces after last)),
      run_cons (comma_follows bracket value)]
    exact more comma
  | member before key middle gap _ after ih =>
    intro previous
    obtain ⟨_,runs,last,bracket,value,rfl⟩ := ih colon
    have name := run_trans (run_trans (run_spaces before previous) (run_string key previous))
        (run_spaces middle quote)
    have entry :=
      run_trans (run_trans name ((run_cons (colon_follows quote)).trans (run_spaces gap colon))) runs
    exact ⟨_,run_trans entry (run_spaces after last),closes bracket value⟩
  | members before key middle gap _ after _ ih more =>
    intro previous
    obtain ⟨_,runs,last,bracket,value,rfl⟩ := ih colon
    have name := run_trans (run_trans (run_spaces before previous) (run_string key previous))
        (run_spaces middle quote)
    have entry :=
      run_trans (run_trans name ((run_cons (colon_follows quote)).trans (run_spaces gap colon))) runs
    rw [run_then (run_trans entry (run_spaces after last)),run_cons (comma_follows bracket value)]
    exact more comma

theorem spaces_no_formFeed (spaces : Spaces gap) : 12 ∉ gap := by
  intro member
  exact absurd (spaces 12 member) (by decide)

theorem plain_no_formFeed (plain : ∀ b ∈ text, isPlain b = true) : 12 ∉ text := by
  intro member
  exact absurd (plain 12 member) (by decide)

theorem body_no_formFeed (body : StringBody text) : 12 ∉ text := by
  induction body with
  | nil => simp
  | raw c low notQuote notBackslash _ ih =>
    have char : 12 ∉ String.utf8EncodeChar c :=
      fun member => (utf8_bytes c low notQuote notBackslash 12 member).2.2 rfl
    simp [char,ih]
  | escape c named _ ih =>
    have other : 12 ≠ c := by rintro rfl; exact absurd named (by decide)
    simp [other,ih,backslash]
  | unicode digits _ hex _ ih =>
    have other : 12 ∉ digits := fun member => hex_not_formFeed (hex 12 member) rfl
    simp [other,ih,backslash]

theorem text_no_formFeed (text : Text kind t) : 12 ∉ t := by
  induction text with
  | literal literal => exact plain_no_formFeed (literal_plain literal).2
  | number number => exact plain_no_formFeed (number_plain number).2
  | string body => simp [body_no_formFeed body,quote]
  | noElements spaces =>
    simp [spaces_no_formFeed spaces,openBracket,closeBracket]
  | array _ ih => simp [ih,openBracket,closeBracket]
  | noMembers spaces =>
    simp [spaces_no_formFeed spaces,openBrace,closeBrace]
  | object _ ih => simp [ih,openBrace,closeBrace]
  | element before _ after ih => simp [spaces_no_formFeed before,spaces_no_formFeed after,ih]
  | elements before _ after _ ih more =>
    simp [spaces_no_formFeed before,spaces_no_formFeed after,ih,more,comma]
  | member before key middle gap _ after ih =>
    simp [spaces_no_formFeed before,body_no_formFeed key,spaces_no_formFeed middle,spaces_no_formFeed gap,
      spaces_no_formFeed after,ih,quote,colon]
  | members before key middle gap _ after _ ih more =>
    simp [spaces_no_formFeed before,body_no_formFeed key,spaces_no_formFeed middle,spaces_no_formFeed gap,
      spaces_no_formFeed after,ih,more,quote,colon,
      comma]

end Separators

section Documents

variable {text inner : List UInt8}

theorem value_begins (value : Text kind text) (single : kind = .value) :
    ∃ first rest, text = first :: rest ∧ isSpace first = false ∧ first ≠ 12 ∧ first ≠ comma ∧
    first ≠ closeBracket := by
  have plain_begins : ∀ {t : List UInt8}, (t ≠ [] ∧ ∀ b ∈ t, isPlain b = true) →
      ∃ first rest, t = first :: rest ∧ isSpace first = false ∧ first ≠ 12 ∧ first ≠ comma ∧
      first ≠ closeBracket := by
    rintro t ⟨nonempty,plain⟩
    obtain ⟨first,rest,rfl⟩ := List.exists_cons_of_ne_nil nonempty
    have inert := plain first (by simp)
    simp only [isPlain,Bool.and_eq_true,decide_eq_true_eq,Bool.not_eq_true'] at inert
    exact ⟨first,rest,rfl,by simp [inert],by simp [inert],by simp [inert],by simp [inert]⟩
  cases value with
  | literal literal => exact plain_begins (literal_plain literal)
  | number number => exact plain_begins (number_plain number)
  | string | noElements | array | noMembers | object => exact ⟨_,_,rfl,by decide,by decide,by decide,by decide⟩
  | element | elements | member | members => cases single

theorem spaces_append (first : Spaces text) (second : Spaces inner) : Spaces (text ++ inner) := by
  intro b member
  rcases List.mem_append.mp member with left | right
  · exact first b left
  · exact second b right

theorem elements_indent (elements : Text kind inner) (several : kind = .elements) (gap : Spaces text) :
    Text .elements (text ++ inner) := by
  cases elements with
  | element before value after =>
    simpa only [List.append_assoc] using Text.element (spaces_append gap before) value after
  | elements before value after more =>
    simpa only [List.append_assoc] using Text.elements (spaces_append gap before) value after more
  | literal | number | string | noElements | array | noMembers | object | member | members => cases several

theorem run_padded (padded : Padded text) (previous : UInt8) :
    ∃ last, last ≠ openBracket ∧ last ≠ comma ∧ (Position.outside previous).run text =
    some (.outside last) := by
  obtain ⟨before,core,after,lead,value,trail,rfl⟩ := padded
  obtain ⟨_,runs,last,bracket,notComma,rfl⟩ := run_text value previous
  exact ⟨last,bracket,notComma,run_trans (run_trans (run_spaces lead previous) runs) (run_spaces trail last)⟩

theorem comma_misplaced (early : previous = openBracket ∨ previous = comma) :
    (Position.outside previous).next comma = none := by
  rcases early with rfl | rfl <;> rfl

theorem bracket_misplaced : (Position.outside comma).next closeBracket = none := rfl

theorem array_separators (document : ArrayDocument text) : 12 ∉ text ∧ SeparatorsPlaced text := by
  obtain ⟨before,inner,after,lead,body,trail,rfl⟩ := document
  have inside : 12 ∉ inner ∧ ∃ last, last ≠ comma ∧ (Position.outside openBracket).run inner =
      some (.outside last) := by
    rcases body with spaces | elements
    · exact ⟨spaces_no_formFeed spaces,openBracket,by decide,run_spaces spaces _⟩
    · obtain ⟨_,runs,last,_,value,rfl⟩ := run_text elements openBracket
      exact ⟨text_no_formFeed elements,last,value,runs⟩
  obtain ⟨clean,last,value,runs⟩ := inside
  refine ⟨?_,?_⟩
  · simp [spaces_no_formFeed lead,spaces_no_formFeed trail,clean,openBracket,
      closeBracket]
  · have array : (Position.outside colon).run (openBracket :: inner ++ [closeBracket]) =
        some (.outside closeBracket) := by
      rw [List.cons_append,run_cons (open_bracket _),run_then runs,run_cons (close_bracket value)]
      rfl
    have whole := run_trans (run_trans (run_spaces lead colon) array) (run_spaces trail closeBracket)
    exact (congrArg Option.isSome whole).trans rfl

end Documents
end JsonText
