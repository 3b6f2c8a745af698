import Mathlib.Data.List.Forall2
import ArangoDataTools.Errors
import ArangoDataTools.Json
import ArangoDataTools.JsonText

namespace ArangoDataTools

def isAsciiWhitespace (byte : UInt8) : Bool := byte = 32 || byte = 9 || byte = 10 || byte = 12 || byte = 13

-- `depth` is an `i32` in the source: overflowing it takes 2^31 nested brackets in
-- one element.
structure ArrayScanner where
  started : Bool := false
  finished : Bool := false
  inElement : Bool := false
  depth : Int := 0
  inString : Bool := false
  escaped : Bool := false
  current : List UInt8 := []
  deriving DecidableEq, Repr

namespace ArrayScanner
open JsonText

def beginElement (scanner : ArrayScanner) : ArrayScanner :=
  { scanner with inElement := true, depth := 0, inString := false, escaped := false, current := [] }

-- Whether the element is complete: the terminating `,` or `]` is not part of it.
def consumeElementByte (scanner : ArrayScanner) (byte : UInt8) : ArrayScanner × Bool :=
  if scanner.inString then
    let scanner := { scanner with current := scanner.current ++ [byte] }
    if scanner.escaped then ({ scanner with escaped := false },false)
    else if byte = backslash then ({ scanner with escaped := true },false)
    else if byte = quote then ({ scanner with inString := false },false)
    else (scanner,false)
  else if scanner.depth = 0 ∧ (byte = comma ∨ byte = closeBracket) then
    (if byte = closeBracket then { scanner with finished := true } else scanner,true)
  else
    let scanner := { scanner with current := scanner.current ++ [byte] }
    if byte = quote then ({ scanner with inString := true },false)
    else if byte = openBrace ∨ byte = openBracket then ({ scanner with depth := scanner.depth + 1 },false)
    else if byte = closeBrace ∨ byte = closeBracket then ({ scanner with depth := scanner.depth - 1 },false)
    else (scanner,false)

def feedElement (scanner : ArrayScanner) (byte : UInt8) (out : List (List UInt8)) :
    ArrayScanner × List (List UInt8) :=
  let (scanner,complete) := scanner.consumeElementByte byte
  if complete then ({ scanner with current := [], inElement := false },out ++ [scanner.current])
    else (scanner,out)

-- The body of the loop in `feed`.
def feedByte (scanner : ArrayScanner) (byte : UInt8) (out : List (List UInt8)) :
    Except Error (ArrayScanner × List (List UInt8)) :=
  if scanner.finished then
    if isAsciiWhitespace byte then .ok (scanner,out)
    else .error (.parse "trailing data after JSON array" none none)
  else if !scanner.started then
    if isAsciiWhitespace byte then .ok (scanner,out)
    else if byte = openBracket then .ok ({ scanner with started := true },out)
    else .error (.parse
      ("expected '[' at start of JSON array, found '" ++ String.singleton (Char.ofNat byte.toNat) ++
        "'") none none)
  else if !scanner.inElement then
    if isAsciiWhitespace byte ∨ byte = comma then .ok (scanner,out)
    else if byte = closeBracket then .ok ({ scanner with finished := true },out)
    else .ok (scanner.beginElement.feedElement byte out)
  else .ok (scanner.feedElement byte out)

def feed (scanner : ArrayScanner) : List UInt8 → List (List UInt8) →
    Except Error (ArrayScanner × List (List UInt8))
  | [], out => .ok (scanner,out)
  | byte :: bytes, out =>
    match scanner.feedByte byte out with
    | .error failure => .error failure
    | .ok (scanner,out) => scanner.feed bytes out

def finish (scanner : ArrayScanner) : Except Error Unit :=
  if !scanner.started then .error (.parse "expected a JSON array, found empty input" none none)
  else if !scanner.finished then .error (.parse "unterminated JSON array" none none)
  else .ok ()

end ArrayScanner

namespace JsonArray

def yieldElements (fromSlice : List UInt8 → Except String Value) (index : Nat) :
    List (List UInt8) → List Value × Except Error Nat
  | [] => ([],.ok index)
  | element :: rest =>
    match fromSlice element with
    | .error failure => ([],.error (.parse ("invalid JSON array element: " ++ failure) (some (index + 1)) none))
    | .ok value =>
      let (values,outcome) := yieldElements fromSlice (index + 1) rest
      (value :: values,outcome)

-- The stream, as the values it yields and how it ends. `reads` lists what the
-- calls of `reader.read` answer; an empty chunk or the end of the list is `Ok(0)`.
def stream (fromSlice : List UInt8 → Except String Value) (scanner : ArrayScanner) (index : Nat) :
    List (Except Error (List UInt8)) → List Value × Except Error Unit
  | [] | .ok [] :: _ => ([],scanner.finish)
  | .error failure :: _ => ([],.error failure)
  | .ok chunk :: reads =>
    match scanner.feed chunk [] with
    | .error failure => ([],.error failure)
    | .ok (scanner,completed) =>
      match yieldElements fromSlice index completed with
      | (values,.error failure) => (values,.error failure)
      | (values,.ok index) =>
        let (more,outcome) := stream fromSlice scanner index reads
        (values ++ more,outcome)

def read (fromSlice : List UInt8 → Except String Value) (reads : List (Except Error (List UInt8))) :
    List Value × Except Error Unit :=
  stream fromSlice {} 0 reads

end JsonArray

namespace ArrayScanner
open JsonText

variable {scanner middle next : ArrayScanner} {bytes rest text gap : List UInt8}
  {completed more : List (List UInt8)}
variable {byte : UInt8} {depth : Int} {current : List UInt8}

def Feeds (scanner : ArrayScanner) (bytes : List UInt8) (completed : List (List UInt8))
    (next : ArrayScanner) : Prop :=
  scanner.feed bytes [] = .ok (next,completed)

def Steps (scanner : ArrayScanner) (byte : UInt8) (completed : List (List UInt8))
    (next : ArrayScanner) : Prop :=
  scanner.feedByte byte [] = .ok (next,completed)

def after (out : List (List UInt8)) (outcome : Except Error (ArrayScanner × List (List UInt8))) :
    Except Error (ArrayScanner × List (List UInt8)) := outcome.map fun reached => (reached.1,out ++ reached.2)

theorem feedElement_after (scanner : ArrayScanner) (byte : UInt8) (out : List (List UInt8)) :
    scanner.feedElement byte out =
    ((scanner.feedElement byte []).1,out ++ (scanner.feedElement byte []).2) := by
  unfold feedElement
  simp only
  split <;> simp

theorem feedByte_after (scanner : ArrayScanner) (byte : UInt8) (out : List (List UInt8)) :
    scanner.feedByte byte out = after out (scanner.feedByte byte []) := by
  unfold feedByte
  split_ifs <;> first
    | exact congrArg Except.ok (feedElement_after _ byte out)
    | simp [after,Except.map]

theorem feed_after (scanner : ArrayScanner) (bytes : List UInt8) (out : List (List UInt8)) :
    scanner.feed bytes out = after out (scanner.feed bytes []) := by
  induction bytes generalizing scanner out with
  | nil => simp [feed,after,Except.map]
  | cons byte bytes ih =>
    rw [feed,feed,feedByte_after]
    cases scanner.feedByte byte [] with
    | error failure => rfl
    | ok reached =>
      obtain ⟨middle,completed⟩ := reached
      show middle.feed bytes (out ++ completed) = after out (middle.feed bytes completed)
      rw [ih middle (out ++ completed),ih middle completed]
      cases middle.feed bytes [] <;> simp [after,Except.map]

theorem feed_append (scanner : ArrayScanner) (bytes rest : List UInt8) (out : List (List UInt8)) :
    scanner.feed (bytes ++ rest) out = (scanner.feed bytes out).bind fun reached =>
    reached.1.feed rest reached.2 := by
  induction bytes generalizing scanner out with
  | nil => rfl
  | cons byte bytes ih =>
    rw [List.cons_append,feed,feed]
    cases scanner.feedByte byte out with
    | error failure => rfl
    | ok reached => exact ih reached.1 reached.2

theorem feeds_nil : Feeds scanner [] [] scanner := rfl

theorem feeds_append (first : Feeds scanner bytes completed middle) (second : Feeds middle rest more next) :
    Feeds scanner (bytes ++ rest) (completed ++ more) next := by
  rw [Feeds,feed_append,first]
  show middle.feed rest completed = _
  rw [feed_after,second]
  rfl

theorem feeds_split (whole : Feeds scanner (bytes ++ rest) completed next) :
    ∃ middle early late, Feeds scanner bytes early middle ∧ Feeds middle rest late next ∧
    completed = early ++ late := by
  rw [Feeds,feed_append] at whole
  cases first : scanner.feed bytes [] with
  | error failure => rw [first] at whole; cases whole
  | ok reached =>
    obtain ⟨middle,early⟩ := reached
    rw [first] at whole
    change middle.feed rest early = _ at whole
    rw [feed_after] at whole
    cases second : middle.feed rest [] with
    | error failure => rw [second] at whole; cases whole
    | ok ended =>
      obtain ⟨last,late⟩ := ended
      rw [second] at whole
      cases whole
      exact ⟨middle,early,late,first,second,rfl⟩

theorem feeds_single : Feeds scanner [byte] completed next ↔ Steps scanner byte completed next := by
  rw [Feeds,Steps,feed]
  cases scanner.feedByte byte [] with
  | error failure => rfl
  | ok reached => rfl

theorem feeds_cons (step : Steps scanner byte completed middle) (tail : Feeds middle bytes more next) :
    Feeds scanner (byte :: bytes) (completed ++ more) next :=
  feeds_append (feeds_single.mpr step) tail

theorem feeds_uncons (whole : Feeds scanner (byte :: bytes) completed next) :
    ∃ middle early late, Steps scanner byte early middle ∧ Feeds middle bytes late next ∧
    completed = early ++ late := by
  obtain ⟨middle,early,late,first,second,joined⟩ :=
    feeds_split (show Feeds scanner ([byte] ++ bytes) completed next from whole)
  exact ⟨middle,early,late,feeds_single.mp first,second,joined⟩

-- Where a scanner can stand: before the array it is `{}`.
def between : ArrayScanner := { started := true }
def ended : ArrayScanner := { started := true, finished := true }
def inside (depth : Int) (current : List UInt8) : ArrayScanner :=
  { started := true, inElement := true, depth, current }
def quoted (depth : Int) (escaped : Bool) (current : List UInt8) : ArrayScanner :=
  { started := true, inElement := true, depth, inString := true, escaped, current }

theorem inside_keeps (inert : isPlain byte = true ∨ isSpace byte = true) :
    Steps (inside depth current) byte [] (inside depth (current ++ [byte])) := by
  have kinds : byte ≠ quote ∧ byte ≠ comma ∧ byte ≠ openBracket ∧ byte ≠ closeBracket ∧
      byte ≠ openBrace ∧ byte ≠ closeBrace := by
    rcases inert with plain | space
    · simp only [isPlain,Bool.and_eq_true,decide_eq_true_eq] at plain
      simp [plain]
    · simp only [isSpace,Bool.or_eq_true,decide_eq_true_eq] at space
      rcases space with ((rfl | rfl) | rfl) | rfl <;> decide
  simp [Steps,feedByte,feedElement,consumeElementByte,inside,kinds]

theorem inside_quote : Steps (inside depth current) quote [] (quoted depth false (current ++ [quote])) := by
  simp [Steps,feedByte,feedElement,consumeElementByte,inside,quoted,quote,comma,closeBracket]

theorem inside_opens (opens : byte = openBracket ∨ byte = openBrace) :
    Steps (inside depth current) byte [] (inside (depth + 1) (current ++ [byte])) := by
  rcases opens with rfl | rfl <;>
    simp [Steps,feedByte,feedElement,consumeElementByte,inside,quote,comma,closeBracket,openBracket,openBrace]

theorem inside_closes (closes : byte = closeBracket ∨ byte = closeBrace) (nested : depth ≠ 0) :
    Steps (inside depth current) byte [] (inside (depth - 1) (current ++ [byte])) := by
  rcases closes with rfl | rfl <;>
    simp [Steps,feedByte,feedElement,consumeElementByte,inside,nested,quote,closeBracket,
      openBracket,openBrace,closeBrace]

theorem inside_comma (nested : depth ≠ 0) : Steps (inside depth current) comma []
    (inside depth (current ++ [comma])) := by
  simp [Steps,feedByte,feedElement,consumeElementByte,inside,nested,quote,comma,closeBracket,
    openBracket,openBrace,closeBrace]

theorem quoted_keeps (other : byte ≠ quote ∧ byte ≠ backslash) :
    Steps (quoted depth false current) byte [] (quoted depth false (current ++ [byte])) := by
  simp [Steps,feedByte,feedElement,consumeElementByte,quoted,other]

theorem quoted_escapes : Steps (quoted depth false current) backslash []
    (quoted depth true (current ++ [backslash])) := by
  simp [Steps,feedByte,feedElement,consumeElementByte,quoted]

theorem quoted_unescapes : Steps (quoted depth true current) byte []
    (quoted depth false (current ++ [byte])) := by
  simp [Steps,feedByte,feedElement,consumeElementByte,quoted]

theorem quoted_closes : Steps (quoted depth false current) quote [] (inside depth (current ++ [quote])) := by
  simp [Steps,feedByte,feedElement,consumeElementByte,quoted,inside,quote,backslash]

theorem element_ends_comma : Steps (inside 0 current) comma [current] between := by
  simp [Steps,feedByte,feedElement,consumeElementByte,inside,between,comma,closeBracket]

theorem element_ends_bracket : Steps (inside 0 current) closeBracket [current] ended := by
  simp [Steps,feedByte,feedElement,consumeElementByte,inside,ended]

def Extends (depth : Int) (text : List UInt8) : Prop :=
  ∀ current, Feeds (inside depth current) text [] (inside depth (current ++ text))

theorem extends_append (first : Extends depth text) (second : Extends depth rest) :
    Extends depth (text ++ rest) := by
  intro current
  have both := feeds_append (first current) (second (current ++ text))
  rwa [List.append_assoc] at both

theorem extends_byte (step : ∀ current,
    Steps (inside depth current) byte [] (inside depth (current ++ [byte]))) :
    Extends depth [byte] :=
  fun current => feeds_single.mpr (step current)

theorem extends_inert (inert : ∀ b ∈ text, isPlain b = true ∨ isSpace b = true) : Extends depth text := by
  induction text with
  | nil =>
    intro current
    rw [List.append_nil]
    exact feeds_nil
  | cons byte text ih =>
    exact extends_append (extends_byte fun _ => inside_keeps (inert byte (by simp)))
      (ih fun b member => inert b (List.mem_cons_of_mem _ member))

theorem extends_spaces (spaces : Spaces gap) : Extends depth gap :=
  extends_inert fun b member => .inr (spaces b member)

theorem extends_plain (plain : ∀ b ∈ text, isPlain b = true) : Extends depth text :=
  extends_inert fun b member => .inl (plain b member)

theorem extends_nested (opens : byte = openBracket ∨ byte = openBrace)
    (closes : close = closeBracket ∨ close = closeBrace)
    (nested : 0 ≤ depth) (inner : Extends (depth + 1) text) : Extends depth (byte :: text ++ [close]) := by
  intro current
  have opened : Feeds (inside depth current) [byte] [] _ := feeds_single.mpr (inside_opens opens)
  have closed : Feeds (inside (depth + 1) (current ++ [byte] ++ text)) [close] [] _ :=
    feeds_single.mpr (inside_closes closes (by omega))
  have whole := feeds_append (feeds_append opened (inner _)) closed
  simpa only [List.append_assoc,List.singleton_append,List.cons_append,List.nil_append,
    Int.add_sub_cancel] using whole

theorem quoted_run (bytes : ∀ b ∈ text, b ≠ quote ∧ b ≠ backslash) (current : List UInt8) :
    Feeds (quoted depth false current) text [] (quoted depth false (current ++ text)) := by
  induction text generalizing current with
  | nil =>
    rw [List.append_nil]
    exact feeds_nil
  | cons byte text ih =>
    have rest := ih (fun b member => bytes b (List.mem_cons_of_mem _ member)) (current ++ [byte])
    rw [List.append_assoc] at rest
    exact feeds_cons (quoted_keeps (bytes byte (by simp))) rest

theorem quoted_body (body : StringBody text) (current : List UInt8) :
    Feeds (quoted depth false current) text [] (quoted depth false (current ++ text)) := by
  induction body generalizing current with
  | nil =>
    rw [List.append_nil]
    exact feeds_nil
  | raw c low notQuote notBackslash _ ih =>
    have char : ∀ b ∈ String.utf8EncodeChar c, b ≠ quote ∧ b ≠ backslash :=
      fun b member => ⟨(utf8_bytes c low notQuote notBackslash b member).1,
        (utf8_bytes c low notQuote notBackslash b member).2.1⟩
    have both := feeds_append (quoted_run char current) (ih _)
    rwa [List.append_assoc] at both
  | escape c _ _ ih =>
    have both := feeds_cons quoted_escapes (feeds_cons quoted_unescapes (ih (current ++ [backslash] ++ [c])))
    simpa only [List.append_assoc,List.singleton_append,List.cons_append,List.nil_append] using both
  | unicode digits _ hex _ ih =>
    have run := feeds_append (quoted_run (fun b member => hex_inert (hex b member))
        (current ++ [backslash] ++ [117])) (ih _)
    have both := feeds_cons quoted_escapes (feeds_cons quoted_unescapes run)
    simpa only [List.append_assoc,List.singleton_append,List.cons_append,List.nil_append] using both

theorem extends_string (body : StringBody text) : Extends depth (quote :: text ++ [quote]) := by
  intro current
  have mark : Feeds (inside depth current) [quote] [] _ := feeds_single.mpr inside_quote
  have opened := feeds_append mark (quoted_body body _)
  have closed := feeds_append opened (feeds_single.mpr quoted_closes)
  simpa only [List.append_assoc,List.singleton_append,List.cons_append,List.nil_append] using closed

theorem extends_padded (before : Spaces lead) (value : Extends depth text) (after : Spaces trail) :
    Extends depth (lead ++ text ++ trail) :=
  extends_append (extends_append (extends_spaces before) value) (extends_spaces after)

theorem extends_member (before : Spaces lead) (key : StringBody name) (middle : Spaces space)
    (after_colon : Spaces gap)
    (value : Extends depth text) (after : Spaces trail) :
    Extends depth (lead ++ (quote :: name ++ [quote]) ++ space ++ colon :: gap ++ text ++ trail) := by
  have named : Extends depth (lead ++ (quote :: name ++ [quote]) ++ space) :=
    extends_padded before (extends_string key) middle
  have mark : Extends depth [colon] := extends_byte fun _ => inside_keeps (.inl (by decide))
  have marked := extends_append (extends_append named (extends_append mark (extends_spaces after_colon))) value
  exact extends_append marked (extends_spaces after)

theorem extends_text (value : Text kind text) :
    ∀ depth : Int, 0 ≤ depth → (kind = .value ∨ depth ≠ 0) → Extends depth text := by
  induction value with
  | literal literal => exact fun _ _ _ => extends_plain (literal_plain literal).2
  | number number => exact fun _ _ _ => extends_plain (number_plain number).2
  | string body => exact fun _ _ _ => extends_string body
  | noElements spaces => exact fun _ nested _ => extends_nested (.inl rfl) (.inl rfl) nested (extends_spaces spaces)
  | array _ ih =>
    exact fun _ nested _ => extends_nested (.inl rfl) (.inl rfl) nested (ih _ (by omega) (.inr (by omega)))
  | noMembers spaces => exact fun _ nested _ => extends_nested (.inr rfl) (.inr rfl) nested (extends_spaces spaces)
  | object _ ih =>
    exact fun _ nested _ => extends_nested (.inr rfl) (.inr rfl) nested (ih _ (by omega) (.inr (by omega)))
  | element before _ after ih => exact fun depth nested _ => extends_padded before (ih depth nested (.inl rfl)) after
  | elements before _ after _ ih more =>
    intro depth nested below
    have deep : depth ≠ 0 := below.resolve_left (by simp)
    have entry := extends_padded before (ih depth nested (.inl rfl)) after
    exact extends_append entry (extends_append (extends_byte fun _ => inside_comma deep) (more depth nested (.inr deep)))
  | member before key middle gap _ after ih =>
    exact fun depth nested _ => extends_member before key middle gap (ih depth nested (.inl rfl)) after
  | members before key middle gap _ after _ ih more =>
    intro depth nested below
    have deep : depth ≠ 0 := below.resolve_left (by simp)
    have entry := extends_member before key middle gap (ih depth nested (.inl rfl)) after
    exact extends_append entry (extends_append (extends_byte fun _ => inside_comma deep) (more depth nested (.inr deep)))

theorem between_skips (skipped : isAsciiWhitespace byte = true ∨ byte = comma) :
    Steps between byte [] between := by
  simp [Steps,feedByte,between,skipped]

theorem fresh_skips (space : isAsciiWhitespace byte = true) : Steps {} byte [] {} := by
  simp [Steps,feedByte,space]

theorem ended_skips (space : isAsciiWhitespace byte = true) : Steps ended byte [] ended := by
  simp [Steps,feedByte,ended,space]

theorem fresh_opens : Steps {} openBracket [] between := by
  simp [Steps,feedByte,between,isAsciiWhitespace,openBracket]

theorem between_closes : Steps between closeBracket [] ended := by
  simp [Steps,feedByte,between,ended,isAsciiWhitespace,closeBracket,comma]

theorem between_begins (space : isAsciiWhitespace byte = false) (notComma : byte ≠ comma)
    (notBracket : byte ≠ closeBracket) :
    Steps between byte completed next ↔ Steps (inside 0 []) byte completed next := by
  simp [Steps,feedByte,between,inside,beginElement,space,notComma,notBracket]

theorem space_ascii (space : isSpace byte = true) : isAsciiWhitespace byte = true := by
  simp only [isSpace,Bool.or_eq_true,decide_eq_true_eq] at space
  rcases space with ((rfl | rfl) | rfl) | rfl <;> decide

theorem ascii_space (byte : UInt8) : isAsciiWhitespace byte = true ↔ isSpace byte = true ∨ byte = 12 := by
  simp only [isAsciiWhitespace,isSpace,Bool.or_eq_true,decide_eq_true_eq]
  tauto

theorem skips (stays : ∀ byte, isAsciiWhitespace byte = true → Steps scanner byte [] scanner)
    (spaces : Spaces gap) :
    Feeds scanner gap [] scanner := by
  induction gap with
  | nil => exact feeds_nil
  | cons byte gap ih =>
    exact feeds_cons (stays byte (space_ascii (spaces byte (by simp))))
      (ih fun b member => spaces b (List.mem_cons_of_mem _ member))

theorem element_read (before : Spaces lead) (value : Text .value text) (after : Spaces trail) :
    Feeds between (lead ++ text ++ trail) [] (inside 0 (text ++ trail)) := by
  obtain ⟨first,rest,rfl,space,notFeed,notComma,notBracket⟩ := value_begins value rfl
  have dull : isAsciiWhitespace first = false := by
    rw [Bool.eq_false_iff,Ne,ascii_space]
    simp [space,notFeed]
  have whole := extends_append (extends_text value 0 (by simp) (.inl rfl)) (extends_spaces after) []
  obtain ⟨middle,early,late,step,tail,joined⟩ := feeds_uncons whole
  have begun := feeds_cons ((between_begins dull notComma notBracket).mpr step) tail
  rw [← joined] at begun
  have read := feeds_append (skips (fun _ space => between_skips (.inl space)) before) begun
  rw [List.append_assoc]
  exact read

end ArrayScanner

namespace JsonArray
open JsonText ArrayScanner

-- The values between the brackets, each with a text that denotes it.
inductive ElementsText (denotes : List UInt8 → Value → Prop) : List Value → List UInt8 → Prop where
  | one {before text after : List UInt8} {value : Value} : Spaces before → Text .value text →
      denotes text value → Spaces after →
      ElementsText denotes [value] (before ++ text ++ after)
  | more {before text after rest : List UInt8} {value : Value} {values : List Value} :
      Spaces before → Text .value text →
      denotes text value → Spaces after → ElementsText denotes values rest →
      ElementsText denotes (value :: values) (before ++ text ++ after ++ comma :: rest)

def ArrayText (denotes : List UInt8 → Value → Prop) (values : List Value) (text : List UInt8) : Prop :=
  ∃ before inner after, Spaces before ∧
    (values = [] ∧ Spaces inner ∨ ElementsText denotes values inner) ∧ Spaces after ∧
    text = before ++ (openBracket :: inner ++ [closeBracket]) ++ after

section Stream

variable {fromSlice : List UInt8 → Except String Value} {scanner next : ArrayScanner}
variable {completed more : List (List UInt8)} {values : List Value} {index last : Nat}

def Parsed (fromSlice : List UInt8 → Except String Value) (completed : List (List UInt8))
    (values : List Value) : Prop :=
  List.Forall₂ (fun element value => fromSlice element = .ok value) completed values

theorem yields_parsed (parsed : Parsed fromSlice completed values) (index : Nat) :
    ∃ last, yieldElements fromSlice index completed = (values,.ok last) := by
  induction parsed generalizing index with
  | nil => exact ⟨index,rfl⟩
  | cons first _ ih =>
    obtain ⟨last,rest⟩ := ih (index + 1)
    exact ⟨last,by simp only [yieldElements,first,rest]⟩

theorem parsed_yields (yields : yieldElements fromSlice index completed = (values,.ok last)) :
    Parsed fromSlice completed values := by
  induction completed generalizing index values with
  | nil =>
    cases yields
    exact .nil
  | cons element rest ih =>
    rw [yieldElements] at yields
    cases first : fromSlice element with
    | error failure => rw [first] at yields; cases yields
    | ok value =>
      rw [first] at yields
      cases tail : yieldElements fromSlice (index + 1) rest with
      | mk found outcome =>
        rw [tail] at yields
        cases yields
        exact .cons first (ih tail)

theorem parsed_split (parsed : Parsed fromSlice (completed ++ more) values) :
    ∃ early late, Parsed fromSlice completed early ∧ Parsed fromSlice more late ∧ values = early ++ late := by
  induction completed generalizing values with
  | nil => exact ⟨[],values,.nil,parsed,rfl⟩
  | cons element rest ih =>
    cases parsed with
    | cons first tail =>
      obtain ⟨early,late,begun,ended,rfl⟩ := ih tail
      exact ⟨_,late,.cons first begun,ended,rfl⟩

theorem stream_reads (chunks : List (List UInt8)) (nonempty : ∀ chunk ∈ chunks, chunk ≠ [])
    (feeds : Feeds scanner chunks.flatten completed next)
      (parsed : Parsed fromSlice completed values) (index : Nat) :
    stream fromSlice scanner index (chunks.map .ok) = (values,next.finish) := by
  induction chunks generalizing scanner completed values index with
  | nil =>
    cases feeds
    cases parsed
    rfl
  | cons chunk chunks ih =>
    obtain ⟨middle,early,late,first,rest,rfl⟩ := feeds_split feeds
    obtain ⟨begun,tail,parsedFirst,parsedRest,rfl⟩ := parsed_split parsed
    obtain ⟨byte,bytes,rfl⟩ := List.exists_cons_of_ne_nil (nonempty chunk (by simp))
    obtain ⟨reached,yields⟩ := yields_parsed parsedFirst index
    have more := ih (fun c member => nonempty c (List.mem_cons_of_mem _ member)) rest parsedRest reached
    rw [Feeds] at first
    simp only [List.map_cons,stream,first,yields,more]

theorem stream_returns (chunks : List (List UInt8)) (nonempty : ∀ chunk ∈ chunks, chunk ≠ [])
    (returns : (stream fromSlice scanner index (chunks.map .ok)).2 = .ok ()) :
    ∃ completed next values, Feeds scanner chunks.flatten completed next ∧ Parsed fromSlice completed values ∧
      next.finish = .ok () := by
  induction chunks generalizing scanner index with
  | nil => exact ⟨[],scanner,[],feeds_nil,.nil,returns⟩
  | cons chunk chunks ih =>
    obtain ⟨byte,bytes,rfl⟩ := List.exists_cons_of_ne_nil (nonempty chunk (by simp))
    rw [List.map_cons,stream] at returns
    · cases first : scanner.feed (byte :: bytes) [] with
      | error failure => rw [first] at returns; cases returns
      | ok reached =>
        obtain ⟨middle,early⟩ := reached
        rw [first] at returns
        cases yields : yieldElements fromSlice index early with
        | mk begun outcome =>
          cases outcome with
          | error failure => simp only [yields] at returns; cases returns
          | ok last =>
            simp only [yields] at returns
            obtain ⟨late,next,tail,rest,parsed,finished⟩ :=
              ih (fun c member => nonempty c (List.mem_cons_of_mem _ member)) returns
            exact ⟨early ++ late,next,begun ++ tail,feeds_append first rest,
              List.rel_append (parsed_yields yields) parsed,finished⟩
    · simp

end Stream

section Complete

variable {denotes : List UInt8 → Value → Prop} {fromSlice : List UInt8 → Except String Value}
variable {values : List Value} {text inner : List UInt8}

theorem elements_read
    (correct : ∀ text value gap, Text .value text → denotes text value → Spaces gap →
    fromSlice (text ++ gap) = .ok value)
    (elements : ElementsText denotes values inner) :
    ∃ completed, Feeds between (inner ++ [closeBracket]) completed ended ∧
    Parsed fromSlice completed values := by
  induction elements with
  | one before value means after =>
    have closed := feeds_append (element_read before value after) (feeds_single.mpr element_ends_bracket)
    exact ⟨_,closed,.cons (correct _ _ _ value means after) .nil⟩
  | more before value means after _ ih =>
    obtain ⟨completed,feeds,parsed⟩ := ih
    have ends := feeds_append (element_read before value after) (feeds_single.mpr element_ends_comma)
    have whole := feeds_append ends feeds
    refine ⟨_,?_,.cons (correct _ _ _ value means after) parsed⟩
    simpa only [List.append_assoc,List.singleton_append,List.cons_append,List.nil_append] using whole

theorem read_array_text
    (correct : ∀ text value gap, Text .value text → denotes text value → Spaces gap →
    fromSlice (text ++ gap) = .ok value)
    (array : ArrayText denotes values text) (chunks : List (List UInt8))
      (nonempty : ∀ chunk ∈ chunks, chunk ≠ [])
    (division : chunks.flatten = text) : read fromSlice (chunks.map .ok) = (values,.ok ()) := by
  obtain ⟨before,inner,after,lead,body,trail,rfl⟩ := array
  have inside : ∃ completed, Feeds between (inner ++ [closeBracket]) completed ended ∧
      Parsed fromSlice completed values := by
    rcases body with ⟨rfl,spaces⟩ | elements
    · exact ⟨[],feeds_append (skips (fun _ space => between_skips (.inl space)) spaces)
        (feeds_single.mpr between_closes),.nil⟩
    · exact elements_read correct elements
  obtain ⟨completed,feeds,parsed⟩ := inside
  have opened := feeds_append (skips (fun _ space => fresh_skips space) lead) (feeds_single.mpr fresh_opens)
  have whole := feeds_append (feeds_append opened feeds) (skips (fun _ space => ended_skips space) trail)
  have text_read : Feeds {} chunks.flatten completed ended := by
    rw [division]
    simpa only [List.append_assoc,List.singleton_append,List.cons_append,List.nil_append,
      List.append_nil] using whole
  exact stream_reads chunks nonempty text_read parsed 0

-- A parser of the two values `1` and `"]"`.
def sampleSlice (text : List UInt8) : Except String Value :=
  if text.take 1 = [49] ∧ Spaces (text.drop 1) then .ok (.nat 1)
  else if text.take 3 = [34,93,34] ∧ Spaces (text.drop 3) then .ok (.string "]")
  else .error "expected value"

def Sample (text : List UInt8) (value : Value) : Prop :=
  text = [49] ∧ value = .nat 1 ∨ text = [34,93,34] ∧ value = .string "]"

theorem sample_correct {text : List UInt8} {value : Value} {gap : List UInt8}
    (means : Sample text value) (spaces : Spaces gap) :
    sampleSlice (text ++ gap) = .ok value := by
  rcases means with ⟨rfl,rfl⟩ | ⟨rfl,rfl⟩
  · exact if_pos ⟨rfl,spaces⟩
  · have other : ¬([34,93,34] ++ gap).take 1 = [49] := by simp
    rw [sampleSlice,if_neg fun both => other both.1]
    exact if_pos ⟨rfl,spaces⟩

theorem divided_array_read :
    read sampleSlice ([[91,32,49],[32,44,34,93],[34,93]].map .ok) = ([.nat 1,.string "]"],.ok ()) := by
  have one : Text .value [49] :=
    .number ⟨[],[49],[],[],rfl,.inl rfl,
      .inr ⟨⟨by simp,List.forall_iff_forall_mem.mp (by decide)⟩,by decide⟩,.inl rfl,.inl rfl⟩
  have bracket : Text .value [34,93,34] := .string (.raw ']' (by decide) (by decide) (by decide) .nil)
  have space : Spaces [32] := by decide
  have none : Spaces [] := fun _ member => absurd member (List.not_mem_nil)
  have last : ElementsText Sample [.string "]"] [34,93,34] := .one none bracket (.inr ⟨rfl,rfl⟩) none
  have both : ElementsText Sample [.nat 1,.string "]"] [32,49,32,44,34,93,34] :=
    .more space one (.inl ⟨rfl,rfl⟩) space last
  exact read_array_text (fun _ _ _ _ means spaces => sample_correct means spaces)
    ⟨[],_,[],none,.inr both,none,rfl⟩ _
    (by decide) rfl

end Complete
end JsonArray
end ArangoDataTools
