import ArangoDataTools.Columns

namespace ArangoDataTools.Delimited
open Doubles

inductive Sign where
  | none | plus | minus
  deriving DecidableEq, Repr

def Sign.text : Sign → List Char
  | none => []
  | plus => ['+']
  | minus => ['-']

def Sign.negative (sign : Sign) : Bool := sign = .minus

def integerField (sign : Sign) (digits : List Char) : String := .ofList (sign.text ++ digits)

def integerValue (sign : Sign) (digits : List Char) : Int := signed sign.negative (Nat.ofDigitChars 10 digits 0)

def Scalar.Denotes (z : Int) : Scalar → Prop
  | .int value => value = z
  | .float value => value.Denotes z
  | _ => False

-- What becomes of a field that is an integer, inferred and under `--datatype number`.
structure Survives (field : String) (z : Int) (leadingZero : Prop) : Prop where
  inferred : inferScalar field = .string field ∨ (inferScalar field).Denotes z
  coerced : ∀ column row, (∃ scalar, coerce field .number column row = .ok scalar ∧ scalar.Denotes z) ∨
    ∃ err, coerce field .number column row = .error err
  padded : leadingZero → inferScalar field = .string field

def InRange (z : Int) : Prop := -2^63 ≤ z ∧ z < 2^63

instance (z : Int) : Decidable (InRange z) := inferInstanceAs (Decidable (_ ∧ _))

-- Integers that one of the two numeric types holds, or neither of them takes.
def Exact (z : Int) : Prop := InRange z ∨ Representable 53 z.natAbs ∨ 2^1024 ≤ z.natAbs + 2^970

section Fields
variable {sign : Sign} {digits : List Char} {column : String} {row : Nat}

def LeadingZero (digits : List Char) : Prop := 1 < digits.length ∧ digits.head? = some '0'

theorem integer_split (all : ∀ c ∈ digits, c.isDigit = true) :
    splitSign (integerField sign digits).toList = (sign.negative,digits) := by
  rw [integerField,String.toList_ofList]
  cases sign with
  | none =>
    change splitSign digits = (false,digits)
    unfold splitSign
    split
    · exact absurd (all '-' (List.mem_cons_self ..)) (by decide)
    · exact absurd (all '+' (List.mem_cons_self ..)) (by decide)
    · rfl
  | plus => rfl
  | minus => rfl

theorem integer_unlike {word : String} (all : ∀ c ∈ digits, c.isDigit = true)
    (split : splitSign word.toList = (false,word.toList))
    (letter : word.toList.all Char.isDigit = false) : integerField sign digits ≠ word := by
  intro equal
  have parts := @integer_split sign digits all
  rw [equal,split] at parts
  rw [(Prod.mk.inj parts).2] at letter
  rw [List.all_eq_true.mpr all] at letter
  cases letter

theorem integer_filled (some_ : digits ≠ []) : integerField sign digits ≠ "" := by
  intro equal
  have empty : sign.text ++ digits = [] := by
    rw [← String.toList_ofList (l:=sign.text ++ digits)]; exact congrArg String.toList equal
  exact some_ (List.append_eq_nil_iff.mp empty).2

theorem integer_parseI64 (some_ : digits ≠ []) (all : ∀ c ∈ digits, c.isDigit = true) :
    parseI64 (integerField sign digits) = if InRange (integerValue sign digits) then
      some (integerValue sign digits) else none := by
  unfold parseI64 parseInt
  rw [integer_split all]
  dsimp only
  rw [parseDigits_digits some_ all,Option.map_some]
  change Option.filter _ (some (integerValue sign digits)) = _
  rw [Option.filter_some]
  by_cases range : InRange (integerValue sign digits)
  · rw [if_pos range]
    exact if_pos (by simpa [InRange] using range)
  · rw [if_neg range]
    exact if_neg (by simpa [InRange] using range)

theorem integer_looksNumeric (all : ∀ c ∈ digits, c.isDigit = true) :
    looksNumeric (integerField sign digits) = true ↔ ¬LeadingZero digits := by
  have whole : digits.takeWhile (fun c => !(c = '.' || c = 'e' || c = 'E')) = digits := by
    refine List.takeWhile_eq_self_iff.mpr fun c present => ?_
    have isDigit := all c present
    have point : c ≠ '.' := by rintro rfl; cases isDigit
    have small : c ≠ 'e' := by rintro rfl; cases isDigit
    have large : c ≠ 'E' := by rintro rfl; cases isDigit
    simp [point,small,large]
  unfold looksNumeric LeadingZero
  rw [integer_split all]
  dsimp only
  rw [whole]
  simp [imp_iff_not_or]

theorem integer_parseF64 (some_ : digits ≠ []) (all : ∀ c ∈ digits, c.isDigit = true) :
    parseF64 (integerField sign digits) = some (round sign.negative (Nat.ofDigitChars 10 digits 0) 1) :=
  parseF64_digits (integer_split all) some_ all

theorem integer_natAbs : (integerValue sign digits).natAbs = Nat.ofDigitChars 10 digits 0 := by
  unfold integerValue signed
  split <;> simp

theorem integer_infer (some_ : digits ≠ []) (all : ∀ c ∈ digits, c.isDigit = true) :
    inferScalar (integerField sign digits) =
      if looksNumeric (integerField sign digits) then
        (parseNumber (integerField sign digits)).getD (.string (integerField sign digits))
      else .string (integerField sign digits) := by
  unfold inferScalar
  rw [if_neg (integer_filled some_),if_neg (integer_unlike all (by decide) (by decide)),
    if_neg (integer_unlike all (by decide) (by decide)),if_neg (integer_unlike all (by decide) (by decide))]

theorem integer_number (some_ : digits ≠ []) (all : ∀ c ∈ digits, c.isDigit = true) :
    (InRange (integerValue sign digits) ∧ parseNumber (integerField sign digits) =
    some (.int (integerValue sign digits))) ∨
    (¬InRange (integerValue sign digits) ∧ ∃ d,
    round sign.negative (Nat.ofDigitChars 10 digits 0) 1 = .finite d ∧
      parseNumber (integerField sign digits) = some (.float d)) ∨
    (¬InRange (integerValue sign digits) ∧ 2^1024 ≤ (integerValue sign digits).natAbs + 2^970 ∧
      parseNumber (integerField sign digits) = none) := by
  have int := @integer_parseI64 sign digits some_ all
  have float := @integer_parseF64 sign digits some_ all
  by_cases range : InRange (integerValue sign digits)
  · rw [if_pos range] at int
    exact .inl ⟨range,by rw [parseNumber,int]⟩
  · rw [if_neg range] at int
    cases rounded : round sign.negative (Nat.ofDigitChars 10 digits 0) 1 with
    | finite d => exact .inr (.inl ⟨range,d,rfl,by rw [parseNumber,int,float,rounded]⟩)
    | infinite negative =>
      have large := @round_infinite sign.negative (Nat.ofDigitChars 10 digits 0) (by rw [rounded]; simp)
      exact .inr (.inr ⟨range,by rw [integer_natAbs]; exact large,by rw [parseNumber,int,float,rounded]⟩)
    | nan =>
      have large := @round_infinite sign.negative (Nat.ofDigitChars 10 digits 0) (by rw [rounded]; simp)
      exact .inr (.inr ⟨range,by rw [integer_natAbs]; exact large,by rw [parseNumber,int,float,rounded]⟩)

theorem integer_coerce (some_ : digits ≠ []) (column : String) (row : Nat) :
    (∀ scalar, parseNumber (integerField sign digits) = some scalar →
    coerce (integerField sign digits) .number column row = .ok scalar) ∧
    (parseNumber (integerField sign digits) = none → ∃ err,
    coerce (integerField sign digits) .number column row = .error err) := by
  unfold coerce
  dsimp only
  rw [if_neg (integer_filled some_)]
  refine ⟨fun scalar number => ?_,fun failed => ?_⟩
  · rw [number]
  · rw [failed]
    exact ⟨_,rfl⟩

theorem integer_float {d : FiniteDouble}
    (rounded : round sign.negative (Nat.ofDigitChars 10 digits 0) 1 = .finite d) :
    (integerValue sign digits).natAbs + 2^970 < 2^1024 ∧
      ((Scalar.float d).Denotes (integerValue sign digits) ↔
      Representable 53 (integerValue sign digits).natAbs) := by
  rw [integer_natAbs]
  exact round_finite rounded

theorem survives_exact (some_ : digits ≠ []) (all : ∀ c ∈ digits, c.isDigit = true)
    (survives : Survives (integerField sign digits) (integerValue sign digits) (LeadingZero digits)) :
    Exact (integerValue sign digits) := by
  obtain ⟨range,_⟩ | ⟨_,d,rounded,number⟩ | ⟨_,large,_⟩ := @integer_number sign digits some_ all
  · exact .inl range
  · have read := (integer_coerce some_ "n" 2).1 _ number
    rcases survives.coerced "n" 2 with ⟨scalar,coerced,same⟩ | ⟨err,failed⟩
    · cases Except.ok.inj (read.symm.trans coerced)
      exact .inr (.inl ((integer_float rounded).2.mp same))
    · cases read.symm.trans failed
  · exact .inr (.inr large)

theorem padded_text (some_ : digits ≠ []) (all : ∀ c ∈ digits, c.isDigit = true)
    (leading : LeadingZero digits) :
    inferScalar (integerField sign digits) = .string (integerField sign digits) := by
  rw [integer_infer some_ all,if_neg (fun plain => (integer_looksNumeric all).mp plain leading)]

theorem denoted_survives (some_ : digits ≠ []) (all : ∀ c ∈ digits, c.isDigit = true) {scalar : Scalar}
    (number : parseNumber (integerField sign digits) = some scalar)
      (denotes : scalar.Denotes (integerValue sign digits)) :
    Survives (integerField sign digits) (integerValue sign digits) (LeadingZero digits) where
  inferred := by
    by_cases leading : LeadingZero digits
    · exact .inl (padded_text some_ all leading)
    · refine .inr ?_
      rw [integer_infer some_ all,if_pos ((integer_looksNumeric all).mpr leading),number]
      exact denotes
  coerced := fun column row => .inl ⟨scalar,(integer_coerce some_ column row).1 _ number,denotes⟩
  padded := padded_text some_ all

theorem exact_survives (some_ : digits ≠ []) (all : ∀ c ∈ digits, c.isDigit = true)
    (held : Exact (integerValue sign digits)) :
    Survives (integerField sign digits) (integerValue sign digits) (LeadingZero digits) := by
  obtain ⟨_,number⟩ | ⟨range,d,rounded,number⟩ | ⟨_,_,number⟩ := @integer_number sign digits some_ all
  · exact denoted_survives some_ all number rfl
  · obtain ⟨small,denotes⟩ := integer_float rounded
    rcases held with inside | representable | large
    · exact absurd inside range
    · exact denoted_survives some_ all number (denotes.mpr representable)
    · exact absurd small (Nat.not_lt.mpr large)
  · refine ⟨.inl ?_,fun column row => .inr ((integer_coerce some_ column row).2 number),padded_text some_ all⟩
    rw [integer_infer some_ all,number]
    split <;> rfl

end Fields

theorem integers_survive_iff (sign : Sign) (digits : List Char) (some_ : digits ≠ [])
    (all : ∀ c ∈ digits, c.isDigit = true) :
    Survives (integerField sign digits) (integerValue sign digits) (LeadingZero digits) ↔
    Exact (integerValue sign digits) :=
  ⟨survives_exact some_ all,exact_survives some_ all⟩

theorem short_integer_survives : Survives "-42" (-42) (LeadingZero ['4','2']) :=
  (integers_survive_iff .minus ['4','2'] (by decide) (List.all_eq_true.mp (by decide))).mpr (.inl (by decide))

def longDigits : List Char := "9223372036854775809".toList

theorem below_power {x k t : Nat} (short : x < 2^k) (less : k < t) : x + 2^k < 2^t := by
  have room : 2^k + 2^k ≤ 2^t := by
    rw [← Nat.mul_two,← Nat.pow_succ]
    exact Nat.pow_le_pow_right (by decide) less
  exact Nat.lt_of_lt_of_le (Nat.add_lt_add_right short _) room

theorem long_inexact : ¬Exact (integerValue .none longDigits) := by
  have size : (integerValue .none longDigits).natAbs = 9223372036854775809 := by decide
  rintro (range | ⟨m,e,small,equal⟩ | large)
  · exact absurd range (by decide)
  · rw [size] at equal
    cases e with
    | zero =>
      rw [Nat.pow_zero,Nat.mul_one] at equal
      omega
    | succ e =>
      rw [Nat.pow_succ,← Nat.mul_assoc] at equal
      omega
  · rw [size] at large
    have short : 9223372036854775809 < 2^64 := by decide
    exact Nat.not_le.mpr (below_power
      (Nat.lt_of_lt_of_le short (Nat.pow_le_pow_right (by decide) (by decide))) (by decide)) large

theorem long_integer_altered : ¬∀ (sign : Sign) (digits : List Char), digits ≠ [] →
    (∀ c ∈ digits, c.isDigit = true) →
    Survives (integerField sign digits) (integerValue sign digits) (LeadingZero digits) := by
  intro always
  have some_ : longDigits ≠ [] := by decide
  have all : ∀ c ∈ longDigits, c.isDigit = true := List.all_eq_true.mp (by decide)
  exact long_inexact (survives_exact some_ all (always .none longDigits some_ all))

end ArangoDataTools.Delimited
