import Mathlib.Algebra.GroupWithZero.Nat
import Mathlib.Data.List.TakeWhile
import Mathlib.Algebra.Order.Ring.Nat

namespace Doubles

def roundHalfEven (num den : Nat) : Nat :=
  let quotient := num / den
  let remainder := num % den
  if 2 * remainder < den then quotient
  else if den < 2 * remainder then quotient + 1
  else quotient + quotient % 2

-- At most `p` significant bits.
def Representable (p x : Nat) : Prop := ∃ m e, m < 2^p ∧ x = m * 2^e

-- The unit in the last of `p` places.
def ulp (p x : Nat) : Nat := 2^(Nat.log2 x + 1 - p)

def nearest (p num den : Nat) : Nat := roundHalfEven num (den * ulp p (num / den)) * ulp p (num / den)

section Rounding
variable {p x num den : Nat}

theorem roundHalfEven_lower (num den : Nat) : num / den ≤ roundHalfEven num den := by
  unfold roundHalfEven
  dsimp only
  split
  · exact Nat.le_refl _
  · split <;> omega

theorem roundHalfEven_upper (num den : Nat) : roundHalfEven num den ≤ num / den + 1 := by
  unfold roundHalfEven
  dsimp only
  split
  · omega
  · split <;> omega

theorem roundHalfEven_exact (positive : 0 < den) (divides : den ∣ num) : roundHalfEven num den = num / den := by
  unfold roundHalfEven
  rw [Nat.mod_eq_zero_of_dvd divides]
  exact if_pos positive

theorem ulp_pos (p x : Nat) : 0 < ulp p x := Nat.two_pow_pos _

theorem places_bounded (p x : Nat) : x / ulp p x < 2^p := by
  unfold ulp
  have inside : x < 2^(Nat.log2 x + 1) := Nat.lt_log2_self
  refine Nat.div_lt_of_lt_mul (Nat.lt_of_lt_of_le inside ?_)
  rw [← Nat.pow_add]
  exact Nat.pow_le_pow_right (by omega) (by omega)

theorem nearest_representable (positive : 0 < p) (num den : Nat) : Representable p (nearest p num den) := by
  unfold nearest
  have quotient : num / (den * ulp p (num / den)) < 2^p := by
    rw [← Nat.div_div_eq_div_mul]
    exact places_bounded p (num / den)
  have upper := roundHalfEven_upper num (den * ulp p (num / den))
  by_cases carried : roundHalfEven num (den * ulp p (num / den)) = 2^p
  · rw [carried]
    refine ⟨1,p + (Nat.log2 (num / den) + 1 - p),Nat.one_lt_two_pow (by omega),?_⟩
    rw [Nat.one_mul,Nat.pow_add]
    rfl
  · exact ⟨_,_,by omega,rfl⟩

theorem nearest_exact_iff (positive : 0 < p) : nearest p x 1 = x ↔ Representable p x := by
  constructor
  · intro exact_
    rw [← exact_]
    exact nearest_representable positive x 1
  · rintro ⟨m,e,small,rfl⟩
    unfold nearest
    rw [Nat.div_one,Nat.one_mul]
    have divides : ulp p (m * 2^e) ∣ m * 2^e := by
      refine Nat.dvd_trans (Nat.pow_dvd_pow 2 ?_) (Nat.dvd_mul_left (2^e) m)
      by_cases zero : m * 2^e = 0
      · rw [zero,Nat.log2_zero]
        omega
      · have length : Nat.log2 (m * 2^e) < p + e := by
          refine (Nat.log2_lt zero).mpr ?_
          rw [Nat.pow_add]
          exact Nat.mul_lt_mul_of_pos_right small (Nat.two_pow_pos e)
        omega
    rw [roundHalfEven_exact (ulp_pos _ _) divides,Nat.div_mul_cancel divides]

theorem representable_shift {k : Nat} : Representable p (x * 2^k) ↔ Representable p x := by
  constructor
  · rintro ⟨m,e,small,equal⟩
    by_cases long : k ≤ e
    · refine ⟨m,e - k,small,?_⟩
      have split : 2^e = 2^(e-k) * 2^k := by rw [← Nat.pow_add,Nat.sub_add_cancel long]
      rw [split,← Nat.mul_assoc] at equal
      exact Nat.eq_of_mul_eq_mul_right (Nat.two_pow_pos k) equal
    · refine ⟨x,0,?_,by simp⟩
      have split : 2^k = 2^(k-e) * 2^e := by rw [← Nat.pow_add,Nat.sub_add_cancel (by omega)]
      rw [split,← Nat.mul_assoc] at equal
      have smaller := Nat.eq_of_mul_eq_mul_right (Nat.two_pow_pos e) equal
      calc
        x ≤ x * 2^(k-e) := Nat.le_mul_of_pos_right x (Nat.two_pow_pos _)
        _ = m := smaller
        _ < 2^p := small
  · rintro ⟨m,e,small,rfl⟩
    exact ⟨m,e + k,small,by rw [Nat.pow_add,Nat.mul_assoc]⟩

theorem nearest_lower (p x : Nat) : x / ulp p x * ulp p x ≤ nearest p x 1 := by
  unfold nearest
  rw [Nat.div_one,Nat.one_mul]
  exact Nat.mul_le_mul_right _ (roundHalfEven_lower _ _)

theorem nearest_upper (p x : Nat) : nearest p x 1 ≤ 2^p * ulp p x := by
  unfold nearest
  rw [Nat.div_one,Nat.one_mul]
  have places := places_bounded p x
  have upper := roundHalfEven_upper x (ulp p x)
  exact Nat.mul_le_mul_right _ (by omega)

theorem nearest_carry {unit half : Nat} (positive : 0 < p) (halves : unit = 2 * half)
    (some_ : 0 < half) (fits : x / unit < 2^p) :
    2^p ≤ roundHalfEven x unit ↔ 2^p * unit ≤ x + half := by
  have upper := roundHalfEven_upper x unit
  have split : x = x / unit * unit + x % unit := by rw [Nat.mul_comm]; exact (Nat.div_add_mod x unit).symm
  have below : x % unit < unit := Nat.mod_lt x (by omega)
  by_cases full : x / unit + 1 = 2^p
  · have odd : (x / unit) % 2 = 1 := by
      obtain ⟨k,rfl⟩ : ∃ k, p = k + 1 := ⟨p - 1,by omega⟩
      rw [Nat.pow_succ] at full
      omega
    have top : 2^p * unit = x / unit * unit + unit := by rw [← full,Nat.add_mul,Nat.one_mul]
    rw [top]
    unfold roundHalfEven
    dsimp only
    split
    · omega
    · split <;> omega
  · have room : x / unit + 2 ≤ 2^p := by omega
    have gap : (x / unit + 2) * unit ≤ 2^p * unit := Nat.mul_le_mul_right unit room
    rw [Nat.add_mul] at gap
    constructor <;> intro <;> omega

theorem nearest_reaches {t : Nat} (positive : 0 < p) (wide : p + 1 ≤ t) : 2^t ≤ nearest p x 1 ↔
    2^t ≤ x + 2^(t-p-1) := by
  have step : 2^(t-1) + 2^(t-1) = 2^t := by
    rw [← Nat.two_mul,Nat.mul_comm,← Nat.pow_succ]
    congr 1
    omega
  have half : 2^(t-p-1) ≤ 2^(t-1) := Nat.pow_le_pow_right (by omega) (by omega)
  have inside : x < 2^(Nat.log2 x + 1) := Nat.lt_log2_self
  rcases Nat.lt_trichotomy (Nat.log2 x + 1) t with short | exact_ | long
  · have small : x < 2^(t-1) := Nat.lt_of_lt_of_le inside (Nat.pow_le_pow_right (by omega) (by omega))
    have rounded : nearest p x 1 < 2^t := by
      refine Nat.lt_of_le_of_lt (nearest_upper p x) ?_
      unfold ulp
      rw [← Nat.pow_add]
      exact Nat.pow_lt_pow_right (by omega) (by omega)
    constructor <;> intro <;> omega
  · have unit : ulp p x = 2 * 2^(t-p-1) := by
      unfold ulp
      rw [exact_,Nat.mul_comm,← Nat.pow_succ]
      congr 1
      omega
    have power : 2^t = 2^p * ulp p x := by
      unfold ulp
      rw [exact_,← Nat.pow_add]
      congr 1
      omega
    have carry := nearest_carry positive unit (Nat.two_pow_pos (t-p-1)) (places_bounded p x)
    rw [power,← carry]
    unfold nearest
    rw [Nat.div_one,Nat.one_mul]
    exact Nat.mul_le_mul_right_iff (ulp_pos p x)
  · have some_ : x ≠ 0 := by
      rintro rfl
      rw [Nat.log2_zero] at long
      omega
    have large : 2^t ≤ x := Nat.le_trans (Nat.pow_le_pow_right (by omega) (by omega)) (Nat.log2_self_le some_)
    have divides : ulp p x ∣ 2^Nat.log2 x := Nat.pow_dvd_pow 2 (by omega)
    have rounded : 2^Nat.log2 x ≤ nearest p x 1 := by
      refine Nat.le_trans ?_ (nearest_lower p x)
      calc
        2^Nat.log2 x = 2^Nat.log2 x / ulp p x * ulp p x := (Nat.div_mul_cancel divides).symm
        _ ≤ x / ulp p x * ulp p x := Nat.mul_le_mul_right _ (Nat.div_le_div_right (Nat.log2_self_le some_))
    have reached : 2^t ≤ nearest p x 1 := Nat.le_trans (Nat.pow_le_pow_right (by omega) (by omega)) rounded
    exact ⟨fun _ => Nat.le_trans large (Nat.le_add_right _ _),fun _ => reached⟩

end Rounding

-- A finite double by its magnitude in units of 2^-1074.
structure FiniteDouble where
  negative : Bool
  magnitude : Nat
  representable : Representable 53 magnitude
  bounded : magnitude < 2^1024 * 2^1074

inductive Double where
  | finite (value : FiniteDouble)
  | infinite (negative : Bool)
  | nan

def round (negative : Bool) (num den : Nat) : Double :=
  let magnitude := nearest 53 (num * 2^1074) den
  if bounded : magnitude < 2^1024 * 2^1074 then
    .finite ⟨negative,magnitude,nearest_representable (by decide) (num * 2^1074) den,bounded⟩
  else .infinite negative

def signed (negative : Bool) (n : Nat) : Int := if negative then -n else n

def FiniteDouble.Denotes (d : FiniteDouble) (z : Int) : Prop :=
  signed d.negative d.magnitude = z * (2^1074 : Nat)

section Integers
variable {negative : Bool} {n : Nat}

theorem signed_scale (negative : Bool) (n k : Nat) : signed negative (n * k) = signed negative n * k := by
  cases negative with
  | false => exact Int.natCast_mul n k
  | true =>
    change -((n * k : Nat) : Int) = -(n : Int) * k
    rw [Int.natCast_mul,Int.neg_mul]

theorem signed_inj {m : Nat} : signed negative m = signed negative n ↔ m = n := by
  cases negative with
  | false => exact Int.ofNat_inj
  | true => exact Int.neg_inj.trans Int.ofNat_inj

theorem scaled_reach (p k t : Nat) (positive : 0 < p) (wide : p + 1 ≤ t) :
    nearest p (n * 2^k) 1 < 2^t * 2^k ↔ n + 2^(t-p-1) < 2^t := by
  have reaches := @nearest_reaches p (n * 2^k) (t + k) positive (by omega)
  have half : t + k - p - 1 = t - p - 1 + k := by omega
  rw [half,Nat.pow_add,Nat.pow_add,← Nat.add_mul,Nat.mul_le_mul_right_iff (Nat.two_pow_pos k)] at reaches
  rw [← Nat.not_le,← Nat.not_le]
  exact not_congr reaches

theorem round_finite_iff : nearest 53 (n * 2^1074) 1 < 2^1024 * 2^1074 ↔ n + 2^970 < 2^1024 := by
  have half : 1024 - 53 - 1 = 970 := rfl
  rw [← half]
  exact scaled_reach 53 1074 1024 (by decide) (by decide)

theorem round_finite {d : FiniteDouble} (finite : round negative n 1 = .finite d) :
    n + 2^970 < 2^1024 ∧ (d.Denotes (signed negative n) ↔ Representable 53 n) := by
  unfold round at finite
  by_cases bounded : nearest 53 (n * 2^1074) 1 < 2^1024 * 2^1074
  · rw [dif_pos bounded] at finite
    cases finite
    refine ⟨round_finite_iff.mp bounded,?_⟩
    unfold FiniteDouble.Denotes
    rw [← signed_scale,signed_inj,nearest_exact_iff (by decide),representable_shift]
  · rw [dif_neg bounded] at finite
    cases finite

theorem round_infinite (infinite : ∀ d, round negative n 1 ≠ .finite d) : 2^1024 ≤ n + 2^970 := by
  by_contra small
  have bounded : nearest 53 (n * 2^1074) 1 < 2^1024 * 2^1074 := round_finite_iff.mpr (Nat.not_le.mp small)
  refine infinite ⟨negative,nearest 53 (n * 2^1074) 1,nearest_representable (by decide) _ _,bounded⟩ ?_
  unfold round
  rw [dif_pos bounded]

end Integers

def splitSign : List Char → Bool × List Char
  | '-' :: rest => (true,rest)
  | '+' :: rest => (false,rest)
  | text => (false,text)

def parseDigits (text : List Char) : Option Nat :=
  if text ≠ [] ∧ text.all Char.isDigit then some (Nat.ofDigitChars 10 text 0) else none

def parseInt (text : List Char) : Option Int := (parseDigits (splitSign text).2).map (signed (splitSign text).1)

-- `str::parse::<i64>`
def parseI64 (text : String) : Option Int := (parseInt text.toList).filter fun value =>
    -2^63 ≤ value && value < 2^63

def parseExponent : List Char → Option Int
  | [] => some 0
  | 'e' :: text => parseInt text
  | 'E' :: text => parseInt text
  | _ => none

def parseDecimal (text : List Char) : Option (Nat × Int) :=
  let whole := text.takeWhile Char.isDigit
  let rest := text.dropWhile Char.isDigit
  let point := rest.head? = some '.'
  let fraction := if point then rest.tail.takeWhile Char.isDigit else []
  let rest := if point then rest.tail.dropWhile Char.isDigit else rest
  if whole = [] ∧ fraction = [] then none
  else (parseExponent rest).map fun exponent =>
    (Nat.ofDigitChars 10 (whole ++ fraction) 0,exponent - fraction.length)

-- `str::parse::<f64>`
def parseF64 (text : String) : Option Double :=
  let (negative,body) := splitSign text.toList
  let word := body.map Char.toLower
  if word = "inf".toList ∨ word = "infinity".toList then some (.infinite negative)
  else if word = "nan".toList then some .nan
  else (parseDecimal body).map fun (digits,exponent) => round negative (digits * 10^exponent.toNat)
    (10^(-exponent).toNat)

section Reading
variable {negative : Bool} {digits : List Char} {text : String}

theorem parseDigits_digits (some_ : digits ≠ []) (all : ∀ c ∈ digits, c.isDigit = true) :
    parseDigits digits = some (Nat.ofDigitChars 10 digits 0) := if_pos ⟨some_,List.all_eq_true.mpr all⟩

theorem parseDecimal_digits (some_ : digits ≠ []) (all : ∀ c ∈ digits, c.isDigit = true) :
    parseDecimal digits = some (Nat.ofDigitChars 10 digits 0,0) := by
  have whole : digits.takeWhile Char.isDigit = digits := List.takeWhile_eq_self_iff.mpr all
  have rest : digits.dropWhile Char.isDigit = [] := List.dropWhile_eq_nil_iff.mpr all
  unfold parseDecimal
  simp [whole,rest,some_,parseExponent]

theorem digits_unnamed (some_ : digits ≠ []) (all : ∀ c ∈ digits, c.isDigit = true) {first : Char}
    {rest : List Char}
    (letter : first.isDigit = false) : digits.map Char.toLower ≠ first :: rest := by
  intro equal
  cases digits with
  | nil => exact some_ rfl
  | cons digit digits =>
    have isDigit : digit.isDigit = true := all digit (List.mem_cons_self ..)
    have lower : digit.toLower = first := (List.cons.inj equal).1
    have same : digit.toLower = digit := by
      have bounds := Char.isDigit_iff_toNat.mp isDigit
      unfold Char.toLower
      rw [dif_neg]
      intro upper
      have above : 65 ≤ digit.toNat := upper.1
      have below : digit.toNat ≤ 57 := bounds.2
      omega
    rw [← lower,same,isDigit] at letter
    cases letter

theorem parseF64_digits (split : splitSign text.toList = (negative,digits)) (some_ : digits ≠ [])
    (all : ∀ c ∈ digits, c.isDigit = true) : parseF64 text =
    some (round negative (Nat.ofDigitChars 10 digits 0) 1) := by
  unfold parseF64
  rw [split]
  dsimp only
  rw [if_neg,if_neg,parseDecimal_digits some_ all]
  · simp
  · exact digits_unnamed some_ all (by decide)
  · rintro (inf | infinity)
    · exact digits_unnamed some_ all (by decide) inf
    · exact digits_unnamed some_ all (by decide) infinity

end Reading
end Doubles
