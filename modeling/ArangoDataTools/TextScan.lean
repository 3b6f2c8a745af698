import Mathlib.Data.List.TakeWhile

namespace TextScan

def isWhitespace (c : Char) : Bool :=
  (9 ≤ c.toNat && c.toNat ≤ 13) || c.toNat = 32 || c.toNat = 0x85 || c.toNat = 0xA0 || c.toNat = 0x1680 ||
  (0x2000 ≤ c.toNat && c.toNat ≤ 0x200A) || c.toNat = 0x2028 || c.toNat = 0x2029 ||
    c.toNat = 0x202F || c.toNat = 0x205F ||
  c.toNat = 0x3000

def isAsciiAlphabetic (c : Char) : Bool := ('a' ≤ c && c ≤ 'z') || ('A' ≤ c && c ≤ 'Z')
def isAsciiDigit (c : Char) : Bool := '0' ≤ c && c ≤ '9'
def isAsciiAlphanumeric (c : Char) : Bool := isAsciiAlphabetic c || isAsciiDigit c

-- `char::to_digit(16)`
def toDigit (c : Char) : Option Nat :=
  if isAsciiDigit c then some (c.toNat - 48)
  else if 'a' ≤ c ∧ c ≤ 'f' then some (c.toNat - 87)
  else if 'A' ≤ c ∧ c ≤ 'F' then some (c.toNat - 55)
  else none

-- `char::from_u32`
def fromCode (code : Nat) : Option Char := if code.isValidChar then some (Char.ofNat code) else none

def hexFrom (code : Nat) : List Char → Option Nat
  | [] => some code
  | digit :: rest => (toDigit digit).bind fun value => hexFrom (code * 16 + value) rest

-- The character that `size` hexadecimal digits name.
def HexNames (size code : Nat) (digits : List Char) (c : Char) : Prop :=
  digits.length = size ∧ (hexFrom code digits).bind fromCode = some c

def Stops (inClass : Char → Bool) (rest : List Char) : Prop := ∀ c ∈ rest.head?, inClass c = false

-- A text in which each character stands for itself or is escaped by a name or
-- by its code point.
inductive Spells (stands : Char → Prop) (names : Char → Option Char) : List Char → List Char → Prop where
  | nil : Spells stands names [] []
  | raw {c : Char} {value text : List Char} : stands c → Spells stands names value text →
      Spells stands names (c :: value) (c :: text)
  | named {name c : Char} {value text : List Char} : names name = some c → Spells stands names value text →
      Spells stands names (c :: value) ('\\' :: name :: text)
  | coded {name c : Char} {size : Nat} {digits value text : List Char} : name = 'u' ∧ size = 4 ∨
      name = 'U' ∧ size = 8 →
      HexNames size 0 digits c → Spells stands names value text →
      Spells stands names (c :: value) ('\\' :: name :: digits ++ text)

def Free (close c : Char) : Prop := c ≠ close ∧ c ≠ '\\'

section Results

variable {ε α β : Type} {result : Except ε α} {b : β}

theorem bind_ok {f : α → Except ε β} : result >>= f = .ok b ↔ ∃ a, result = .ok a ∧ f a = .ok b := by
  cases result with
  | error failure => exact ⟨(nomatch ·),fun ⟨_,equal,_⟩ => (nomatch equal)⟩
  | ok a => exact ⟨fun equal => ⟨a,rfl,equal⟩,fun ⟨_,same,equal⟩ => by cases same; exact equal⟩

theorem map_ok {f : α → β} : result.map f = .ok b ↔ ∃ a, result = .ok a ∧ f a = b := by
  cases result <;> simp [Except.map]

end Results

variable {inClass other : Char → Bool} {word rest text : List Char} {c : Char}

theorem stops_nil : Stops inClass [] := fun _ member => by simp at member

theorem stops_cons (ends : inClass c = false) : Stops inClass (c :: rest) := by
  intro first member
  simp only [List.head?_cons,Option.mem_def,Option.some.injEq] at member
  exact member ▸ ends

theorem takeWhile_word (all : ∀ c ∈ word, inClass c = true) (stops : Stops inClass rest) :
    (word ++ rest).takeWhile inClass = word := by
  induction word with
  | nil =>
    cases rest with
    | nil => rfl
    | cons first rest => exact List.takeWhile_cons_of_neg (by simp [stops first (by simp)])
  | cons first word ih =>
    rw [List.cons_append,List.takeWhile_cons_of_pos (all first (by simp)),ih fun c member =>
      all c (List.mem_cons_of_mem _ member)]

theorem dropWhile_word (all : ∀ c ∈ word, inClass c = true) (stops : Stops inClass rest) :
    (word ++ rest).dropWhile inClass = rest := by
  induction word with
  | nil =>
    cases rest with
    | nil => rfl
    | cons first rest => exact List.dropWhile_cons_of_neg (by simp [stops first (by simp)])
  | cons first word ih =>
    rw [List.cons_append,List.dropWhile_cons_of_pos (all first (by simp)),ih fun c member =>
      all c (List.mem_cons_of_mem _ member)]

theorem takeWhile_all (text : List Char) : ∀ c ∈ text.takeWhile inClass, inClass c = true :=
  fun _ member => List.mem_takeWhile_imp member

theorem dropWhile_stops (text : List Char) : Stops inClass (text.dropWhile inClass) := by
  intro c member
  have nonempty : text.dropWhile inClass ≠ [] := by
    intro empty
    rw [empty] at member
    cases member
  have first := List.head_dropWhile_not inClass nonempty
  rw [List.head?_eq_some_head nonempty,Option.mem_def,Option.some.injEq] at member
  rwa [member] at first

theorem hex_digit (digit : toDigit c = some value) : c ≠ '\\' ∧ c ≠ '>' ∧ c ≠ '"' ∧ c ≠ '\'' := by
  refine ⟨?_,?_,?_,?_⟩ <;> rintro rfl <;> exact nomatch (show none = some value from digit)

theorem hexFrom_digits (names : hexFrom code word = some number) : ∀ c ∈ word, ∃ value,
    toDigit c = some value := by
  induction word generalizing code with
  | nil => simp
  | cons first word ih =>
    obtain ⟨value,digit,rest⟩ := Option.bind_eq_some_iff.mp names
    exact List.forall_mem_cons.mpr ⟨⟨value,digit⟩,ih rest⟩

theorem hex_digits (names : HexNames size code word c) : ∀ digit ∈ word, ∃ value,
    toDigit digit = some value := by
  obtain ⟨number,found,_⟩ := Option.bind_eq_some_iff.mp names.2
  exact hexFrom_digits found

theorem spells_mono {stands more : Char → Prop} {names others : Char → Option Char} {value : List Char}
    (spells : Spells stands names value text) (raw : ∀ c, stands c → more c)
    (named : ∀ name c, names name = some c → others name = some c) : Spells more others value text := by
  induction spells with
  | nil => exact .nil
  | raw stand _ ih => exact .raw (raw _ stand) ih
  | named found _ ih => exact .named (named _ _ found) ih
  | coded kind hex _ ih => exact .coded kind hex ih

end TextScan
