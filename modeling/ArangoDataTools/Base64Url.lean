import Mathlib.Data.List.Basic
import Mathlib.Data.List.GetD

namespace Base64Url

-- The URL-safe alphabet without padding: three bytes are four digits of six
-- bits, and a last group of one or two bytes has two or three digits.
def alphabet : List Char := "ABCDEFGHIJKLMNOPQRSTUVWXYZabcdefghijklmnopqrstuvwxyz0123456789-_".toList
def digit (value : Nat) : Char := alphabet.getD value 'A'
def valueOf (c : Char) : Option Nat := if c ∈ alphabet then some (alphabet.idxOf c) else none

def encode : List UInt8 → List Char
  | a :: b :: c :: rest =>
    digit (a.toNat / 4) :: digit (a.toNat % 4 * 16 + b.toNat / 16) :: digit (b.toNat % 16 * 4 + c.toNat / 64) ::
      digit (c.toNat % 64) :: encode rest
  | [a,b] => [digit (a.toNat / 4),digit (a.toNat % 4 * 16 + b.toNat / 16),digit (b.toNat % 16 * 4)]
  | [a] => [digit (a.toNat / 4),digit (a.toNat % 4 * 16)]
  | [] => []

def decode : List Char → Option (List UInt8)
  | w :: x :: y :: z :: rest => do
    let w ← valueOf w
    let x ← valueOf x
    let y ← valueOf y
    let z ← valueOf z
    let later ← decode rest
    return UInt8.ofNat (w * 4 + x / 16) :: UInt8.ofNat (x % 16 * 16 + y / 4) :: UInt8.ofNat
      (y % 4 * 64 + z) :: later
  | [w,x,y] => do
    let w ← valueOf w
    let x ← valueOf x
    let y ← valueOf y
    if y % 4 = 0 then return [UInt8.ofNat (w * 4 + x / 16),UInt8.ofNat (x % 16 * 16 + y / 4)] else none
  | [w,x] => do
    let w ← valueOf w
    let x ← valueOf x
    if x % 16 = 0 then return [UInt8.ofNat (w * 4 + x / 16)] else none
  | [_] => none
  | [] => some []

theorem valueOf_digit : ∀ value < 64, valueOf (digit value) = some value := by decide

section RoundTrip

theorem byte_of {byte : UInt8} {value : Nat} (same : value = byte.toNat) : UInt8.ofNat value = byte := by
  rw [same,UInt8.ofNat_toNat]

theorem first_byte (a : UInt8) (low : Nat) (bound : low < 16) :
    UInt8.ofNat (a.toNat / 4 * 4 + (a.toNat % 4 * 16 + low) / 16) = a := by
  apply byte_of
  omega

theorem second_byte (a b : UInt8) (low : Nat) (bound : low < 4) :
    UInt8.ofNat ((a.toNat % 4 * 16 + b.toNat / 16) % 16 * 16 + (b.toNat % 16 * 4 + low) / 4) = b := by
  have whole := b.toNat_lt
  apply byte_of
  omega

theorem third_byte (b c : UInt8) :
    UInt8.ofNat ((b.toNat % 16 * 4 + c.toNat / 64) % 4 * 64 + c.toNat % 64) = c := by
  have whole := c.toNat_lt
  apply byte_of
  omega

theorem decode_encode (bytes : List UInt8) : decode (encode bytes) = some bytes := by
  fun_induction encode bytes with
  | case1 a b c rest ih =>
    have one := a.toNat_lt
    have two := b.toNat_lt
    have three := c.toNat_lt
    rw [decode,valueOf_digit _ (by omega),valueOf_digit _ (by omega),valueOf_digit _ (by omega),
      valueOf_digit _ (by omega),ih]
    simp only [Option.bind_eq_bind,Option.bind_some,Option.pure_def,first_byte a (b.toNat / 16) (by omega),
      second_byte a b (c.toNat / 64) (by omega),third_byte]
  | case2 a b =>
    have one := a.toNat_lt
    have two := b.toNat_lt
    rw [decode,valueOf_digit _ (by omega),valueOf_digit _ (by omega),valueOf_digit _ (by omega)]
    simp only [Option.bind_eq_bind,Option.bind_some,Option.pure_def]
    rw [if_pos (by omega),first_byte a (b.toNat / 16) (by omega)]
    have last := second_byte a b 0 (by omega)
    rw [Nat.add_zero] at last
    rw [last]
  | case3 a =>
    have one := a.toNat_lt
    rw [decode,valueOf_digit _ (by omega),valueOf_digit _ (by omega)]
    simp only [Option.bind_eq_bind,Option.bind_some,Option.pure_def]
    have last := first_byte a 0 (by omega)
    rw [Nat.add_zero] at last
    rw [if_pos (by omega),last]
  | case4 => rfl

theorem encode_digits (bytes : List UInt8) : ∀ c ∈ encode bytes, ∃ value < 64, c = digit value := by
  fun_induction encode bytes with
  | case1 a b c rest ih =>
    have one := a.toNat_lt
    have two := b.toNat_lt
    have three := c.toNat_lt
    simp only [List.mem_cons]
    rintro letter (rfl | rfl | rfl | rfl | member)
    · exact ⟨_,by omega,rfl⟩
    · exact ⟨_,by omega,rfl⟩
    · exact ⟨_,by omega,rfl⟩
    · exact ⟨_,by omega,rfl⟩
    · exact ih letter member
  | case2 a b =>
    have one := a.toNat_lt
    have two := b.toNat_lt
    simp only [List.mem_cons,List.not_mem_nil,or_false]
    rintro letter (rfl | rfl | rfl)
    · exact ⟨_,by omega,rfl⟩
    · exact ⟨_,by omega,rfl⟩
    · exact ⟨_,by omega,rfl⟩
  | case3 a =>
    have one := a.toNat_lt
    simp only [List.mem_cons,List.not_mem_nil,or_false]
    rintro letter (rfl | rfl)
    · exact ⟨_,by omega,rfl⟩
    · exact ⟨_,by omega,rfl⟩
  | case4 => simp

theorem encode_avoids (bytes : List UInt8) {c : Char} (outside : c ∉ alphabet) : c ∉ encode bytes := by
  intro member
  obtain ⟨value,bound,rfl⟩ := encode_digits bytes c member
  apply outside
  rw [digit,List.getD_eq_getElem _ _ bound]
  exact List.getElem_mem bound

end RoundTrip

end Base64Url
