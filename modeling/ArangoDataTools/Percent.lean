import Mathlib.Data.List.Basic

namespace Percent

-- A byte as `%XX`, and a character by the bytes of its UTF-8 form.
def hexDigit (value : Nat) : Char := "0123456789ABCDEF".toList.getD value '0'
def escapeByte (byte : UInt8) : List Char := ['%',hexDigit (byte.toNat / 16),hexDigit (byte.toNat % 16)]
def escape (c : Char) : List Char := (String.utf8EncodeChar c).flatMap escapeByte

def encode (reserved : Char → Bool) (text : List Char) : List Char :=
  text.flatMap fun c => if reserved c then escape c else [c]

variable {reserved : Char → Bool}

theorem nibbles (byte : UInt8) : byte.toNat / 16 < 16 ∧ byte.toNat % 16 < 16 := by
  have bound := byte.toNat_lt
  omega

theorem escape_length (c : Char) : 3 ≤ (escape c).length := by
  have some_ : 0 < (String.utf8EncodeChar c).length := by
    rw [String.length_utf8EncodeChar]
    exact c.utf8Size_pos
  obtain ⟨byte,rest,bytes⟩ := List.exists_cons_of_length_pos some_
  rw [escape,bytes,List.flatMap_cons,List.length_append]
  exact Nat.le_add_right 3 _

theorem mem_escapeByte {byte : UInt8} {d : Char} (member : d ∈ escapeByte byte) : d = '%' ∨
    ∃ value < 16, d = hexDigit value := by
  rcases List.mem_cons.mp member with rfl | digits
  · exact .inl rfl
  · rcases List.mem_cons.mp digits with rfl | last
    · exact .inr ⟨_,(nibbles byte).1,rfl⟩
    · exact .inr ⟨_,(nibbles byte).2,List.mem_singleton.mp last⟩

theorem mem_escape {c d : Char} (member : d ∈ escape c) : d = '%' ∨ ∃ value < 16, d = hexDigit value := by
  obtain ⟨byte,-,inside⟩ := List.mem_flatMap.mp member
  exact mem_escapeByte inside

theorem encode_cons (c : Char) (rest : List Char) :
    encode reserved (c :: rest) = (if reserved c then escape c else [c]) ++ encode reserved rest :=
    List.flatMap_cons

theorem encode_length (text : List Char) : text.length ≤ (encode reserved text).length := by
  induction text with
  | nil => exact Nat.le_refl _
  | cons c rest ih =>
    rw [encode_cons,List.length_append,List.length_cons]
    split
    · have long := escape_length c
      omega
    · simp only [List.length_cons,List.length_nil]
      omega

theorem encode_plain {text : List Char} (plain : ∀ c ∈ text, reserved c = false) :
    encode reserved text = text := by
  induction text with
  | nil => rfl
  | cons c rest ih =>
    rw [encode_cons,plain c List.mem_cons_self,ih fun d member => plain d (List.mem_cons_of_mem _ member)]
    rfl

theorem plain_of_length {text : List Char} (short : (encode reserved text).length ≤ text.length) :
    ∀ c ∈ text, reserved c = false := by
  induction text with
  | nil => simp
  | cons c rest ih =>
    have later := @encode_length reserved rest
    rw [encode_cons,List.length_append,List.length_cons] at short
    cases kind : reserved c with
    | true =>
      have long := escape_length c
      rw [if_pos kind] at short
      omega
    | false =>
      rw [if_neg (by simp [kind]),List.length_singleton] at short
      have plain := ih (by omega)
      intro d member
      rcases List.mem_cons.mp member with rfl | inside
      · exact kind
      · exact plain d inside

theorem encode_append (one two : List Char) : encode reserved (one ++ two) = encode reserved one ++
    encode reserved two :=
  List.flatMap_append

theorem plain_of_short {text : List Char} (short : (encode reserved text).length < 3) : ∀ c ∈ text,
    reserved c = false := by
  intro c member
  by_contra kind
  obtain ⟨before,after,rfl⟩ := List.append_of_mem member
  have long := escape_length c
  rw [encode_append,encode_cons,if_pos (by simpa using kind),List.length_append,List.length_append] at short
  omega

theorem mem_encode {text : List Char} {d : Char} (member : d ∈ encode reserved text) :
    d ∈ text ∨ d = '%' ∨ ∃ value < 16, d = hexDigit value := by
  obtain ⟨c,inside,here⟩ := List.mem_flatMap.mp member
  split at here
  · exact .inr (mem_escape here)
  · exact .inl (List.mem_singleton.mp here ▸ inside)

section Decoding

def hexValue (c : Char) : Option Nat :=
  if '0' ≤ c ∧ c ≤ '9' then some (c.toNat - 48)
  else if 'A' ≤ c ∧ c ≤ 'F' then some (c.toNat - 55)
  else if 'a' ≤ c ∧ c ≤ 'f' then some (c.toNat - 87)
  else none

def escaped (c a b : Char) : Option UInt8 := do
  if c = '%' then
    let high ← hexValue a
    let low ← hexValue b
    return UInt8.ofNat (16 * high + low)
  else none

def utf8 (text : List Char) : List UInt8 := text.flatMap String.utf8EncodeChar

def decode : List Char → List UInt8
  | c :: a :: b :: rest =>
    match escaped c a b with
    | some byte => byte :: decode rest
    | none => String.utf8EncodeChar c ++ decode (a :: b :: rest)
  | c :: rest => String.utf8EncodeChar c ++ decode rest
  | [] => []

def escapes : List Char → Bool
  | c :: a :: b :: rest => (escaped c a b).isSome || escapes (a :: b :: rest)
  | _ => false

theorem hexValue_hexDigit : ∀ value < 16, hexValue (hexDigit value) = some value := by decide

theorem escaped_digits (byte : UInt8) : escaped '%' (hexDigit (byte.toNat / 16))
    (hexDigit (byte.toNat % 16)) = some byte := by
  have ⟨high,low⟩ := nibbles byte
  have whole : 16 * (byte.toNat / 16) + byte.toNat % 16 = byte.toNat := Nat.div_add_mod _ _
  have parts : escaped '%' (hexDigit (byte.toNat / 16)) (hexDigit (byte.toNat % 16)) =
      some (UInt8.ofNat (16 * (byte.toNat / 16) + byte.toNat % 16)) := by
    simp only [escaped,hexValue_hexDigit _ high,hexValue_hexDigit _ low]
    rfl
  rw [parts,whole,UInt8.ofNat_toNat]

theorem decode_escapeByte (byte : UInt8) (rest : List Char) : decode (escapeByte byte ++ rest) =
    byte :: decode rest := by
  simp only [escapeByte,List.cons_append,List.nil_append,decode,escaped_digits]

theorem decode_escape (c : Char) (rest : List Char) : decode (escape c ++ rest) =
    String.utf8EncodeChar c ++ decode rest := by
  unfold escape
  generalize String.utf8EncodeChar c = bytes
  induction bytes with
  | nil => rfl
  | cons byte bytes ih => rw [List.flatMap_cons,List.append_assoc,decode_escapeByte,ih,List.cons_append]

theorem decode_cons {c : Char} {rest : List Char}
    (alone : ∀ a b more, rest = a :: b :: more → escaped c a b = none) :
    decode (c :: rest) = String.utf8EncodeChar c ++ decode rest := by
  match rest with
  | [] => rfl
  | [_] => rfl
  | a :: b :: more => simp only [decode,alone a b more rfl]

theorem utf8_inj {one two : List Char} (same : utf8 one = utf8 two) : one = two := by
  have bytes : one.utf8Encode = two.utf8Encode := congrArg List.toByteArray same
  have decoded := congrArg ByteArray.utf8Decode? bytes
  simpa using decoded

theorem utf8_append (one two : List Char) : utf8 (one ++ two) = utf8 one ++ utf8 two := List.flatMap_append

theorem short_forms {text : List Char} (short : ∀ c a b rest, text = c :: a :: b :: rest → False) :
    text = [] ∨ (∃ c, text = [c]) ∨ ∃ c a, text = [c,a] := by
  match text with
  | [] => exact .inl rfl
  | [c] => exact .inr (.inl ⟨c,rfl⟩)
  | [c,a] => exact .inr (.inr ⟨c,a,rfl⟩)
  | c :: a :: b :: rest => exact absurd rfl (short c a b rest)

theorem decode_plain {text : List Char} (plain : escapes text = false) : decode text = utf8 text := by
  fun_induction escapes text with
  | case1 c a b rest ih =>
    have ⟨here,later⟩ := Bool.or_eq_false_iff.mp plain
    have none_ : escaped c a b = none := by simpa using here
    simp only [decode,none_]
    rw [ih later]
    rfl
  | case2 text short =>
    rcases short_forms short with rfl | ⟨c,rfl⟩ | ⟨c,a,rfl⟩ <;> rfl

theorem utf8_length_cons (c : Char) (rest : List Char) : (utf8 (c :: rest)).length =
    c.utf8Size + (utf8 rest).length := by
  simp [utf8]

theorem utf8_within {one two : List Char} (within : one <:+: two) : (utf8 one).length ≤ (utf8 two).length := by
  obtain ⟨before,after,rfl⟩ := within
  rw [utf8_append,utf8_append,List.length_append,List.length_append]
  omega

theorem decode_length (text : List Char) : (decode text).length ≤ (utf8 text).length := by
  fun_induction decode text with
  | case1 c a b rest byte found ih =>
    have size := c.utf8Size_pos
    simp only [utf8_length_cons,List.length_cons]
    omega
  | case2 c a b rest none_ ih =>
    rw [List.length_append,utf8_length_cons,String.length_utf8EncodeChar]
    omega
  | case3 c rest short ih =>
    rw [List.length_append,utf8_length_cons,String.length_utf8EncodeChar]
    omega
  | case4 => exact Nat.le_refl _

theorem decode_shorter {text : List Char} (some_ : escapes text = true) :
    (decode text).length < (utf8 text).length := by
  fun_induction escapes text with
  | case1 c a b rest ih =>
    cases found : escaped c a b with
    | some byte =>
      have short := decode_length rest
      have size := c.utf8Size_pos
      have next := a.utf8Size_pos
      simp only [decode,found,utf8_length_cons,List.length_cons]
      omega
    | none =>
      have later := ih (by simpa [found] using some_)
      simp only [decode,found]
      rw [List.length_append,utf8_length_cons,String.length_utf8EncodeChar]
      omega
  | case2 text short => cases some_

theorem escapes_cons {c : Char} {rest : List Char} (some_ : escapes rest = true) :
    escapes (c :: rest) = true := by
  match rest with
  | [] => cases some_
  | [_] => cases some_
  | a :: b :: more => rw [escapes,some_,Bool.or_true]

theorem escapes_append {text : List Char} (some_ : escapes text = true) (rest : List Char) :
    escapes (text ++ rest) = true := by
  fun_induction escapes text with
  | case1 c a b more ih =>
    rcases Bool.or_eq_true_iff.mp some_ with here | later
    · simp only [List.cons_append,escapes,here,Bool.true_or]
    · exact escapes_cons (ih later)
  | case2 text short => cases some_

theorem escapes_within {one two : List Char} (some_ : escapes one = true) (within : one <:+: two) :
    escapes two = true := by
  obtain ⟨before,after,rfl⟩ := within
  rw [List.append_assoc]
  induction before with
  | nil => exact escapes_append some_ after
  | cons c rest ih => exact escapes_cons ih

def Keeps (reserved : Char → Bool) : Prop := reserved '%' = false ∧ ∀ c,
    (hexValue c).isSome = true → reserved c = false

theorem encode_kept {c : Char} {rest : List Char} (kept : reserved c = false) :
    encode reserved (c :: rest) = c :: encode reserved rest := by
  rw [encode_cons,kept]
  rfl

theorem encode_head {text more : List Char} {d : Char} (first : encode reserved text = d :: more)
    (digit : d ≠ '%') :
    ∃ rest, text = d :: rest ∧ encode reserved rest = more := by
  cases text with
  | nil => cases first
  | cons c rest =>
    rw [encode_cons] at first
    split at first
    · have some_ : 0 < (String.utf8EncodeChar c).length := by
        rw [String.length_utf8EncodeChar]
        exact c.utf8Size_pos
      obtain ⟨byte,bytes,form⟩ := List.exists_cons_of_length_pos some_
      rw [escape,form] at first
      exact absurd (List.cons.inj first).1.symm digit
    · obtain ⟨rfl,same⟩ := List.cons.inj first
      exact ⟨rest,rfl,same⟩

theorem escaped_digits_of {c a b : Char} {byte : UInt8} (found : escaped c a b = some byte) :
    c = '%' ∧ (hexValue a).isSome = true ∧ (hexValue b).isSome = true := by
  unfold escaped at found
  split at found
  · rename_i sign
    obtain ⟨high,one,later⟩ := Option.bind_eq_some_iff.mp found
    obtain ⟨low,two,-⟩ := Option.bind_eq_some_iff.mp later
    exact ⟨sign,by rw [one]; rfl,by rw [two]; rfl⟩
  · cases found

theorem digit_not_sign {c : Char} (digit : (hexValue c).isSome = true) : c ≠ '%' := by
  rintro rfl
  cases digit

theorem alone_encode {c : Char} {rest : List Char}
    (alone : ∀ a b more, rest = a :: b :: more → escaped c a b = none)
    (a b : Char) (more : List Char) (form : encode reserved rest = a :: b :: more) : escaped c a b = none := by
  by_contra some_
  obtain ⟨byte,found⟩ := Option.ne_none_iff_exists'.mp some_
  obtain ⟨-,high,low⟩ := escaped_digits_of found
  obtain ⟨later,rfl,next⟩ := encode_head form (digit_not_sign high)
  obtain ⟨last,rfl,-⟩ := encode_head next (digit_not_sign low)
  exact some_ (alone a b last rfl)

theorem decode_encode_cons {c : Char} {rest : List Char}
    (alone : ∀ a b more, rest = a :: b :: more → escaped c a b = none)
    (ih : decode (encode reserved rest) = decode rest) : decode (encode reserved (c :: rest)) =
    decode (c :: rest) := by
  rw [decode_cons alone,encode_cons,← ih]
  split
  · exact decode_escape c _
  · exact decode_cons (alone_encode alone)

theorem decode_encode (keeps : Keeps reserved) (text : List Char) : decode (encode reserved text) =
    decode text := by
  fun_induction decode text with
  | case1 c a b rest byte found ih =>
    obtain ⟨rfl,high,low⟩ := escaped_digits_of found
    rw [encode_kept keeps.1,encode_kept (keeps.2 a high),encode_kept (keeps.2 b low)]
    simp only [decode,found,ih]
  | case2 c a b rest none_ ih =>
    have alone : ∀ a' b' more, a :: b :: rest = a' :: b' :: more → escaped c a' b' = none := by
      intro a' b' more form
      obtain ⟨rfl,later⟩ := List.cons.inj form
      obtain ⟨rfl,-⟩ := List.cons.inj later
      exact none_
    rw [decode_encode_cons alone ih,decode_cons alone]
  | case3 c rest short ih =>
    have alone : ∀ a b more, rest = a :: b :: more → escaped c a b = none :=
      fun a b more form => absurd form (short a b more)
    rw [decode_encode_cons alone ih,decode_cons alone]
  | case4 => rfl

end Decoding
end Percent
