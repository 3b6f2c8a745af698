import ArangoDataTools.Resumable
namespace ArangoDataTools.Resumable

def UploadState.toJson (state : UploadState) : List Char :=
  "\x7b\"part_size\":".toList ++ Nat.toDigits 10 state.partSize ++
    (",\"total_size\":".toList ++ Nat.toDigits 10 state.totalSize ++
    (",\"parts\":".toList ++ Nat.toDigits 10 state.parts ++
      (if state.complete then ",\"complete\":true\x7d" else ",\"complete\":false\x7d").toList))

def readField (name text : List Char) : Except String (Nat × List Char) :=
  if text.take name.length = name then
    let rest := text.drop name.length
    .ok (Nat.ofDigitChars 10 (rest.takeWhile Char.isDigit) 0,rest.dropWhile Char.isDigit)
  else .error "missing field"

def UploadState.fromJson (text : List Char) : Except String UploadState := do
  let (partSize,text) ← readField "\x7b\"part_size\":".toList text
  let (totalSize,text) ← readField ",\"total_size\":".toList text
  let (parts,text) ← readField ",\"parts\":".toList text
  if text = ",\"complete\":true\x7d".toList then return ⟨partSize,totalSize,parts,true⟩
  else if text = ",\"complete\":false\x7d".toList then return ⟨partSize,totalSize,parts,false⟩
  else throw "invalid value"

theorem readField_digits (name : List Char) (n : Nat) {tail : List Char} (ends : tail.head? = some ',') :
    readField name (name ++ Nat.toDigits 10 n ++ tail) = .ok (n,tail) := by
  obtain ⟨rest,rfl⟩ : ∃ rest, tail = ',' :: rest := List.head?_eq_some_iff.mp ends
  have digits : ∀ c ∈ Nat.toDigits 10 n, c.isDigit = true := fun c present =>
    Nat.isDigit_of_mem_toDigits (by omega) (by omega) present
  have takes : (Nat.toDigits 10 n ++ ',' :: rest).takeWhile Char.isDigit = Nat.toDigits 10 n := by
    rw [List.takeWhile_append_of_pos digits,List.takeWhile_cons_of_neg (by simp),List.append_nil]
  have drops : (Nat.toDigits 10 n ++ ',' :: rest).dropWhile Char.isDigit = ',' :: rest := by
    rw [List.dropWhile_append_of_pos digits,List.dropWhile_cons_of_neg (by simp)]
  simp [readField,takes,drops]

theorem fromJson_toJson (state : UploadState) : UploadState.fromJson state.toJson = .ok state := by
  obtain ⟨partSize,totalSize,parts,complete⟩ := state
  unfold UploadState.fromJson UploadState.toJson
  rw [readField_digits _ _ (by simp)]
  simp only [bind,Except.bind]
  rw [readField_digits _ _ (by simp)]
  dsimp only
  rw [readField_digits _ _ (by cases complete <;> simp)]
  cases complete <;> simp [pure,Except.pure]

def encode (text : List Char) : Bytes := text.map fun char => UInt8.ofNat char.toNat
def decode (bytes : Bytes) : List Char := bytes.map fun byte => Char.ofNat byte.toNat

theorem decode_encode {text : List Char} (small : ∀ c ∈ text, c.toNat < 256) : decode (encode text) = text := by
  unfold decode encode
  rw [List.map_map]
  refine (List.map_congr_left fun c present => ?_).trans (List.map_id text)
  have byte : (UInt8.ofNat c.toNat).toNat = c.toNat := by simpa using Nat.mod_eq_of_lt (small c present)
  simp [byte]

theorem toJson_ascii (state : UploadState) : ∀ c ∈ state.toJson, c.toNat < 256 := by
  have digits : ∀ n, ∀ c ∈ Nat.toDigits 10 n, c.toNat < 256 := by
    intro n c present
    have digit := Nat.isDigit_of_mem_toDigits (by omega) (by omega) present
    have below : c.toNat ≤ 57 := (Char.isDigit_iff_toNat.mp digit).2
    omega
  have literal : ∀ text : String, (text.toList.all fun c => c.toNat < 256) = true →
      ∀ c ∈ text.toList, c.toNat < 256 :=
    fun text all c present => by simpa using List.all_eq_true.mp all c present
  obtain ⟨partSize,totalSize,parts,complete⟩ := state
  intro c present
  unfold UploadState.toJson at present
  rcases List.mem_append.mp present with first | present
  · rcases List.mem_append.mp first with name | number
    · exact literal _ (by decide) c name
    · exact digits _ c number
  rcases List.mem_append.mp present with second | present
  · rcases List.mem_append.mp second with name | number
    · exact literal _ (by decide) c name
    · exact digits _ c number
  rcases List.mem_append.mp present with third | last
  · rcases List.mem_append.mp third with name | number
    · exact literal _ (by decide) c name
    · exact digits _ c number
  · cases complete with
    | true => exact literal ",\"complete\":true\x7d" (by decide) c last
    | false => exact literal ",\"complete\":false\x7d" (by decide) c last

def jsonCodec : StateCodec :=
  {toVec := fun state => encode state.toJson,fromSlice := fun bytes => UploadState.fromJson (decode bytes)
   reads_back := fun state => by rw [decode_encode (toJson_ascii state),fromJson_toJson]}

end ArangoDataTools.Resumable
