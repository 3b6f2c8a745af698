import ArangoDataTools.Base64Url
import ArangoDataTools.Errors
import ArangoDataTools.Json
import ArangoDataTools.Percent
import ArangoDataTools.Segments

namespace ArangoDataTools.Jwt
open Segments

-- serde_json's two directions, and HMAC-SHA256, which takes a key and a text and
-- may refuse the key.
structure Signer where
  serialize : Value → Except String (List UInt8)
  fromSlice : List UInt8 → Option Value
  hmac : List UInt8 → List UInt8 → Except String (List UInt8)

def Signer.toVec (signer : Signer) (value : Value) : Except Error (List UInt8) :=
  (signer.serialize value).mapError .serialization

def issuer : String := "arangodb"
def serverId : String := "arangodb-data-tools-rs"
def expirySkewSecs : Nat := 60
def mintedLifetimeSecs : Nat := 3600

def header : Value := .object [("alg",.string "HS256"),("typ",.string "JWT")]

-- The claims of a superuser token, as the map behind `json!` orders them.
def superuserClaims (issued : Nat) : Value :=
  .object [("exp",.nat (issued + mintedLifetimeSecs)),("iat",.nat issued),("iss",.string issuer),
    ("server_id",.string serverId)]

def signHs256 (signer : Signer) (secret : String) (payload : Value) : Except Error String := do
  let encodedHeader ← signer.toVec header
  let encodedPayload ← signer.toVec payload
  let signingInput := Base64Url.encode encodedHeader ++ '.' :: Base64Url.encode encodedPayload
  match signer.hmac (Percent.utf8 secret.toList) (Percent.utf8 signingInput) with
  | .ok signature => return String.ofList (signingInput ++ '.' :: Base64Url.encode signature)
  | .error err => throw (.config ("JWT secret is not a usable HMAC key: " ++ err))

-- Times are whole seconds since the epoch; `issued` is what `now_secs` returned.
def mintSuperuserJwt (signer : Signer) (issued : Nat) (secret : String) : Except Error String :=
  signHs256 signer secret (superuserClaims issued)

def tokenExpiry (signer : Signer) (token : String) : Option Nat := do
  let payload ← (token.toList.splitOn '.')[1]?
  let decoded ← Base64Url.decode payload
  let claims ← signer.fromSlice decoded
  let exp ← claims.get "exp"
  exp.asU64

def isExpiring (now : Nat) : Option Nat → Bool
  | some exp => decide (exp ≤ now + expirySkewSecs)
  | none => false

variable {signer : Signer} {secret token : String} {payload : Value}

theorem undotted (bytes : List UInt8) : '.' ∉ Base64Url.encode bytes :=
  Base64Url.encode_avoids bytes (by decide)
theorem unpadded (bytes : List UInt8) : '=' ∉ Base64Url.encode bytes :=
  Base64Url.encode_avoids bytes (by decide)

-- A compact token and what each of its segments stands for.
structure Compact (signer : Signer) (secret : String) (payload : Value) (token : String) : Prop where
  segments : ∃ head body signature mac, token.toList = join '.' [head,body,signature] ∧
    token.toList.splitOn '.' = [head,body,signature] ∧
    '=' ∉ token.toList ∧ (Base64Url.decode body).map Except.ok = some (signer.toVec payload) ∧
    Base64Url.decode signature = some mac ∧
    signer.hmac (Percent.utf8 secret.toList) (Percent.utf8 (join '.' [head,body])) = .ok mac

theorem signed_compact (signed : signHs256 signer secret payload = .ok token) :
    Compact signer secret payload token := by
  unfold signHs256 at signed
  cases top : signer.toVec header with
  | error err =>
    rw [top] at signed
    cases signed
  | ok encodedHeader =>
    cases claims : signer.toVec payload with
    | error err =>
      rw [top,claims] at signed
      cases signed
    | ok encodedPayload =>
      rw [top,claims] at signed
      dsimp only [bind,Except.bind] at signed
      split at signed
      · rename_i signature keyed
        have text := Except.ok.inj signed
        refine ⟨⟨Base64Url.encode encodedHeader,Base64Url.encode encodedPayload,
          Base64Url.encode signature,signature,?_⟩⟩
        have spelled : token.toList =
            join '.' [Base64Url.encode encodedHeader,Base64Url.encode encodedPayload,
            Base64Url.encode signature] := by
          rw [← text,String.toList_ofList,join,List.append_assoc]
          simp
        refine ⟨spelled,?_,?_,?_,Base64Url.decode_encode signature,?_⟩
        · rw [spelled]
          refine split_join ?_ (List.cons_ne_nil _ _)
          simp only [List.mem_cons,List.not_mem_nil,or_false]
          rintro segment (rfl | rfl | rfl) <;> exact undotted _
        · rw [spelled]
          intro padding
          rcases mem_join padding with dot | ⟨segment,member,inside⟩
          · exact absurd dot (by decide)
          · simp only [List.mem_cons,List.not_mem_nil,or_false] at member
            rcases member with rfl | rfl | rfl <;> exact unpadded _ inside
        · rw [Base64Url.decode_encode,claims]
          rfl
        · rw [← keyed,join]
          simp
      · cases signed

theorem expiry_signed (signed : signHs256 signer secret payload = .ok token)
    (reads : ∀ bytes, signer.toVec payload = .ok bytes → signer.fromSlice bytes = some payload) :
    tokenExpiry signer token = (payload.get "exp").bind Value.asU64 := by
  obtain ⟨head,body,signature,mac,-,split_,-,decoded,-,-⟩ := (signed_compact signed).segments
  cases back : Base64Url.decode body with
  | none =>
    rw [back] at decoded
    cases decoded
  | some bytes =>
    rw [back] at decoded
    have parsed := reads bytes (Option.some.inj decoded).symm
    unfold tokenExpiry
    rw [split_]
    simp [back,parsed]

-- What a minted token says, to the server and to this client.
theorem minted_token (issued : Nat) (minted : mintSuperuserJwt signer issued secret = .ok token)
    (reads : ∀ bytes, signer.toVec (superuserClaims issued) = .ok bytes →
    signer.fromSlice bytes = some (superuserClaims issued)) :
    Compact signer secret (superuserClaims issued) token ∧ tokenExpiry signer token = some (issued + 3600) ∧
      ∀ now, isExpiring now (tokenExpiry signer token) = false ↔ now < issued + 3540 := by
  have expiry : tokenExpiry signer token = some (issued + 3600) := by
    rw [expiry_signed minted reads]
    rfl
  refine ⟨signed_compact minted,expiry,fun now => ?_⟩
  rw [expiry]
  unfold isExpiring expirySkewSecs
  rw [decide_eq_false_iff_not]
  omega

def sampleHeader : String := "\x7b\"alg\":\"HS256\",\"typ\":\"JWT\"\x7d"
def sampleClaims : String :=
  "\x7b\"exp\":1700003600,\"iat\":1700000000,\"iss\":\"arangodb\",\"server_id\":\"arangodb-data-tools-rs\"\x7d"
def sampleMac : List UInt8 :=
  [219,194,95,109,71,100,97,45,239,192,188,33,192,38,196,255,53,83,77,207,52,109,220,30,85,45,167,
    100,91,126,148,132]
def sampleToken : String := String.join ["eyJhbGciOiJIUzI1NiIsInR5cCI6IkpXVCJ9.",
  "eyJleHAiOjE3MDAwMDM2MDAsImlhdCI6MTcwMDAwMDAwMCwiaXNzIjoiYXJhbmdvZGIiLCJzZXJ2ZXJfaWQiOiJhcmFuZ29kYi1kYXRhLXRvb2xzLXJzIn0.",
  "28JfbUdkYS3vwLwhwCbE_zVTTc80bdweVS2nZFt-lIQ"]

def sample : Signer where
  serialize value :=
    if (value.get "alg").bind Value.asStr = some "HS256" then .ok (Percent.utf8 sampleHeader.toList)
    else if (value.get "iat").bind Value.asU64 = some 1700000000 then .ok (Percent.utf8 sampleClaims.toList)
    else .error "unsupported value"
  fromSlice bytes := if bytes = Percent.utf8 sampleClaims.toList then
    some (superuserClaims 1700000000) else none
  hmac _ _ := .ok sampleMac

theorem sample_reads (issued : Nat) (bytes : List UInt8)
    (written : sample.toVec (superuserClaims issued) = .ok bytes) :
    sample.fromSlice bytes = some (superuserClaims issued) := by
  have alg : (superuserClaims issued).get "alg" = none := rfl
  have iat : ((superuserClaims issued).get "iat").bind Value.asU64 = some issued := rfl
  unfold Signer.toVec sample at written
  dsimp only at written
  rw [alg,iat] at written
  by_cases moment : issued = 1700000000
  · subst moment
    rw [if_neg (by simp),if_pos rfl] at written
    cases written
    simp [sample]
  · rw [if_neg (by simp),if_neg (by simpa using moment)] at written
    cases written

set_option maxRecDepth 20000 in
theorem sample_minted : Compact sample "supersecretjwtkey" (superuserClaims 1700000000) sampleToken ∧
    tokenExpiry sample sampleToken = some 1700003600 ∧
      ∀ now, isExpiring now (tokenExpiry sample sampleToken) = false ↔ now < 1700003540 :=
  minted_token 1700000000 rfl (sample_reads 1700000000)

end ArangoDataTools.Jwt
