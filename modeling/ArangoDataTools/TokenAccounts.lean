import ArangoDataTools.Costs
import ArangoDataTools.TokenCalls

namespace ArangoDataTools.TokenAccounts
open Interaction Interaction.Program Tokens TokenCalls Jwt

section Prices
variable {price : TokenOp → Nat} {client : ArangoClient}

structure Priced (price : TokenOp → Nat) (sends logins drops : Nat) : Prop where
  cachedToken : price .cachedToken = 0
  storeToken : ∀ token, price (.storeToken token) = 0
  now : price .now = 0
  count : ∀ counter, price (.count counter) = 0
  login : ∀ request, price (.login request) = logins
  send : ∀ request, price (.send request) = sends
  invalidateToken : price .invalidateToken = drops

variable {sends logins drops cost : Nat}

theorem free_bind {op : TokenOp} {rest : op.Answer → Exchange α} (free : price op = 0)
    (costs : ∀ answer, Costs price (rest answer) cost) :
    Costs price ((act op).bind rest) cost := by
  have both := costs_bind (costs_perform op) costs
  rwa [free,Nat.zero_add] at both

theorem lift_bind {result : Except Error α} {rest : α → Exchange β}
    (costs : ∀ value, Costs price (rest value) cost) :
    Costs price ((lift result).bind rest) cost := by
  have both := costs_bind (costs_lift result 0) costs
  rwa [Nat.zero_add] at both

theorem login_costs (priced : Priced price sends logins drops) (username password : String) :
    Costs price (client.login username password) logins := by
  refine lift_bind fun url => lift_bind fun body => ?_
  rw [← priced.login]
  exact costs_bind (m:=0) (costs_perform _) fun answer => costs_lift _ 0

theorem obtainToken_costs (priced : Priced price sends logins drops) :
    Costs price client.obtainToken logins := by
  unfold ArangoClient.obtainToken
  split
  · exact free_bind priced.now fun issued => costs_lift _ _
  · exact login_costs priced _ _
  · trivial

theorem renewToken_costs (priced : Priced price sends logins drops) : Costs price client.renewToken logins :=
  costs_bind (m:=0) (obtainToken_costs priced) fun _ => free_bind (priced.storeToken _) fun _ => trivial

theorem bearerToken_costs (priced : Priced price sends logins drops) :
    Costs price client.bearerToken logins := by
  refine free_bind priced.cachedToken fun cached => ?_
  cases cached with
  | none => exact renewToken_costs priced
  | some cached =>
    have decided : ∀ lapsing : Bool,
        Costs price (if lapsing then client.renewToken else done cached.value) logins := by
      intro lapsing
      split
      · exact renewToken_costs priced
      · trivial
    cases expiry : cached.expiresAt with
    | none =>
      change Costs price ((ArangoClient.expiring cached.expiresAt).bind _) logins
      rw [expiry]
      exact decided false
    | some exp =>
      change Costs price ((ArangoClient.expiring cached.expiresAt).bind _) logins
      rw [expiry]
      exact free_bind priced.now fun now => decided _

theorem applyAuth_costs (priced : Priced price sends logins drops) (request : HttpRequest) :
    Costs price (client.applyAuth request) (if client.canRefreshToken then logins else 0) := by
  unfold ArangoClient.applyAuth ArangoClient.canRefreshToken
  cases client.auth with
  | none | basic | bearer => trivial
  | jwtSecret | jwtLogin => exact costs_bind (m:=0) (bearerToken_costs priced) fun token => trivial

theorem exchange_costs (priced : Priced price sends logins drops) (request : HttpRequest) :
    Costs price (client.exchange request) ((if client.canRefreshToken then logins else 0) + sends) := by
  refine costs_bind (applyAuth_costs priced request) fun request => ?_
  rw [← priced.send request]
  exact costs_bind (m:=0) (costs_perform _) fun answer => costs_lift _ 0

def attemptCost (client : ArangoClient) (sends logins drops : Nat) : Nat :=
  if client.canRefreshToken then 2 * (logins + sends) + drops else sends

theorem reauthenticating_costs (priced : Priced price sends logins drops) {tried : Exchange (List UInt8)}
    (costs : Costs price tried ((if client.canRefreshToken then logins else 0) + sends)) :
    Costs price (client.reauthenticating tried) (attemptCost client sends logins drops) := by
  unfold attemptCost
  cases refreshes : client.canRefreshToken with
  | false =>
    rw [refreshes,if_neg Bool.false_ne_true,Nat.zero_add] at costs
    rw [if_neg Bool.false_ne_true]
    refine costs_bind (m:=0) (costs_attempt costs) fun outcome => ?_
    cases outcome with
    | ok payload => trivial
    | error err =>
      dsimp only
      rw [refreshes,Bool.and_false,if_neg Bool.false_ne_true]
      trivial
  | true =>
    rw [refreshes,if_pos rfl] at costs
    rw [if_pos rfl]
    have whole : Costs price (client.reauthenticating tried)
        ((logins + sends) + (drops + (logins + sends))) := by
      refine costs_bind (costs_attempt costs) fun outcome => ?_
      cases outcome with
      | ok payload => trivial
      | error err =>
        dsimp only
        split
        · rw [← priced.invalidateToken]
          refine costs_bind (costs_perform _) fun _ => costs_bind (m:=0) (costs_attempt costs) fun outcome => ?_
          cases outcome <;> trivial
        · trivial
    refine costs_mono whole ?_
    omega

theorem retrying_costs (priced : Priced price sends logins drops) {tried : Exchange (List UInt8)}
    (costs : Costs price tried cost) :
    Costs price (client.retrying tried) (max 1 client.retry.maxAttempts * cost) := by
  have recording_ : ∀ (counter : Counter) (cost : Nat) (rest : Exchange (List UInt8)), Costs price rest cost →
      Costs price ((client.retry.record (fun counter => act (.count counter)) counter).bind fun _ =>
      rest) cost := by
    intro counter cost rest costs
    unfold RetryPolicy.record
    split
    · exact free_bind (priced.count counter) fun _ => costs
    · exact costs
  have noting : ∀ (err : Error) (cost : Nat) (rest : Exchange (List UInt8)), Costs price rest cost →
      Costs price ((client.retry.recordFailure (fun counter => act (.count counter)) err).bind
        fun _ => rest) cost := by
    intro err cost rest costs
    unfold RetryPolicy.recordFailure
    split
    · exact recording_ _ cost rest costs
    · exact costs
  have loop : ∀ left, Costs price
      (retryLoop client.retry (fun counter => act (.count counter)) (attempt tried) left)
        ((left + 1) * cost) := by
    intro left
    induction left with
    | zero =>
      rw [Nat.zero_add,Nat.one_mul]
      refine costs_bind (m:=0) (costs_attempt costs) fun outcome => ?_
      cases outcome with
      | ok payload => trivial
      | error err => exact noting err 0 _ trivial
    | succ left ih =>
      have apart : (left + 1 + 1) * cost = cost + (left + 1) * cost := by rw [Nat.succ_mul,Nat.add_comm]
      rw [apart]
      refine costs_bind (costs_attempt costs) fun outcome => ?_
      cases outcome with
      | ok payload => trivial
      | error err =>
        refine noting err _ _ ?_
        split
        · exact recording_ _ _ _ ih
        · trivial
  have rounds : client.retry.maxAttempts - 1 + 1 = max 1 client.retry.maxAttempts := by omega
  rw [← rounds]
  exact loop _

theorem call_costs (priced : Priced price sends logins drops) (op : Call) :
    Costs price (op.run client) (max 1 client.retry.maxAttempts * attemptCost client sends logins drops) := by
  cases op with
  | request method path payload =>
    exact retrying_costs priced (reauthenticating_costs priced (lift_bind fun url => exchange_costs priced _))
  | body method url contentType payload =>
      exact retrying_costs priced (reauthenticating_costs priced (exchange_costs priced _))

end Prices

section Requests
variable {client : ArangoClient}

def asks (client : ArangoClient) : Call → HttpRequest → Prop
  | .request method path payload, asked => ∃ url authorization, client.urlFor path = .ok url ∧
      asked = ⟨method,url,payload.map fun _ => "application/json",payload,authorization⟩
  | .body method url contentType payload, asked => ∃ authorization,
      asked = ⟨method,url,some contentType,some payload,authorization⟩

def Sending (kind : HttpRequest → Prop) : TokenOp → Prop
  | .send request => kind request
  | _ => True

variable {kind : HttpRequest → Prop}

theorem obtainToken_only : Only (Sending kind) client.obtainToken := by
  unfold ArangoClient.obtainToken
  split
  · exact ⟨trivial,fun _ => only_lift _⟩
  · exact only_bind (only_lift _) fun url => only_bind (only_lift _) fun body => ⟨trivial,fun _ => only_lift _⟩
  · trivial

theorem bearerToken_only : Only (Sending kind) client.bearerToken := by
  have renewing : Only (Sending kind) client.renewToken := only_bind obtainToken_only fun token =>
      ⟨trivial,fun _ => trivial⟩
  refine only_bind (only_perform trivial) fun cached => ?_
  cases cached with
  | none => exact renewing
  | some cached =>
    change Only _ ((ArangoClient.expiring cached.expiresAt).bind _)
    refine only_bind ?_ fun lapsing => ?_
    · cases cached.expiresAt with
      | none => trivial
      | some exp => exact ⟨trivial,fun _ => trivial⟩
    · split
      · exact renewing
      · trivial

theorem exchange_only {request : HttpRequest}
    (asked : ∀ authorization, kind {request with authorization := authorization})
    (plain : kind request) : Only (Sending kind) (client.exchange request) := by
  have sent : ∀ request, kind request → Only (Sending kind)
      ((act (.send request)).bind fun answer => (lift (client.received answer) : Exchange (List UInt8))) :=
    fun request holds => ⟨holds,fun answer => only_lift _⟩
  unfold ArangoClient.exchange ArangoClient.applyAuth
  cases client.auth with
  | none => exact sent _ plain
  | basic | bearer => exact sent _ (asked _)
  | jwtSecret | jwtLogin =>
    rw [bind_assoc]
    exact only_bind bearerToken_only fun token => sent _ (asked _)

theorem retried_only {tried : Exchange (List UInt8)} (only : Only (Sending kind) tried) :
    Only (Sending kind) (client.retrying (client.reauthenticating tried)) := by
  have renewed : Only (Sending kind) (client.reauthenticating tried) := by
    refine only_bind (only_attempt only) fun outcome => ?_
    cases outcome with
    | ok payload => trivial
    | error err =>
      dsimp only
      split
      · refine only_bind (only_perform trivial) fun _ => only_bind (only_attempt only) fun outcome => ?_
        cases outcome <;> trivial
      · trivial
  have counted : ∀ counter,
      Only (Sending kind) (client.retry.record (fun counter => act (.count counter)) counter) := by
    intro counter
    unfold RetryPolicy.record
    split
    · exact ⟨trivial,fun _ => trivial⟩
    · trivial
  have noted : ∀ err, Only (Sending kind)
      (client.retry.recordFailure (fun counter => act (.count counter)) err) := by
    intro err
    unfold RetryPolicy.recordFailure
    split
    · exact counted _
    · trivial
  have loop : ∀ left, Only (Sending kind)
      (retryLoop client.retry (fun counter => act (.count counter))
        (attempt (client.reauthenticating tried)) left) := by
    intro left
    induction left with
    | zero =>
      refine only_bind (only_attempt renewed) fun outcome => ?_
      cases outcome with
      | ok payload => trivial
      | error err => exact only_bind (noted err) fun _ => trivial
    | succ left ih =>
      refine only_bind (only_attempt renewed) fun outcome => ?_
      cases outcome with
      | ok payload => trivial
      | error err =>
        refine only_bind (noted err) fun _ => ?_
        split
        · exact only_bind (counted _) fun _ => ih
        · trivial
  exact loop _

theorem call_only (op : Call) : Only (Sending (asks client op)) (op.run client) := by
  cases op with
  | request method path payload =>
    refine retried_only ?_
    unfold ArangoClient.attemptRequest
    cases located : client.urlFor path with
    | error err => trivial
    | ok url => exact exchange_only (fun authorization => ⟨url,authorization,located,rfl⟩) ⟨url,.none,located,rfl⟩
  | body method url contentType payload => exact retried_only (exchange_only (fun authorization => ⟨authorization,rfl⟩) ⟨.none,rfl⟩)

end Requests

section Accounts

def isSend : TokenOp → Bool
  | .send _ => true
  | _ => false

def isLogin : TokenOp → Bool
  | .login _ => true
  | _ => false

def isDrop : TokenOp → Bool
  | .invalidateToken => true
  | _ => false

theorem sends_priced : Priced (fun op => (isSend op).toNat) 1 0 0 :=
  ⟨rfl,fun _ => rfl,rfl,fun _ => rfl,fun _ => rfl,fun _ => rfl,rfl⟩
theorem logins_priced : Priced (fun op => (isLogin op).toNat) 0 1 0 :=
  ⟨rfl,fun _ => rfl,rfl,fun _ => rfl,fun _ => rfl,fun _ => rfl,rfl⟩
theorem drops_priced : Priced (fun op => (isDrop op).toNat) 0 0 1 :=
  ⟨rfl,fun _ => rfl,rfl,fun _ => rfl,fun _ => rfl,fun _ => rfl,rfl⟩

def tallied (kind : TokenOp → Bool) (performed : List TokenOp) : Nat :=
  spent (fun op => (kind op).toNat) performed

-- How many exchanges of each kind a client may make for one call.
structure Accounted (client : ArangoClient) (op : Call) (performed : List TokenOp) : Prop where
  sends : tallied isSend performed ≤ max 1 client.retry.maxAttempts * if client.canRefreshToken then 2 else 1
  logins : tallied isLogin performed ≤ max 1 client.retry.maxAttempts * if client.canRefreshToken then 2 else 0
  drops : tallied isDrop performed ≤ max 1 client.retry.maxAttempts * if client.canRefreshToken then 1 else 0
  asked : ∀ request, .send request ∈ performed → asks client op request

theorem calls_accounted {ι W : Type} [DecidableEq ι] (clients : ι → ArangoClient) (calls : ι → Call)
    {environment : Environment ι TokenOp TokenOp.Answer W}
    {allowed : Pool ι TokenOp TokenOp.Answer Error (List UInt8) W (List TokenOp) →
    Event ι TokenOp TokenOp.Answer → Prop}
    {w : W} {s : Pool ι TokenOp TokenOp.Answer Error (List UInt8) W (List TokenOp)}
    (path : PoolReached environment logging allowed ⟨fun i => (calls i).run (clients i),fun _ => [],
    w⟩ s) (i : ι) :
    Accounted (clients i) (calls i) (s.phases i) := by
  refine ⟨?_,?_,?_,?_⟩
  · exact costs_reached (call_costs sends_priced (calls i)) rfl path
  · exact costs_reached (call_costs logins_priced (calls i)) rfl path
  · exact costs_reached (call_costs drops_priced (calls i)) rfl path
  · exact fun request member => only_reached (call_only (calls i)) rfl path (.send request) member

def loginBody : List UInt8 := Percent.utf8 "\x7b\"jwt\":\"fresh\"\x7d".toList

def loginSigner : Signer where
  serialize _ := .ok (Percent.utf8 "\x7b\"password\":\"secret\",\"username\":\"root\"\x7d".toList)
  fromSlice bytes := if bytes = loginBody then some (.object [("jwt",.string "fresh")]) else none
  hmac _ _ := .error "no key"

def loginClient : ArangoClient where
  auth := .jwtLogin "root" "secret"
  database := "shop"
  join reference := .ok ("http://localhost:8529" ++ reference)
  signer := loginSigner
  statusText status := if status = 401 then "401 Unauthorized" else "503 Service Unavailable"

def version : Call := .request "GET" "/_api/version" none

abbrev Version := Pool Unit TokenOp TokenOp.Answer Error (List UInt8) Unit (List TokenOp)

-- The cached token is refused, the server with the new one busy, and then it answers.
theorem refused_version_accounted : ∃ s : Version,
    PoolReached (fun _ _ _ _ _ => True) logging (fun _ _ => True)
      ⟨fun _ => version.run loginClient,fun _ => [],()⟩ s ∧
      (s.threads ()).conclusion = some (.ok []) ∧ tallied isSend (s.phases ()) = 3 ∧
      tallied isLogin (s.phases ()) = 1 ∧
      tallied isDrop (s.phases ()) = 1 ∧ Accounted loginClient version (s.phases ()) := by
  have cached : PoolReached (fun _ _ _ _ _ => True) logging (fun _ _ => True)
      (⟨fun _ => version.run loginClient,fun _ => [],()⟩ : Version) _ :=
    .step .start trivial (@PoolStep.call _ _ _ _ _ _ _ _ _ _ _ () _ _ (some ⟨"stale",none⟩) () rfl trivial)
  have refused := cached.step trivial
      (@PoolStep.call _ _ _ _ _ _ _ _ _ _ _ () _ _ (.ok ⟨401,[]⟩) () rfl trivial)
  have dropped := refused.step trivial (@PoolStep.call _ _ _ _ _ _ _ _ _ _ _ () _ _ () () rfl trivial)
  have empty := dropped.step trivial (@PoolStep.call _ _ _ _ _ _ _ _ _ _ _ () _ _ none () rfl trivial)
  have logged := empty.step trivial
      (@PoolStep.call _ _ _ _ _ _ _ _ _ _ _ () _ _ (.ok ⟨200,loginBody⟩) () rfl trivial)
  have stored := logged.step trivial (@PoolStep.call _ _ _ _ _ _ _ _ _ _ _ () _ _ () () rfl trivial)
  have busy := stored.step trivial (@PoolStep.call _ _ _ _ _ _ _ _ _ _ _ () _ _ (.ok ⟨503,[]⟩) () rfl trivial)
  have again := busy.step trivial
      (@PoolStep.call _ _ _ _ _ _ _ _ _ _ _ () _ _ (some ⟨"fresh",none⟩) () rfl trivial)
  have answered := again.step trivial
      (@PoolStep.call _ _ _ _ _ _ _ _ _ _ _ () _ _ (.ok ⟨200,[]⟩) () rfl trivial)
  exact ⟨_,answered,rfl,rfl,rfl,rfl,calls_accounted (fun _ => loginClient) (fun _ => version) answered ()⟩

end Accounts
end ArangoDataTools.TokenAccounts
