import ArangoDataTools.TokenRotation

namespace ArangoDataTools.TokenRefusals
open Interaction Interaction.Program Tokens TokenCalls
open TokenRotation (rootClient asking answeredBy)

section Login

-- Whether a task has ever come by a token, and how often it tried to log in.
structure Phase where
  lucky : Bool := false
  logins : Nat := 0

def trying : Protocol TokenOp TokenOp.Answer Phase where
  permits q
    | .storeToken _ | .send _ => q.lucky = true
    | _ => True
  advance q
    | .cachedToken, answer => {q with lucky := q.lucky || Option.isSome answer}
    | .login _, answer => {q with lucky := q.lucky || !rejects answer,logins := q.logins + 1}
    | _, _ => q

variable {client : ArangoClient} {username password : String} {q : Phase}

-- The answer of a client that was refused the login twice.
def Blamed (outcome : Outcome) : Prop :=
  ∃ message, outcome = .error (.http 401 (String.join [message,". Hint: ",ArangoClient.loginHint]) {})

-- A task without luck has tried `tries` more logins, each refused.
structure Tried (before : Phase) (tries : Nat) (refused : Except Error α → Prop)
    (result : Except Error α) (q : Phase) : Prop where
  lucky : before.lucky = true → q.lucky = true
  unlucky : q.lucky = false → q.logins = before.logins + tries ∧ refused result

def Refused (result : Except Error α) : Prop := ∃ message context, result = .error (.http 401 message context)

theorem login_follows (reaches : ∃ url, client.join "/_open/auth" = .ok url)
    (writes : ∀ value, ∃ bytes, client.signer.serialize value = .ok bytes) :
    Follows trying (Tried q 1 Refused) (client.login username password) q := by
  obtain ⟨url,located⟩ := reaches
  obtain ⟨bytes,written⟩ := writes (.object [("password",.string password),("username",.string username)])
  unfold ArangoClient.login Jwt.Signer.toVec
  rw [located,written]
  refine ⟨trivial,fun answer => follows_lift ⟨fun lucky => ?_,fun unlucky => ⟨rfl,?_⟩⟩⟩
  · change (q.lucky || !rejects answer) = true
    rw [lucky,Bool.true_or]
  · change (q.lucky || !rejects answer) = false at unlucky
    have rejected : rejects answer = true := by
      rw [Bool.or_eq_false_iff] at unlucky
      simpa using unlucky.2
    cases answer with
    | error err => cases rejected
    | ok response =>
      have status : response.status = 401 := eq_of_beq rejected
      unfold ArangoClient.loggedIn
      dsimp only
      rw [if_neg (by simp [ArangoClient.isSuccess,status]),status]
      exact ⟨_,_,rfl⟩

theorem permits_send (request : HttpRequest) : trying.permits q (.send request) = (q.lucky = true) := rfl
theorem permits_storeToken (token : CachedToken) : trying.permits q (.storeToken token) =
    (q.lucky = true) := rfl

theorem lucky_follows (lucky : q.lucky = true) (p : Exchange α) :
    Follows trying (fun _ later => later.lucky = true) p q := by
  refine follows_kept (fun q op lucky => ?_) (fun q op answer lucky => ?_) p q lucky
  · cases op <;> first | exact lucky | trivial
  · cases op with
    | cachedToken | login => exact Bool.or_eq_true_iff.mpr (.inl lucky)
    | storeToken | invalidateToken | now | send | count => exact lucky

theorem lucky_tried {before : Phase} {tries : Nat} {refused : Except Error α → Prop}
    (lucky : q.lucky = true) (p : Exchange α) :
    Follows trying (Tried before tries refused) p q := by
  refine follows_mono (fun result later stays => ⟨fun _ => stays,fun unlucky => ?_⟩) (lucky_follows lucky p)
  rw [stays] at unlucky
  cases unlucky

-- Where a client finds the server, and what it writes to it.
structure Reaching (client : ArangoClient) : Prop where
  joins : ∀ reference, ∃ url, client.join reference = .ok url
  writes : ∀ value, ∃ bytes, client.signer.serialize value = .ok bytes

theorem exchange_follows (mode : client.auth = .jwtLogin username password)
    (reaching : Reaching client) (request : HttpRequest) :
    Follows trying (Tried q 1 Refused) (client.exchange request) q := by
  have renewed : Follows trying (Tried q 1 Refused) client.renewToken q := by
    unfold ArangoClient.renewToken ArangoClient.obtainToken
    rw [mode]
    refine follows_seq (login_follows (reaching.joins _) reaching.writes) ?_ ?_
    · intro token middle tried
      cases lucky : middle.lucky with
      | true => exact lucky_tried lucky _
      | false => exact absurd (tried.unlucky lucky).2 (by simp [Refused])
    · intro err middle tried
      refine ⟨tried.lucky,fun unlucky => ⟨(tried.unlucky unlucky).1,?_⟩⟩
      obtain ⟨message,context,same⟩ := (tried.unlucky unlucky).2
      cases same
      exact ⟨message,context,rfl⟩
  rw [exchange_token (by rw [ArangoClient.canRefreshToken,mode])]
  refine ⟨trivial,fun cached => ?_⟩
  cases cached with
  | some cached => exact lucky_tried (Bool.or_true _) _
  | none =>
    have same : trying.advance q .cachedToken none = q := by
      change {q with lucky := q.lucky || false} = q
      rw [Bool.or_false]
    rw [same]
    refine follows_seq renewed ?_ ?_
    · intro token middle tried
      cases lucky : middle.lucky with
      | true => exact lucky_tried lucky _
      | false => exact absurd (tried.unlucky lucky).2 (by simp [Refused])
    · intro err middle tried
      refine ⟨tried.lucky,fun unlucky => ⟨(tried.unlucky unlucky).1,?_⟩⟩
      obtain ⟨message,context,same⟩ := (tried.unlucky unlucky).2
      cases same
      exact ⟨message,context,rfl⟩

theorem reauthenticating_follows (mode : client.auth = .jwtLogin username password)
    {tried : Exchange (List UInt8)}
    (attempted : ∀ q, Follows trying (Tried q 1 Refused) tried q) :
    Follows trying (Tried q 2 Blamed) (client.reauthenticating tried) q := by
  have refreshes : client.canRefreshToken = true := by
    unfold ArangoClient.canRefreshToken
    rw [mode]
  refine follows_attempt_bind (attempted q) fun result middle first => ?_
  cases lucky : middle.lucky with
  | true => exact lucky_tried lucky _
  | false =>
    obtain ⟨counted,message,context,rfl⟩ := first.unlucky lucky
    dsimp only
    rw [refreshes,Bool.and_true,if_pos (show isUnauthorized (.http 401 message context) = true from rfl)]
    refine ⟨trivial,fun _ => follows_attempt_bind (attempted middle) fun result last second => ?_⟩
    cases lucky : last.lucky with
    | true => exact lucky_tried lucky _
    | false =>
      obtain ⟨again,message,context,rfl⟩ := second.unlucky lucky
      refine ⟨second.lucky ∘ first.lucky,fun _ => ⟨by omega,message,?_⟩⟩
      unfold ArangoClient.explainAuthFailure
      rw [mode]
      rfl

theorem blamed_final {err : Error} (blamed : Blamed (.error err)) : err.isRetryable = false := by
  obtain ⟨message,same⟩ := blamed
  cases same
  rfl

theorem call_follows (mode : client.auth = .jwtLogin username password) (reaching : Reaching client)
    (op : Call) :
    Follows trying (Tried q 2 Blamed) (op.run client) q := by
  have looped : ∀ tried, (∀ q, Follows trying (Tried q 1 Refused) tried q) →
      Follows trying (Tried q 2 Blamed) (client.retrying (client.reauthenticating tried)) q := by
    intro tried attempted
    refine @retrying_follows _ _ _ client (fun later => later = q ∨ later.lucky = true) _ _ ?_ ?_ ?_ (.inl rfl)
    · rintro later (rfl | lucky)
      · exact reauthenticating_follows mode attempted
      · exact lucky_tried lucky _
    · intro err later transient tried
      refine .inr ?_
      rw [← Bool.not_eq_false]
      intro unlucky
      rw [blamed_final (tried.unlucky unlucky).2] at transient
      cases transient
    · exact fun _ _ => ⟨trivial,rfl⟩
  cases op with
  | request method path payload =>
    refine looped _ fun q => follows_lift_bind (fun url _ => exchange_follows mode reaching _) ?_
    intro err failed
    obtain ⟨url,located⟩ := reaching.joins (String.join ["/_db/",client.database,path])
    unfold ArangoClient.urlFor at failed
    dsimp only at failed
    rw [located] at failed
    cases failed
  | body method url contentType payload => exact looped _ fun q => exchange_follows mode reaching _

theorem perform_blamed {α : Type} (mode : client.auth = .jwtLogin username password)
    (reaching : Reaching client) (task : ClientTask α) :
    ∀ q : Phase, Follows trying (fun result later => (q.lucky = true → later.lucky = true) ∧
    (¬ later.lucky = true →
      ∀ logged, result = .ok logged → later.logins = q.logins + 2 * logged.1.length ∧
      ∀ outcome ∈ logged.1, Blamed outcome))
      (perform client task) q := by
  rw [perform_conduct]
  refine @conduct_spends _ _ trying _ (Call.run client) (fun q => q.lucky = true)
    (fun calls q later => later.logins = q.logins + 2 * calls) Blamed (fun _ => rfl) ?_ ?_ task
  · intro more q middle later one rest
    omega
  · exact fun op q => follows_mono (fun _ _ tried =>
      ⟨tried.lucky,fun unlucky => tried.unlucky (Bool.eq_false_iff.mpr unlucky)⟩)
      (call_follows mode reaching op)

inductive Refuses (w : Option CachedToken) : (op : TokenOp) → op.Answer → Option CachedToken → Prop where
  | cachedToken : Refuses w .cachedToken w w
  | storeToken (token : CachedToken) : Refuses w (.storeToken token) () (some token)
  | invalidateToken : Refuses w .invalidateToken () none
  | now (clock : Nat) : Refuses w .now clock w
  | count (counter : Counter) : Refuses w (.count counter) () w
  | login (request : HttpRequest) (answer : Except ReqwestError HttpResponse) : rejects answer =
      true → Refuses w (.login request) answer w
  | send (request : HttpRequest) (answer : Except ReqwestError HttpResponse) :
      Refuses w (.send request) answer w

def refusing (ι : Type) : Environment ι TokenOp TokenOp.Answer (Option CachedToken) :=
  fun _ op w answer after => Refuses w op answer after

variable {ι α : Type} [DecidableEq ι]
  {allowed : Tasks ι α (Option CachedToken) Phase → Event ι TokenOp TokenOp.Answer → Prop}

theorem unlucky_step {s next : Tasks ι α (Option CachedToken) Phase}
    {event : Event ι TokenOp TokenOp.Answer} (following : Following trying s)
    (unlucky : s.world = none ∧ ∀ i, (s.phases i).lucky = false)
      (step : PoolStep (refusing ι) trying s event next) :
    next.world = none ∧ ∀ i, (next.phases i).lucky = false := by
  cases step with
  | stop head => exact unlucky
  | @call i op rest answer after head answered =>
    have permitted := following_permits following head
    obtain ⟨empty,none_⟩ := unlucky
    have own : after = none ∧ (trying.advance (s.phases i) op answer).lucky = false := by
      cases answered with
      | cachedToken =>
        refine ⟨empty,?_⟩
        change ((s.phases i).lucky || Option.isSome s.world) = false
        rw [none_ i,empty]
        rfl
      | login request answer rejected =>
        refine ⟨empty,?_⟩
        change ((s.phases i).lucky || !rejects answer) = false
        rw [none_ i,rejected]
        rfl
      | storeToken token =>
        rw [permits_storeToken,none_ i] at permitted
        cases permitted
      | invalidateToken => exact ⟨rfl,none_ i⟩
      | now | count | send => exact ⟨empty,none_ i⟩
    refine ⟨own.1,fun j => ?_⟩
    dsimp only
    by_cases equal : j = i
    · subst j
      rw [Function.update_self]
      exact own.2
    · rw [Function.update_of_ne equal]
      exact none_ j

-- Wrong credentials: every call of every task ends with the same explanation,
-- after two logins and without a request of its own.
theorem refused_logins_blamed {client : ArangoClient} {username password : String}
    (mode : client.auth = .jwtLogin username password)
    (reaching : Reaching client) (databases : ι → String) (tasks : ι → ClientTask α)
      {s : Tasks ι α (Option CachedToken) Phase}
    (path : PoolReached (refusing ι) trying allowed (started client databases tasks {} none) s) {i : ι} :
    (∀ request next, s.threads i ≠ .call (.send request) next) ∧
      ∀ told result, (s.threads i).conclusion = some (.ok (told,result)) →
        (s.phases i).logins = 2 * told.length ∧ ∀ outcome ∈ told, Blamed outcome := by
  have performed : ∀ i, Follows trying (fun result later => later.lucky = false → ∀ logged,
      result = .ok logged →
      later.logins = 2 * logged.1.length ∧ ∀ outcome ∈ logged.1, Blamed outcome)
        (perform (client.withDatabase (databases i)) (tasks i)) {} := by
    intro i
    have all := @perform_blamed (client.withDatabase (databases i)) username password α mode
        ⟨reaching.joins,reaching.writes⟩ (tasks i) {}
    refine follows_mono (fun result later holds unlucky logged same => ?_) all
    obtain ⟨total,blamed⟩ := holds.2 (Bool.eq_false_iff.mp unlucky) logged same
    exact ⟨total.trans (Nat.zero_add _),blamed⟩
  have following : Following trying
      (started client databases tasks {} none : Tasks ι α (Option CachedToken) Phase) :=
    fun i => follows_mono (q:=({} : Phase)) (fun _ _ _ => trivial) (performed i)
  have unlucky : s.world = none ∧ ∀ i, (s.phases i).lucky = false :=
    pool_invariant (⟨rfl,fun _ => rfl⟩ : _ ∧ _) following
      (fun following unlucky _ step => unlucky_step following unlucky step) path
  refine ⟨fun request next head => ?_,fun told result concluded => ?_⟩
  · have permitted := following_permits (following_reached following path) head
    rw [permits_send,unlucky.2 i] at permitted
    cases permitted
  · have ended := follows_concluded
        (followed_unless_stopped (fun _ _ _ _ _ same => by cases same) performed path i) concluded
    exact ended (unlucky.2 i) _ rfl

theorem asking_blamed : ∃ (s : Tasks Unit Unit (Option CachedToken) Phase) (told : List Outcome),
    PoolReached (refusing Unit) trying
    (fun _ _ => True) (started rootClient (fun _ => "shop") (fun _ => asking) {} none) s ∧
      (s.threads ()).conclusion = some (.ok (told,.ok ())) ∧
      (s.phases ()).logins = 2 * told.length ∧ ∀ outcome ∈ told, Blamed outcome := by
  have empty : PoolReached (refusing Unit) trying (fun _ _ => True)
      (started rootClient (fun _ => "shop") (fun _ => asking) {} none : Tasks Unit Unit
        (Option CachedToken) Phase) _ :=
    .step .start trivial (.call (i := ()) rfl .cachedToken)
  have refused := empty.step trivial (.call (i := ()) rfl (.login _ (answeredBy 401 []) rfl))
  have dropped := refused.step trivial (.call (i := ()) rfl .invalidateToken)
  have again := dropped.step trivial (.call (i := ()) rfl .cachedToken)
  have ended := again.step trivial (.call (i := ()) rfl (.login _ (answeredBy 401 []) rfl))
  refine ⟨_,_,ended,rfl,?_⟩
  have reaching : Reaching rootClient := ⟨fun _ => ⟨_,rfl⟩,fun _ => ⟨_,rfl⟩⟩
  exact (@refused_logins_blamed Unit Unit _ _ rootClient "root" "secret" rfl reaching _ _ _ ended
    ()).2 _ (.ok ()) rfl

end Login

section Fetch
variable {W : Type}

-- A world where the cached token is far from its expiry and the server refuses it.
structure Stale (handle : Handler TokenOp TokenOp.Answer W) (w : W) (token : CachedToken) : Prop where
  cached : handle .cachedToken w = (some token,w)
  clock : ∀ exp, token.expiresAt = some exp → ∃ now, handle .now w = (now,w) ∧
    Jwt.isExpiring now (some exp) = false
  refused : ∀ request, request.authorization = .bearer token.value → ∃ body,
    handle (.send request) w = (.ok ⟨401,body⟩,w)
  counted : ∀ counter w, handle (.count counter) w = ((),w)

def fetches (client : ArangoClient) : List String → Exchange (List Outcome)
  | [] => done []
  | url :: rest => (attempt (client.fetch url)).bind fun outcome => (fetches client rest).bind
      fun outcomes => done (outcome :: outcomes)

variable {handle : Handler TokenOp TokenOp.Answer W} {w : W} {token : CachedToken} {client : ArangoClient}

theorem exchange_refused (refreshes : client.canRefreshToken = true) (stale : Stale handle w token)
    (request : HttpRequest) :
    ∃ err, run handle (client.exchange request) w = (.error err,w) ∧ isUnauthorized err = true ∧
    err.isRetryable = false := by
  obtain ⟨body,refused⟩ := stale.refused {request with authorization := .bearer token.value} rfl
  have held : run handle client.bearerToken w = (.ok token.value,w) := by
    have unlapsed : run handle (ArangoClient.expiring token.expiresAt) w = (.ok false,w) := by
      cases expiry : token.expiresAt with
      | none => rfl
      | some exp =>
        obtain ⟨now,read,fresh⟩ := stale.clock exp expiry
        change run handle (done (Jwt.isExpiring (handle .now w).1 (some exp))) (handle .now w).2 = _
        rw [read,run_done,fresh]
    unfold ArangoClient.bearerToken
    have first : run (ε:=Error) handle (act .cachedToken) w = (.ok (some token),w) := by
      unfold act
      rw [run_perform,stale.cached]
    rw [run_bind_ok handle first,run_bind_ok handle unlapsed]
    rfl
  have sent : run (ε:=Error) handle
      (act (.send {request with authorization := .bearer token.value})) w = (.ok (.ok ⟨401,body⟩),w) := by
    unfold act
    rw [run_perform,refused]
  refine ⟨client.httpError ⟨401,body⟩,?_,?_⟩
  · rw [exchange_token refreshes,run_bind_ok handle held]
    exact run_bind_ok handle sent
  · unfold ArangoClient.httpError
    split <;> exact ⟨rfl,rfl⟩

-- `send_request` and `send_body` drop the token on a 401; the bare exchange
-- leaves it where it is, and so the next one finds it again.
theorem fetches_stay_refused (refreshes : client.canRefreshToken = true)
    (stale : Stale handle w token) (urls : List String) :
    ∃ outcomes, run handle (fetches client urls) w = (.ok outcomes,w) ∧ outcomes.length = urls.length ∧
      ∀ outcome ∈ outcomes, ∃ err, outcome = .error err ∧ isUnauthorized err = true := by
  have counts : ∀ counter w, run (ε:=Error) handle (act (.count counter)) w = (.ok (),w) := by
    intro counter w
    unfold act
    rw [run_perform,stale.counted]
  induction urls with
  | nil => exact ⟨[],rfl,rfl,fun _ member => by cases member⟩
  | cons url rest ih =>
    obtain ⟨outcomes,ran,length,all⟩ := ih
    obtain ⟨err,refused,unauthorized,final⟩ := exchange_refused refreshes stale {method := "GET",url := url}
    have tried : run handle (attempt (client.exchange {method := "GET",url := url})) w =
        (.ok (.error err),w) := by
      rw [run_attempt,refused]
    have fetched : run handle (client.fetch url) w = (.error err,w) := retryLoop_fatal counts tried final _
    have first : run handle (attempt (client.fetch url)) w = (.ok (.error err),w) := by rw [run_attempt,fetched]
    refine ⟨.error err :: outcomes,?_,congrArg (· + 1) length,fun outcome member => ?_⟩
    · unfold fetches
      rw [run_bind_ok handle first,run_bind_ok handle ran]
      rfl
    · rcases List.mem_cons.mp member with rfl | later
      · exact ⟨err,rfl,unauthorized⟩
      · exact all outcome later

def revoking : Handler TokenOp TokenOp.Answer (Option CachedToken)
  | .cachedToken, w => (w,w)
  | .storeToken token, _ => ((),some token)
  | .invalidateToken, _ => ((),none)
  | .now, w => (0,w)
  | .login _, w => (answeredBy 200 TokenRotation.jwtBody,w)
  | .send request, w => (answeredBy (if request.authorization = .bearer "stale" then 401 else 200) [],w)
  | .count _, w => ((),w)

theorem revoked_stays : ∃ outcomes,
    run revoking (fetches rootClient ["/_admin/server/role","/_api/database"]) (some ⟨"stale",some 100⟩) =
    (.ok outcomes,some ⟨"stale",some 100⟩) ∧ outcomes.length = 2 ∧
    ∀ outcome ∈ outcomes, ∃ err, outcome = .error err ∧ isUnauthorized err = true := by
  refine fetches_stay_refused rfl ⟨rfl,?_,?_,fun _ _ => rfl⟩ _
  · rintro exp same
    cases same
    exact ⟨0,rfl,rfl⟩
  · intro request carried
    refine ⟨[],?_⟩
    change (answeredBy (if request.authorization = .bearer "stale" then 401 else 200) [],_) = _
    rw [if_pos carried]
    rfl

-- The same server, asked through `send_request`, is answered with a new token.
example : run revoking (rootClient.sendRequest "GET" "/_admin/server/role" none) (some ⟨"stale",some 100⟩) =
  (.ok [],some ⟨"fresh",none⟩) := rfl

end Fetch
end ArangoDataTools.TokenRefusals
