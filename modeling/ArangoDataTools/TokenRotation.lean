import ArangoDataTools.TokenCalls

namespace ArangoDataTools.TokenRotation
open Interaction Interaction.Program Tokens TokenCalls Jwt

section Protocol

-- What a task has learnt: the token it would send, whether an exchange was
-- refused, whether it has dropped the cached token since, and whether it was
-- refused again.
structure Phase where
  held : Option String := none
  refused : Bool := false
  renewed : Bool := false
  denied : Bool := false

def granted (signer : Signer) : Except ReqwestError HttpResponse → Option String
  | .ok response =>
    if ArangoClient.isSuccess response.status then
      ((signer.fromSlice response.body).bind fun value => value.get "jwt").bind Value.asStr
    else none
  | .error _ => none

def Phase.told (q : Phase) (final : Bool) (answer : Except ReqwestError HttpResponse) : Phase :=
  if rejects answer then {q with refused := true,denied := q.denied || final} else q

def carrying (signer : Signer) : Protocol TokenOp TokenOp.Answer Phase where
  permits q
    | .storeToken token => q.held = some token.value
    | .invalidateToken => q.refused = true
    | .send request => ∃ token, request.authorization = .bearer token ∧ q.held = some token
    | _ => True
  advance q
    | .cachedToken, answer => {q with held := Option.map CachedToken.value answer}
    | .login _, answer => {q.told true answer with held := granted signer answer}
    | .send _, answer => q.told q.renewed answer
    | .invalidateToken, _ => {q with held := none,renewed := true}
    | .storeToken _, _ | .now, _ | .count _, _ => q

end Protocol

section Told
variable {q : Phase} {final : Bool} {answer : Except ReqwestError HttpResponse}

@[simp] theorem told_renewed : (q.told final answer).renewed = q.renewed := by unfold Phase.told; split <;> rfl

theorem told_denied (denied : q.denied = true) : (q.told final answer).denied = true := by
  unfold Phase.told
  split
  · simp [denied]
  · exact denied

theorem told_rejected (rejected : rejects answer = true) :
    (q.told final answer).refused = true ∧ (final = true → (q.told final answer).denied = true) := by
  unfold Phase.told
  rw [if_pos rejected]
  exact ⟨rfl,fun last => by simp [last]⟩

end Told

structure Tried (before : Phase) (result : Except Error α) (q : Phase) : Prop where
  renewed : before.renewed = true → q.renewed = true
  denied : before.denied = true → q.denied = true
  refused : ∀ err, result = .error err → isUnauthorized err = true → q.refused = true ∧
    (before.renewed = true → q.denied = true)

structure Obtained (before : Phase) (result : Except Error String) (q : Phase) : Prop
    extends Tried before result q where
  held : ∀ token, result = .ok token → q.held = some token

section Exchanges
variable {client : ArangoClient} {username password : String} {before q : Phase}

theorem loggedIn_granted {answer : Except ReqwestError HttpResponse} {token : String}
    (logged : client.loggedIn username answer = .ok token) :
    granted client.signer answer = some token := by
  cases answer with
  | error err => cases logged
  | ok response =>
    unfold ArangoClient.loggedIn at logged
    unfold granted
    dsimp only at logged ⊢
    split at logged
    · rename_i success
      rw [if_pos success]
      split at logged
      · rename_i found
        rw [found,Except.ok.inj logged]
      · cases logged
    · cases logged

theorem tried_same {result : Except Error α}
    (authorized : ∀ err, result = .error err → isUnauthorized err = false) : Tried q result q :=
  ⟨id,id,fun err same was => by rw [authorized err same] at was; cases was⟩

theorem login_follows : Follows (carrying client.signer) (Obtained q) (client.login username password) q := by
  refine follows_lift_bind (fun url _ =>
    follows_lift_bind (fun body _ => ⟨trivial,fun answer => follows_lift ?_⟩) ?_) ?_
  · refine ⟨⟨fun renewed => ?_,fun denied => told_denied denied,
    fun err failed unauthorized => ?_⟩,fun token logged => loggedIn_granted logged⟩
    · exact told_renewed.trans renewed
    · obtain ⟨refused,final⟩ := @told_rejected q true answer (loggedIn_unauthorized failed unauthorized)
      exact ⟨refused,fun _ => final rfl⟩
  · intro err failed
    refine ⟨tried_same ?_,fun token same => by cases same⟩
    rintro err same
    cases same
    exact toVec_authorized failed
  · intro err failed
    refine ⟨tried_same ?_,fun token same => by cases same⟩
    rintro err same
    cases same
    exact config_authorized failed

theorem renewToken_follows (mode : client.auth = .jwtLogin username password) :
    Follows (carrying client.signer) (Obtained q) client.renewToken q := by
  unfold ArangoClient.renewToken ArangoClient.obtainToken
  rw [mode]
  refine follows_seq login_follows ?_ ?_
  · intro token middle obtained
    refine ⟨obtained.held token rfl,
      fun _ => ⟨⟨obtained.renewed,obtained.denied,fun _ same => by cases same⟩,?_⟩⟩
    rintro other same
    cases same
    exact obtained.held token rfl
  · rintro err middle ⟨tried,-⟩
    exact ⟨⟨tried.renewed,tried.denied,tried.refused⟩,fun token same => by cases same⟩

theorem obtained_held {result : Except Error String} {held : Option String}
    (obtained : Obtained {q with held := held} result before) :
    Obtained q result before := ⟨⟨obtained.renewed,obtained.denied,obtained.refused⟩,obtained.held⟩

theorem bearerToken_follows (mode : client.auth = .jwtLogin username password) :
    Follows (carrying client.signer) (Obtained q) client.bearerToken q := by
  refine ⟨trivial,fun cached => ?_⟩
  have anew : ∀ held, Follows (carrying client.signer) (Obtained q) client.renewToken {q with held := held} :=
    fun held => follows_mono (fun _ _ => obtained_held) (renewToken_follows mode)
  cases cached with
  | none => exact anew none
  | some cached =>
    have reused : Follows (carrying client.signer) (Obtained q) (done cached.value)
        {q with held := some cached.value} := by
      refine ⟨⟨id,id,fun _ same => by cases same⟩,?_⟩
      rintro token same
      cases same
      rfl
    obtain ⟨value,expiresAt⟩ := cached
    cases expiresAt with
    | none => exact reused
    | some exp =>
      refine ⟨trivial,fun now => ?_⟩
      cases lapsing : isExpiring now (some exp) with
      | true =>
        change Follows _ _ (if isExpiring now (some exp) then _ else _) _
        rw [if_pos lapsing]
        exact anew _
      | false =>
        change Follows _ _ (if isExpiring now (some exp) then _ else _) _
        rw [if_neg (by simp [lapsing])]
        exact reused

theorem exchange_follows (mode : client.auth = .jwtLogin username password) (request : HttpRequest) :
    Follows (carrying client.signer) (Tried q) (client.exchange request) q := by
  rw [exchange_token (by rw [ArangoClient.canRefreshToken,mode])]
  refine follows_seq (bearerToken_follows mode) ?_ ?_
  · intro token middle obtained
    refine ⟨⟨token,rfl,obtained.held token rfl⟩,fun answer => follows_lift ⟨?_,?_,?_⟩⟩
    · exact fun renewed => told_renewed.trans (obtained.renewed renewed)
    · exact fun denied => told_denied (obtained.denied denied)
    · intro err failed unauthorized
      obtain ⟨refused,final⟩ :=
        @told_rejected middle middle.renewed answer (received_unauthorized failed unauthorized)
      exact ⟨refused,fun renewed => final (obtained.renewed renewed)⟩
  · rintro err middle ⟨⟨renewed,denied,refused⟩,-⟩
    exact ⟨renewed,denied,fun other same => by cases same; exact refused err rfl⟩

abbrev Denied (q : Phase) : Prop := q.denied = true

theorem reauthenticating_follows (mode : client.auth = .jwtLogin username password)
    {tried : Exchange (List UInt8)}
    (attempted : ∀ q, Follows (carrying client.signer) (Tried q) tried q) :
    Follows (carrying client.signer) (Alarmed Denied q) (client.reauthenticating tried) q := by
  have refreshes : client.canRefreshToken = true := by
    unfold ArangoClient.canRefreshToken
    rw [mode]
  refine follows_attempt_bind (attempted q) fun result middle first => ?_
  cases result with
  | ok payload => exact ⟨first.denied,fun _ same => by cases same⟩
  | error err =>
    dsimp only
    cases unauthorized : isUnauthorized err with
    | false =>
      rw [if_neg (by simp)]
      refine ⟨first.denied,fun other same was => ?_⟩
      cases same
      rw [unauthorized] at was
      cases was
    | true =>
      rw [if_pos (by simp [refreshes])]
      refine ⟨(first.refused err rfl unauthorized).1,fun _ => ?_⟩
      refine follows_attempt_bind (attempted _) fun result last second => ?_
      cases result with
      | ok payload => exact ⟨second.denied ∘ first.denied,fun _ same => by cases same⟩
      | error err =>
        refine ⟨second.denied ∘ first.denied,fun other same was => ?_⟩
        cases same
        rw [explain_unauthorized] at was
        exact (second.refused err rfl was).2 rfl

theorem call_follows (mode : client.auth = .jwtLogin username password) (op : Call) :
    Follows (carrying client.signer) (Alarmed Denied q) (op.run client) q := by
  have looped : ∀ tried, (∀ q, Follows (carrying client.signer) (Tried q) tried q) →
      Follows (carrying client.signer) (Alarmed Denied q)
        (client.retrying (client.reauthenticating tried)) q := by
    intro tried attempted
    refine @retrying_follows _ _ _ client (fun later => q.denied = true → later.denied = true) _ _ ?_ ?_ ?_ id
    · intro later starts
      exact follows_mono (fun _ _ called => ⟨called.1 ∘ starts,called.2⟩)
        (reauthenticating_follows mode attempted)
    · exact fun _ _ _ called => called.1
    · exact fun _ _ => ⟨trivial,rfl⟩
  cases op with
  | request method path payload =>
    refine looped _ fun q => follows_lift_bind (fun url _ => exchange_follows mode _) ?_
    intro err failed
    refine tried_same ?_
    rintro other same
    cases same
    exact config_authorized failed
  | body method url contentType payload => exact looped _ fun q => exchange_follows mode _

end Exchanges

section Rotation

-- The tokens the server accepts at the moment, and whether it has changed them
-- without having been asked to.
structure World where
  cache : Option CachedToken
  clock : Nat
  rotated : Bool
  accepted : List String

def CacheCurrent (w : World) : Prop := ∀ token, w.cache = some token → token.value ∈ w.accepted

-- The server accepts what a login gave out, answers logins other than by 401 and
-- never answers 401 to a token that it accepts. All else may fail in any way.
inductive Serves (signer : Signer) (w : World) : (op : TokenOp) → op.Answer → World → Prop where
  | cachedToken : Serves signer w .cachedToken w.cache w
  | storeToken (token : CachedToken) : Serves signer w (.storeToken token) () {w with cache := some token}
  | invalidateToken : Serves signer w .invalidateToken () {w with cache := none}
  | now (clock : Nat) : w.clock ≤ clock → Serves signer w .now clock {w with clock := clock}
  | count (counter : Counter) : Serves signer w (.count counter) () w
  | login (request : HttpRequest) (answer : Except ReqwestError HttpResponse) (token : String) :
      granted signer answer = some token →
      Serves signer w (.login request) answer {w with accepted := token :: w.accepted}
  | loginFailed (request : HttpRequest) (answer : Except ReqwestError HttpResponse) :
      granted signer answer = none →
      rejects answer = false → Serves signer w (.login request) answer w
  | send (request : HttpRequest) (answer : Except ReqwestError HttpResponse) :
      (∀ token, request.authorization = .bearer token → token ∈ w.accepted → rejects answer = false) →
      Serves signer w (.send request) answer w

inductive Rotates : World → World → Prop where
  | not : Rotates w w
  | once (accepted : List String) : w.rotated = false → Rotates w {w with rotated := true,accepted := accepted}

def rotating (ι : Type) (signer : Signer) : Environment ι TokenOp TokenOp.Answer World :=
  fun _ op w answer after => ∃ served, Serves signer w op answer served ∧ Rotates served after

variable {ι α : Type} {signer : Signer} {w w' : World} {q : Phase} {op : TokenOp} {answer : op.Answer}

-- No token from before the rotation is stored after it.
def Undelayed (s : Tasks ι α World Phase) (event : Event ι TokenOp TokenOp.Answer) : Prop :=
  ∀ i token answer, event = .call i (.storeToken token) answer → s.world.rotated = true →
    token.value ∈ s.world.accepted

structure Fine (w : World) (q : Phase) : Prop where
  quiet : q.denied = false
  early : w.rotated = false → ∀ token, q.held = some token → token ∈ w.accepted
  refused : q.refused = true → w.rotated = true
  renewed : q.renewed = true → w.rotated = true ∧ CacheCurrent w ∧ ∀ token, q.held = some token →
    token ∈ w.accepted

structure Sound (phases : ι → Phase) (w : World) : Prop where
  fine : ∀ i, Fine w (phases i)
  early : w.rotated = false → CacheCurrent w

structure Grows (w w' : World) : Prop where
  rotated : w'.rotated = w.rotated
  accepted : ∀ token ∈ w.accepted, token ∈ w'.accepted
  cache : CacheCurrent w → CacheCurrent w'

theorem serves_grows (serves : Serves signer w op answer w')
    (current : ∀ token, op = .storeToken token → token.value ∈ w.accepted) :
    Grows w w' := by
  cases serves with
  | cachedToken | count | loginFailed | send | now => exact ⟨rfl,fun _ member => member,id⟩
  | storeToken token =>
    refine ⟨rfl,fun _ member => member,fun _ other stored => ?_⟩
    cases stored
    exact current token rfl
  | invalidateToken => exact ⟨rfl,fun _ member => member,fun _ _ stored => by cases stored⟩
  | login => exact ⟨rfl,fun _ member => List.mem_cons_of_mem _ member,fun cached token stored =>
      List.mem_cons_of_mem _ (cached token stored)⟩

theorem fine_grows (grows : Grows w w') (fine : Fine w q) : Fine w' q := by
  obtain ⟨rotated,accepted,cache⟩ := grows
  refine ⟨fine.quiet,fun early token held => ?_,fun refused => rotated.trans (fine.refused refused),
    fun renewed => ?_⟩
  · exact accepted token (fine.early (rotated.symm.trans early) token held)
  · obtain ⟨late,cached,held⟩ := fine.renewed renewed
    exact ⟨rotated.trans late,cache cached,fun token has => accepted token (held token has)⟩

theorem granted_answered {answer : Except ReqwestError HttpResponse}
    (granted_ : granted signer answer = some token) : rejects answer = false := by
  cases answer with
  | error err => rfl
  | ok response =>
    unfold granted at granted_
    dsimp only at granted_
    split at granted_
    · rename_i success
      unfold ArangoClient.isSuccess at success
      have bounds := (Bool.and_eq_true _ _).mp success
      have below := of_decide_eq_true bounds.2
      exact beq_eq_false_iff_ne.mpr (by omega)
    · cases granted_

theorem told_kept {final : Bool} {answer : Except ReqwestError HttpResponse}
    (accepted : rejects answer = false) : q.told final answer = q := by
  unfold Phase.told
  rw [accepted]
  rfl

theorem fine_own (serves : Serves signer w op answer w')
    (permitted : (carrying signer).permits q op) (fine : Fine w q)
    (cached : w.rotated = false → CacheCurrent w) (current : ∀ token, op = .storeToken token →
    token.value ∈ w.accepted) :
    Fine w' ((carrying signer).advance q op answer) := by
  have kept := fine_grows (serves_grows serves current) fine
  cases serves with
  | storeToken | count | now => exact kept
  | cachedToken =>
    have holds : CacheCurrent w → ∀ token, w.cache.map CachedToken.value = some token → token ∈ w.accepted := by
      rintro cached token held
      obtain ⟨entry,stored,rfl⟩ := Option.map_eq_some_iff.mp held
      exact cached entry stored
    refine ⟨fine.quiet,fun early => holds (cached early),fine.refused,fun renewed => ?_⟩
    obtain ⟨late,current,-⟩ := fine.renewed renewed
    exact ⟨late,current,holds current⟩
  | invalidateToken =>
    have late := fine.refused permitted
    exact ⟨fine.quiet,fun _ _ held => (by cases held),fun _ => late,fun _ => ⟨late,
      fun _ stored => (by cases stored),fun _ held => (by cases held)⟩⟩
  | login request answer token given =>
    have holds : ∀ other, granted signer answer = some other → other ∈ token :: w.accepted := by
      rintro other same
      rw [given] at same
      cases same
      exact List.mem_cons_self
    change Fine _ {q.told true answer with held := granted signer answer}
    rw [told_kept (granted_answered given)]
    exact ⟨kept.quiet,fun _ => holds,kept.refused,fun renewed =>
      ⟨(kept.renewed renewed).1,(kept.renewed renewed).2.1,holds⟩⟩
  | loginFailed request answer refused answered =>
    have none_ : ∀ other, granted signer answer = some other → other ∈ w.accepted := by
      rintro other same
      rw [refused] at same
      cases same
    change Fine _ {q.told true answer with held := granted signer answer}
    rw [told_kept answered]
    exact ⟨kept.quiet,fun _ => none_,kept.refused,fun renewed =>
      ⟨(kept.renewed renewed).1,(kept.renewed renewed).2.1,none_⟩⟩
  | send request answer unrefused =>
    obtain ⟨token,carried,held⟩ := permitted
    change Fine _ (q.told q.renewed answer)
    cases rejected : rejects answer with
    | false =>
      rw [told_kept rejected]
      exact kept
    | true =>
      have stale : token ∉ w.accepted := by
        intro member
        rw [unrefused token carried member] at rejected
        cases rejected
      have first : q.renewed = false := by
        rw [Bool.eq_false_iff]
        intro renewed
        exact stale ((fine.renewed renewed).2.2 token held)
      have late : w.rotated = true := by
        rw [← Bool.not_eq_false]
        intro early
        exact stale (fine.early early token held)
      unfold Phase.told
      rw [if_pos rejected]
      refine ⟨?_,fun early => fine.early early,fun _ => late,fun renewed => ?_⟩
      · rw [first,fine.quiet]
        rfl
      · rw [first] at renewed
        cases renewed

theorem fine_rotates (rotates : Rotates w w') (fine : Fine w q) : Fine w' q := by
  cases rotates with
  | not => exact fine
  | once accepted early =>
    refine ⟨fine.quiet,fun early => (by cases early),fun _ => rfl,fun renewed => ?_⟩
    rw [(fine.renewed renewed).1] at early
    cases early

theorem sound_step [DecidableEq ι] {s next : Tasks ι α World Phase} {event : Event ι TokenOp TokenOp.Answer}
    (following : Following (carrying signer) s)
    (sound : Sound s.phases s.world) (undelayed : Undelayed s event)
      (step : PoolStep (rotating ι signer) (carrying signer) s event next) :
    Sound next.phases next.world := by
  cases step with
  | stop head => exact sound
  | @call i op rest answer after head answered =>
    obtain ⟨served,serves,rotates⟩ := answered
    have permitted := following_permits following head
    have current : ∀ token, op = .storeToken token → token.value ∈ s.world.accepted := by
      rintro token rfl
      cases late : s.world.rotated with
      | true => exact undelayed i token answer rfl late
      | false => exact (sound.fine i).early late token.value permitted
    have grows := serves_grows serves current
    refine ⟨fun j => fine_rotates rotates ?_,fun early => ?_⟩
    · by_cases equal : j = i
      · subst j
        dsimp only
        rw [Function.update_self]
        exact fine_own serves permitted (sound.fine i) sound.early current
      · dsimp only
        rw [Function.update_of_ne equal]
        exact fine_grows grows (sound.fine j)
    · cases rotates with
      | not => exact grows.cache (sound.early (grows.rotated.symm.trans early))
      | once => cases early

theorem rotation_survived [DecidableEq ι] {client : ArangoClient} {username password : String}
    (mode : client.auth = .jwtLogin username password)
    (databases : ι → String) (tasks : ι → ClientTask α) (cached : CacheCurrent w) {s : Tasks ι α World Phase}
    (path : PoolReached (rotating ι client.signer) (carrying client.signer) Undelayed
      (started client databases tasks {} w) s) {i : ι}
    {told : List Outcome} {result : Except Error α}
      (concluded : (s.threads i).conclusion = some (.ok (told,result))) :
    ∀ err, .error err ∈ told → isUnauthorized err = false := by
  have called : ∀ database (op : Call) q, Follows (carrying client.signer) (Alarmed Denied q)
      (op.run (client.withDatabase database)) q :=
    fun database op q => @call_follows (client.withDatabase database) username password q mode op
  have sound : Sound s.phases s.world := by
    refine pool_invariant ?_ (started_following called) sound_step path
    exact ⟨fun _ => ⟨rfl,fun _ _ held => (by cases held),fun refused => (by cases refused),
      fun renewed => (by cases renewed)⟩,fun _ => cached⟩
  refine quiet_tasks called path ?_ concluded
  exact Bool.eq_false_iff.mp (sound.fine i).quiet

end Rotation

section Samples

def jwtBody : List UInt8 := Percent.utf8 "\x7b\"jwt\":\"fresh\"\x7d".toList

def rootSigner : Signer where
  serialize _ := .ok (Percent.utf8 "\x7b\"password\":\"secret\",\"username\":\"root\"\x7d".toList)
  fromSlice bytes := if bytes = jwtBody then some (.object [("jwt",.string "fresh")]) else none
  hmac _ _ := .error "no key"

def rootClient : ArangoClient where
  auth := .jwtLogin "root" "secret"
  database := "_system"
  retry := {maxAttempts := 1}
  join reference := .ok ("http://localhost:8529" ++ reference)
  signer := rootSigner
  statusText _ := "401 Unauthorized"

def asking : ClientTask Unit := .call (.request "GET" "/_api/version" none) fun _ => done ()
def earlier : World := {cache := some ⟨"stale",none⟩,clock := 0,rotated := false,accepted := ["stale"]}
def answeredBy (status : Nat) (body : List UInt8) : Except ReqwestError HttpResponse := .ok ⟨status,body⟩

-- The server changes its mind while the task holds the cached token.
theorem asking_survives : ∃ s, PoolReached (rotating Unit rootSigner) (carrying rootSigner) Undelayed
    (started rootClient (fun _ => "shop") (fun _ => asking) {} earlier) s ∧
    (s.threads ()).conclusion = some (.ok ([.ok []],.ok ())) ∧
      ∀ err, .error err ∈ [(.ok [] : Outcome)] → isUnauthorized err = false := by
  have freely : ∀ {s : Tasks Unit Unit World Phase} {op : TokenOp} {answer : op.Answer},
      (∀ token, op ≠ .storeToken token) →
      Undelayed s (.call () op answer) := by
    intro s op answer other i token same equal
    cases equal
    exact absurd rfl (other token)
  have timely : ∀ {s : Tasks Unit Unit World Phase}, "fresh" ∈ s.world.accepted →
      Undelayed s (.call () (.storeToken ⟨"fresh",none⟩) ()) := by
    intro s member i token answer same late
    cases same
    exact member
  have first : PoolReached (rotating Unit rootSigner) (carrying rootSigner) Undelayed
      (started rootClient (fun _ => "shop") (fun _ => asking) {} earlier) _ :=
    .step .start (freely (by simp)) (.call rfl ⟨_,.cachedToken,.once [] rfl⟩)
  have refused := first.step (freely (by simp))
      (.call rfl ⟨_,.send _ (answeredBy 401 []) (fun _ _ member => (by cases member)),.not⟩)
  have dropped := refused.step (freely (by simp)) (.call rfl ⟨_,.invalidateToken,.not⟩)
  have empty := dropped.step (freely (by simp)) (.call rfl ⟨_,.cachedToken,.not⟩)
  have logged := empty.step (freely (by simp))
      (.call rfl ⟨_,.login _ (answeredBy 200 jwtBody) "fresh" rfl,.not⟩)
  have stored := logged.step (timely List.mem_cons_self) (.call rfl ⟨_,.storeToken _,.not⟩)
  have answered := stored.step (freely (by simp))
      (.call rfl ⟨_,.send _ (answeredBy 200 []) (fun _ _ _ => rfl),.not⟩)
  have current : CacheCurrent earlier := by
    rintro token stored
    cases stored
    exact List.mem_cons_self
  refine ⟨_,answered,rfl,?_⟩
  exact @rotation_survived Unit Unit earlier _ rootClient "root" "secret" rfl _ _ current _ answered
    () _ (.ok ()) rfl

-- Without that assumption a task can find, in the cache it has just dropped, the
-- token another one was given before.
theorem late_store_denied : ∃ (s : Tasks Bool Unit World Phase) (told : List Outcome) (err : Error),
    PoolReached (rotating Bool rootSigner) (carrying rootSigner) (fun _ _ => True)
      (started rootClient (fun _ => "shop") (fun _ => asking) {} ⟨none,0,false,[]⟩) s ∧
      (s.threads false).conclusion = some (.ok (told,.ok ())) ∧ .error err ∈ told ∧
      isUnauthorized err = true := by
  have first : PoolReached (rotating Bool rootSigner) (carrying rootSigner) (fun _ _ => True)
      (started rootClient (fun _ => "shop") (fun _ => asking) {} ⟨none,0,false,[]⟩) _ :=
    .step .start trivial (.call (i := true) rfl ⟨_,.cachedToken,.not⟩)
  have early := first.step trivial
      (.call (i := true) rfl ⟨_,.login _ (answeredBy 200 jwtBody) "fresh" rfl,.not⟩)
  have empty := early.step trivial (.call (i := false) rfl ⟨_,.cachedToken,.not⟩)
  have logged := empty.step trivial
      (.call (i := false) rfl ⟨_,.login _ (answeredBy 200 jwtBody) "fresh" rfl,.not⟩)
  have stored := logged.step trivial (.call (i := false) rfl ⟨_,.storeToken _,.once [] rfl⟩)
  have refused := stored.step trivial
      (.call (i := false) rfl ⟨_,.send _ (answeredBy 401 []) (fun _ _ member => (by cases member)),.not⟩)
  have dropped := refused.step trivial (.call (i := false) rfl ⟨_,.invalidateToken,.not⟩)
  have late := dropped.step trivial (.call (i := true) rfl ⟨_,.storeToken _,.not⟩)
  have found := late.step trivial (.call (i := false) rfl ⟨_,.cachedToken,.not⟩)
  have denied := found.step trivial
      (.call (i := false) rfl ⟨_,.send _ (answeredBy 401 []) (fun _ _ member => (by cases member)),.not⟩)
  exact ⟨_,_,_,denied,rfl,List.mem_cons_self,rfl⟩

end Samples
end ArangoDataTools.TokenRotation
