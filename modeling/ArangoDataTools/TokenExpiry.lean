import ArangoDataTools.TokenCalls

namespace ArangoDataTools.TokenExpiry
open Interaction Interaction.Program Tokens TokenCalls Jwt

section Protocol

-- The cached token a task has read, the clock as it read it since, and whether
-- the server has ever refused it.
structure Phase where
  held : Option CachedToken := none
  checked : Option Nat := none
  denied : Bool := false

def Minted (signer : Signer) (secret : String) (issued : Nat) (token : CachedToken) : Prop :=
  mintSuperuserJwt signer issued secret = .ok token.value ∧ token.expiresAt = tokenExpiry signer token.value

-- A token to send was minted at the last reading of the clock, or was more than
-- a minute from its expiry then.
def Timely (signer : Signer) (secret : String) (q : Phase) (token : String) : Prop :=
  (∃ issued, q.checked = some issued ∧ mintSuperuserJwt signer issued secret = .ok token) ∨
    ∃ cached, q.held = some cached ∧ cached.value = token ∧
      ∀ exp, cached.expiresAt = some exp → ∃ now, q.checked = some now ∧ now + expirySkewSecs < exp

def minting (signer : Signer) (secret : String) : Protocol TokenOp TokenOp.Answer Phase where
  permits q
    | .storeToken token => ∃ issued, q.checked = some issued ∧ Minted signer secret issued token
    | .send request => ∃ token, request.authorization = .bearer token ∧ Timely signer secret q token
    | .login _ => False
    | _ => True
  advance q
    | .cachedToken, answer => {q with held := answer,checked := none}
    | .now, answer => {q with checked := some answer}
    | .send _, answer => {q with denied := q.denied || rejects answer}
    | .storeToken _, _ | .invalidateToken, _ | .login _, _ | .count _, _ => q

end Protocol

section Exchanges
variable {client : ArangoClient} {secret : String} {q : Phase}

theorem mint_authorized {signer : Signer} {issued : Nat} {err : Error}
    (failed : mintSuperuserJwt signer issued secret = .error err) :
    isUnauthorized err = false := by
  unfold mintSuperuserJwt signHs256 at failed
  cases top : signer.toVec header with
  | error other =>
    rw [top] at failed
    cases failed
    exact toVec_authorized top
  | ok encodedHeader =>
    cases claims : signer.toVec (superuserClaims issued) with
    | error other =>
      rw [top,claims] at failed
      cases failed
      exact toVec_authorized claims
    | ok encodedPayload =>
      rw [top,claims] at failed
      dsimp only [Bind.bind,Except.bind] at failed
      split at failed
      · cases failed
      · cases failed
        rfl

structure Obtained (signer : Signer) (secret : String) (before : Phase)
    (result : Except Error String) (q : Phase) : Prop where
  denied : q.denied = before.denied
  authorized : ∀ err, result = .error err → isUnauthorized err = false
  timely : ∀ token, result = .ok token → Timely signer secret q token

theorem renewToken_follows (mode : client.auth = .jwtSecret secret) :
    Follows (minting client.signer secret) (Obtained client.signer secret q) client.renewToken q := by
  unfold ArangoClient.renewToken ArangoClient.obtainToken
  rw [mode]
  refine ⟨trivial,fun issued =>
    follows_lift_bind (fun token minted => ⟨⟨issued,rfl,minted,rfl⟩,fun _ => ?_⟩) ?_⟩
  · refine ⟨rfl,fun _ same => (by cases same),?_⟩
    rintro other same
    cases same
    exact .inl ⟨issued,rfl,minted⟩
  · intro err failed
    refine ⟨rfl,?_,fun _ same => (by cases same)⟩
    rintro other same
    cases same
    exact mint_authorized failed

theorem bearerToken_follows (mode : client.auth = .jwtSecret secret) :
    Follows (minting client.signer secret) (Obtained client.signer secret q) client.bearerToken q := by
  refine ⟨trivial,fun cached => ?_⟩
  have anew : ∀ held checked,
      Follows (minting client.signer secret) (Obtained client.signer secret q) client.renewToken
      {q with held := held,checked := checked} :=
    fun held checked => follows_mono
      (fun _ _ obtained => ⟨obtained.denied,obtained.authorized,obtained.timely⟩) (renewToken_follows mode)
  cases cached with
  | none => exact anew none none
  | some cached =>
    obtain ⟨value,expiresAt⟩ := cached
    cases expiresAt with
    | none =>
      refine ⟨rfl,fun _ same => (by cases same),?_⟩
      rintro token same
      cases same
      exact .inr ⟨_,rfl,rfl,fun _ same => by cases same⟩
    | some exp =>
      refine ⟨trivial,fun now => ?_⟩
      change Follows _ _ (if isExpiring now (some exp) then _ else _) _
      cases lapsing : isExpiring now (some exp) with
      | true =>
        rw [if_pos rfl]
        exact anew _ _
      | false =>
        rw [if_neg Bool.false_ne_true]
        refine ⟨rfl,fun _ same => (by cases same),?_⟩
        rintro token same
        cases same
        refine .inr ⟨_,rfl,rfl,?_⟩
        rintro other same
        cases same
        exact ⟨now,rfl,Nat.lt_of_not_le (of_decide_eq_false lapsing)⟩

abbrev Denied (q : Phase) : Prop := q.denied = true

theorem exchange_follows (mode : client.auth = .jwtSecret secret) (request : HttpRequest) :
    Follows (minting client.signer secret) (Alarmed Denied q) (client.exchange request) q := by
  rw [exchange_token (by rw [ArangoClient.canRefreshToken,mode])]
  refine follows_seq (bearerToken_follows mode) ?_ ?_
  · intro token middle obtained
    refine ⟨⟨token,rfl,obtained.timely token rfl⟩,fun answer =>
      follows_lift ⟨fun denied => ?_,fun err failed unauthorized => ?_⟩⟩
    · change (middle.denied || rejects answer) = true
      rw [obtained.denied,denied]
      rfl
    · change (middle.denied || rejects answer) = true
      rw [received_unauthorized failed unauthorized,Bool.or_true]
  · rintro err middle obtained
    refine ⟨fun denied => obtained.denied.trans denied,fun other same unauthorized => ?_⟩
    cases same
    rw [obtained.authorized err rfl] at unauthorized
    cases unauthorized

theorem alarmed_same {result : Outcome}
    (authorized : ∀ err, result = .error err → isUnauthorized err = false) : Alarmed Denied q result q :=
  ⟨id,fun err same was => by rw [authorized err same] at was; cases was⟩

theorem reauthenticating_follows {tried : Exchange (List UInt8)}
    (attempted : ∀ q, Follows (minting client.signer secret) (Alarmed Denied q) tried q) :
    Follows (minting client.signer secret) (Alarmed Denied q) (client.reauthenticating tried) q := by
  refine follows_attempt_bind (attempted q) fun result middle first => ?_
  cases result with
  | ok payload => exact first
  | error err =>
    dsimp only
    split
    · refine ⟨trivial,fun _ => follows_attempt_bind (attempted middle) fun result last second => ?_⟩
      cases result with
      | ok payload => exact ⟨second.1 ∘ first.1,second.2⟩
      | error err =>
        refine ⟨second.1 ∘ first.1,fun other same was => ?_⟩
        cases same
        rw [explain_unauthorized] at was
        exact second.2 err rfl was
    · exact first

theorem call_follows (mode : client.auth = .jwtSecret secret) (op : Call) :
    Follows (minting client.signer secret) (Alarmed Denied q) (op.run client) q := by
  have looped : ∀ tried, (∀ q, Follows (minting client.signer secret) (Alarmed Denied q) tried q) →
      Follows (minting client.signer secret) (Alarmed Denied q)
        (client.retrying (client.reauthenticating tried)) q := by
    intro tried attempted
    refine @retrying_follows _ _ _ client (fun later => q.denied = true → later.denied = true) _ _ ?_ ?_ ?_ id
    · intro later starts
      exact follows_mono (fun _ _ called => ⟨called.1 ∘ starts,called.2⟩) (reauthenticating_follows attempted)
    · exact fun _ _ _ called => called.1
    · exact fun _ _ => ⟨trivial,rfl⟩
  cases op with
  | request method path payload =>
    refine looped _ fun q => follows_lift_bind (fun url _ => exchange_follows mode _) ?_
    intro err failed
    refine alarmed_same ?_
    rintro other same
    cases same
    exact config_authorized failed
  | body method url contentType payload => exact looped _ fun q => exchange_follows mode _

end Exchanges

section Clock

structure World where
  cache : Option CachedToken
  clock : Nat

-- The server shares the clock and the secret, and answers 401 to no token that
-- was minted under the secret and has not expired. All else may fail in any way.
inductive Serves (signer : Signer) (secret : String) (w : World) : (op : TokenOp) → op.Answer →
    World → Prop where
  | cachedToken : Serves signer secret w .cachedToken w.cache w
  | storeToken (token : CachedToken) : Serves signer secret w (.storeToken token) ()
      {w with cache := some token}
  | invalidateToken : Serves signer secret w .invalidateToken () {w with cache := none}
  | now : Serves signer secret w .now w.clock w
  | count (counter : Counter) : Serves signer secret w (.count counter) () w
  | send (request : HttpRequest) (answer : Except ReqwestError HttpResponse) :
      (∀ token issued, request.authorization = .bearer token →
      mintSuperuserJwt signer issued secret = .ok token →
        w.clock < issued + mintedLifetimeSecs → rejects answer = false) →
      Serves signer secret w (.send request) answer w

-- Time passes between any two operations.
def ticking (ι : Type) (signer : Signer) (secret : String) : Environment ι TokenOp TokenOp.Answer World :=
  fun _ op w answer after => ∃ served, Serves signer secret w op answer served ∧
    served.clock ≤ after.clock ∧ after.cache = served.cache

variable {ι α : Type} {signer : Signer} {secret : String} {w w' : World} {q : Phase} {op : TokenOp}
  {answer : op.Answer}

-- A request leaves within a minute of the task's last reading of the clock.
def Prompt (s : Tasks ι α World Phase) (event : Event ι TokenOp TokenOp.Answer) : Prop :=
  ∀ i request answer, event = .call i (.send request) answer → ∀ now, (s.phases i).checked = some now →
    s.world.clock ≤ now + expirySkewSecs

def Rooted (signer : Signer) (secret : String) (cache : Option CachedToken) : Prop :=
  ∀ token, cache = some token → ∃ issued, Minted signer secret issued token

structure Sound (signer : Signer) (secret : String) (w : World) (q : Phase) : Prop where
  quiet : q.denied = false
  held : Rooted signer secret q.held
  checked : ∀ now, q.checked = some now → now ≤ w.clock

theorem sound_later (sound : Sound signer secret w q) (later : w.clock ≤ w'.clock) : Sound signer secret w' q :=
  ⟨sound.quiet,sound.held,fun now read => (sound.checked now read).trans later⟩

-- What serde_json wrote of the claims, it reads.
def Reads (signer : Signer) : Prop :=
  ∀ issued bytes, signer.toVec (superuserClaims issued) = .ok bytes →
    signer.fromSlice bytes = some (superuserClaims issued)

theorem timely_unexpired (reads : Reads signer) (sound : Sound signer secret w q) {token : String}
    (timely : Timely signer secret q token)
    (prompt : ∀ now, q.checked = some now → w.clock ≤ now + expirySkewSecs) :
    ∃ issued, mintSuperuserJwt signer issued secret = .ok token ∧ w.clock < issued + mintedLifetimeSecs := by
  rcases timely with ⟨issued,read,minted⟩ | ⟨cached,held,rfl,fresh⟩
  · refine ⟨issued,minted,?_⟩
    have bound := prompt issued read
    unfold expirySkewSecs at bound
    unfold mintedLifetimeSecs
    omega
  · obtain ⟨issued,minted,expires⟩ := sound.held cached held
    have expiry := (minted_token issued minted (reads issued)).2.1
    obtain ⟨now,read,ahead⟩ := fresh (issued + 3600) (expires.trans expiry)
    refine ⟨issued,minted,?_⟩
    have bound := prompt now read
    unfold mintedLifetimeSecs
    omega

theorem sound_own (reads : Reads signer) (serves : Serves signer secret w op answer w')
    (permitted : (minting signer secret).permits q op)
    (sound : Sound signer secret w q) (rooted : Rooted signer secret w.cache)
    (prompt : ∀ request, op = .send request → ∀ now, q.checked = some now → w.clock ≤ now + expirySkewSecs) :
    Sound signer secret w' ((minting signer secret).advance q op answer) ∧
    Rooted signer secret w'.cache ∧ w'.clock = w.clock := by
  cases serves with
  | cachedToken => exact ⟨⟨sound.quiet,rooted,fun _ same => (by cases same)⟩,rooted,rfl⟩
  | storeToken token =>
    refine ⟨⟨sound.quiet,sound.held,sound.checked⟩,?_,rfl⟩
    obtain ⟨issued,-,minted⟩ := permitted
    rintro other same
    cases same
    exact ⟨issued,minted⟩
  | invalidateToken => exact ⟨⟨sound.quiet,sound.held,sound.checked⟩,fun _ same => (by cases same),rfl⟩
  | now =>
    refine ⟨⟨sound.quiet,sound.held,?_⟩,rooted,rfl⟩
    rintro now same
    cases same
    exact Nat.le_refl _
  | count counter => exact ⟨sound,rooted,rfl⟩
  | send request answer unrefused =>
    obtain ⟨token,carried,timely⟩ := permitted
    obtain ⟨issued,minted,unexpired⟩ := timely_unexpired reads sound timely (prompt request rfl)
    refine ⟨⟨?_,sound.held,sound.checked⟩,rooted,rfl⟩
    change (q.denied || rejects answer) = false
    rw [sound.quiet,unrefused token issued carried minted unexpired]
    rfl

theorem sound_step [DecidableEq ι] (reads : Reads signer) {s next : Tasks ι α World Phase}
    {event : Event ι TokenOp TokenOp.Answer}
    (following : Following (minting signer secret) s)
    (sound : (∀ i, Sound signer secret s.world (s.phases i)) ∧ Rooted signer secret s.world.cache)
      (prompt : Prompt s event)
    (step : PoolStep (ticking ι signer secret) (minting signer secret) s event next) :
    (∀ i, Sound signer secret next.world (next.phases i)) ∧ Rooted signer secret next.world.cache := by
  cases step with
  | stop head => exact sound
  | @call i op rest answer after head answered =>
    obtain ⟨served,serves,later,cache⟩ := answered
    obtain ⟨own,rooted,clock⟩ := sound_own reads serves (following_permits following head) (sound.1 i) sound.2
      (fun request same => by subst same; exact prompt i request answer rfl)
    refine ⟨fun j => ?_,fun token stored => rooted token (cache.symm.trans stored)⟩
    dsimp only
    by_cases equal : j = i
    · subst j
      rw [Function.update_self]
      exact sound_later own later
    · rw [Function.update_of_ne equal]
      exact sound_later (sound.1 j) (clock ▸ later)

theorem superuser_never_expires [DecidableEq ι] {client : ArangoClient}
    (mode : client.auth = .jwtSecret secret) (reads : Reads client.signer)
    (databases : ι → String) (tasks : ι → ClientTask α) (clock : Nat) {s : Tasks ι α World Phase}
    (path : PoolReached (ticking ι client.signer secret) (minting client.signer secret) Prompt
      (started client databases tasks {} ⟨none,clock⟩) s)
    {i : ι} {told : List Outcome} {result : Except Error α}
      (concluded : (s.threads i).conclusion = some (.ok (told,result))) :
    ∀ err, .error err ∈ told → isUnauthorized err = false := by
  have called : ∀ database (op : Call) q, Follows (minting client.signer secret) (Alarmed Denied q)
      (op.run (client.withDatabase database)) q :=
    fun database op q => @call_follows (client.withDatabase database) secret q mode op
  have sound : (∀ i, Sound client.signer secret s.world (s.phases i)) ∧
      Rooted client.signer secret s.world.cache := by
    refine pool_invariant ?_ (started_following called) (sound_step reads) path
    exact ⟨fun _ => ⟨rfl,fun _ same => (by cases same),fun _ same => (by cases same)⟩,fun _ same =>
      (by cases same)⟩
  refine quiet_tasks called path ?_ concluded
  exact Bool.eq_false_iff.mp (sound.1 i).quiet

end Clock

section Samples

def superuser : ArangoClient where
  auth := .jwtSecret "supersecretjwtkey"
  database := "_system"
  join reference := .ok ("http://localhost:8529" ++ reference)
  signer := sample
  statusText _ := "401 Unauthorized"

def asking : ClientTask Unit := .call (.request "GET" "/_api/version" none) fun _ => done ()

theorem superuser_answered : ∃ s, PoolReached (ticking Unit sample "supersecretjwtkey")
    (minting sample "supersecretjwtkey") Prompt
    (started superuser (fun _ => "shop") (fun _ => asking) {} ⟨none,1700000000⟩) s ∧
    (s.threads ()).conclusion = some (.ok ([.ok []],.ok ())) ∧
      ∀ err, .error err ∈ [(.ok [] : Outcome)] → isUnauthorized err = false := by
  have quietly : ∀ {s : Tasks Unit Unit World Phase} {op : TokenOp} {answer : op.Answer},
      (∀ request, op ≠ .send request) →
      Prompt s (.call () op answer) := by
    intro s op answer other i request answer same
    cases same
    exact absurd rfl (other request)
  have read : PoolReached (ticking Unit sample "supersecretjwtkey") (minting sample "supersecretjwtkey") Prompt
      (started superuser (fun _ => "shop") (fun _ => asking) {} ⟨none,1700000000⟩) _ :=
    .step .start (quietly (by simp)) (.call rfl ⟨_,.cachedToken,Nat.le_refl _,rfl⟩)
  have minted := read.step (quietly (by simp)) (.call rfl ⟨_,.now,Nat.le_refl _,rfl⟩)
  have stored := minted.step (quietly (by simp)) (.call rfl ⟨_,.storeToken _,Nat.le_refl _,rfl⟩)
  have answered := stored.step ?_
      (.call (i := ()) rfl ⟨_,.send _ (.ok ⟨200,[]⟩) (fun _ _ _ _ _ => rfl),Nat.le_refl _,rfl⟩)
  · refine ⟨_,answered,rfl,?_⟩
    exact @superuser_never_expires Unit Unit "supersecretjwtkey" _ superuser rfl sample_reads _ _ _
      _ answered () _ (.ok ()) rfl
  · intro i request answer same now checked
    cases checked
    exact Nat.le_add_right _ _

end Samples
end ArangoDataTools.TokenExpiry
