import ArangoDataTools.TokenExpiry
import ArangoDataTools.TokenRotation

namespace ArangoDataTools.TokenLapses
open Interaction Interaction.Program Tokens TokenCalls Jwt
open TokenRotation (granted loggedIn_granted)
open TokenExpiry (mint_authorized)

-- A request of the client, through `send_request` or `send_body` or as a bare exchange.
inductive Operation where
  | call (call : Call)
  | fetch (url : String)

def Operation.run (client : ArangoClient) : Operation → Exchange (List UInt8)
  | .call op => op.run client
  | .fetch url => client.fetch url

abbrev OperationTask (α : Type) := Program Operation (fun _ => Outcome) Error α

section Protocol

-- The token a task would send, the one it has come by and not stored, how many of its refusals it
-- has not answered by dropping the token, whether it ever did, and whether it was refused then.
structure Phase where
  held : Option String := none
  obtained : Option String := none
  pending : Nat := 0
  renewed : Bool := false
  denied : Bool := false

def minted (client : ArangoClient) (issued : Nat) : Option String :=
  match client.auth with
  | .jwtSecret secret => (mintSuperuserJwt client.signer issued secret).toOption
  | _ => none

def Phase.told (q : Phase) (final : Bool) (answer : Except ReqwestError HttpResponse) : Phase :=
  if rejects answer then
    if final then {q with denied := true} else {q with pending := q.pending + 1}
  else q

def lapsing (client : ArangoClient) : Protocol TokenOp TokenOp.Answer Phase where
  permits q
    | .storeToken token => q.obtained = some token.value
    | .invalidateToken => 0 < q.pending ∨ q.denied = true
    | .send request => ∃ token, request.authorization = .bearer token ∧ q.held = some token
    | _ => True
  advance q
    | .cachedToken, answer => {q with held := Option.map CachedToken.value answer}
    | .now, issued => {q with obtained := minted client issued}
    | .login _, answer => {q.told true answer with obtained := granted client.signer answer}
    | .storeToken token, _ => {q with held := some token.value}
    | .send _, answer => q.told q.renewed answer
    | .invalidateToken, _ => {q with held := none,pending := q.pending - 1,renewed := true}
    | .count _, _ => q

abbrev Alarm (q : Phase) : Prop := q.denied = true ∨ 0 < q.pending

end Protocol

section Told
variable {q : Phase} {final : Bool} {answer : Except ReqwestError HttpResponse}

theorem told_kept (accepted : rejects answer = false) : q.told final answer = q := by
  unfold Phase.told
  rw [accepted]
  rfl

@[simp] theorem told_renewed : (q.told final answer).renewed = q.renewed := by
  unfold Phase.told
  split
  · split <;> rfl
  · rfl

theorem told_denied (denied : q.denied = true) : (q.told final answer).denied = true := by
  unfold Phase.told
  split
  · split
    · rfl
    · exact denied
  · exact denied

theorem told_pending : q.pending ≤ (q.told final answer).pending := by
  unfold Phase.told
  split
  · split
    · exact Nat.le_refl _
    · exact Nat.le_succ _
  · exact Nat.le_refl _

theorem told_rejected (rejected : rejects answer = true) :
    (final = true → (q.told final answer).denied = true) ∧
    ((q.told final answer).denied = true ∨ q.pending < (q.told final answer).pending) := by
  unfold Phase.told
  rw [if_pos rejected]
  cases final with
  | true => exact ⟨fun _ => rfl,.inl rfl⟩
  | false => exact ⟨fun last => (by cases last),.inr (Nat.lt_succ_self _)⟩

end Told

structure Tried (before : Phase) (result : Except Error α) (q : Phase) : Prop where
  renewed : before.renewed = true → q.renewed = true
  denied : before.denied = true → q.denied = true
  pending : before.pending ≤ q.pending
  refused : ∀ err, result = .error err → isUnauthorized err = true →
    (q.denied = true ∨ before.pending < q.pending) ∧ (before.renewed = true → q.denied = true)

structure Obtained (before : Phase) (token : Phase → Option String) (result : Except Error String)
    (q : Phase) : Prop extends Tried before result q where
  holds : ∀ value, result = .ok value → token q = some value

section Exchanges
variable {client : ArangoClient} {before q : Phase}

theorem tried_same {result : Except Error α}
    (authorized : ∀ err, result = .error err → isUnauthorized err = false) : Tried q result q :=
  ⟨id,id,Nat.le_refl _,fun err same was => by rw [authorized err same] at was; cases was⟩

theorem tried_config {text : String → String} {result : Except String β} {err : Error}
    (failed : result.mapError (fun err => Error.config (text err)) = .error err) :
    Tried q (.error err : Except Error α) q := by
  refine tried_same ?_
  rintro other same
  cases same
  exact config_authorized failed

theorem login_follows {username password : String} :
    Follows (lapsing client) (Obtained q Phase.obtained) (client.login username password) q := by
  refine follows_lift_bind (fun url _ =>
    follows_lift_bind (fun body _ => ⟨trivial,fun answer => follows_lift ?_⟩) ?_) ?_
  · refine ⟨⟨told_renewed.trans,told_denied,told_pending,fun err failed unauthorized => ?_⟩,
      fun token logged => loggedIn_granted logged⟩
    obtain ⟨final,moved⟩ := @told_rejected q true answer (loggedIn_unauthorized failed unauthorized)
    exact ⟨moved,fun _ => final rfl⟩
  · intro err failed
    refine ⟨tried_same ?_,fun token same => by cases same⟩
    rintro err same
    cases same
    exact toVec_authorized failed
  · exact fun err failed => ⟨tried_config failed,fun token same => by cases same⟩

theorem obtainToken_follows (refreshes : client.canRefreshToken = true) :
    Follows (lapsing client) (Obtained q Phase.obtained) client.obtainToken q := by
  unfold ArangoClient.obtainToken
  unfold ArangoClient.canRefreshToken at refreshes
  cases mode : client.auth with
  | none | basic | bearer =>
    rw [mode] at refreshes
    cases refreshes
  | jwtLogin username password => exact login_follows
  | jwtSecret secret =>
    refine ⟨trivial,fun issued => follows_lift ⟨⟨id,id,Nat.le_refl _,fun err failed was => ?_⟩,
      fun token made => ?_⟩⟩
    · rw [mint_authorized failed] at was
      cases was
    · change minted client issued = some token
      unfold minted
      rw [mode]
      exact congrArg Except.toOption made

theorem renewToken_follows (refreshes : client.canRefreshToken = true) :
    Follows (lapsing client) (Obtained q Phase.held) client.renewToken q := by
  refine follows_seq (obtainToken_follows refreshes) ?_ ?_
  · intro token middle obtained
    refine ⟨obtained.holds token rfl,fun _ =>
      ⟨⟨obtained.renewed,obtained.denied,obtained.pending,fun _ same => by cases same⟩,?_⟩⟩
    rintro other same
    cases same
    rfl
  · rintro err middle ⟨tried,-⟩
    refine ⟨⟨tried.renewed,tried.denied,tried.pending,?_⟩,fun token same => by cases same⟩
    rintro other same
    cases same
    exact tried.refused err rfl

theorem bearerToken_follows (refreshes : client.canRefreshToken = true) :
    Follows (lapsing client) (Obtained q Phase.held) client.bearerToken q := by
  refine ⟨trivial,fun cached => ?_⟩
  have anew : ∀ held obtained, Follows (lapsing client) (Obtained q Phase.held) client.renewToken
      {q with held := held,obtained := obtained} := fun held obtained =>
    follows_mono (fun _ _ renewed =>
      ⟨⟨renewed.renewed,renewed.denied,renewed.pending,renewed.refused⟩,renewed.holds⟩)
      (renewToken_follows refreshes)
  cases cached with
  | none => exact anew none q.obtained
  | some cached =>
    have reused : ∀ obtained, Follows (lapsing client) (Obtained q Phase.held) (done cached.value)
        {q with held := some cached.value,obtained := obtained} := by
      refine fun obtained => ⟨⟨id,id,Nat.le_refl _,fun _ same => by cases same⟩,?_⟩
      rintro token same
      cases same
      rfl
    obtain ⟨value,expiresAt⟩ := cached
    cases expiresAt with
    | none => exact reused q.obtained
    | some exp =>
      refine ⟨trivial,fun now => ?_⟩
      change Follows _ _ (if isExpiring now (some exp) then _ else _) _
      cases lapsing : isExpiring now (some exp) with
      | true =>
        rw [if_pos rfl]
        exact anew _ _
      | false =>
        rw [if_neg Bool.false_ne_true]
        exact reused _

theorem exchange_follows (refreshes : client.canRefreshToken = true) (request : HttpRequest) :
    Follows (lapsing client) (Tried q) (client.exchange request) q := by
  rw [exchange_token refreshes]
  refine follows_seq (bearerToken_follows refreshes) ?_ ?_
  · intro token middle obtained
    refine ⟨⟨token,rfl,obtained.holds token rfl⟩,fun answer => follows_lift ⟨?_,?_,?_,?_⟩⟩
    · exact fun renewed => told_renewed.trans (obtained.renewed renewed)
    · exact fun denied => told_denied (obtained.denied denied)
    · exact obtained.pending.trans told_pending
    · intro err failed unauthorized
      obtain ⟨final,moved⟩ :=
        @told_rejected middle middle.renewed answer (received_unauthorized failed unauthorized)
      exact ⟨moved.imp_right obtained.pending.trans_lt,fun renewed => final (obtained.renewed renewed)⟩
  · rintro err middle ⟨tried,-⟩
    refine ⟨tried.renewed,tried.denied,tried.pending,?_⟩
    rintro other same
    cases same
    exact tried.refused err rfl

theorem alarm_tried {result : Except Error α} (tried : Tried before result q) (alarm : Alarm before) :
    Alarm q := alarm.imp tried.denied fun waiting => waiting.trans_le tried.pending

theorem reauthenticating_follows (refreshes : client.canRefreshToken = true)
    {tried : Exchange (List UInt8)} (attempted : ∀ q, Follows (lapsing client) (Tried q) tried q) :
    Follows (lapsing client) (Alarmed Alarm q) (client.reauthenticating tried) q := by
  refine follows_attempt_bind (attempted q) fun result middle first => ?_
  cases result with
  | ok payload => exact ⟨alarm_tried first,fun _ same => by cases same⟩
  | error err =>
    dsimp only
    cases unauthorized : isUnauthorized err with
    | false =>
      rw [if_neg (by simp)]
      refine ⟨alarm_tried first,fun other same was => ?_⟩
      cases same
      rw [unauthorized] at was
      cases was
    | true =>
      rw [if_pos (by simp [refreshes])]
      have moved := (first.refused err rfl unauthorized).1
      refine ⟨moved.symm.imp_left (Nat.zero_le _).trans_lt,fun _ => ?_⟩
      -- What was pending before is pending still: the drop answers the refusal of this call.
      have stays : Alarm q →
          Alarm {middle with held := none,pending := middle.pending - 1,renewed := true} := by
        rintro (denied | waiting)
        · exact .inl (first.denied denied)
        · exact moved.imp id fun more => show 0 < middle.pending - 1 by omega
      refine follows_attempt_bind (attempted _) fun result last second => ?_
      cases result with
      | ok payload => exact ⟨alarm_tried second ∘ stays,fun _ same => by cases same⟩
      | error err =>
        refine ⟨alarm_tried second ∘ stays,fun other same was => ?_⟩
        cases same
        rw [explain_unauthorized] at was
        exact .inl ((second.refused err rfl was).2 rfl)

end Exchanges

section Rotation

-- The tokens the server is bound to accept, whether it has changed them, and whether what a task
-- came by last it came by since.
structure World (ι : Type) where
  cache : Option CachedToken
  clock : Nat
  rotated : Bool
  since : ι → Bool
  accepted : List String

variable {ι α : Type} [DecidableEq ι]

def CacheCurrent (w : World ι) : Prop := ∀ token, w.cache = some token → token.value ∈ w.accepted

-- A token is accepted from its store on unless it was obtained before a change and is stored after
-- it. The server never answers 401 to a token that it accepts, nor to a login.
inductive Serves (i : ι) (w : World ι) : (op : TokenOp) → op.Answer → World ι → Prop where
  | cachedToken : Serves i w .cachedToken w.cache w
  | storeToken (token : CachedToken) : Serves i w (.storeToken token) () {w with
      cache := some token
      accepted := if w.rotated && !w.since i then w.accepted else token.value :: w.accepted}
  | invalidateToken : Serves i w .invalidateToken () {w with cache := none}
  | now (clock : Nat) : w.clock ≤ clock → Serves i w .now clock {w with
      clock := clock,since := Function.update w.since i w.rotated}
  | count (counter : Counter) : Serves i w (.count counter) () w
  | login (request : HttpRequest) (answer : Except ReqwestError HttpResponse) :
      rejects answer = false →
      Serves i w (.login request) answer {w with since := Function.update w.since i w.rotated}
  | send (request : HttpRequest) (answer : Except ReqwestError HttpResponse) :
      (∀ token, request.authorization = .bearer token → token ∈ w.accepted → rejects answer = false) →
      Serves i w (.send request) answer w

inductive Rotates : World ι → World ι → Prop where
  | not {w : World ι} : Rotates w w
  | once {w : World ι} (accepted : List String) : w.rotated = false →
      Rotates w {w with rotated := true,accepted := accepted}

def rotating (ι : Type) [DecidableEq ι] : Environment ι TokenOp TokenOp.Answer (World ι) :=
  fun i op w answer after => ∃ served, Serves i w op answer served ∧ Rotates served after

-- A refusal is answered by dropping the token.
def Renews (next : Except ReqwestError HttpResponse → Exchange β) : Prop :=
  ∀ answer, rejects answer = true → ∃ rest, next answer = .call .invalidateToken rest

-- No token from before the change is stored after it, and a request that is not repeated with a
-- new token carries one that the server accepts, unless the task has dropped a token before.
structure Heeded (s : Tasks ι α (World ι) Phase) (event : Event ι TokenOp TokenOp.Answer) : Prop where
  stored : ∀ i token answer, event = .call i (.storeToken token) answer → s.world.rotated = true →
    s.world.since i = true
  sent : ∀ i request answer next, event = .call i (.send request) answer →
    s.threads i = .call (.send request) next → (s.phases i).renewed = false →
    Renews next ∨ ∀ token, request.authorization = .bearer token → token ∈ s.world.accepted

structure Fine (w : World ι) (q : Phase) : Prop where
  quiet : q.denied = false
  early : w.rotated = false → ∀ token, q.held = some token → token ∈ w.accepted
  pending : 0 < q.pending → w.rotated = true
  renewed : q.renewed = true → w.rotated = true ∧ CacheCurrent w ∧
    ∀ token, q.held = some token → token ∈ w.accepted

structure Grows (w w' : World ι) : Prop where
  rotated : w'.rotated = w.rotated
  accepted : ∀ token ∈ w.accepted, token ∈ w'.accepted
  cache : CacheCurrent w → CacheCurrent w'

variable {w w' : World ι} {client : ArangoClient} {q : Phase} {i : ι} {op : TokenOp} {answer : op.Answer}

omit [DecidableEq ι] in
theorem stored_accepted {token : CachedToken} (current : w.rotated = true → w.since i = true) :
    token.value ∈ (if w.rotated && !w.since i then w.accepted else token.value :: w.accepted) := by
  rw [if_neg]
  · exact List.mem_cons_self
  · intro stale
    obtain ⟨late,before⟩ := (Bool.and_eq_true _ _).mp stale
    rw [current late] at before
    cases before

theorem serves_grows (serves : Serves i w op answer w')
    (current : ∀ token, op = .storeToken token → w.rotated = true → w.since i = true) : Grows w w' := by
  cases serves with
  | cachedToken | count | login | send | now => exact ⟨rfl,fun _ member => member,id⟩
  | storeToken token =>
    refine ⟨rfl,fun other member => ?_,fun _ other stored => ?_⟩
    · dsimp only
      split
      · exact member
      · exact List.mem_cons_of_mem _ member
    · cases stored
      exact stored_accepted (current token rfl)
  | invalidateToken => exact ⟨rfl,fun _ member => member,fun _ _ stored => by cases stored⟩

omit [DecidableEq ι] in
theorem fine_grows (grows : Grows w w') (fine : Fine w q) : Fine w' q := by
  obtain ⟨rotated,accepted,cache⟩ := grows
  refine ⟨fine.quiet,fun early token held => ?_,fun waiting => rotated.trans (fine.pending waiting),
    fun renewed => ?_⟩
  · exact accepted token (fine.early (rotated.symm.trans early) token held)
  · obtain ⟨late,cached,held⟩ := fine.renewed renewed
    exact ⟨rotated.trans late,cache cached,fun token has => accepted token (held token has)⟩

omit [DecidableEq ι] in
theorem fine_rotates (rotates : Rotates w w') (fine : Fine w q) : Fine w' q := by
  cases rotates with
  | not => exact fine
  | once accepted early =>
    refine ⟨fine.quiet,fun early => (by cases early),fun _ => rfl,fun renewed => ?_⟩
    rw [(fine.renewed renewed).1] at early
    cases early

-- A 401 comes only to a task that has not dropped a token before, and after the change.
omit [DecidableEq ι] in
theorem refused_stale {request : HttpRequest} {answer : Except ReqwestError HttpResponse}
    (unrefused : ∀ token, request.authorization = .bearer token → token ∈ w.accepted →
      rejects answer = false)
    (permitted : (lapsing client).permits q (.send request)) (fine : Fine w q)
    (rejected : rejects answer = true) : q.renewed = false ∧ w.rotated = true ∧
      ∃ token, request.authorization = .bearer token ∧ token ∉ w.accepted := by
  obtain ⟨token,carried,held⟩ := permitted
  have stale : token ∉ w.accepted := by
    intro member
    rw [unrefused token carried member] at rejected
    cases rejected
  refine ⟨?_,?_,token,carried,stale⟩
  · rw [Bool.eq_false_iff]
    exact fun renewed => stale ((fine.renewed renewed).2.2 token held)
  · rw [← Bool.not_eq_false]
    exact fun early => stale (fine.early early token held)

theorem fine_own (serves : Serves i w op answer w') (permitted : (lapsing client).permits q op)
    (fine : Fine w q) (cached : w.rotated = false → CacheCurrent w)
    (current : ∀ token, op = .storeToken token → w.rotated = true → w.since i = true) :
    Fine w' ((lapsing client).advance q op answer) := by
  have kept := fine_grows (serves_grows serves current) fine
  cases serves with
  | count => exact kept
  | now => exact ⟨kept.quiet,kept.early,kept.pending,kept.renewed⟩
  | login request answer accepted =>
    change Fine _ {q.told true answer with obtained := granted client.signer answer}
    rw [told_kept accepted]
    exact ⟨kept.quiet,kept.early,kept.pending,kept.renewed⟩
  | storeToken token =>
    have held : ∀ other, some token.value = some other →
        other ∈ (if w.rotated && !w.since i then w.accepted else token.value :: w.accepted) := by
      rintro other same
      cases same
      exact stored_accepted (current token rfl)
    exact ⟨kept.quiet,fun _ => held,kept.pending,fun renewed =>
      ⟨(kept.renewed renewed).1,(kept.renewed renewed).2.1,held⟩⟩
  | cachedToken =>
    have holds : CacheCurrent w → ∀ token, w.cache.map CachedToken.value = some token →
        token ∈ w.accepted := by
      rintro cached token held
      obtain ⟨entry,stored,rfl⟩ := Option.map_eq_some_iff.mp held
      exact cached entry stored
    refine ⟨fine.quiet,fun early => holds (cached early),fine.pending,fun renewed => ?_⟩
    obtain ⟨late,current,-⟩ := fine.renewed renewed
    exact ⟨late,current,holds current⟩
  | invalidateToken =>
    have late : w.rotated = true := by
      rcases permitted with waiting | denied
      · exact fine.pending waiting
      · rw [fine.quiet] at denied
        cases denied
    exact ⟨fine.quiet,fun _ _ held => (by cases held),fun _ => late,fun _ => ⟨late,
      fun _ stored => (by cases stored),fun _ held => (by cases held)⟩⟩
  | send request answer unrefused =>
    change Fine _ (q.told q.renewed answer)
    cases rejected : rejects answer with
    | false =>
      rw [told_kept rejected]
      exact kept
    | true =>
      obtain ⟨first,late,-⟩ := refused_stale unrefused permitted fine rejected
      unfold Phase.told
      rw [if_pos rejected,if_neg (by simp [first])]
      exact ⟨fine.quiet,fine.early,fun _ => late,fine.renewed⟩

-- A task whose refusal is pending drops the token next, or was stopped.
structure Sound (s : Tasks ι α (World ι) Phase) : Prop where
  fine : ∀ i, Fine s.world (s.phases i)
  early : s.world.rotated = false → CacheCurrent s.world
  waits : ∀ i, 0 < (s.phases i).pending → (s.phases i).pending = 1 ∧
    ((∃ rest, s.threads i = .call .invalidateToken rest) ∨ ∃ err, s.threads i = .fail err)

omit [DecidableEq ι] in
theorem waits_step {request : HttpRequest} {s : Tasks ι α (World ι) Phase}
    {next : Except ReqwestError HttpResponse → Exchange (List Outcome × Except Error α)}
    {answer : Except ReqwestError HttpResponse} (sound : Sound s)
    (heeded : Heeded s (.call i (.send request) answer))
    (permitted : (lapsing client).permits (s.phases i) (.send request))
    (head : s.threads i = .call (.send request) next)
    (unrefused : ∀ token, request.authorization = .bearer token → token ∈ s.world.accepted →
      rejects answer = false)
    (waiting : 0 < ((s.phases i).told (s.phases i).renewed answer).pending) :
    ((s.phases i).told (s.phases i).renewed answer).pending = 1 ∧
      ∃ rest, next answer = .call .invalidateToken rest := by
  have idle : (s.phases i).pending = 0 := by
    rw [← Nat.le_zero,← Nat.not_lt]
    intro before
    obtain ⟨-,⟨rest,same⟩ | ⟨err,same⟩⟩ := sound.waits i before <;> rw [head] at same <;> cases same
  cases rejected : rejects answer with
  | false =>
    rw [told_kept rejected,idle] at waiting
    exact absurd waiting (Nat.lt_irrefl 0)
  | true =>
    obtain ⟨first,-,token,carried,stale⟩ := refused_stale unrefused permitted (sound.fine i) rejected
    rcases heeded.sent i request answer next rfl head first with renews | current
    · refine ⟨?_,renews answer rejected⟩
      unfold Phase.told
      rw [if_pos rejected,if_neg (by simp [first]),idle]
    · exact absurd (current token carried) stale

theorem sound_step {s next : Tasks ι α (World ι) Phase} {event : Event ι TokenOp TokenOp.Answer}
    (following : Following (lapsing client) s) (sound : Sound s) (heeded : Heeded s event)
    (step : PoolStep (rotating ι) (lapsing client) s event next) : Sound next := by
  cases step with
  | @stop i op rest err head =>
    refine ⟨sound.fine,sound.early,fun j waiting => ⟨(sound.waits j waiting).1,?_⟩⟩
    by_cases equal : j = i
    · subst j
      exact .inr ⟨err,Function.update_self ..⟩
    · dsimp only
      rw [Function.update_of_ne equal]
      exact (sound.waits j waiting).2
  | @call i op rest answer after head answered =>
    obtain ⟨served,serves,rotates⟩ := answered
    have permitted := following_permits following head
    have current : ∀ token, op = .storeToken token → s.world.rotated = true → s.world.since i = true := by
      rintro token rfl
      exact heeded.stored i token answer rfl
    have grows := serves_grows serves current
    refine ⟨fun j => fine_rotates rotates ?_,fun early => ?_,fun j waiting => ?_⟩
    · by_cases equal : j = i
      · subst j
        dsimp only
        rw [Function.update_self]
        exact fine_own serves permitted (sound.fine i) sound.early current
      · dsimp only
        rw [Function.update_of_ne equal]
        exact fine_grows grows (sound.fine j)
    · cases rotates with
      | not => exact grows.cache (sound.early (grows.rotated.symm.trans early))
      | once => cases early
    · dsimp only at waiting ⊢
      by_cases equal : j = i
      · subst j
        rw [Function.update_self] at waiting ⊢
        rw [Function.update_self]
        cases serves with
        | send request answer unrefused =>
          obtain ⟨one,drops⟩ := waits_step sound heeded permitted head unrefused waiting
          exact ⟨one,.inl drops⟩
        | invalidateToken =>
          change 0 < (s.phases i).pending - 1 at waiting
          have only := (sound.waits i (by omega)).1
          omega
        | login request answer accepted =>
          change 0 < ((s.phases i).told true answer).pending at waiting
          rw [told_kept accepted] at waiting
          obtain ⟨-,⟨rest,same⟩ | ⟨err,same⟩⟩ := sound.waits i waiting <;> rw [head] at same <;> cases same
        | cachedToken | storeToken | now | count =>
          obtain ⟨-,⟨rest,same⟩ | ⟨err,same⟩⟩ := sound.waits i waiting <;> rw [head] at same <;> cases same
      · rw [Function.update_of_ne equal] at waiting ⊢
        rw [Function.update_of_ne equal]
        exact sound.waits j waiting

-- Clones of one client, each with a database and a task of its own.
def begun (client : ArangoClient) (databases : ι → String) (tasks : ι → OperationTask α) (q : Q)
    (w : W) : Tasks ι α W Q :=
  launched (fun i => Operation.run (client.withDatabase (databases i))) tasks q w

end Rotation

end ArangoDataTools.TokenLapses
