import ArangoDataTools.PartyRules
import ArangoDataTools.RetryRules
import ArangoDataTools.Tokens

namespace ArangoDataTools.TokenCalls
open Interaction Interaction.Program Tokens

inductive Call where
  | request (method path : String) (payload : Option (List UInt8))
  | body (method url contentType : String) (payload : List UInt8)

abbrev Outcome := Except Error (List UInt8)

def Call.run (client : ArangoClient) : Call → Exchange (List UInt8)
  | request method path payload => client.execute method path payload
  | body method url contentType payload => client.retrying (client.sendBody method url contentType payload)

-- A task decides on each call by the outcomes of those before. What it is told
-- is kept in order beside its own result.
abbrev ClientTask (α : Type) := Program Call (fun _ => Outcome) Error α

def perform (client : ArangoClient) : ClientTask α → Exchange (List Outcome × Except Error α)
  | done value => done ([],.ok value)
  | fail error => done ([],.error error)
  | call op next => (attempt (op.run client)).bind fun outcome =>
      (perform client (next outcome)).bind fun later => done (outcome :: later.1,later.2)

-- The same for calls of any kind.
def conduct {O α : Type} (run : O → Exchange (List UInt8)) :
    Program O (fun _ => Outcome) Error α → Exchange (List Outcome × Except Error α)
  | done value => done ([],.ok value)
  | fail error => done ([],.error error)
  | call op next => (attempt (run op)).bind fun outcome =>
      (conduct run (next outcome)).bind fun later => done (outcome :: later.1,later.2)

theorem perform_conduct (client : ArangoClient) (task : ClientTask α) :
    perform client task = conduct (Call.run client) task := by
  induction task with
  | done | fail => rfl
  | call op next ih =>
    unfold perform conduct
    simp only [ih]

section Unauthorized
variable {client : ArangoClient} {username : String}

def rejects : Except ReqwestError HttpResponse → Bool
  | .ok response => response.status == 401
  | .error _ => false

theorem transport_authorized (err : ReqwestError) : isUnauthorized (mapReqwestError err) = false := by
  unfold mapReqwestError
  split
  · rfl
  · split <;> rfl

theorem httpError_unauthorized {response : HttpResponse}
    (unauthorized : isUnauthorized (client.httpError response) = true) :
    response.status = 401 := by
  unfold ArangoClient.httpError at unauthorized
  split at unauthorized <;> exact eq_of_beq unauthorized

theorem received_unauthorized {answer : Except ReqwestError HttpResponse} {err : Error}
    (failed : client.received answer = .error err)
    (unauthorized : isUnauthorized err = true) : rejects answer = true := by
  cases answer with
  | error err =>
    cases Except.error.inj failed
    rw [transport_authorized] at unauthorized
    cases unauthorized
  | ok response =>
    unfold ArangoClient.received at failed
    dsimp only at failed
    split at failed
    · cases failed
    · cases Except.error.inj failed
      exact beq_iff_eq.mpr (httpError_unauthorized unauthorized)

theorem loggedIn_unauthorized {answer : Except ReqwestError HttpResponse} {err : Error}
    (failed : client.loggedIn username answer = .error err)
    (unauthorized : isUnauthorized err = true) : rejects answer = true := by
  cases answer with
  | error err =>
    cases Except.error.inj failed
    rw [transport_authorized] at unauthorized
    cases unauthorized
  | ok response =>
    unfold ArangoClient.loggedIn at failed
    dsimp only at failed
    split at failed
    · split at failed
      · cases failed
      · cases Except.error.inj failed
        cases unauthorized
    · cases Except.error.inj failed
      exact unauthorized

theorem config_authorized {result : Except String α} {text : String → String} {err : Error}
    (failed : result.mapError (fun err => Error.config (text err)) = .error err) :
    isUnauthorized err = false := by
  cases result with
  | ok value => cases failed
  | error err => cases failed; rfl

theorem toVec_authorized {signer : Jwt.Signer} {value : Value} {err : Error}
    (failed : signer.toVec value = .error err) :
    isUnauthorized err = false := by
  unfold Jwt.Signer.toVec at failed
  cases written : signer.serialize value with
  | ok bytes =>
    rw [written] at failed
    cases failed
  | error text =>
    rw [written] at failed
    cases failed
    rfl

theorem explain_unauthorized {err : Error} : isUnauthorized (client.explainAuthFailure err) =
    isUnauthorized err := by
  unfold ArangoClient.explainAuthFailure
  split
  · rename_i unauthorized
    have hinted : ∀ hint, isUnauthorized (ArangoClient.hinted err hint) = isUnauthorized err := by
      intro hint
      rw [unauthorized]
      unfold ArangoClient.hinted
      split <;> rfl
    split
    · exact hinted _
    · exact hinted _
    · rfl
  · rfl

theorem exchange_token (refreshes : client.canRefreshToken = true) (request : HttpRequest) :
    client.exchange request =
    client.bearerToken.bind fun token =>
      (act (.send {request with authorization := .bearer token})).bind fun answer =>
        lift (client.received answer) := by
  have applied : client.applyAuth request = client.bearerToken.bind fun token =>
      done {request with authorization := .bearer token} := by
    unfold ArangoClient.applyAuth
    unfold ArangoClient.canRefreshToken at refreshes
    cases mode : client.auth with
    | none | basic | bearer =>
      rw [mode] at refreshes
      cases refreshes
    | jwtSecret | jwtLogin => rfl
  unfold ArangoClient.exchange
  rw [applied,bind_assoc]
  rfl

end Unauthorized

section Rules
variable {Q α : Type} {protocol : Protocol TokenOp TokenOp.Answer Q} {q : Q}

theorem retrying_follows (client : ArangoClient) {start : Q → Prop} {post : Outcome → Q → Prop}
    {tried : Exchange (List UInt8)}
    (attempted : ∀ q, start q → Follows protocol post tried q)
      (again : ∀ err q, err.isRetryable = true → post (.error err) q → start q)
    (counted : ∀ counter q, protocol.permits q (.count counter) ∧
      protocol.advance q (.count counter) () = q) (starts : start q) :
    Follows protocol post (client.retrying tried) q := by
  have counts : ∀ counter q, Follows protocol (Unbroken post start q) (act (.count counter)) q := by
    refine fun counter q => ⟨(counted counter q).1,fun answer => ?_⟩
    rw [show answer = () from rfl,(counted counter q).2]
    exact ⟨rfl,fun _ holds => holds,id⟩
  have tries : ∀ q, start q → Follows protocol (Tried post start) (attempt tried) q := by
    refine fun q starts => follows_attempt (follows_mono (fun result later holds => ?_) (attempted q starts))
    cases result with
    | ok payload => exact holds
    | error err => exact ⟨holds,fun transient => again err later transient holds⟩
  exact follows_retry counts client.retry tries q starts

-- An alarm once raised stays, and a call that ends in 401 raises it: then a task
-- that is told of a 401 has raised it.
def Alarmed (alarm : Q → Prop) (before : Q) (outcome : Outcome) (q : Q) : Prop :=
  (alarm before → alarm q) ∧ ∀ err, outcome = .error err → isUnauthorized err = true → alarm q

theorem conduct_follows {O : Type} {run : O → Exchange (List UInt8)} {alarm : Q → Prop}
    (called : ∀ op q, Follows protocol (Alarmed alarm q) (run op) q)
    (task : Program O (fun _ => Outcome) Error α) :
    ∀ q, Follows protocol (fun result later => (alarm q → alarm later) ∧
      ∀ logged, result = .ok logged → ∀ err, .error err ∈ logged.1 → isUnauthorized err = true → alarm later)
      (conduct run task) q := by
  induction task with
  | done value =>
    refine fun q => ⟨id,?_⟩
    rintro logged same err member
    cases same
    cases member
  | fail error =>
    refine fun q => ⟨id,?_⟩
    rintro logged same err member
    cases same
    cases member
  | call op next ih =>
    intro q
    refine follows_attempt_bind (called op q) ?_
    rintro outcome middle ⟨raised,heard⟩
    refine follows_seq (ih outcome middle) ?_ ?_
    · rintro later q' ⟨stays,quiet⟩
      refine ⟨stays ∘ raised,?_⟩
      rintro logged same err member unauthorized
      cases same
      rcases List.mem_cons.mp member with first | earlier
      · exact stays (heard err first.symm unauthorized)
      · exact quiet later rfl err earlier unauthorized
    · rintro error q' ⟨stays,-⟩
      exact ⟨stays ∘ raised,fun _ same => by cases same⟩

-- What each call spends where the task had no luck, it spends on all of them.
theorem conduct_spends {O : Type} {run : O → Exchange (List UInt8)} {lucky : Q → Prop}
    {spent : Nat → Q → Q → Prop} {met : Outcome → Prop} (nothing : ∀ q, spent 0 q q)
    (adds : ∀ {more q middle later}, spent 1 q middle → spent more middle later → spent (more+1) q later)
    (called : ∀ op q, Follows protocol (fun outcome later => (lucky q → lucky later) ∧
      (¬ lucky later → spent 1 q later ∧ met outcome)) (run op) q)
    (task : Program O (fun _ => Outcome) Error α) :
    ∀ q, Follows protocol (fun result later => (lucky q → lucky later) ∧ (¬ lucky later →
      ∀ logged, result = .ok logged → spent logged.1.length q later ∧ ∀ outcome ∈ logged.1, met outcome))
      (conduct run task) q := by
  induction task with
  | done value =>
    refine fun q => ⟨id,fun _ => ?_⟩
    rintro logged same
    cases same
    exact ⟨nothing q,List.forall_mem_nil _⟩
  | fail error =>
    refine fun q => ⟨id,fun _ => ?_⟩
    rintro logged same
    cases same
    exact ⟨nothing q,List.forall_mem_nil _⟩
  | call op next ih =>
    intro q
    refine follows_attempt_bind (called op q) ?_
    rintro outcome middle ⟨raised,one⟩
    refine follows_seq (ih outcome middle) ?_ ?_
    · rintro later last ⟨stays,ended⟩
      refine ⟨stays ∘ raised,fun unlucky => ?_⟩
      rintro logged same
      cases same
      obtain ⟨spent_,first⟩ := one (unlucky ∘ stays)
      obtain ⟨total,all⟩ := ended unlucky later rfl
      exact ⟨adds spent_ total,List.forall_mem_cons.mpr ⟨first,all⟩⟩
    · rintro error last ⟨stays,-⟩
      exact ⟨stays ∘ raised,fun _ _ same => by cases same⟩

variable {ι W : Type} [DecidableEq ι] {environment : Environment ι TokenOp TokenOp.Answer W}

abbrev Tasks (ι α W Q : Type) := Pool ι TokenOp TokenOp.Answer Error (List Outcome × Except Error α) W Q

-- Clones of one client, each with a database and a task of its own.
def started (client : ArangoClient) (databases : ι → String) (tasks : ι → ClientTask α) (q : Q)
    (w : W) : Tasks ι α W Q :=
  ⟨fun i => perform (client.withDatabase (databases i)) (tasks i),fun _ => q,w⟩

def launched {O : Type} (runs : ι → O → Exchange (List UInt8))
    (tasks : ι → Program O (fun _ => Outcome) Error α) (q : Q) (w : W) : Tasks ι α W Q :=
  ⟨fun i => conduct (runs i) (tasks i),fun _ => q,w⟩

omit [DecidableEq ι] in
theorem started_launched (client : ArangoClient) (databases : ι → String) (tasks : ι → ClientTask α)
    (q : Q) (w : W) : started client databases tasks q w =
      launched (fun i => Call.run (client.withDatabase (databases i))) tasks q w := by
  unfold started launched
  simp only [perform_conduct]

variable {allowed : Tasks ι α W Q → Event ι TokenOp TokenOp.Answer → Prop} {client : ArangoClient}
  {databases : ι → String} {w : W} {alarm : Q → Prop}

section Launched
variable {O : Type} {runs : ι → O → Exchange (List UInt8)}
  {tasks : ι → Program O (fun _ => Outcome) Error α}

omit [DecidableEq ι] in
theorem launched_following (called : ∀ i op q, Follows protocol (Alarmed alarm q) (runs i op) q) :
    Following protocol (launched runs tasks q w) :=
  fun i => follows_mono (fun _ _ _ => trivial) (conduct_follows (called i) (tasks i) q)

theorem launched_quiet (called : ∀ i op q, Follows protocol (Alarmed alarm q) (runs i op) q)
    {s : Tasks ι α W Q}
    (path : PoolReached environment protocol allowed (launched runs tasks q w) s) {i : ι}
    (quiet : ¬ alarm (s.phases i)) {told : List Outcome} {result : Except Error α}
    (concluded : (s.threads i).conclusion = some (.ok (told,result))) : ∀ err, .error err ∈ told →
      isUnauthorized err = false := by
  have followed : ∀ i, Follows protocol (fun result later => ∀ logged, result = .ok logged →
      ∀ err, .error err ∈ logged.1 → isUnauthorized err = true → alarm later)
        (conduct (runs i) (tasks i)) q := fun i =>
    follows_mono (fun _ _ holds => And.right holds) (conduct_follows (called i) (tasks i) q)
  have ended := follows_concluded
      (followed_unless_stopped (fun _ _ _ logged same => by cases same) followed path i) concluded
  intro err member
  rw [Bool.eq_false_iff]
  exact fun unauthorized => quiet (ended _ rfl err member unauthorized)

end Launched

variable {tasks : ι → ClientTask α}

omit [DecidableEq ι] in
theorem started_following (called : ∀ database (op : Call) q,
    Follows protocol (Alarmed alarm q) (op.run (client.withDatabase database)) q) :
    Following protocol (started client databases tasks q w) := by
  rw [started_launched]
  exact launched_following fun i => called (databases i)

theorem quiet_tasks (called : ∀ database (op : Call) q,
    Follows protocol (Alarmed alarm q) (op.run (client.withDatabase database)) q)
    {s : Tasks ι α W Q} (path : PoolReached environment protocol allowed
      (started client databases tasks q w) s) {i : ι}
    (quiet : ¬ alarm (s.phases i)) {told : List Outcome} {result : Except Error α}
    (concluded : (s.threads i).conclusion = some (.ok (told,result))) : ∀ err, .error err ∈ told →
      isUnauthorized err = false := by
  rw [started_launched] at path
  exact launched_quiet (fun i => called (databases i)) path quiet concluded

end Rules
end ArangoDataTools.TokenCalls
