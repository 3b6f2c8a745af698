import ArangoDataTools.Catalog

namespace ArangoDataTools.CreationRetries
open Interaction Interaction.Program

-- What becomes of one attempt: it is answered, lost on its way, or applied with its answer lost.
inductive Attempt where
  | answered | lost | applied
  deriving DecidableEq

-- The attempts to come, and whether the object is there.
structure Site where
  schedule : List Attempt
  there : Bool

structure Request (α : Type) where
  answer : Bool → Except Error α
  final : ∀ there err, answer there = .error err → err.isRetryable = false
  effect : Bool → Bool

namespace Request
variable {α : Type}

def attempt (request : Request α) (dropped : Error) (site : Site) : Except Error α × Site :=
  match site.schedule with
  | [] => (.error dropped,site)
  | .answered :: rest => (request.answer site.there,⟨rest,request.effect site.there⟩)
  | .lost :: rest => (.error dropped,⟨rest,site.there⟩)
  | .applied :: rest => (.error dropped,⟨rest,request.effect site.there⟩)

def outcome (request : Request α) (dropped : Error) (there : Bool) : List Attempt → Except Error α × Bool
  | [] => (.error dropped,there)
  | .answered :: _ => (request.answer there,request.effect there)
  | .lost :: rest => request.outcome dropped there rest
  | .applied :: rest => request.outcome dropped (request.effect there) rest

end Request

def used : List Attempt → Nat
  | [] => 0
  | .answered :: _ => 1
  | .lost :: rest | .applied :: rest => used rest + 1

section Loop
variable {α W : Type} {Op : Type} {Ans : Op → Type} {dropped : Error} {handle : Handler Op Ans W}
  {count : Counter → Program Op Ans Error Unit} {view : W → Site}

-- What `view` shows of the server goes as the attempts of the request say.
def Shows (view : W → Site) (ended : Except Error α × W) (expected : Except Error α × Site) : Prop :=
  ended.1 = expected.1 ∧ view ended.2 = expected.2

theorem loop_outcome (policy : RetryPolicy) (attempted : Program Op Ans Error (Except Error α))
    (transient : dropped.isRetryable = true) (request : Request α)
    (quiet : ∀ counter w, run handle (count counter) w = (.ok (),w))
    (attempts : ∀ w, ∃ answer w', run handle attempted w = (.ok answer,w') ∧
      Shows view (answer,w') (request.attempt dropped (view w))) (left : Nat)
    (schedule : List Attempt) (there : Bool) (w : W) (shown : view w = ⟨schedule,there⟩) :
    Shows view (run handle (retryLoop policy count attempted left) w)
      ((request.outcome dropped there (schedule.take (left+1))).1,
        ⟨schedule.drop (used (schedule.take (left+1))),
          (request.outcome dropped there (schedule.take (left+1))).2⟩) := by
  have tried : ∀ {site : Site} (w : W), view w = site → ∃ w',
      run handle attempted w = (.ok (request.attempt dropped site).1,w') ∧
      view w' = (request.attempt dropped site).2 := by
    rintro site w rfl
    obtain ⟨answer,w',ran,rfl,after⟩ := attempts w
    exact ⟨w',ran,after⟩
  have answered : ∀ (left : Nat) (rest : List Attempt) (there : Bool) (w : W),
      view w = ⟨.answered :: rest,there⟩ →
      Shows view (run handle (retryLoop policy count attempted left) w)
        (request.answer there,⟨rest,request.effect there⟩) := by
    intro left rest there w shown
    obtain ⟨w',ran,after⟩ := tried w shown
    change _ = (Except.ok (request.answer there),_) at ran
    cases said : request.answer there with
    | ok value =>
      rw [said] at ran
      rw [retryLoop_ok ran left]
      exact ⟨rfl,after⟩
    | error err =>
      rw [said] at ran
      rw [retryLoop_fatal quiet ran (request.final there err said) left]
      exact ⟨rfl,after⟩
  induction left generalizing schedule there w with
  | zero =>
    obtain ⟨w',ran,after⟩ := tried w shown
    cases schedule with
    | nil =>
      rw [retryLoop_last quiet ran]
      exact ⟨rfl,after⟩
    | cons first rest =>
      cases first with
      | answered => exact answered 0 rest there w shown
      | lost | applied =>
        rw [retryLoop_last quiet ran]
        exact ⟨rfl,after⟩
  | succ left ih =>
    obtain ⟨w',ran,after⟩ := tried w shown
    cases schedule with
    | nil =>
      rw [retryLoop_again quiet ran transient left]
      exact ih [] there w' after
    | cons first rest =>
      cases first with
      | answered => exact answered (left+1) rest there w shown
      | lost =>
        rw [retryLoop_again quiet ran transient left]
        exact ih rest there w' after
      | applied =>
        rw [retryLoop_again quiet ran transient left]
        exact ih rest (request.effect there) w' after

end Loop

-- A transient failure for lost answers, and the answer to a second creation.
structure Faults where
  dropped : Error
  transient : dropped.isRetryable = true
  conflict : Error
  conflicts : Catalog.hasStatus 409 conflict = true
  missing : Error
  absent : Catalog.hasStatus 404 missing = true

namespace Faults

theorem conflict_final (faults : Faults) : faults.conflict.isRetryable = false :=
  Bool.eq_false_iff.mpr fun transient => (Catalog.transient_status transient).2 faults.conflicts

theorem missing_final (faults : Faults) : faults.missing.isRetryable = false :=
  Bool.eq_false_iff.mpr fun transient => (Catalog.transient_status transient).1 faults.absent

theorem dropped_apart (faults : Faults) : faults.dropped ≠ faults.conflict := fun same => by
  have transient := faults.transient
  rw [same,faults.conflict_final] at transient
  cases transient

def creation (faults : Faults) : Request Unit where
  answer there := if there then .error faults.conflict else .ok ()
  final there err failed := by
    cases there with
    | false => cases failed
    | true =>
      cases failed
      exact faults.conflict_final
  effect _ := true

def asking (faults : Faults) (info : Catalog.CollectionInfo) : Request Catalog.CollectionInfo where
  answer there := if there then .ok info else .error faults.missing
  final there err failed := by
    cases there with
    | false =>
      cases failed
      exact faults.missing_final
    | true => cases failed
  effect there := there

end Faults

def Clean (tried : List Attempt) : Prop := ∃ before after, tried = before ++ .answered :: after ∧
    ∀ attempt ∈ before, attempt = .lost

section Creations
variable {faults : Faults} {tried : List Attempt} {there : Bool}

theorem clean_answered (rest : List Attempt) : Clean (.answered :: rest) := ⟨[],rest,rfl,List.forall_mem_nil _⟩

theorem clean_lost : Clean (.lost :: tried) ↔ Clean tried := by
  constructor
  · rintro ⟨before,after,whole,lost⟩
    cases before with
    | nil => cases whole
    | cons first before =>
      obtain ⟨-,rfl⟩ := List.cons.inj whole
      exact ⟨before,after,rfl,(List.forall_mem_cons.mp lost).2⟩
  · rintro ⟨before,after,rfl,lost⟩
    exact ⟨.lost :: before,after,rfl,List.forall_mem_cons.mpr ⟨rfl,lost⟩⟩

theorem applied_unclean (rest : List Attempt) : ¬ Clean (.applied :: rest) := by
  rintro ⟨before,after,whole,lost⟩
  cases before with
  | nil => cases whole
  | cons first before =>
    obtain ⟨rfl,-⟩ := List.cons.inj whole
    cases lost _ List.mem_cons_self

theorem applied_outcome : (faults.creation.outcome faults.dropped true tried).2 = true ∧
    (faults.creation.outcome faults.dropped true tried).1 =
    (if .answered ∈ tried then .error faults.conflict else .error faults.dropped) := by
  induction tried with
  | nil => exact ⟨rfl,rfl⟩
  | cons first rest ih =>
    cases first with
    | answered => exact ⟨rfl,(if_pos List.mem_cons_self).symm⟩
    | lost | applied =>
      refine ⟨ih.1,ih.2.trans ?_⟩
      simp only [List.mem_cons,reduceCtorEq,false_or]

theorem creation_outcome :
    ((faults.creation.outcome faults.dropped false tried).1 = .ok () ↔ Clean tried) ∧
    ((faults.creation.outcome faults.dropped false tried).1 = .error faults.conflict ↔
    .answered ∈ tried ∧ ¬ Clean tried) ∧
    (.answered ∈ tried → (faults.creation.outcome faults.dropped false tried).2 = true) ∧
    (.answered ∉ tried → (faults.creation.outcome faults.dropped false tried).1 = .error faults.dropped) := by
  induction tried with
  | nil =>
    have unclean : ¬ Clean [] := fun clean => by
      obtain ⟨before,after,whole,-⟩ := clean
      cases before <;> cases whole
    exact ⟨⟨fun same => (by cases same),fun clean => absurd clean unclean⟩,
      ⟨fun same => absurd (Except.error.inj same) faults.dropped_apart,fun both =>
      absurd both.1 List.not_mem_nil⟩,
      fun inside => absurd inside List.not_mem_nil,fun _ => rfl⟩
  | cons first rest ih =>
    cases first with
    | answered =>
      exact ⟨⟨fun _ => clean_answered rest,fun _ => rfl⟩,
        ⟨fun same => (by cases same),fun both => absurd (clean_answered rest) both.2⟩,
        fun _ => rfl,fun outside => absurd List.mem_cons_self outside⟩
    | lost =>
      rw [clean_lost,List.mem_cons,or_iff_right Attempt.noConfusion]
      exact ih
    | applied =>
      obtain ⟨stays,ends⟩ := @applied_outcome faults rest
      have inside : .answered ∈ Attempt.applied :: rest ↔ .answered ∈ rest := by
        rw [List.mem_cons,or_iff_right Attempt.noConfusion]
      change ((faults.creation.outcome faults.dropped true rest).1 = _ ↔ _) ∧
        ((faults.creation.outcome faults.dropped true rest).1 = _ ↔ _) ∧
        (_ → (faults.creation.outcome faults.dropped true rest).2 = _) ∧
        (_ → (faults.creation.outcome faults.dropped true rest).1 = _)
      rw [ends,inside]
      refine ⟨⟨fun same => ?_,fun clean => absurd clean (applied_unclean rest)⟩,
        ⟨fun same => ⟨?_,applied_unclean rest⟩,fun both => if_pos both.1⟩,
        fun _ => stays,fun outside => if_neg outside⟩
      · split at same <;> cases same
      · by_contra outside
        rw [if_neg outside] at same
        exact faults.dropped_apart (Except.error.inj same)

end Creations

-- The server, of one object that a request creates.
def creating (faults : Faults) : Handler Op Op.Answer Site := fun op site => match op with
  | .send _ (.createDatabase _) => faults.creation.attempt faults.dropped site
  | .send _ (.createView _) => faults.creation.attempt faults.dropped site
  | .send _ (.restoreCollection _ _ false) => faults.creation.attempt faults.dropped site
  | .count _ => ((),site)
  | op => (op.refuse,site)

def cataloging (faults : Faults) : Handler Catalog.CatalogOp Catalog.CatalogOp.Answer Site :=
  fun op site => match op with
  | .send (.collectionInfo name) => (faults.asking ⟨name,2⟩).attempt faults.dropped site
  | .send (.createCollection _ _) => faults.creation.attempt faults.dropped site
  | .send (.createGraph _) => faults.creation.attempt faults.dropped site
  | .send (.dropGraph _ _) => (.ok (),site)
  | .count _ => ((),site)

def attemptsOf (client : Client) : Nat := client.retry.maxAttempts - 1 + 1

-- A creation that fails where its answer came after one that was lost, although the object is there.
structure Fragile (faults : Faults) (tried : List Attempt) (ended : Except Error Unit × Site) : Prop where
  succeeds : ended.1 = .ok () ↔ Clean tried
  fails : ended.1 = .error faults.conflict ↔ .answered ∈ tried ∧ ¬ Clean tried
  there : .answered ∈ tried → ended.2.there = true
  unanswered : .answered ∉ tried → ended.1 = .error faults.dropped

section Loops
variable {faults : Faults} {W Op : Type} {Ans : Op → Type} {handle : Handler Op Ans W}
  {count : Counter → Program Op Ans Error Unit} {view : W → Site} {schedule : List Attempt} {w : W}

theorem fragile_loop (policy : RetryPolicy) (attempted : Program Op Ans Error (Except Error Unit))
    (quiet : ∀ counter w, run handle (count counter) w = (.ok (),w))
    (attempts : ∀ w, ∃ answer w', run handle attempted w = (.ok answer,w') ∧
      Shows view (answer,w') (faults.creation.attempt faults.dropped (view w))) (left : Nat)
    (shown : view w = ⟨schedule,false⟩) :
    Fragile faults (schedule.take (left+1))
      ((run handle (retryLoop policy count attempted left) w).1,
        view (run handle (retryLoop policy count attempted left) w).2) := by
  obtain ⟨succeeds,fails,there,unanswered⟩ := @creation_outcome faults (schedule.take (left+1))
  obtain ⟨same,after⟩ := loop_outcome policy attempted faults.transient faults.creation quiet attempts
    left schedule false w shown
  rw [same,after]
  exact ⟨succeeds,fails,there,unanswered⟩

theorem unattempted_fragile {site : Site} : Fragile faults [] (.error faults.dropped,site) := by
  obtain ⟨succeeds,fails,-,-⟩ := @creation_outcome faults []
  exact ⟨succeeds,fails,fun inside => absurd inside List.not_mem_nil,fun _ => rfl⟩

theorem asking_outcome (info : Catalog.CollectionInfo) (tried : List Attempt) :
    (faults.asking info).outcome faults.dropped false tried =
    (if .answered ∈ tried then .error faults.missing else .error faults.dropped,false) := by
  induction tried with
  | nil => rfl
  | cons first rest ih =>
    cases first with
    | answered =>
      rw [if_pos List.mem_cons_self]
      rfl
    | lost | applied =>
      refine ih.trans ?_
      simp only [List.mem_cons,reduceCtorEq,false_or]

end Loops

inductive Creation where
  | database (name : String)
  | collection (name : String) (kind : CollectionKind)
  | graph (definition : Value)
  | view (definition : Value)
  | restored (parameters : Value) (indexes : List Value)

-- A server, and what it shows of the object that a creation asks for.
structure Server (W : Type) where
  tools : Handler Op Op.Answer W
  catalog : Handler Catalog.CatalogOp Catalog.CatalogOp.Answer W
  shown : W → Site

namespace Creation

def perform {W : Type} (client : Client) (server : Server W) : Creation → W → Except Error Unit × W
  | database name, w => run server.tools (client.createDatabase name) w
  | collection name kind, w => run server.catalog (Catalog.ensureCollection client name kind) w
  | graph definition, w => run server.catalog (Catalog.createGraph client definition) w
  | view definition, w => run server.tools (client.createView definition) w
  | restored parameters indexes, w =>
      run server.tools (client.restoreCollection parameters indexes false) w

-- The attempts of the request that creates: a collection is looked up first.
def attempts (client : Client) (schedule : List Attempt) : Creation → List Attempt
  | collection _ _ =>
      if .answered ∈ schedule.take (attemptsOf client) then
        (schedule.drop (used (schedule.take (attemptsOf client)))).take (attemptsOf client)
      else []
  | _ => schedule.take (attemptsOf client)

def isDatabase : Creation → Bool
  | database _ => true
  | _ => false

end Creation

section Servers
variable {W : Type}

-- The server answers a second creation of the object with the conflict.
def Server.Answers (server : Server W) (faults : Faults) (client : Client) : Creation → Prop
  | .database name => ∀ w, Shows (α:=Unit) server.shown
      (server.tools (.send "_system" (.createDatabase name)) w)
      (faults.creation.attempt faults.dropped (server.shown w))
  | .collection name kind =>
      (∃ info, ∀ w, Shows server.shown (server.catalog (.send (.collectionInfo name)) w)
        ((faults.asking info).attempt faults.dropped (server.shown w))) ∧
      ∀ w, Shows (α:=Unit) server.shown
        (server.catalog (.send (.createCollection name (Catalog.typeId kind))) w)
        (faults.creation.attempt faults.dropped (server.shown w))
  | .graph definition => ∀ w, Shows (α:=Unit) server.shown
      (server.catalog (.send (.createGraph definition)) w)
      (faults.creation.attempt faults.dropped (server.shown w))
  | .view definition => ∀ w, Shows (α:=Unit) server.shown
      (server.tools (.send client.database
        (.createView ((definition.remove "id").remove "globallyUniqueId"))) w)
      (faults.creation.attempt faults.dropped (server.shown w))
  | .restored parameters indexes => ∀ w, Shows (α:=Unit) server.shown
      (server.tools (.send client.database (.restoreCollection parameters indexes false)) w)
      (faults.creation.attempt faults.dropped (server.shown w))

structure Server.Creates (server : Server W) (faults : Faults) (client : Client)
    (creation : Creation) : Prop where
  tools : ∀ counter w, server.tools (.count counter) w = ((),w)
  catalog : ∀ counter w, server.catalog (.count counter) w = ((),w)
  answers : server.Answers faults client creation

variable {server : Server W} {faults : Faults} {client : Client} {creation : Creation}
  {schedule : List Attempt} {w : W}

theorem Server.Creates.count_tools (creates : server.Creates faults client creation) (counter : Counter)
    (w : W) : run (ε:=Error) server.tools (ask (.count counter)) w = (.ok (),w) := by
  unfold ask
  rw [run_perform,creates.tools]

theorem Server.Creates.count_catalog (creates : server.Creates faults client creation)
    (counter : Counter) (w : W) : run server.catalog (Catalog.counted counter) w = (.ok (),w) := by
  unfold Catalog.counted
  rw [run_perform,creates.catalog]

theorem ensureCollection_fragile {name : String} {kind : CollectionKind}
    (creates : server.Creates faults client (.collection name kind))
    (shown : server.shown w = ⟨schedule,false⟩) :
    Fragile faults ((Creation.collection name kind).attempts client schedule)
      ((run server.catalog (Catalog.ensureCollection client name kind) w).1,
        server.shown (run server.catalog (Catalog.ensureCollection client name kind) w).2) := by
  obtain ⟨⟨info,looks⟩,makes⟩ := creates.answers
  have outcome := loop_outcome client.retry (Catalog.sent (.collectionInfo name)) faults.transient
    (faults.asking info) creates.count_catalog (fun w => ⟨_,_,rfl,looks w⟩)
    (client.retry.maxAttempts - 1) schedule false w shown
  rw [asking_outcome] at outcome
  obtain ⟨answer,after⟩ := outcome
  change (run server.catalog (Catalog.execute client (.collectionInfo name)) w).1 = _ at answer
  change server.shown (run server.catalog (Catalog.execute client (.collectionInfo name)) w).2 = _
    at after
  change _ = ite (.answered ∈ schedule.take (attemptsOf client)) _ _ at answer
  unfold Creation.attempts Catalog.ensureCollection Catalog.collectionInfo
  cases looked : run server.catalog (Catalog.execute client (.collectionInfo name)) w with
  | mk result found =>
    have tried : run server.catalog (attempt (Catalog.execute client (.collectionInfo name))) w =
        (.ok result,found) := by
      rw [run_attempt,looked]
    rw [looked] at answer after
    by_cases inside : .answered ∈ schedule.take (attemptsOf client)
    · rw [if_pos inside] at answer ⊢
      have absent : run server.catalog (Catalog.collectionInfo client name) w = (.ok none,found) := by
        unfold Catalog.collectionInfo
        rw [run_bind_ok _ tried,show result = .error faults.missing from answer]
        dsimp only
        rw [if_pos faults.absent]
        rfl
      rw [← Catalog.collectionInfo,run_bind_ok _ absent]
      exact fragile_loop client.retry (Catalog.sent (.createCollection name (Catalog.typeId kind)))
        creates.count_catalog
        (fun w => ⟨_,_,rfl,makes w⟩) _ after
    · rw [if_neg inside] at answer ⊢
      have failed : run server.catalog (Catalog.collectionInfo client name) w =
          (.error faults.dropped,found) := by
        unfold Catalog.collectionInfo
        rw [run_bind_ok _ tried,show result = .error faults.dropped from answer]
        dsimp only
        rw [if_neg (Catalog.transient_status faults.transient).1]
        rfl
      rw [← Catalog.collectionInfo,run_bind_error _ failed]
      exact unattempted_fragile

def pardoned (status : Nat) : Except Error Unit → Except Error Unit
  | .ok _ => .ok ()
  | .error err => if Catalog.hasStatus status err then .ok () else .error err

theorem tolerated {handle : Handler Op Op.Answer W} {request : Tool Unit} {w w' : W}
    {result : Except Error Unit} (ran : run handle request w = (result,w')) :
    run handle (Client.tolerating 409 request) w = (pardoned 409 result,w') := by
  unfold Client.tolerating
  rw [run_bind_ok handle ((run_attempt handle request w).trans (by rw [ran]))]
  cases result with
  | ok => rfl
  | error err =>
    cases err with
    | http status message context =>
      by_cases same : status = 409
      · simp only [pardoned,Catalog.hasStatus,same,if_true,decide_true]
        rfl
      · simp only [pardoned,Catalog.hasStatus,if_neg same,decide_eq_true_eq]
        rfl
    | _ => rfl

theorem createDatabase_settles {name : String} (creates : server.Creates faults client (.database name))
    (shown : server.shown w = ⟨schedule,false⟩) :
    (run server.tools (client.createDatabase name) w).1 = .ok () ↔
    .answered ∈ schedule.take (attemptsOf client) := by
  obtain ⟨succeeds,fails,-,unanswered⟩ :=
    fragile_loop client.retry (ask (.send "_system" (.createDatabase name))) creates.count_tools
      (fun w => ⟨_,_,rfl,creates.answers w⟩) (client.retry.maxAttempts - 1) shown
  change (run server.tools (client.executeOn "_system" (.createDatabase name)) w).1 = _ ↔ _ at succeeds
  change (run server.tools (client.executeOn "_system" (.createDatabase name)) w).1 = _ ↔ _ at fails
  change _ → (run server.tools (client.executeOn "_system" (.createDatabase name)) w).1 = _ at unanswered
  unfold Client.createDatabase
  cases ran : run server.tools (client.executeOn "_system" (.createDatabase name)) w with
  | mk result found =>
    rw [ran] at succeeds fails unanswered
    rw [tolerated ran]
    by_cases inside : .answered ∈ schedule.take (attemptsOf client)
    · refine iff_of_true ?_ inside
      by_cases clean : Clean (schedule.take (attemptsOf client))
      · rw [show result = .ok () from succeeds.mpr clean]
        rfl
      · rw [show result = .error faults.conflict from fails.mpr ⟨inside,clean⟩]
        exact if_pos faults.conflicts
    · refine iff_of_false ?_ inside
      rw [show result = .error faults.dropped from unanswered inside]
      change (if Catalog.hasStatus 409 faults.dropped then _ else _) ≠ _
      rw [if_neg (Catalog.transient_status faults.transient).2]
      exact fun same => by cases same

theorem perform_fragile (creates : server.Creates faults client creation)
    (other : creation.isDatabase = false) (shown : server.shown w = ⟨schedule,false⟩) :
    Fragile faults (creation.attempts client schedule)
      ((creation.perform client server w).1,server.shown (creation.perform client server w).2) := by
  cases creation with
  | database name => cases other
  | collection name kind => exact ensureCollection_fragile creates shown
  | graph definition =>
    exact fragile_loop client.retry (Catalog.sent (.createGraph definition)) creates.count_catalog
      (fun w => ⟨_,_,rfl,creates.answers w⟩) _ shown
  | view definition =>
    exact fragile_loop client.retry (ask (.send client.database
        (.createView ((definition.remove "id").remove "globallyUniqueId")))) creates.count_tools
      (fun w => ⟨_,_,rfl,creates.answers w⟩) _ shown
  | restored parameters indexes =>
    exact fragile_loop client.retry
      (ask (.send client.database (.restoreCollection parameters indexes false))) creates.count_tools
      (fun w => ⟨_,_,rfl,creates.answers w⟩) _ shown

-- An attempt was applied with its answer lost before the first that was answered.
def LostFirst (tried : List Attempt) : Prop := ∃ before after, tried = before ++ .applied :: after ∧
    .answered ∉ before ∧ .answered ∈ after

theorem lostFirst_unclean {tried : List Attempt} (lost : LostFirst tried) : ¬ Clean tried := by
  obtain ⟨before,after,rfl,unanswered,-⟩ := lost
  induction before with
  | nil => exact applied_unclean after
  | cons first before ih =>
    obtain ⟨apart,others⟩ := List.ne_and_not_mem_of_not_mem_cons unanswered
    cases first with
    | answered => exact absurd rfl apart
    | lost => exact fun clean => ih others (clean_lost.mp clean)
    | applied => exact applied_unclean _

theorem lostFirst_of_unclean {tried : List Attempt} (inside : .answered ∈ tried)
    (unclean : ¬ Clean tried) : LostFirst tried := by
  induction tried with
  | nil => cases inside
  | cons first rest ih =>
    cases first with
    | answered => exact absurd (clean_answered rest) unclean
    | lost =>
      have later : .answered ∈ rest := (List.mem_cons.mp inside).resolve_left Attempt.noConfusion
      obtain ⟨before,after,rfl,unanswered,answered⟩ := ih later (unclean ∘ clean_lost.mpr)
      exact ⟨.lost :: before,after,rfl,by simp [unanswered],answered⟩
    | applied =>
      have later : .answered ∈ rest := (List.mem_cons.mp inside).resolve_left Attempt.noConfusion
      exact ⟨[],rest,rfl,List.not_mem_nil,later⟩

-- When a creation is answered and its object is there, it ends in success.
def Tolerates (server : Server W) (client : Client) (creation : Creation) (w : W) : Prop :=
  .answered ∈ creation.attempts client (server.shown w).schedule →
    (server.shown (creation.perform client server w).2).there = true →
    (creation.perform client server w).1 = .ok ()

theorem repetitions_tolerated_iff (creates : server.Creates faults client creation)
    (absent : (server.shown w).there = false) :
    Tolerates server client creation w ↔ creation.isDatabase = true ∨
      ¬ LostFirst (creation.attempts client (server.shown w).schedule) := by
  have shown : server.shown w = ⟨(server.shown w).schedule,false⟩ := by rw [← absent]
  cases kind : creation.isDatabase with
  | true =>
    refine iff_of_true (fun inside _ => ?_) (.inl rfl)
    cases creation with
    | database name => exact (createDatabase_settles creates shown).mpr inside
    | _ => cases kind
  | false =>
    obtain ⟨succeeds,-,there,-⟩ := perform_fragile creates kind shown
    constructor
    · intro tolerates
      refine .inr fun lost => lostFirst_unclean lost (succeeds.mp ?_)
      obtain ⟨before,after,whole,-,answered⟩ := lost
      have inside : .answered ∈ creation.attempts client (server.shown w).schedule := by
        rw [whole]
        exact List.mem_append_right _ (List.mem_cons_of_mem _ answered)
      exact tolerates inside (there inside)
    · rintro (database | kept) inside -
      · cases database
      · exact succeeds.mpr (not_not.mp fun unclean => kept (lostFirst_of_unclean inside unclean))

end Servers

section Operations

-- One object, and the server that answers for it.
def single (faults : Faults) : Server Site := ⟨creating faults,cataloging faults,id⟩

theorem single_creates (faults : Faults) (client : Client) (creation : Creation) :
    (single faults).Creates faults client creation := by
  refine ⟨fun _ _ => rfl,fun _ _ => rfl,?_⟩
  cases creation with
  | collection name kind => exact ⟨⟨_,fun _ => ⟨rfl,rfl⟩⟩,fun _ => ⟨rfl,rfl⟩⟩
  | _ => exact fun _ => ⟨rfl,rfl⟩

-- Which creations survive the repetition of their own requests: `create_database` whenever it is
-- answered, the others only where no request was applied whose answer was lost.
theorem creations_survive (faults : Faults) (client : Client) (schedule : List Attempt) :
    (∀ name, (run (creating faults) (client.createDatabase name) ⟨schedule,false⟩).1 = .ok () ↔
      .answered ∈ schedule.take (attemptsOf client)) ∧
    (∀ definition, Fragile faults (schedule.take (attemptsOf client))
      (run (creating faults) (client.createView definition) ⟨schedule,false⟩)) ∧
    (∀ parameters indexes, Fragile faults (schedule.take (attemptsOf client))
      (run (creating faults) (client.restoreCollection parameters indexes false) ⟨schedule,false⟩)) ∧
    (∀ definition, Fragile faults (schedule.take (attemptsOf client))
      (run (cataloging faults) (Catalog.createGraph client definition) ⟨schedule,false⟩)) ∧
    ∀ name kind, .answered ∈ schedule.take (attemptsOf client) →
      Fragile faults ((schedule.drop (used (schedule.take (attemptsOf client)))).take (attemptsOf client))
        (run (cataloging faults) (Catalog.ensureCollection client name kind) ⟨schedule,false⟩) := by
  have fragile : ∀ creation : Creation, creation.isDatabase = false → _ := fun creation other =>
    perform_fragile (w:=⟨schedule,false⟩) (single_creates faults client creation) other rfl
  refine ⟨fun name => createDatabase_settles (single_creates faults client (.database name)) rfl,
    fun definition => fragile (.view definition) rfl,
    fun parameters indexes => fragile (.restored parameters indexes) rfl,
    fun definition => fragile (.graph definition) rfl,fun name kind inside => ?_⟩
  have created := fragile (.collection name kind) rfl
  rwa [Creation.attempts,if_pos inside] at created

end Operations

def reset : Faults := ⟨.connection "connection reset",rfl,.http 409 "duplicate name" {},rfl,
    .http 404 "not found" {},rfl⟩

theorem lost_answer_conflicts :
    (run (creating reset) (Client.createView {database := "db"} (.object [("name",.string "v")]))
    ⟨[.applied,.answered],false⟩).1 = .error reset.conflict := by
  refine ((creations_survive reset {database := "db"} [.applied,.answered]).2.1
    (.object [("name",.string "v")])).fails.mpr ⟨by decide,?_⟩
  exact applied_unclean [.answered]

theorem lost_request_tolerated :
    Tolerates (single reset) {database := "db"} (.graph .null) ⟨[.lost,.answered],false⟩ := by
  refine (repetitions_tolerated_iff (single_creates reset {database := "db"} (.graph .null)) rfl).mpr (.inr ?_)
  rintro ⟨before,after,whole,-,-⟩
  have applied : .applied ∈ before ++ Attempt.applied :: after :=
    List.mem_append_right before List.mem_cons_self
  rw [← whole] at applied
  exact absurd applied (by decide)

-- The collection is looked up and made; its answer is lost, and the repetition finds it there.
theorem lost_creation_fails : ¬ Tolerates (single reset) {database := "db"}
    (.collection "orders" .document) ⟨[.answered,.applied,.answered],false⟩ := by
  intro tolerates
  have ended : (Except.error reset.conflict : Except Error Unit) = .ok () := tolerates (by decide) rfl
  cases ended

end ArangoDataTools.CreationRetries
