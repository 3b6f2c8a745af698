import Mathlib.Tactic.Ring
import ArangoDataTools.CursorStream

namespace ArangoDataTools.CursorExactness
open Interaction Interaction.Program CursorStream

structure Query where
  results : List Value
  batchSize : Nat
  positive : 0 < batchSize

-- What becomes of one HTTP attempt. The client sees both kinds of loss as the
-- same connection error; only `lostResponse` reached the server.
inductive Fate where
  | delivered | lostRequest | lostResponse
  deriving DecidableEq, Repr

-- The unread documents of every open cursor, an unknown one having none.
structure Server where
  cursors : String → List Value := fun _ => []
  opened : Nat := 0

def lost : Error := .connection "connection closed before message completed"

namespace Server

-- Handing out a batch advances the cursor, whether or not it arrives; the
-- cursor that gave its last document is gone.
def page (query : Query) (id : String) (documents : List Value) (s : Server) : CursorBatch × Server :=
  let unread := documents.drop query.batchSize
  ({result := documents.take query.batchSize,hasMore := !unread.isEmpty,
    id := if unread.isEmpty then none else some id},
    {s with cursors := Function.update s.cursors id unread})

def process (query : Query) (s : Server) : (request : Request) → Except Error request.Response × Server
  | .cursorOpen _ =>
    let opened := page query (toString s.opened) query.results {s with opened := s.opened+1}
    (.ok opened.1,opened.2)
  | .cursorNext id =>
    if (s.cursors id).isEmpty then (.error (.http 404 "cursor not found" {}),s)
    else (.ok (page query id (s.cursors id) s).1,(page query id (s.cursors id) s).2)
  | .cursorDelete id => (.ok (),{s with cursors := Function.update s.cursors id []})
  | request => (Op.refuse (.send "" request),s)

end Server

abbrev Link := Nat × Server

def handle (query : Query) (fates : Nat → Fate) : Handler Op Op.Answer Link
  | .send _ request, (attempt,server) => match fates attempt with
    | .delivered => ((server.process query request).1,(attempt+1,(server.process query request).2))
    | .lostRequest => (.error lost,(attempt+1,server))
    | .lostResponse => (.error lost,(attempt+1,(server.process query request).2))
  | op, link => (op.refuse,link)

-- One call of the client from attempt `start` on, with `left` spare attempts:
-- how often the server processed it in vain and which attempt comes after it.
def answered (fates : Nat → Fate) : Nat → Nat → Option (Nat × Nat)
  | 0, start => if fates start = .delivered then some (0,start+1) else none
  | left+1, start => match fates start with
    | .delivered => some (0,start+1)
    | .lostRequest => answered fates left (start+1)
    | .lostResponse => (answered fates left (start+1)).map fun call => (call.1+1,call.2)

-- The batches lost in reading `unread` documents to their end, if the schedule
-- lets that happen: every call is answered while documents are left to answer it.
def skipped (query : Query) (fates : Nat → Fate) (left start unread : Nat) : Option Nat :=
  if unread = 0 then some 0
  else match answered fates left start with
    | none => none
    | some (vain,next) =>
      if vain * query.batchSize < unread then
        (skipped query fates left next (unread - (vain+1) * query.batchSize)).map (· + vain)
      else none
termination_by unread
decreasing_by
  have positive := query.positive
  have more : query.batchSize ≤ (vain+1) * query.batchSize := Nat.le_mul_of_pos_left _ (Nat.succ_pos vain)
  omega

section Calls
variable (query : Query) (fates : Nat → Fate)

theorem process_error {s : Server} {request : Request} {err : Error}
    (failed : (s.process query request).1 = .error err) : err.isRetryable = false := by
  cases request with
  | cursorNext id =>
    simp only [Server.process] at failed
    by_cases empty : (s.cursors id).isEmpty
    · rw [if_pos empty] at failed
      cases failed
      rfl
    · rw [if_neg empty] at failed
      cases failed
  | cursorOpen request => cases failed
  | cursorDelete id => cases failed
  | _ => cases failed; rfl

theorem send_run (database : String) (request : Request) (attempt : Nat) (server : Server) (out : List Item) :
    run (recording (handle query fates)) (ask (.send database request)) ((attempt,server),out) =
      (.ok (handle query fates (.send database request) (attempt,server)).1,
        ((handle query fates (.send database request) (attempt,server)).2,out)) := by
  unfold ask
  rw [run_perform,recording_other _ (by simp)]

theorem count_quiet (counter : Counter) (w : Link × List Item) :
    run (ε:=Error) (recording (handle query fates)) (ask (.count counter)) w = (.ok (),w) := rfl

def after (request : Request) (s : Server) : Server := (s.process query request).2

-- The result of one client call: the server's answer to the first attempt that
-- comes through, all lost responses before it having taken their effect.
def callResult (request : Request) (server : Server) (out : List Item) :
    Option (Nat × Nat) → Except Error request.Response × (Link × List Item) → Prop
  | some (vain,next), result =>
    let reached := (after query request)^[vain] server
    result = ((reached.process query request).1,((next,(reached.process query request).2),out))
  | none, result => ∃ link, result = (.error lost,(link,out))

theorem retryLoop_run (policy : RetryPolicy) (database : String) (request : Request) (out : List Item)
    (left attempt : Nat) (server : Server) :
    callResult query request server out (answered fates left attempt)
      (run (recording (handle query fates))
        (retryLoop policy (fun counter => ask (.count counter)) (ask (.send database request)) left)
        ((attempt,server),out)) := by
  have sent := send_run query fates database request
  have quiet := count_quiet query fates
  have settled : ∀ left attempt server, fates attempt = .delivered →
      run (recording (handle query fates))
        (retryLoop policy (fun counter => ask (.count counter)) (ask (.send database request)) left)
        ((attempt,server),out) =
      ((server.process query request).1,((attempt+1,(server.process query request).2),out)) := by
    intro left attempt server fate
    have first := sent attempt server out
    simp only [handle,fate] at first
    cases result : (server.process query request).1 with
    | ok value =>
      rw [result] at first
      exact retryLoop_ok first left
    | error err =>
      rw [result] at first
      exact retryLoop_fatal quiet first (process_error query result) left
  induction left generalizing attempt server with
  | zero =>
    cases fate : fates attempt with
    | delivered => simp [answered,fate,callResult,settled 0 attempt server fate]
    | lostRequest =>
      have first := sent attempt server out
      simp only [handle,fate] at first
      simp only [answered,fate,callResult,reduceCtorEq,if_false]
      exact ⟨_,retryLoop_last quiet first⟩
    | lostResponse =>
      have first := sent attempt server out
      simp only [handle,fate] at first
      simp only [answered,fate,callResult,reduceCtorEq,if_false]
      exact ⟨_,retryLoop_last quiet first⟩
  | succ left ih =>
    cases fate : fates attempt with
    | delivered => simp [answered,fate,callResult,settled (left+1) attempt server fate]
    | lostRequest =>
      have first := sent attempt server out
      simp only [handle,fate] at first
      rw [retryLoop_again quiet first rfl]
      simpa [answered,fate] using ih (attempt+1) server
    | lostResponse =>
      have first := sent attempt server out
      simp only [handle,fate] at first
      rw [retryLoop_again quiet first rfl]
      have rest := ih (attempt+1) (server.process query request).2
      simp only [answered,fate]
      cases call : answered fates left (attempt+1) with
      | none => simpa [call,callResult] using rest
      | some call' =>
        obtain ⟨vain,next⟩ := call'
        simpa [call,callResult,Function.iterate_succ_apply,after] using rest

end Calls

section Reading
variable {query : Query} {fates : Nat → Fate}

theorem after_cursorNext (id : String) (s : Server) :
    (after query (.cursorNext id) s).cursors id = (s.cursors id).drop query.batchSize := by
  unfold after Server.process
  by_cases empty : (s.cursors id).isEmpty
  · have none_left : s.cursors id = [] := List.isEmpty_iff.mp empty
    simp [none_left]
  · simp [empty,Server.page]

theorem after_iterate (query : Query) (id : String) (vain : Nat) (s : Server) :
    ((after query (.cursorNext id))^[vain] s).cursors id = (s.cursors id).drop (vain * query.batchSize) := by
  induction vain generalizing s with
  | zero => simp
  | succ vain ih =>
    rw [Function.iterate_succ_apply,ih,after_cursorNext,List.drop_drop]
    congr 1
    ring

-- What the items sent for `whole` amount to, given the batches lost on the way.
def Delivers (query : Query) (whole : List Value) (items : List Item) : Option Nat → Prop
  | none => ∃ err, (yielded items).2 = some err
  | some missed => (yielded items).2 = none ∧ (yielded items).1.length + missed * query.batchSize =
      whole.length ∧
    (missed = 0 → (yielded items).1 = whole)

theorem delivers_cons {documents unread : List Value} {vain : Nat} {missed : Option Nat}
    (within : vain * query.batchSize ≤ unread.length)
    (rest : Delivers query (unread.drop (vain * query.batchSize)) items missed) :
    Delivers query (documents ++ unread) (.ok documents :: items) (missed.map (· + vain)) := by
  cases missed with
  | none => exact rest
  | some missed =>
    obtain ⟨clean,count,exact⟩ := rest
    refine ⟨clean,?_,?_⟩
    · rw [List.length_drop] at count
      simp only [yielded,List.length_append]
      rw [Nat.add_mul]
      omega
    · intro none_missed
      change missed + vain = 0 at none_missed
      obtain ⟨rfl,rfl⟩ : missed = 0 ∧ vain = 0 := by omega
      simp [yielded,exact rfl]

theorem delivers_error {documents : List Value} {err : Error} (whole : List Value) :
    Delivers query whole [.ok documents,.error err] none := ⟨err,rfl⟩

theorem process_cursorNext {s : Server} {id : String} (more : s.cursors id ≠ []) :
    s.process query (.cursorNext id) =
    (.ok (s.page query id (s.cursors id)).1,(s.page query id (s.cursors id)).2) := by
  unfold Server.process
  simp [more]

theorem process_exhausted {s : Server} {id : String} (read : s.cursors id = []) :
    s.process query (.cursorNext id) = (.error (.http 404 "cursor not found" {}),s) := by
  unfold Server.process
  simp [read]

theorem page_cursors (s : Server) (id : String) (documents : List Value) :
    (s.page query id documents).2.cursors id = documents.drop query.batchSize := by simp [Server.page]

def batchOf (documents unread : List Value) (id : String) : CursorBatch :=
  {result := documents,hasMore := !unread.isEmpty,id := if unread.isEmpty then none else some id}

theorem drive_last (client : Client) (rounds : Nat) (documents : List Value) (id : String) (link : Link)
    (out : List Item) :
    run (recording (handle query fates)) (driveCursor client (rounds+1) (batchOf documents [] id)) (link,out) =
      (.ok true,(link,out ++ [.ok documents])) := rfl

theorem drive_more {client : Client} {unread : List Value} {id : String} {w : Link × List Item} (rounds : Nat)
    (documents : List Value) (link : Link) (out : List Item) (more : unread ≠ [])
    (call : run (recording (handle query fates)) (client.cursorNext id)
      (link,out ++ [.ok documents]) = (result,w)) :
    run (recording (handle query fates))
      (driveCursor client (rounds+1) (batchOf documents unread id)) (link,out) =
      match result with
      | .ok next => run (recording (handle query fates)) (driveCursor client rounds next) w
      | .error err => (.ok true,(w.1,w.2 ++ [.error err])) := by
  have sent : run (ε:=Error) (recording (handle query fates)) (ask (.pass (.ok documents))) (link,out) =
    (.ok true,(link,out ++ [.ok documents])) := rfl
  have attempted := run_attempt (recording (handle query fates)) (client.cursorNext id)
      (link,out ++ [.ok documents])
  rw [call] at attempted
  have some_left : unread.isEmpty = false := by simp [more]
  simp only [driveCursor,batchOf,some_left,Bool.not_false,Bool.false_eq_true,if_false]
  rw [run_bind_ok _ sent]
  simp only [if_true]
  rw [run_bind_ok _ attempted]
  cases result with
  | ok next => rfl
  | error err => rfl

theorem drive_run (client : Client) (rounds attempt : Nat) (documents : List Value)
    {unread : List Value} {id : String}
    {server : Server} (out : List Item) (enough : unread.length < rounds) (holds : server.cursors id = unread) :
    ∃ items link, run (recording (handle query fates)) (driveCursor client rounds (batchOf documents unread id))
        ((attempt,server),out) = (.ok true,(link,out ++ items)) ∧
      Delivers query (documents ++ unread) items
        (skipped query fates (client.retry.maxAttempts - 1) attempt unread.length) := by
  induction rounds generalizing attempt documents unread server out with
  | zero => omega
  | succ rounds ih =>
    by_cases finished : unread = []
    · subst finished
      refine ⟨[.ok documents],(attempt,server),drive_last client rounds documents id _ out,?_⟩
      simp [skipped,Delivers,yielded]
    have call := retryLoop_run query fates client.retry client.database (.cursorNext id)
        (out ++ [.ok documents])
      (client.retry.maxAttempts - 1) attempt server
    rw [skipped,if_neg (by simpa using finished)]
    cases reply : answered fates (client.retry.maxAttempts - 1) attempt with
    | none =>
      rw [reply] at call
      obtain ⟨link,failed⟩ := call
      refine ⟨[.ok documents,.error lost],link,?_,delivers_error _⟩
      rw [drive_more rounds documents (attempt,server) out finished failed]
      simp
    | some reply' =>
      obtain ⟨vain,next⟩ := reply'
      rw [reply] at call
      have left_over := after_iterate query id vain server
      rw [holds] at left_over
      by_cases within : vain * query.batchSize < unread.length
      · have some_left : unread.drop (vain * query.batchSize) ≠ [] := by
          simpa [List.drop_eq_nil_iff] using within
        have positive := query.positive
        simp only [callResult] at call
        rw [process_cursorNext (by rw [left_over]; exact some_left),left_over] at call
        have fewer : ((unread.drop (vain * query.batchSize)).drop query.batchSize).length =
            unread.length - (vain+1) * query.batchSize := by
          rw [List.drop_drop,List.length_drop,Nat.add_mul,Nat.one_mul]
        have shorter : ((unread.drop (vain * query.batchSize)).drop query.batchSize).length < rounds := by
          rw [List.drop_drop,List.length_drop]
          omega
        obtain ⟨items,link,driven,delivers⟩ := ih next
          ((unread.drop (vain * query.batchSize)).take query.batchSize) (out ++ [.ok documents]) shorter
          (page_cursors _ id _)
        refine ⟨.ok documents :: items,link,?_,?_⟩
        · rw [drive_more rounds documents (attempt,server) out finished call]
          simpa [Server.page,batchOf] using driven
        · rw [List.take_append_drop,fewer] at delivers
          simp only [within,if_true]
          exact delivers_cons (Nat.le_of_lt within) delivers
      · have read : unread.drop (vain * query.batchSize) = [] := by
          simpa [List.drop_eq_nil_iff] using within
        simp only [callResult] at call
        rw [process_exhausted (by rw [left_over]; exact read)] at call
        refine ⟨[.ok documents,.error (.http 404 "cursor not found" {})],
          (next,(after query (.cursorNext id))^[vain] server),?_,?_⟩
        · rw [drive_more rounds documents (attempt,server) out finished call]
          simp
        · simp only [within,if_false]
          exact delivers_error _

def download (client : Client) (request : CursorRequest) (query : Query) : Tool Bool :=
  cursorTask client request (query.results.length+1)

def missedBatches (query : Query) (fates : Nat → Fate) (left : Nat) : Option Nat :=
  (answered fates left 0).bind fun opened =>
    skipped query fates left opened.2 (query.results.length - query.batchSize)

theorem task_run {client : Client} {request : CursorRequest} {w w' : Link × List Item} (rounds : Nat)
    (call : run (recording (handle query fates)) (client.cursorOpen request) w = (result,w')) :
    run (recording (handle query fates)) (cursorTask client request rounds) w = match result with
      | .ok batch => run (recording (handle query fates)) (driveCursor client rounds batch) w'
      | .error err => (.ok true,(w'.1,w'.2 ++ [.error err])) := by
  have attempted := run_attempt (recording (handle query fates)) (client.cursorOpen request) w
  rw [call] at attempted
  unfold cursorTask
  rw [run_bind_ok _ attempted]
  cases result with
  | ok batch => rfl
  | error err => rfl

theorem download_run (query : Query) (fates : Nat → Fate) (client : Client)
    (request : CursorRequest) (server : Server) :
    ∃ items link, run (recording (handle query fates)) (download client request query) ((0,server),[]) =
        (.ok true,(link,items)) ∧
      Delivers query query.results items (missedBatches query fates (client.retry.maxAttempts - 1)) := by
  have call := retryLoop_run query fates client.retry client.database (.cursorOpen request) []
    (client.retry.maxAttempts - 1) 0 server
  unfold missedBatches download
  cases reply : answered fates (client.retry.maxAttempts - 1) 0 with
  | none =>
    rw [reply] at call
    obtain ⟨link,failed⟩ := call
    exact ⟨[.error lost],link,task_run _ failed,lost,rfl⟩
  | some opened =>
    obtain ⟨vain,next⟩ := opened
    rw [reply] at call
    simp only [callResult,Server.process] at call
    have fewer : (query.results.drop query.batchSize).length = query.results.length - query.batchSize :=
      List.length_drop
    have enough : (query.results.drop query.batchSize).length < query.results.length+1 := by omega
    obtain ⟨items,link,driven,delivers⟩ := drive_run client (query.results.length+1) next
      (query.results.take query.batchSize) [] enough (page_cursors _ _ query.results)
    rw [List.take_append_drop,fewer] at delivers
    refine ⟨items,link,?_,delivers⟩
    rw [task_run _ call]
    exact driven

-- Every stream that ends without an error has yielded the result list.
def Exact (query : Query) (fates : Nat → Fate) (client : Client) (request : CursorRequest)
    (server : Server) : Prop :=
  ∀ s, Reached (handle query fates) (.initial (download client request query) (0,server)) s → s.ended →
    (yielded s.received).2 = none → (yielded s.received).1 = query.results

theorem exact_of_download {client : Client} {request : CursorRequest} {server : Server}
    {items : List Item} {link : Link}
    (ran : run (recording (handle query fates)) (download client request query) ((0,server),[]) =
    (.ok true,(link,items))) :
    Exact query fates client request server ↔
    ((yielded items).2 = none → (yielded items).1 = query.results) := by
  constructor
  · intro exact clean
    obtain ⟨s,path,ended⟩ := ended_reached (handle query fates) (0,server) [] (by rw [ran])
    have received := ended_received (handle query fates) path ended
    rw [ran] at received
    obtain ⟨rfl,rfl⟩ : link = s.world ∧ items = s.received := by simpa using received
    exact exact s path ended clean
  · intro matches_ s path ended clean
    have received := ended_received (handle query fates) path ended
    rw [ran] at received
    obtain ⟨rfl,rfl⟩ : link = s.world ∧ items = s.received := by simpa using received
    exact matches_ clean

theorem delivers_exact (delivers : Delivers query query.results items (some (missed+1))) :
    (yielded items).2 = none ∧ (yielded items).1 ≠ query.results := by
  obtain ⟨clean,count,_⟩ := delivers
  refine ⟨clean,?_⟩
  intro equal
  have positive := query.positive
  rw [equal,Nat.add_mul] at count
  omega

-- Retried reads are harmless exactly when no batch is lost on a schedule that
-- answers the download to its end.
theorem exact_iff_none_missed (query : Query) (fates : Nat → Fate) (client : Client) (request : CursorRequest)
    (server : Server) : Exact query fates client request server ↔
      ∀ missed, missedBatches query fates (client.retry.maxAttempts - 1) = some missed → missed = 0 := by
  obtain ⟨items,link,ran,delivers⟩ := download_run query fates client request server
  rw [exact_of_download ran]
  cases outcome : missedBatches query fates (client.retry.maxAttempts - 1) with
  | none =>
    rw [outcome] at delivers
    obtain ⟨err,failed⟩ := delivers
    simp [failed]
  | some missed =>
    rw [outcome] at delivers
    cases missed with
    | zero => simp [delivers.2.2 rfl]
    | succ missed =>
      obtain ⟨clean,differs⟩ := delivers_exact delivers
      constructor
      · intro exact
        exact absurd (exact clean) differs
      · intro none_missed
        have := none_missed (missed+1) rfl
        omega

def threeResults : Query := ⟨[.nat 1,.nat 2,.nat 3],1,by decide⟩
def secondResponseLost (attempt : Nat) : Fate := if attempt = 1 then .lostResponse else .delivered

-- The cursor advances past the second document, whose response never arrives;
-- the retried request reads the third one.
theorem lost_response_loses_document :
    ¬ Exact threeResults secondResponseLost {database := "shop"} {query := "FOR d IN orders RETURN d"} {} := by
  obtain ⟨items,link,ran,delivers⟩ := download_run threeResults secondResponseLost
    {database := "shop"} {query := "FOR d IN orders RETURN d"} {}
  have missed : missedBatches threeResults secondResponseLost 4 = some 1 := by
    have opened : answered secondResponseLost 4 0 = some (0,1) := rfl
    have next : answered secondResponseLost 4 1 = some (1,3) := rfl
    unfold missedBatches
    rw [opened,Option.bind_some,skipped]
    simp only [next]
    rw [skipped]
    rfl
  rw [exact_of_download ran]
  intro exact
  rw [show ({} : RetryPolicy).maxAttempts - 1 = 4 from rfl,missed] at delivers
  obtain ⟨clean,differs⟩ := delivers_exact delivers
  exact differs (exact clean)

end Reading
end ArangoDataTools.CursorExactness
