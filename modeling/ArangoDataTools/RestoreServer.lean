import Mathlib.Logic.Function.Basic
import ArangoDataTools.Restore

namespace ArangoDataTools.RestoreServer
open Interaction Interaction.Program Restore

abbrev Key := String × String

structure CollectionState where
  parameters : Value
  data : List Bytes := []
  indexes : List Value := []

structure ViewState where
  definition : Value
  links : List String

structure Server where
  databases : String → Bool
  collections : Key → Option CollectionState
  views : Key → Option ViewState

def nameOf (body : Value) : Option String := (body.get "name").bind Value.asStr

def viewLinks (body : Value) : List String :=
  if (body.get "type").bind Value.asStr = some "search-alias" then []
  else (((body.get "links").bind Value.asObject).getD []).map Prod.fst

def dropLinks (dropped : Key → Bool) (views : Key → Option ViewState) : Key → Option ViewState :=
  fun key => (views key).map fun view =>
    {view with links := view.links.filter fun link => !dropped (key.1,link)}

theorem dropLinks_dropLinks (one two : Key → Bool) (views : Key → Option ViewState) :
    dropLinks one (dropLinks two views) = dropLinks (fun key => one key || two key) views := by
  funext key
  unfold dropLinks
  cases views key with
  | none => rfl
  | some view => simp [List.filter_filter]

theorem dropLinks_none (views : Key → Option ViewState) : dropLinks (fun _ => false) views = views := by
  funext key
  unfold dropLinks
  cases views key with
  | none => rfl
  | some view => simp

namespace Server

-- A view cannot be linked to a collection that is not there, so erasing the
-- links to it when there is nothing to drop changes nothing.
def dropCollection (s : Server) (key : Key) : Server :=
  {s with collections := Function.update s.collections key none,views := dropLinks (fun other => decide (other = key)) s.views}

def putCollection (s : Server) (key : Key) (state : CollectionState) : Server :=
  {s with collections := Function.update s.collections key (some state)}

def restoreCollection (s : Server) (database : String) (parameters : Value) (indexes : List Value)
    (overwrite : Bool) :
    Except Error Unit × Server :=
  match nameOf parameters with
  | none => (.error (.http 400 "collection name is missing" {}),s)
  | some name =>
    if overwrite then (.ok (),(s.dropCollection (database,name)).putCollection (database,name)
      ⟨parameters,[],indexes⟩)
    else if (s.collections (database,name)).isSome then (.error (.http 409 "duplicate name" {}),s)
    else (.ok (),s.putCollection (database,name) ⟨parameters,[],indexes⟩)

def modifyCollection (s : Server) (key : Key) (modify : CollectionState → CollectionState) :
    Except Error Unit × Server :=
  match s.collections key with
  | none => (.error (.http 404 "collection or view not found" {}),s)
  | some state => (.ok (),s.putCollection key (modify state))

def createView (s : Server) (database : String) (body : Value) : Except Error Unit × Server :=
  match nameOf body with
  | none => (.error (.http 400 "expecting name parameter to be a string" {}),s)
  | some name =>
    if (s.views (database,name)).isSome then (.error (.http 409 "duplicate name" {}),s)
    else (.ok (),{s with views := Function.update s.views (database,name) (some ⟨body,viewLinks body⟩)})

def dropView (s : Server) (key : Key) : Except Error Unit × Server :=
  if (s.views key).isSome then (.ok (),{s with views := Function.update s.views key none})
  else (.error (.http 404 "collection or view not found" {}),s)

def createDatabase (s : Server) (name : String) : Except Error Unit × Server :=
  if s.databases name then (.error (.http 409 "duplicate database name" {}),s)
  else (.ok (),{s with databases := Function.update s.databases name true})

def process (s : Server) (database : String) : (request : Request) → Except Error request.Response × Server
  | .createDatabase name => s.createDatabase name
  | .restoreCollection parameters indexes overwrite => s.restoreCollection database parameters indexes overwrite
  | .restoreData collection body =>
    s.modifyCollection (database,collection) fun state => {state with data := state.data ++ [body]}
  | .createIndex collection definition =>
    s.modifyCollection (database,collection) fun state => {state with indexes := state.indexes ++ [definition]}
  | .createView body => s.createView database body
  | .dropView name => s.dropView (database,name)
  | request => (Op.refuse (.send "" request),s)

end Server

structure World where
  server : Server
  objects : ObjectRef → Option Bytes

def World.put (w : World) (object : ObjectRef) (bytes : Bytes) : World :=
  {w with objects := Function.update w.objects object (some bytes)}

def handle : Handler Op Op.Answer World
  | .send database request, w =>
    ((w.server.process database request).1,{w with server := (w.server.process database request).2})
  | .head object, w => (.ok ((w.objects object).map List.length),w)
  | .get object, w => match w.objects object with
    | some bytes => (.ok bytes,w)
    | none => (.error (.storage ("object not found: " ++ object.path)),w)
  | .putStream object body, w => (.ok body.length,w.put object body)
  | op, w => (op.refuse,w)

theorem process_final {s : Server} {database : String} {request : Request} {err : Error}
    (failed : (s.process database request).1 = .error err) : err.isRetryable = false := by
  have modified : ∀ key modify, (s.modifyCollection key modify).1 = .error err → err.isRetryable = false := by
    intro key modify failed
    unfold Server.modifyCollection at failed
    split at failed <;> cases failed
    rfl
  cases request with
  | createDatabase name =>
    change (s.createDatabase name).1 = .error err at failed
    unfold Server.createDatabase at failed
    split at failed <;> cases failed
    rfl
  | restoreCollection parameters indexes overwrite =>
    change (s.restoreCollection database parameters indexes overwrite).1 = .error err at failed
    unfold Server.restoreCollection at failed
    split at failed
    · cases failed; rfl
    · split at failed
      · cases failed
      · split at failed <;> cases failed
        rfl
  | restoreData collection body => exact modified _ _ failed
  | createIndex collection definition => exact modified _ _ failed
  | createView body =>
    change (s.createView database body).1 = .error err at failed
    unfold Server.createView at failed
    split at failed
    · cases failed; rfl
    · split at failed <;> cases failed
      rfl
  | dropView name =>
    change (s.dropView (database,name)).1 = .error err at failed
    unfold Server.dropView at failed
    split at failed <;> cases failed
    rfl
  | _ => cases failed; rfl

section Calls
variable (client : Client) (database : String)

theorem call_run (request : Request) (w : World) : run handle (client.executeOn database request) w =
    ((w.server.process database request).1,{w with server := (w.server.process database request).2}) :=
  Client.executeOn_run (fun _ _ => rfl) client database request w fun _ failed => process_final failed

theorem call_cut {request : Request} {w w' : World}
    (cut : Cut handle (client.executeOn database request) w w') :
    w' = w ∨ w' = {w with server := (w.server.process database request).2} :=
  Client.executeOn_cut (fun _ _ => rfl) client database request (fun _ failed => process_final failed) cut

variable {client}

theorem tolerating_run {status : Nat} {request : Tool Unit} {w w' : World}
    (ran : run handle request w = (result,w'))
    (fine : result = .ok () ∨ ∃ message context, result = .error (.http status message context)) :
    run handle (Client.tolerating status request) w = (.ok (),w') := by
  have attempted := run_attempt handle request w
  rw [ran] at attempted
  unfold Client.tolerating
  rw [run_bind_ok handle attempted]
  rcases fine with rfl | ⟨message,context,rfl⟩
  · rfl
  · simp

theorem tolerating_cut {status : Nat} {request : Tool Unit} {w w' : World}
    (cut : Cut handle (Client.tolerating status request) w w') : Cut handle request w w' := by
  unfold Client.tolerating at cut
  rcases (cut_bind handle).mp cut with inside | ⟨value,middle,ran,later⟩
  · exact (cut_attempt handle).mp inside
  · rw [run_attempt] at ran
    have ended := cut_run handle request w
    cases ran
    cases result : (run handle request w).1 with
    | ok value =>
      rw [result] at later
      rw [cut_done handle later]
      exact ended
    | error err =>
      rw [result] at later
      have same : w' = (run handle request w).2 := by
        cases err with
        | http code message context =>
          simp only at later
          split at later
          · exact cut_done handle later
          · exact cut_fail handle later
        | _ => exact cut_fail handle later
      rw [same]
      exact ended

end Calls
end ArangoDataTools.RestoreServer
