import ArangoDataTools.Client
import ArangoDataTools.PartyRules
import ArangoDataTools.RetryRules
import ArangoDataTools.RequestNames

namespace ArangoDataTools.Catalog
open Interaction Interaction.Program
open RequestUrls (ObjectName UrlRequest Call)
open RequestNames (Smooth Carried Reaches reaches_of_carried)

def typeId : CollectionKind → Nat
  | .document => 2
  | .edge => 3

-- The kind as `Debug` writes it.
def kindText : CollectionKind → String
  | .document => "Document"
  | .edge => "Edge"

structure CollectionInfo where
  name : String
  typeId : Nat

def CollectionInfo.kind (info : CollectionInfo) : Option CollectionKind := match info.typeId with
  | 2 => some .document
  | 3 => some .edge
  | _ => none

inductive CatalogRequest where
  | collectionInfo (name : String)
  | createCollection (name : String) (typeId : Nat)
  | createGraph (definition : Value)
  | dropGraph (name : String) (dropCollections : Bool)

abbrev CatalogRequest.Response : CatalogRequest → Type
  | collectionInfo _ => CollectionInfo
  | createCollection _ _ | createGraph _ | dropGraph _ _ => Unit

inductive CatalogOp where
  | send (request : CatalogRequest)
  | count (counter : Counter)

abbrev CatalogOp.Answer : CatalogOp → Type
  | send request => Except Error request.Response
  | count _ => Unit

abbrev Command (α : Type) := Program CatalogOp CatalogOp.Answer Error α

def counted (counter : Counter) : Command Unit := perform (CatalogOp.count counter)
def sent (request : CatalogRequest) : Command (Except Error request.Response) :=
  perform (CatalogOp.send request)

def execute (client : Client) (request : CatalogRequest) : Command request.Response :=
  retry client.retry counted (sent request)

def hasStatus (status : Nat) : Error → Bool
  | .http code _ _ => code = status
  | _ => false

def collectionInfo (client : Client) (name : String) : Command (Option CollectionInfo) :=
  (attempt (execute client (.collectionInfo name))).bind fun
    | .ok info => done (some info)
    | .error err => if hasStatus 404 err then done none else fail err

def createCollection (client : Client) (name : String) (kind : CollectionKind) : Command Unit :=
  execute client (.createCollection name (typeId kind))

def mismatch (name : String) (info : CollectionInfo) (kind : CollectionKind) : Error := match info.kind with
  | some existing => .config
      s!"collection '{name}' already exists as {kindText existing}, but {kindText kind} was requested"
  | none => .config s!"collection '{name}' already exists with an unsupported type"

def ensureCollection (client : Client) (name : String) (kind : CollectionKind) : Command Unit :=
  (collectionInfo client name).bind fun
    | some info => if info.kind = some kind then done () else fail (mismatch name info kind)
    | none => createCollection client name kind

def createGraph (client : Client) (definition : Value) : Command Unit :=
  execute client (.createGraph definition)

def dropGraph (client : Client) (name : String) (dropCollections : Bool) : Command Unit :=
  (attempt (execute client (.dropGraph name dropCollections))).bind fun
    | .ok _ => done ()
    | .error err => if hasStatus 404 err then done () else fail err

-- What a database holds: collections with their types and documents, and graphs with their definitions.
structure Collection where
  typeId : Nat
  documents : List Value

structure Database where
  collections : String → Option Collection
  graphs : String → Option Value

structure Database.Extends (w w' : Database) : Prop where
  kept : ∀ name held, w.collections name = some held → w'.collections name = some held

theorem Database.Extends.refl {w : Database} : w.Extends w := ⟨fun _ _ held => held⟩
theorem Database.Extends.trans {w middle w' : Database} (first : w.Extends middle)
    (second : middle.Extends w') : w.Extends w' :=
  ⟨fun name held found => second.kept name held (first.kept name held found)⟩

theorem Database.Extends.absent {w w' : Database} {name : String} (grown : w.Extends w')
    (missing : w'.collections name = none) :
    w.collections name = none := by
  by_contra some_
  obtain ⟨held,found⟩ := Option.ne_none_iff_exists'.mp some_
  rw [grown.kept name held found] at missing
  cases missing

def Unclear (err : Error) : Prop := hasStatus 404 err = false ∧ hasStatus 409 err = false

theorem transient_status {err : Error} (transient : err.isRetryable = true) :
    hasStatus 404 err ≠ true ∧ hasStatus 409 err ≠ true := by
  cases err with
  | http status message context =>
    simp only [Error.isRetryable,Bool.or_eq_true,beq_iff_eq] at transient
    simp only [hasStatus,ne_eq,decide_eq_true_eq]
    omega
  | _ => exact ⟨Bool.false_ne_true,Bool.false_ne_true⟩

-- What the server does and answers: a graph brings the collections it is missing, and its removal
-- takes collections along only where it is told to.
inductive Serves : (request : CatalogRequest) → Database → Except Error request.Response → Database → Prop where
  | found {w : Database} {name : String} {held : Collection} : w.collections name = some held →
      Serves (.collectionInfo name) w (.ok ⟨name,held.typeId⟩) w
  | missing {w : Database} {name message : String} {context : ErrorContext} : w.collections name = none →
      Serves (.collectionInfo name) w (.error (.http 404 message context)) w
  | created {w : Database} {name : String} {typeId : Nat} : w.collections name = none →
      Serves (.createCollection name typeId) w (.ok ())
        {w with collections := Function.update w.collections name (some ⟨typeId,[]⟩)}
  | taken {w : Database} {name message : String} {typeId : Nat} {context : ErrorContext} :
      w.collections name ≠ none →
      Serves (.createCollection name typeId) w (.error (.http 409 message context)) w
  | declared {w : Database} {name : String} {definition : Value} {collections : String → Option Collection} :
      definition.get "name" = some (.string name) → w.graphs name = none →
      w.Extends {w with collections := collections} →
      Serves (.createGraph definition) w (.ok ()) ⟨collections,Function.update w.graphs name (some definition)⟩
  | duplicate {w : Database} {name message : String} {definition : Value} {context : ErrorContext} :
      definition.get "name" = some (.string name) → w.graphs name ≠ none →
      Serves (.createGraph definition) w (.error (.http 409 message context)) w
  | dropped {w : Database} {name : String} {dropCollections : Bool}
      {collections : String → Option Collection} : w.graphs name ≠ none →
      (∀ name, collections name = w.collections name ∨ dropCollections = true ∧ collections name = none) →
      Serves (.dropGraph name dropCollections) w (.ok ()) ⟨collections,Function.update w.graphs name none⟩
  | unknown {w : Database} {name message : String} {dropCollections : Bool}
      {context : ErrorContext} : w.graphs name = none →
      Serves (.dropGraph name dropCollections) w (.error (.http 404 message context)) w
  | refused {w : Database} {request : CatalogRequest} {err : Error} : Unclear err →
      Serves request w (.error err) w
  | lost {w w' : Database} {request : CatalogRequest} {answer : Except Error request.Response} {err : Error} :
      Serves request w answer w' → Unclear err → Serves request w (.error err) w'

-- The database that all clients ask, and the escapes of its URLs.
structure Site where
  rules : Url.Rules
  database : ObjectName
  smooth : Smooth database.text.toList

def CatalogRequest.Addressed (site : Site) : CatalogRequest → Prop
  | collectionInfo name => ∃ object : ObjectName, object.text = name ∧
      Reaches site.rules (.within site.database (.collectionInfo object))
  | createCollection _ _ => Reaches site.rules (.within site.database .createCollection)
  | createGraph _ => Reaches site.rules (.within site.database .createGraph)
  | dropGraph name dropCollections => ∃ object : ObjectName, object.text = name ∧
      Reaches site.rules (.within site.database (.dropGraph object dropCollections))

def Addresses (site : Site) : CatalogOp → Prop
  | .send request => request.Addressed site
  | .count _ => True

def Answered : (op : CatalogOp) → Database → op.Answer → Database → Prop
  | .send request,w,answer,w' => Serves request w answer w'
  | .count _,w,_,w' => w' = w

-- What comes of a request that asks for something else is not known.
def serving {ι : Type} (site : Site) : Environment ι CatalogOp CatalogOp.Answer Database :=
  fun _ op w answer w' => Addresses site op → Answered op w answer w'

section Addresses
variable {site : Site} {call : Call} {object : ObjectName}

end Addresses

def Gentle (op : CatalogOp) : Prop := ∀ name, op ≠ .send (.dropGraph name true)

theorem serves_extends {w w' : Database} {request : CatalogRequest} {answer : Except Error request.Response}
    (served : Serves request w answer w') (gentle : Gentle (.send request)) : w.Extends w' := by
  induction served with
  | found | missing | taken | duplicate | unknown | refused => exact .refl
  | @created w name typeId missing =>
    refine ⟨fun other held found => ?_⟩
    have apart : other ≠ name := fun same => by
      rw [same,missing] at found
      cases found
    exact (Function.update_of_ne apart _ _).trans found
  | declared _ _ grown => exact ⟨grown.kept⟩
  | @dropped w name dropCollections collections _ taken =>
    refine ⟨fun other held found => ?_⟩
    rcases taken other with same | ⟨told,-⟩
    · exact same.trans found
    · exact absurd (told ▸ rfl) (gentle name)
  | lost _ _ ih => exact ih gentle

end ArangoDataTools.Catalog
