import ArangoDataTools.Catalog

namespace ArangoDataTools.Catalog
open Interaction Interaction.Program
open RequestUrls (ObjectName)
open RequestNames (Smooth)

-- How far a party has come that ensures a collection, and the error it was last answered; `apart`
-- is a party that does something else.
inductive Ensuring where
  | apart
  | asking (name : String) (kind : CollectionKind) (last : Option Error)
  | absent (name : String) (kind : CollectionKind) (last : Option Error)
  | found (name : String) (info : CollectionInfo)
  | made (name : String) (kind : CollectionKind)
  | raced (name : String)

def ensuringNext : Ensuring → (op : CatalogOp) → op.Answer → Ensuring
  | .asking name _ _,.send (.collectionInfo _),.ok info => .found name info
  | .asking name kind _,.send (.collectionInfo _),.error err => if hasStatus 404 err then
      .absent name kind none else .asking name kind err
  | .absent name kind _,.send (.createCollection _ _),.ok _ => .made name kind
  | .absent name kind _,.send (.createCollection _ _),.error err => if hasStatus 409 err then
      .raced name else .absent name kind err
  | q,_,_ => q

def ensuringPermits : Ensuring → CatalogOp → Prop
  | .apart,op => Gentle op
  | .asking name _ _,op => (∃ counter, op = .count counter) ∨ op = .send (.collectionInfo name)
  | .absent name kind _,op => (∃ counter, op = .count counter) ∨
      op = .send (.createCollection name (typeId kind))
  | _,op => ∃ counter, op = .count counter

def ensuring (site : Site) : Protocol CatalogOp CatalogOp.Answer Ensuring :=
  ⟨fun q op => Addresses site op ∧ ensuringPermits q op,ensuringNext⟩

def Ensuring.Knows (start w : Database) : Ensuring → Prop
  | .apart => True
  | .asking _ _ last => ∀ err, last = some err → Unclear err
  | .absent name _ last => start.collections name = none ∧ ∀ err, last = some err → Unclear err
  | .found name info => ∃ held, w.collections name = some held ∧ held.typeId = info.typeId
  | .made name kind => ∃ held, w.collections name = some held ∧ held.typeId = typeId kind
  | .raced name => start.collections name = none ∧ ∃ held, w.collections name = some held

-- How a call of `ensure_collection` ends.
inductive Settled (start w : Database) (name : String) (kind : CollectionKind) : Except Error Unit → Prop where
  | ready {held : Collection} : w.collections name = some held → held.typeId = typeId kind →
      Settled start w name kind (.ok ())
  | other {held : Collection} : w.collections name = some held → held.typeId ≠ typeId kind →
      Settled start w name kind (.error (mismatch name ⟨name,held.typeId⟩ kind))
  | raced {held : Collection} {err : Error} : start.collections name = none →
      w.collections name = some held → hasStatus 409 err = true →
      Settled start w name kind (.error err)
  | unanswered {err : Error} : Unclear err → Settled start w name kind (.error err)

section Ensured
variable {start w w' : Database} {name : String} {kind : CollectionKind} {q : Ensuring}

end Ensured

section Calls
variable {site : Site} {client : Client} {name : String} {kind : CollectionKind}

def Asked (name : String) (kind : CollectionKind) : Except Error CollectionInfo → Ensuring → Prop
  | .ok info,q => q = .found name info
  | .error err,q => q = if hasStatus 404 err then .absent name kind none else .asking name kind err

def Created (name : String) (kind : CollectionKind) : Except Error Unit → Ensuring → Prop
  | .ok _,q => q = .made name kind
  | .error err,q => q = if hasStatus 409 err then .raced name else .absent name kind err

end Calls

-- A wish for a collection by a name that its URL carries.
structure EnsureCall where
  client : Client
  name : ObjectName
  smooth : Smooth name.text.toList
  ending : name.text.toList.getLast? ≠ some ' '
  kind : CollectionKind

-- Any number of parties: some ensure a collection, the others run any program that takes none away.
structure Tasks (site : Site) (ι : Type) where
  ensures : ι → Option EnsureCall
  others : ι → Command Unit
  gentle : ∀ i, Follows (ensuring site) (fun _ _ => True) (others i) .apart

namespace Tasks
variable {site : Site} {ι : Type}

def program (tasks : Tasks site ι) (i : ι) : Command Unit := match tasks.ensures i with
  | some wish => ensureCollection (wish.client.withDatabase site.database.text) wish.name.text wish.kind
  | none => tasks.others i

def phase (tasks : Tasks site ι) (i : ι) : Ensuring := match tasks.ensures i with
  | some wish => .asking wish.name.text wish.kind none
  | none => .apart

def begin (tasks : Tasks site ι) (start : Database) :
    Pool ι CatalogOp CatalogOp.Answer Error Unit Database Ensuring :=
  ⟨tasks.program,tasks.phase,start⟩

end Tasks

section Runs
variable {site : Site} {ι : Type} {start w : Database} {name : String} {kind : CollectionKind}

end Runs

section Sample

end Sample
end ArangoDataTools.Catalog
