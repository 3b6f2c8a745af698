import ArangoDataTools.DumpRun
import ArangoDataTools.ClientRuns

namespace ArangoDataTools.StoredManifest
open Interaction Interaction.Program Dump DumpClaim DumpRun

-- What a server holds for as long as it is dumped.
structure Holdings where
  databases : List String := []
  inventories : String → Inventory := fun _ => {}

def Holdings.Answers (held : Holdings) (database : String) : (request : Request) → request.Response → Prop
  | .listDatabases, databases => databases = held.databases
  | .replicationInventory _ _, inventory => inventory = held.inventories database
  | _, _ => True

-- A store that keeps what was put, with no other writer. Any operation may fail,
-- and a failed one leaves anything at its own object. Whatever else the server is
-- asked for, its chunks among it, it answers as it likes.
inductive Keeps (held : Holdings) : Answering Op Op.Answer Objects where
  | answered : held.Answers database request value → Keeps held (.send database request) w (.ok value) w
  | refused (err : Error) : Keeps held (.send database request) w (.error err) w
  | head : Keeps held (.head object) w (.ok ((w object).map List.length)) w
  | headFailed (err : Error) : Keeps held (.head object) w (.error err) w
  | get : w object = some bytes → Keeps held (.get object) w (.ok bytes) w
  | getFailed (err : Error) : Keeps held (.get object) w (.error err) w
  | put : Keeps held (.putStream object body) w (.ok body.length) (Function.update w object (some body))
  | putFailed (err : Error) (left : Option Bytes) :
      Keeps held (.putStream object body) w (.error err) (Function.update w object left)
  | aborted (left : Option Bytes) : Keeps held (.abortPut object body) w () (Function.update w object left)
  | created : w object = none → Keeps held (.putIfAbsent object body) w (.ok body.length)
      (Function.update w object (some body))
  | notCreated (err : Error) (left : Option Bytes) :
      Keeps held (.putIfAbsent object body) w (.error err) (Function.update w object left)
  | deleted : Keeps held (.delete object) w (.ok ()) (Function.update w object none)
  | notDeleted (err : Error) (left : Option Bytes) :
      Keeps held (.delete object) w (.error err) (Function.update w object left)
  | emitted : Keeps held (.emit event) w () w
  | counted : Keeps held (.count counter) w () w
  | passed (taken : Bool) : Keeps held (.pass item) w taken w

abbrev Piece := Artifact × Bytes

def writes (pieces : List Piece) : List (String × Bytes) := pieces.map fun piece => (piece.1.path,piece.2)

def checksumOf (codec : Codec) (bytes : Bytes) : Checksum := ⟨"sha256",hex (codec.sha256 bytes)⟩

def Measured (codec : Codec) (piece : Piece) : Prop :=
  piece.1.byteSize = piece.2.length ∧ ∀ checksum, piece.1.checksum = some checksum →
    checksum = checksumOf codec piece.2

-- A manifest that describes the store exactly; `reserved` are the paths no artifact may have.
structure Exact (codec : Codec) (store : Nat) (path : String) (reserved : List String)
    (manifest : Manifest) (w : Objects) : Prop where
  stored : ∃ bytes, w ⟨store,path⟩ = some bytes ∧ codec.manifestFromJson bytes = .ok manifest
  distinct : (manifest.artifacts.map Artifact.path).Nodup
  apart : ∀ artifact ∈ manifest.artifacts, artifact.path ≠ path ∧ artifact.path ∉ reserved
  sized : ∀ artifact ∈ manifest.artifacts, ∃ bytes, w ⟨store,artifact.path⟩ = some bytes ∧
    bytes.length = artifact.byteSize
  hashed : ∀ artifact ∈ manifest.artifacts, ∀ checksum, artifact.checksum = some checksum →
    ∃ bytes, w ⟨store,artifact.path⟩ = some bytes ∧ checksum = checksumOf codec bytes

variable {codec : Codec} {held : Holdings} {store : Nat}

theorem writes_paths (pieces : List Piece) : (writes pieces).map Prod.fst =
    (pieces.map Prod.fst).map Artifact.path := by
  simp [writes,Function.comp_def]

theorem exact_of_pieces {path : String} {reserved : List String} {manifest : Manifest}
    {pieces : List Piece} {w : Objects}
    (listed : manifest.artifacts = pieces.map Prod.fst)
      (reads : codec.manifestFromJson (codec.manifestToJson manifest) = .ok manifest)
    (distinct : (manifest.artifacts.map Artifact.path).Nodup)
    (apart : ∀ artifact ∈ manifest.artifacts, artifact.path ≠ path ∧ artifact.path ∉ reserved)
    (measured : ∀ piece ∈ pieces, Measured codec piece)
      (stored : w ⟨store,path⟩ = some (codec.manifestToJson manifest))
    (left : ∀ piece ∈ pieces, w ⟨store,piece.1.path⟩ = some piece.2) :
      Exact codec store path reserved manifest w where
  stored := ⟨_,stored,reads⟩
  distinct := distinct
  apart := apart
  sized := by
    intro artifact member
    rw [listed] at member
    obtain ⟨piece,present,rfl⟩ := List.mem_map.mp member
    exact ⟨piece.2,left piece present,(measured piece present).1.symm⟩
  hashed := by
    intro artifact member checksum recorded
    rw [listed] at member
    obtain ⟨piece,present,rfl⟩ := List.mem_map.mp member
    exact ⟨piece.2,left piece present,(measured piece present).2 checksum recorded⟩

theorem pieces_left {pieces : List Piece}
    (distinct : ((pieces.map Prod.fst).map Artifact.path).Nodup) {piece : Piece}
    (member : piece ∈ pieces) (w : Objects) : putAll store (writes pieces) w ⟨store,piece.1.path⟩ =
    some piece.2 := by
  rw [← writes_paths] at distinct
  exact putAll_written distinct (List.mem_map.mpr ⟨piece,member,rfl⟩) w

section Returned
variable {w w' : Objects}

theorem quiet_still {p q : Tool α} (quiet : Quiet codec store p)
    (runs : Runs (Keeps held) p w q w') : w' = w := by
  have follows := quiet .released
  clear quiet
  induction runs with
  | here => rfl
  | call op next answer middle answered _ ih =>
    obtain ⟨permitted,later⟩ := follows
    refine (ih (later answer)).trans ?_
    cases answered with
    | answered | refused | emitted | counted => rfl
    | _ => exact permitted.elim

theorem executeOn_returns (codec : Codec) {database : String} {request : Request}
    {value : request.Response} (client : Client)
    (runs : Runs (Keeps held) (client.executeOn database request) w (done value) w') :
    held.Answers database request value ∧ w' = w := by
  have still : ∀ counter w answer w', Keeps held (.count counter) w answer w' → w' = w := by
    intro counter w answer w' step
    cases step
    rfl
  have last : Runs (Keeps held) (client.executeOn database request) w (lift (.ok value)) w' := runs
  obtain ⟨middle,step⟩ := ClientRuns.executeOn_told client still last
  refine ⟨?_,quiet_still (@quiet_executeOn codec 0 client database request) runs⟩
  cases step with
  | answered holds => exact holds

theorem put_returns {object : ObjectRef} {body : Bytes} {size : Nat}
    (runs : Runs (Keeps held) (object.putStream body) w (done size) w') :
    size = body.length ∧ w' = Function.update w object (some body) := by
  obtain ⟨result,middle,sent,rest⟩ := runs_bind_done runs
  cases perform_answers sent with
  | put =>
    obtain ⟨same,rfl⟩ := runs_done rest
    cases same
    exact ⟨rfl,rfl⟩
  | putFailed err left => cases (runs_fail rest).1

end Returned
end ArangoDataTools.StoredManifest
