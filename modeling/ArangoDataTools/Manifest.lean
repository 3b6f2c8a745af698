import ArangoDataTools.Errors
import ArangoDataTools.Json

namespace ArangoDataTools

abbrev Bytes := List UInt8

def asciiBytes (text : String) : Bytes := text.toList.map fun char => UInt8.ofNat char.toNat

theorem asciiBytes_length (text : String) : (asciiBytes text).length = text.length := by
  simp [asciiBytes,String.length_toList]

def manifestVersion : Nat := 1

-- `Meta` and `Structure` in the source, both keywords here.
inductive ArtifactKind where
  | metadata | structureDef | view | data
  deriving DecidableEq, Repr

inductive DataFormat where
  | jsonl | json | csv | vpack | xgmml
  deriving DecidableEq, Repr

-- `manifest::Compression` and `storage::Compression` have the same three cases
-- and `map_compression`/`storage_compression` convert between them case by case.
inductive Compression where
  | none | gzip | zstd
  deriving DecidableEq, Repr

def Compression.extension : Compression → Option String
  | .none => Option.none
  | .gzip => some "gz"
  | .zstd => some "zst"

structure Checksum where
  algorithm : String
  value : String
  deriving DecidableEq, Repr

structure Artifact where
  path : String
  kind : ArtifactKind
  format : DataFormat
  compression : Compression := .none
  byteSize : Nat
  checksum : Option Checksum := none
  collection : Option String := none
  view : Option String := none
  database : Option String := none
  part : Option Nat := none
  deriving DecidableEq, Repr

structure EncryptionInfo where
  algorithm : String := "none"
  deriving DecidableEq, Repr

def EncryptionInfo.isEncrypted (info : EncryptionInfo) : Bool := info.algorithm ≠ "none"

structure Manifest where
  version : Nat := manifestVersion
  toolVersion : String
  createdAt : String
  database : String
  source : Option String := none
  encryption : EncryptionInfo := {}
  artifacts : List Artifact := []
  deriving DecidableEq, Repr

namespace Manifest

def new (database toolVersion createdAt : String) : Manifest :=
  {toolVersion := toolVersion,createdAt := createdAt,database := database}

def push (manifest : Manifest) (artifact : Artifact) : Manifest :=
  {manifest with artifacts := manifest.artifacts ++ [artifact]}

def fingerprint (manifest : Manifest) : String :=
  manifest.database ++ "|" ++ manifest.createdAt ++ "|" ++
    String.join (manifest.artifacts.map fun artifact => artifact.path ++ ",")

@[simp] theorem push_artifacts (manifest : Manifest) (artifact : Artifact) :
    (manifest.push artifact).artifacts = manifest.artifacts ++ [artifact] := rfl
@[simp] theorem push_encryption (manifest : Manifest) (artifact : Artifact) :
    (manifest.push artifact).encryption = manifest.encryption := rfl

end Manifest

-- The committed fields only grow together: `committedBatches` is a contiguous
-- high-water mark and the other two are totals over the batches below it.
structure ImportCheckpoint where
  committedBatches : Nat := 0
  documentsCommitted : Nat := 0
  bytesCommitted : Nat := 0
  deriving DecidableEq, Repr

structure RestoreCheckpoint where
  manifest : String
  completed : List String := []
  deriving DecidableEq, Repr

namespace RestoreCheckpoint

def new (manifest : String) : RestoreCheckpoint := {manifest := manifest}

def contains (checkpoint : RestoreCheckpoint) (id : String) : Bool := checkpoint.completed.any (· = id)

theorem contains_iff (checkpoint : RestoreCheckpoint) (id : String) :
    checkpoint.contains id = true ↔ id ∈ checkpoint.completed := by simp [contains]

end RestoreCheckpoint
end ArangoDataTools
