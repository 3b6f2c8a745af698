import Mathlib.Algebra.GroupWithZero.Nat
import Mathlib.Data.UInt
import ArangoDataTools.Client
import ArangoDataTools.ImportBatch

namespace ArangoDataTools
open Interaction Interaction.Program

structure ConcurrencyConfig where
  workers : Nat
  maxInFlightBytes : Nat
  adaptive : Bool
  deriving DecidableEq, Repr

-- Additions of a release build wrap at 64 bits.
structure ImportSummary where
  created : UInt64 := 0
  errors : UInt64 := 0
  empty : UInt64 := 0
  updated : UInt64 := 0
  ignored : UInt64 := 0
  batches : UInt64 := 0
  documentsSent : UInt64 := 0
  bytesSent : UInt64 := 0
  deriving DecidableEq, Repr

namespace ImportSummary

def record (summary : ImportSummary) (batch : Batch) (result : ImportResult) : ImportSummary :=
  {created := summary.created + result.created
   errors := summary.errors + result.errors
   empty := summary.empty + result.empty
   updated := summary.updated + result.updated
   ignored := summary.ignored + result.ignored
   batches := summary.batches + 1
   documentsSent := summary.documentsSent + UInt64.ofNat batch.documents
   bytesSent := summary.bytesSent + UInt64.ofNat batch.byteLen}

def merge (summary other : ImportSummary) : ImportSummary :=
  {created := summary.created + other.created
   errors := summary.errors + other.errors
   empty := summary.empty + other.empty
   updated := summary.updated + other.updated
   ignored := summary.ignored + other.ignored
   batches := summary.batches + other.batches
   documentsSent := summary.documentsSent + other.documentsSent
   bytesSent := summary.bytesSent + other.bytesSent}

instance : Zero ImportSummary := ⟨{}⟩
instance : Add ImportSummary := ⟨merge⟩

instance : AddCommMonoid ImportSummary where
  add_assoc a b c := by
    change merge (merge a b) c = merge a (merge b c)
    simp only [merge,UInt64.add_assoc]
  zero_add a := by
    change merge {} a = a
    simp only [merge,UInt64.zero_add]
  add_zero a := by
    change merge a {} = a
    simp only [merge,UInt64.add_zero]
  add_comm a b := by
    change merge a b = merge b a
    simp only [merge,UInt64.add_comm]
  nsmul := nsmulRec

def share (batch : Batch) (result : ImportResult) : ImportSummary := record {} batch result

theorem merge_eq (summary other : ImportSummary) : summary.merge other = summary + other := rfl
theorem record_eq (summary : ImportSummary) (batch : Batch) (result : ImportResult) :
    summary.record batch result = summary + share batch result := by
  change _ = merge summary (record {} batch result)
  simp only [merge,record,UInt64.zero_add]

-- The sums over a run's acknowledged batches.
def totals (acknowledged : List (Batch × ImportResult)) : ImportSummary :=
  {created := (acknowledged.map fun answer => answer.2.created).sum
   errors := (acknowledged.map fun answer => answer.2.errors).sum
   empty := (acknowledged.map fun answer => answer.2.empty).sum
   updated := (acknowledged.map fun answer => answer.2.updated).sum
   ignored := (acknowledged.map fun answer => answer.2.ignored).sum
   batches := (acknowledged.map fun _ => 1).sum
   documentsSent := (acknowledged.map fun answer => UInt64.ofNat answer.1.documents).sum
   bytesSent := (acknowledged.map fun answer => UInt64.ofNat answer.1.byteLen).sum}

theorem totals_append (acknowledged : List (Batch × ImportResult)) (batch : Batch) (result : ImportResult) :
    totals (acknowledged ++ [(batch,result)]) = totals acknowledged + share batch result := by
  change _ = merge (totals acknowledged) (record {} batch result)
  simp [totals,merge,record]

end ImportSummary

def maxPermits : Nat := (2 ^ 64 - 1) / 2 ^ 3

def permitsFor (bytes cap : Nat) : Nat := min (min bytes cap) (2 ^ 32 - 1)

theorem permitsFor_le (bytes cap : Nat) : permitsFor bytes cap ≤ min cap maxPermits := by
  unfold permitsFor maxPermits; omega

def rateLimitStatus : Error → Option Nat
  | .http status _ _ => if status = 429 ∨ status = 502 ∨ status = 503 ∨ status = 504 then some status else none
  | _ => none

def withBatchContext (err : Error) (collection : String) (batch : Nat) : Error :=
  match err with
  | .http status message context =>
    .http status message {context with collection := context.collection.or (some collection),batch := some batch}
  | other => other

structure ArangoBatchSender where
  client : Client
  options : ImportOptions

def ArangoBatchSender.send (sender : ArangoBatchSender) (batch : Batch) : Tool ImportResult :=
  (attempt (sender.client.importDocuments sender.options batch.body)).bind fun
    | .ok result => done result
    | .error err => fail (withBatchContext err sender.options.collection batch.index)

end ArangoDataTools
