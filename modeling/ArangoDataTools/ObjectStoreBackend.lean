import Mathlib.Data.List.Nodup
import ArangoDataTools.Percent
import ArangoDataTools.Segments
import ArangoDataTools.Resumable

namespace ArangoDataTools.ObjectStoreBackend
open Interaction Interaction.Program Resumable Segments Percent

section Keys
variable (reserved : Char → Bool)

def part (segment : List Char) : List Char :=
  if segment = ['.'] then ['%','2','E'] else if segment = ['.','.'] then ['%','2','E','%','2','E']
    else encode reserved segment

structure Key where
  segments : List (List Char)
  whole : ∀ segment ∈ segments, segment ≠ [] ∧ '/' ∉ segment ∧ segment ≠ ['.'] ∧ segment ≠ ['.','.']
  deriving DecidableEq

def Key.raw (key : Key) : List Char := join '/' key.segments

@[ext] theorem Key.ext {one two : Key} (same : one.segments = two.segments) : one = two := by
  cases one
  cases two
  cases same
  rfl

variable {reserved}

theorem part_length (segment : List Char) : segment.length ≤ (part reserved segment).length := by
  unfold part
  split
  · simp [*]
  · split
    · simp [*]
    · exact encode_length segment

def Plain (reserved : Char → Bool) (segment : List Char) : Prop :=
  segment ≠ ['.'] ∧ segment ≠ ['.','.'] ∧ ∀ c ∈ segment, reserved c = false

theorem part_plain {segment : List Char} (plain : Plain reserved segment) : part reserved segment =
    segment := by
  rw [part,if_neg plain.1,if_neg plain.2.1]
  exact encode_plain plain.2.2

theorem plain_of_part {segment : List Char}
    (short : (part reserved segment).length ≤ segment.length) : Plain reserved segment := by
  unfold part at short
  split at short
  · rename_i dot
    rw [dot] at short
    cases short
    contradiction
  · split at short
    · rename_i dots
      rw [dots] at short
      simp at short
    · exact ⟨‹_›,‹_›,plain_of_length short⟩

theorem part_slash {segment : List Char} (free : '/' ∉ segment) : '/' ∉ part reserved segment := by
  have digits : ∀ value < 16, hexDigit value ≠ '/' := by decide
  unfold part
  split
  · decide
  · split
    · decide
    · intro member
      rcases mem_encode member with inside | sign | ⟨value,bound,digit⟩
      · exact free inside
      · cases sign
      · exact digits value bound digit.symm

theorem part_dots (segment : List Char) : part reserved segment ≠ ['.'] ∧
    part reserved segment ≠ ['.','.'] := by
  unfold part
  split
  · decide
  · split
    · decide
    · constructor
      · intro same
        have short : (encode reserved segment).length < 3 := by rw [same]; decide
        exact absurd ((encode_plain (plain_of_short short)).symm.trans same) ‹_›
      · intro same
        have short : (encode reserved segment).length < 3 := by rw [same]; decide
        exact absurd ((encode_plain (plain_of_short short)).symm.trans same) ‹_›

variable (reserved) in
-- `Path::from`: empty parts are dropped.
def keyFrom (text : List Char) : Key where
  segments := ((text.splitOn '/').map (part reserved)).filter fun segment => segment ≠ []
  whole := by
    intro segment member
    obtain ⟨mapped,some_⟩ := List.mem_filter.mp member
    obtain ⟨own,listed,rfl⟩ := List.mem_map.mp mapped
    exact ⟨by simpa using some_,part_slash (split_whole text own listed),part_dots own⟩

end Keys

-- The objects of a bucket, in the order in which it lists them.
structure Bucket where
  entries : List (Key × Bytes)
  distinct : (entries.map Prod.fst).Nodup

namespace Bucket

def get (bucket : Bucket) (key : Key) : Option Bytes :=
  (bucket.entries.find? fun entry => entry.1 = key).map Prod.snd

def delete (bucket : Bucket) (key : Key) : Bucket where
  entries := bucket.entries.filter fun entry => entry.1 ≠ key
  distinct := bucket.distinct.sublist (List.filter_sublist.map Prod.fst)

def put (bucket : Bucket) (key : Key) (body : Bytes) : Bucket where
  entries := (bucket.delete key).entries ++ [(key,body)]
  distinct := by
    rw [List.map_append]
    refine List.Nodup.append (bucket.delete key).distinct (List.nodup_singleton _)
      (List.disjoint_singleton.mpr ?_)
    intro member
    obtain ⟨entry,kept,same⟩ := List.mem_map.mp member
    have apart := (List.mem_filter.mp kept).2
    simp [same] at apart

-- The keys under a path, by whole segments.
def under (location key : Key) : Bool :=
  location.segments.isPrefixOf key.segments && decide (location.segments.length < key.segments.length)

def list (bucket : Bucket) (location : Key) : List (Key × Bytes) :=
  bucket.entries.filter fun entry => under location entry.1

end Bucket

def trimSlashes (text : List Char) : List Char :=
  ((text.dropWhile fun c => c = '/').reverse.dropWhile fun c => c = '/').reverse

structure Backend where
  keyPrefix : Option (List Char)
  trimmed : ∀ text, keyPrefix = some text → text ≠ [] ∧ (∀ c, text.head? = some c → c ≠ '/') ∧
    (∀ c, text.getLast? = some c → c ≠ '/')

namespace Backend

theorem dropWhile_head (text : List Char) : ∀ c, (text.dropWhile fun c => c = '/').head? = some c →
    c ≠ '/' := by
  intro c first
  have kept := List.head?_dropWhile_not (fun c => decide (c = '/')) text
  rw [first] at kept
  simpa using kept

theorem trim_ends (text : List Char) : (∀ c, (trimSlashes text).head? = some c → c ≠ '/') ∧
    (∀ c, (trimSlashes text).getLast? = some c → c ≠ '/') := by
  unfold trimSlashes
  constructor
  · intro c first
    have inside := List.reverse_prefix.mpr (List.dropWhile_suffix (fun c => decide (c = '/'))
      (l:=(text.dropWhile fun c => c = '/').reverse))
    rw [List.reverse_reverse] at inside
    obtain ⟨rest,parts⟩ := inside
    apply dropWhile_head text
    rw [← parts]
    cases trimmed : ((text.dropWhile fun c => decide (c = '/')).reverse.dropWhile fun c =>
      decide (c = '/')).reverse with
    | nil => rw [trimmed] at first; cases first
    | cons d more => rw [trimmed] at first; exact first
  · intro c last
    rw [List.getLast?_reverse] at last
    exact dropWhile_head _ c last

def new (given : Option String) : Backend where
  keyPrefix := (given.map fun text => trimSlashes text.toList).filter fun text => text ≠ []
  trimmed := by
    intro text same
    obtain ⟨trimmed,some_⟩ := Option.filter_eq_some_iff.mp same
    obtain ⟨own,rfl,rfl⟩ := Option.map_eq_some_iff.mp trimmed
    exact ⟨by simpa using some_,trim_ends own.toList⟩

variable (reserved : Char → Bool) (backend : Backend)

def location (path : String) : Except Error Key :=
  if (path.toList.splitOn '/').any fun segment => segment = ['.','.'] ∨ segment = ['.'] then
    .error (.storage ("object path escapes storage prefix: " ++ path))
  else match backend.keyPrefix with
    | some text => .ok (keyFrom reserved (text ++ '/' :: path.toList.dropWhile fun c => c = '/'))
    | none => .ok (keyFrom reserved path.toList)

-- `strip_prefix` and `trim_start_matches` on a listed key.
def relative (key : Key) : List Char :=
  match backend.keyPrefix with
  | some text => if text.isPrefixOf key.raw then (key.raw.drop text.length).dropWhile fun c =>
      c = '/' else key.raw
  | none => key.raw

def listedPath (key : Key) : String := String.ofList (backend.relative key)

-- The calls of the trait, on a bucket that answers; what it says of a missing
-- object is left open.
def handle (notFound : Key → String) : Handler StoreOp StoreOp.Answer Bucket
  | .head path, bucket => match backend.location reserved path with
    | .error err => (.error err,bucket)
    | .ok key => (.ok ((bucket.get key).map List.length),bucket)
  | .getStream path, bucket => match backend.location reserved path with
    | .error err => (.error err,bucket)
    | .ok key => match bucket.get key with
      | some body => (.ok body,bucket)
      | none => (.error (.storage (notFound key)),bucket)
  | .putStream path body, bucket => match backend.location reserved path with
    | .error err => (.error err,bucket)
    | .ok key => (.ok (),bucket.put key body)
  | .list under, bucket => match backend.location reserved under with
    | .error err => (.error err,bucket)
    | .ok key => (.ok ((bucket.list key).map fun entry => backend.listedPath entry.1),bucket)
  | .delete path, bucket => match backend.location reserved path with
    | .error err => (.error err,bucket)
    | .ok key => (.ok (),bucket.delete key)

end Backend

end ArangoDataTools.ObjectStoreBackend
