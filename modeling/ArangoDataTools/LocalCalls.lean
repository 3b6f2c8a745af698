import Mathlib.Data.List.Dedup
import Mathlib.Data.List.Sort
import Mathlib.Data.String.Basic
import ArangoDataTools.LocalStore

namespace ArangoDataTools.LocalStore

-- What the system reports. `NotFound` is the kind of the first.
inductive Errno where
  | noEntry | notDirectory | isDirectory
  deriving DecidableEq, Repr

def Errno.error : Errno → Error
  | noEntry => notFound
  | notDirectory => notADirectory
  | isDirectory => isADirectory

structure ObjectMetadata where
  path : String
  size : Nat
  deriving DecidableEq, Repr

structure ByteRange where
  start : Nat
  end_ : Option Nat
  deriving DecidableEq, Repr

-- `seek` to the start, and `take` up to the end.
def cut : Option ByteRange → Bytes → Bytes
  | none, bytes => bytes
  | some ⟨start,none⟩, bytes => bytes.drop start
  | some ⟨start,some end_⟩, bytes => (bytes.drop start).take (end_ - start)

def takesNothing : Option ByteRange → Bool
  | some ⟨start,some end_⟩ => end_ ≤ start
  | _ => false

namespace Disk

-- `metadata`, and `File::open` for reading.
def metadata (disk : Disk) (full : Place) : Except Errno Entry := match disk.entry full.names with
  | some (.file bytes) => if full.directory then .error .notDirectory else .ok (.file bytes)
  | some .directory => .ok .directory
  | none => .error (if disk.blocked full.names then .notDirectory else .noEntry)

def remove (disk : Disk) (names : List Name) (file : disk.isFile names = true) : Disk where
  entry := Function.update disk.entry names none
  held := by
    intro above name present
    have before : disk.entry (above ++ [name]) ≠ none := by
      by_cases here : above ++ [name] = names
      · rw [here,Function.update_self] at present
        exact absurd rfl present
      · rwa [Function.update_of_ne here] at present
    have found := disk.held above name before
    have differs : above ≠ names := by
      rintro rfl
      simp [isFile,found] at file
    rw [Function.update_of_ne differs]
    exact found

-- `remove_file`
def removeFile (disk : Disk) (full : Place) : Except Errno Disk :=
  if file : full.directory = false ∧ disk.isFile full.names = true then .ok (disk.remove full.names file.2)
  else match disk.metadata full with
    | .ok _ => .error .isDirectory
    | .error errno => .error errno

end Disk

def getRanged (disk : Disk) (path : String) (range : Option ByteRange) : Except Error Bytes :=
  match resolve path with
  | .error err => .error err
  | .ok full => match disk.metadata full with
    | .ok (.file bytes) => .ok (cut range bytes)
    | .ok .directory => if takesNothing range then .ok [] else .error isADirectory
    | .error errno => .error errno.error

def head (disk : Disk) (path : String) : Except Error (Option ObjectMetadata) :=
  match resolve path with
  | .error err => .error err
  | .ok full => match disk.metadata full with
    | .ok (.file bytes) => .ok (some ⟨path,bytes.length⟩)
    | .ok .directory => .ok none
    | .error .noEntry => .ok none
    | .error errno => .error errno.error

def delete (disk : Disk) (path : String) : Except Error Unit × Disk :=
  match resolve path with
  | .error err => (.error err,disk)
  | .ok full => match disk.removeFile full with
    | .ok after => (.ok (),after)
    | .error .noEntry => (.ok (),disk)
    | .error errno => (.error errno.error,disk)

structure Root where
  disk : Disk
  known : List (List Name)
  complete : ∀ names, disk.entry names ≠ none → names ∈ known

-- The order in which the system lists the entries of a directory.
structure ReadOrder where
  arrange : List Name → List Name → List Name
  same : ∀ names entries, (arrange names entries).Perm entries

namespace Root

def entries (root : Root) (names : List Name) : List Name :=
  (root.known.filterMap fun below => if below.dropLast = names ∧ (root.disk.entry below).isSome then
    below.getLast? else none).dedup

def empty : Root where
  disk :=
    {entry := fun names => if names = [] then some .directory else none
     held := by intro names name present; simp at present}
  known := [[]]
  complete := by intro names present; simpa using present

end Root

def relativize : List Name → List Char
  | [] => []
  | [name] => name
  | name :: rest => name ++ '/' :: relativize rest

section Walk
variable (order : ReadOrder) (root : Root)

-- The stack, its top first. `fuel` bounds the places that are visited.
def walk : Nat → List Place → List ObjectMetadata → Except Error (List ObjectMetadata)
  | _, [], out => .ok out
  | 0, _ :: _, _ => .error (.storage "out of fuel")
  | fuel + 1, current :: stack, out => match root.disk.metadata current with
    | .error .noEntry => walk fuel stack out
    | .error errno => .error errno.error
    | .ok (.file bytes) => walk fuel stack (out ++ [⟨String.ofList (relativize current.names),bytes.length⟩])
    | .ok .directory =>
      let below := (order.arrange current.names (root.entries current.names)).map fun name =>
          ⟨current.names ++ [name],false⟩
      walk fuel (below.reverse ++ stack) out

def list (path : String) : Except Error (List ObjectMetadata) :=
  match resolve path with
  | .error err => .error err
  | .ok base => (walk order root (root.known.length + 1) [base] []).map fun out =>
      out.insertionSort fun one two => one.path ≤ two.path

end Walk
end ArangoDataTools.LocalStore
