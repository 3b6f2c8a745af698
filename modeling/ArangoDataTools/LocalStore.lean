import Mathlib.Data.List.Infix
import Mathlib.Logic.Function.Basic
import ArangoDataTools.Manifest

namespace ArangoDataTools.LocalStore

abbrev Name := List Char

-- `std::path::Component` of a path without a drive.
inductive Component where
  | rootDir | curDir | parentDir
  | normal (name : Name)
  deriving DecidableEq, Repr

def pieces : List Char → List Name
  | [] => [[]]
  | '/' :: rest => [] :: pieces rest
  | char :: rest => match pieces rest with
    | [] => [[char]]
    | head :: tail => (char :: head) :: tail

def component (starts : Bool) : Name → Option Component
  | [] => none
  | ['.'] => if starts then some .curDir else none
  | ['.','.'] => some .parentDir
  | name => some (.normal name)

def components (path : List Char) : List Component :=
  (if path.head? = some '/' then [.rootDir] else []) ++ match pieces path with
    | [] => []
    | head :: tail => (component true head).toList ++ tail.filterMap (component false)

def Component.inside : Component → Bool
  | normal _ | curDir => true
  | rootDir | parentDir => false

def Component.name : Component → Option Name
  | normal name => some name
  | _ => none

-- A place below the root. `directory`: the text ends in a separator or a dot,
-- so the system takes it for a directory only.
structure Place where
  names : List Name
  directory : Bool
  deriving DecidableEq, Repr

def resolve (path : String) : Except Error Place :=
  if (components path.toList).all Component.inside then
    .ok {names := (components path.toList).filterMap Component.name
         directory := (pieces path.toList).getLast? ∈ [none,some [],some ['.']]}
  else .error (.storage ("object path escapes storage root: " ++ path))

inductive Entry where
  | file (bytes : Bytes)
  | directory
  deriving DecidableEq, Repr

def Entry.append (chunk : Bytes) : Entry → Entry
  | file bytes => file (bytes ++ chunk)
  | directory => directory

-- The tree below the root, which is the empty list of names. What holds an
-- entry is a directory.
structure Disk where
  entry : List Name → Option Entry
  held : ∀ names name, entry (names ++ [name]) ≠ none → entry names = some .directory

def notFound : Error := .io .other "No such file or directory (os error 2)"
def fileExists : Error := .io .other "File exists (os error 17)"
def notADirectory : Error := .io .other "Not a directory (os error 20)"
def isADirectory : Error := .io .other "Is a directory (os error 21)"

namespace Disk

def isFile (disk : Disk) (names : List Name) : Bool := match disk.entry names with
  | some (.file _) => true
  | _ => false

def blocked (disk : Disk) (names : List Name) : Bool := names.inits.any disk.isFile

theorem entry_of_unblocked {disk : Disk} {names above : List Name}
    (free : disk.blocked names = false) (part : above <+: names) :
    disk.entry above = none ∨ disk.entry above = some .directory := by
  have clear : disk.isFile above = false := by
    unfold blocked at free
    rw [List.any_eq_false] at free
    simpa using free above ((List.mem_inits _ _).mpr part)
  unfold isFile at clear
  cases found : disk.entry above with
  | none => exact .inl rfl
  | some entry =>
    cases entry with
    | file bytes => simp [found] at clear
    | directory => exact .inr rfl

-- `create_dir_all`: nothing is created when it fails.
def makeDirs (disk : Disk) (names : List Name) (free : disk.blocked names = false) : Disk where
  entry above := if above <+: names ∧ disk.entry above = none then some .directory else disk.entry above
  held := by
    intro above name present
    by_cases new : (above ++ [name]) <+: names ∧ disk.entry (above ++ [name]) = none
    · have part : above <+: names := (List.prefix_append above [name]).trans new.1
      rcases entry_of_unblocked free part with missing | found
      · rw [if_pos ⟨part,missing⟩]
      · rw [if_neg (by simp [found])]
        exact found
    · rw [if_neg new] at present
      have found := disk.held above name present
      rw [if_neg (by simp [found])]
      exact found

def createDirAll (disk : Disk) (names : List Name) : Except Error Disk :=
  if free : disk.blocked names = false then .ok (disk.makeDirs names free)
  else .error (if disk.isFile names then fileExists else notADirectory)

def write (disk : Disk) (names : List Name) (bytes : Bytes)
    (fits : disk.entry names.dropLast = some .directory ∧ names ≠ [] ∧
    disk.entry names ≠ some .directory) : Disk where
  entry := Function.update disk.entry names (some (.file bytes))
  held := by
    intro above name present
    by_cases here : above ++ [name] = names
    · have parent : names.dropLast = above := by rw [← here,List.dropLast_concat]
      have differs : above ≠ names := by rw [← here]; simp
      rw [Function.update_of_ne differs,← parent]
      exact fits.1
    · rw [Function.update_of_ne here] at present
      have found := disk.held above name present
      have differs : above ≠ names := fun same => fits.2.2 (same ▸ found)
      rw [Function.update_of_ne differs]
      exact found

def append (disk : Disk) (names : List Name) (chunk : Bytes) : Disk where
  entry := Function.update disk.entry names ((disk.entry names).map (Entry.append chunk))
  held := by
    intro above name present
    have before : disk.entry (above ++ [name]) ≠ none := by
      by_cases here : above ++ [name] = names
      · rw [here,Function.update_self] at present
        rw [here]
        simpa using present
      · rwa [Function.update_of_ne here] at present
    have found := disk.held above name before
    by_cases here : above = names
    · rw [here] at found
      rw [here,Function.update_self,found]
      rfl
    · rw [Function.update_of_ne here]
      exact found

-- `File::create` and `OpenOptions::create_new`, which truncate or refuse what is there.
def create (disk : Disk) (full : Place) : Except Error Disk :=
  if full.directory then .error isADirectory
  else if fits : disk.entry full.names.dropLast = some .directory ∧ full.names ≠ [] ∧
      disk.entry full.names ≠ some .directory then .ok (disk.write full.names [] fits)
  else .error isADirectory

def createNew (disk : Disk) (path : String) (full : Place) : Except Error Disk :=
  if full.directory then .error isADirectory
  else if (disk.entry full.names).isSome then .error (.alreadyExists path)
  else disk.create full

def read (disk : Disk) (full : Place) : Except Error Bytes := match disk.entry full.names with
  | some (.file bytes) => if full.directory then .error notADirectory else .ok bytes
  | some .directory => .error isADirectory
  | none => .error (if disk.blocked full.names then notADirectory else notFound)

end Disk

def createParent (disk : Disk) (full : Place) : Except Error Disk :=
  if full.names = [] then .ok disk else disk.createDirAll full.names.dropLast

-- What a stream yields; nothing is read after an error.
abbrev ByteStream := List (Except Error Bytes)

def writeAll (full : Place) : Disk → Nat → ByteStream → Except Error Nat × Disk
  | disk, size, [] => (.ok size,disk)
  | disk, _, .error err :: _ => (.error err,disk)
  | disk, size, .ok chunk :: rest => writeAll full (disk.append full.names chunk) (size + chunk.length) rest

-- `open_` is what the two ways of opening differ in.
def putOpened (open_ : Disk → Place → Except Error Disk) (disk : Disk) (path : String) (input : ByteStream) :
    Except Error Nat × Disk :=
  match resolve path with
  | .error err => (.error err,disk)
  | .ok full => match createParent disk full with
    | .error err => (.error err,disk)
    | .ok made => match open_ made full with
      | .error err => (.error err,made)
      | .ok opened => writeAll full opened 0 input

def putStream (disk : Disk) (path : String) (input : ByteStream) : Except Error Nat × Disk :=
  putOpened Disk.create disk path input

def putIfAbsent (disk : Disk) (path : String) (input : ByteStream) : Except Error Nat × Disk :=
  putOpened (fun disk => disk.createNew path) disk path input

def getStream (disk : Disk) (path : String) : Except Error Bytes := (resolve path).bind disk.read

-- The object at a path, as a reader finds it.
def object (disk : Disk) (path : String) : Option Bytes := (getStream disk path).toOption

-- The path leads to a place that is or can become a file.
def Opens (disk : Disk) (path : String) : Prop :=
  ∃ full, resolve path = .ok full ∧ full.directory = false ∧ full.names ≠ [] ∧
    disk.blocked full.names.dropLast = false ∧ disk.entry full.names ≠ some .directory

-- A stream that yields its chunks and then fails.
def failing (chunks : List Bytes) (err : Error) (rest : ByteStream) : ByteStream :=
  chunks.map .ok ++ .error err :: rest

-- The write fails and leaves the object at its path as it was.
def Keeps (put : Disk → String → ByteStream → Except Error Nat × Disk) (disk : Disk) (path : String)
    (input : ByteStream) : Prop :=
  (∃ err, (put disk path input).1 = .error err) ∧ object (put disk path input).2 path = object disk path

section Objects
variable {disk made opened : Disk} {path : String} {full : Place}

theorem object_file (resolved : resolve path = .ok full) (plain : full.directory = false)
    (found : disk.entry full.names = some (.file bytes)) : object disk path = some bytes := by
  simp [object,getStream,resolved,Except.bind,Disk.read,found,plain,Except.toOption]

theorem object_missing (resolved : resolve path = .ok full)
    (missing : disk.entry full.names = none) : object disk path = none := by
  simp [object,getStream,resolved,Except.bind,Disk.read,missing,Except.toOption]

theorem object_same (resolved : resolve path = .ok full)
    (same : made.entry full.names = disk.entry full.names) :
    object made path = object disk path := by
  unfold object getStream
  rw [resolved]
  simp only [Except.bind,Disk.read,same]
  split <;> rfl

theorem parent_entry (made_ : createParent disk full = .ok made) : made.entry full.names =
    disk.entry full.names := by
  unfold createParent at made_
  split at made_
  · cases made_; rfl
  · rename_i named
    unfold Disk.createDirAll at made_
    split at made_
    · cases made_
      have shorter : ¬ full.names <+: full.names.dropLast := by
        intro part
        have bound := part.length_le
        have some_ := List.length_pos_iff.mpr named
        rw [List.length_dropLast] at bound
        omega
      exact if_neg fun both => shorter both.1
    · cases made_

theorem parent_made (named : full.names ≠ []) (free : disk.blocked full.names.dropLast = false) :
    ∃ made, createParent disk full = .ok made ∧ made.entry full.names.dropLast = some .directory := by
  refine ⟨disk.makeDirs _ free,?_,?_⟩
  · unfold createParent Disk.createDirAll
    rw [if_neg named,dif_pos free]
  · rcases Disk.entry_of_unblocked free (List.prefix_refl _) with missing | found
    · exact if_pos ⟨List.prefix_refl _,missing⟩
    · exact (if_neg (by simp [found])).trans found

theorem create_opens (plain : full.directory = false) (named : full.names ≠ [])
    (parent : disk.entry full.names.dropLast = some .directory)
      (free : disk.entry full.names ≠ some .directory) :
    ∃ opened, disk.create full = .ok opened ∧ opened.entry full.names = some (.file []) := by
  refine ⟨disk.write full.names [] ⟨parent,named,free⟩,?_,Function.update_self _ _ _⟩
  unfold Disk.create
  rw [if_neg (by simp [plain]),dif_pos ⟨parent,named,free⟩]

theorem createNew_opens (plain : full.directory = false) (named : full.names ≠ [])
    (parent : disk.entry full.names.dropLast = some .directory) (missing : disk.entry full.names = none) :
    ∃ opened, disk.createNew path full = .ok opened ∧ opened.entry full.names = some (.file []) := by
  unfold Disk.createNew
  rw [if_neg (by simp [plain]),if_neg (by simp [missing])]
  exact create_opens plain named parent (by simp [missing])

theorem writeAll_failed (chunks : List Bytes) (size : Nat)
    (found : opened.entry full.names = some (.file old)) :
    (writeAll full opened size (failing chunks err rest)).1 = .error err ∧
      (writeAll full opened size (failing chunks err rest)).2.entry full.names =
      some (.file (old ++ chunks.flatten)) := by
  induction chunks generalizing opened old size with
  | nil => exact ⟨rfl,by simpa [failing,writeAll] using found⟩
  | cons chunk chunks ih =>
    have appended : (opened.append full.names chunk).entry full.names = some (.file (old ++ chunk)) := by
      unfold Disk.append
      simp only [Function.update_self,found]
      rfl
    have later := ih (size + chunk.length) appended
    rw [List.append_assoc] at later
    exact later

section Put
variable {open_ : Disk → Place → Except Error Disk}

theorem put_unresolved (resolved : resolve path = .error err) : Keeps (putOpened open_) disk path input := by
  unfold Keeps putOpened
  rw [resolved]
  exact ⟨⟨err,rfl⟩,rfl⟩

theorem put_parentless (resolved : resolve path = .ok full) (failed : createParent disk full = .error err) :
    Keeps (putOpened open_) disk path input := by
  have unchanged : putOpened open_ disk path input = (.error err,disk) := by
    unfold putOpened
    rw [resolved]
    simp only [failed]
  unfold Keeps
  rw [unchanged]
  exact ⟨⟨err,rfl⟩,rfl⟩

theorem put_unopened (resolved : resolve path = .ok full) (parent : createParent disk full = .ok made)
    (failed : open_ made full = .error err) : Keeps (putOpened open_) disk path input := by
  unfold Keeps putOpened
  rw [resolved]
  simp only [parent,failed]
  exact ⟨⟨err,rfl⟩,object_same resolved (parent_entry parent)⟩

theorem put_opened (resolved : resolve path = .ok full) (plain : full.directory = false)
    (parent : createParent disk full = .ok made) (created : open_ made full = .ok opened)
    (empty : opened.entry full.names = some (.file [])) :
    (putOpened open_ disk path (failing chunks err rest)).1 = .error err ∧
      object (putOpened open_ disk path (failing chunks err rest)).2 path = some chunks.flatten := by
  have written : (writeAll full opened 0 (failing chunks err rest)).1 = .error err ∧
    (writeAll full opened 0 (failing chunks err rest)).2.entry full.names =
    some (.file ([] ++ chunks.flatten)) :=
    writeAll_failed chunks 0 empty
  unfold putOpened
  rw [resolved]
  simp only [parent,created]
  exact ⟨written.1,object_file resolved plain written.2⟩

end Put

theorem create_refused (resolved : resolve path = .ok full) (parent : createParent disk full = .ok made)
    (shut : ¬ Opens disk path) : ∃ err, made.create full = .error err := by
  unfold Disk.create
  by_cases only : full.directory = true
  · exact ⟨_,if_pos only⟩
  rw [if_neg only]
  split
  · rename_i fits
    refine absurd ⟨full,resolved,by simpa using only,fits.2.1,?_,parent_entry parent ▸ fits.2.2⟩ shut
    unfold createParent at parent
    rw [if_neg fits.2.1] at parent
    unfold Disk.createDirAll at parent
    split at parent
    · assumption
    · cases parent
  · exact ⟨_,rfl⟩

theorem createNew_refused (resolved : resolve path = .ok full) (parent : createParent disk full = .ok made)
    (shut : ¬ Opens disk path) : ∃ err, made.createNew path full = .error err := by
  unfold Disk.createNew
  split
  · exact ⟨_,rfl⟩
  · split
    · exact ⟨_,rfl⟩
    · exact create_refused resolved parent shut

theorem shut_keeps {open_ : Disk → Place → Except Error Disk} (input : ByteStream)
    (refused : ∀ full made, resolve path = .ok full → createParent disk full = .ok made → ∃ err,
    open_ made full = .error err) :
    Keeps (putOpened open_) disk path input := by
  cases resolved : resolve path with
  | error err => exact put_unresolved resolved
  | ok full =>
    cases parent : createParent disk full with
    | error err => exact put_parentless resolved parent
    | ok made =>
      obtain ⟨err,failed⟩ := refused full made resolved parent
      exact put_unopened resolved parent failed

theorem opens_put (opens : Opens disk path) (chunks : List Bytes) (err : Error) (rest : ByteStream) :
    (putStream disk path (failing chunks err rest)).1 = .error err ∧
      object (putStream disk path (failing chunks err rest)).2 path = some chunks.flatten := by
  obtain ⟨full,resolved,plain,named,free,place⟩ := opens
  obtain ⟨made,parent,above⟩ := parent_made named free
  obtain ⟨opened,created,empty⟩ := create_opens plain named above (parent_entry parent ▸ place)
  exact put_opened resolved plain parent created empty

theorem opens_putIfAbsent (opens : Opens disk path) (absent : object disk path = none)
    (chunks : List Bytes) (err : Error)
    (rest : ByteStream) :
    (putIfAbsent disk path (failing chunks err rest)).1 = .error err ∧
      object (putIfAbsent disk path (failing chunks err rest)).2 path = some chunks.flatten := by
  obtain ⟨full,resolved,plain,named,free,place⟩ := opens
  have missing : disk.entry full.names = none := by
    cases found : disk.entry full.names with
    | none => rfl
    | some entry =>
      cases entry with
      | file bytes => rw [object_file resolved plain found] at absent; cases absent
      | directory => exact absurd found place
  obtain ⟨made,parent,above⟩ := parent_made named free
  obtain ⟨opened,created,empty⟩ := createNew_opens plain named above ((parent_entry parent).trans missing)
  exact put_opened resolved plain parent created empty

theorem putIfAbsent_present (opens : Opens disk path) (present : object disk path = some bytes)
    (input : ByteStream) :
    ∃ after, putIfAbsent disk path input = (.error (.alreadyExists path),after) ∧
    object after path = some bytes := by
  obtain ⟨full,resolved,plain,named,free,place⟩ := opens
  obtain ⟨made,parent,-⟩ := parent_made named free
  have found : (made.entry full.names).isSome := by
    rw [parent_entry parent]
    cases found : disk.entry full.names with
    | none => rw [object_missing resolved found] at present; cases present
    | some entry => rfl
  refine ⟨made,?_,(object_same resolved (parent_entry parent)).trans present⟩
  unfold putIfAbsent putOpened Disk.createNew
  rw [resolved]
  simp [parent,plain,found]

-- A write whose stream fails keeps the object exactly where it opens nothing,
-- or puts back what was there.
theorem failed_put_keeps_iff (disk : Disk) (path : String) (chunks : List Bytes) (err : Error)
    (rest : ByteStream) :
    (Keeps putStream disk path (failing chunks err rest) ↔ ¬ Opens disk path ∨
    object disk path = some chunks.flatten) ∧
    (Keeps putIfAbsent disk path (failing chunks err rest) ↔ ¬ Opens disk path ∨
    (object disk path).isSome) := by
  by_cases opens : Opens disk path
  · constructor
    · obtain ⟨failed,left⟩ := opens_put opens chunks err rest
      constructor
      · intro keeps
        exact .inr (keeps.2.symm.trans left)
      · intro same
        exact ⟨⟨err,failed⟩,left.trans (same.resolve_left fun shut => shut opens).symm⟩
    · cases held : object disk path with
      | none =>
        obtain ⟨failed,left⟩ := opens_putIfAbsent opens held chunks err rest
        constructor
        · intro keeps
          have same := keeps.2
          rw [left,held] at same
          cases same
        · intro either
          rcases either with shut | present
          · exact absurd opens shut
          · cases present
      | some bytes =>
        obtain ⟨after,refused,kept⟩ := putIfAbsent_present opens held (failing chunks err rest)
        refine ⟨fun _ => .inr rfl,fun _ => ?_⟩
        unfold Keeps
        rw [refused,held]
        exact ⟨⟨_,rfl⟩,kept⟩
  · refine ⟨⟨fun _ => .inl opens,fun _ => ?_⟩,⟨fun _ => .inl opens,fun _ => ?_⟩⟩
    · exact shut_keeps _ fun full made resolved parent => create_refused resolved parent opens
    · exact shut_keeps _ fun full made resolved parent => createNew_refused resolved parent opens

end Objects

def sampleDisk : Disk where
  entry names := if names = [] then some .directory else if names = ["import.json".toList] then
    some (.file [123,125]) else none
  held := by
    intro names name present
    cases names with
    | nil => rfl
    | cons head tail => simp at present

-- The overwritten checkpoint is cut short, and the claimed lock is left behind.
theorem failed_put_truncates : ¬ ∀ disk path chunks err rest,
    Keeps putStream disk path (failing chunks err rest) ∧
    Keeps putIfAbsent disk path (failing chunks err rest) := by
  intro always
  have cut := (always sampleDisk "import.json" [[123]] (.connection "reset") []).1.2
  have before : object sampleDisk "import.json" = some [123,125] := by decide
  have after : object (putStream sampleDisk "import.json"
      (failing [[123]] (.connection "reset") [])).2 "import.json" = some [123] := by
    decide
  rw [before,after] at cut
  cases cut

end ArangoDataTools.LocalStore
