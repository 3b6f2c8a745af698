import ArangoDataTools.Client
import ArangoDataTools.UrlPaths

namespace ArangoDataTools.RequestUrls
open Percent Segments Url

def control (c : Char) : Bool := c.toNat < 32 || (127 ≤ c.toNat && c.toNat < 160)

structure ObjectName where
  text : String
  some_ : text.toList ≠ []
  whole : '/' ∉ text.toList
  printed : ∀ c ∈ text.toList, control c = false
  named : text.toList ≠ ['.'] ∧ text.toList ≠ ['.','.']

def ordinary (c : Char) : Bool :=
  decide ('0' ≤ c ∧ c ≤ '9') || decide ('A' ≤ c ∧ c ≤ 'Z') || decide ('a' ≤ c ∧ c ≤ 'z') || c == '_' || c == '-'
def word (text : String) : Bool := text.toList != [] && text.toList.all ordinary

structure Handle where
  text : String
  word : word text = true

-- The requests scoped to a database, under the names of the methods that make
-- them, with what each puts into its URL.
inductive Call where
  | version
  | importDocuments (options : ImportOptions)
  | collectionInfo (name : ObjectName)
  | cursorOpen
  | cursorNext (id : Handle)
  | cursorDelete (id : Handle)
  | replicationBatchCreate
  | replicationBatchExtend (id : Handle)
  | replicationBatchDelete (id : Handle)
  | replicationInventory (batchId : Handle) (includeSystem : Bool)
  | replicationDumpChunk (collection batchId : String) (fromTick chunkSize : UInt64)
  | restoreCollection (overwrite : Bool)
  | restoreData (collection : String)
  | collectionCount (name : ObjectName)
  | createIndex (collection : String)
  | createGraph
  | dropGraph (name : ObjectName) (dropCollections : Bool)
  | createView
  | dropView (name : ObjectName)
  | dropCollection (name : ObjectName)
  | createCollection

def asQueryValue : OnDuplicate → String
  | .error => "error"
  | .update => "update"
  | .replace => "replace"
  | .ignore => "ignore"

namespace Call

def path : Call → String
  | version => "/_api/version"
  | importDocuments _ => "/_api/import"
  | collectionInfo name => String.join ["/_api/collection/",name.text]
  | cursorOpen => "/_api/cursor"
  | cursorNext id | cursorDelete id => String.join ["/_api/cursor/",id.text]
  | replicationBatchCreate => "/_api/replication/batch"
  | replicationBatchExtend id | replicationBatchDelete id => String.join ["/_api/replication/batch/",id.text]
  | replicationInventory batchId includeSystem =>
    String.join ["/_api/replication/inventory?batchId=",batchId.text,"&includeSystem=",toString includeSystem]
  | replicationDumpChunk _ _ _ _ => "/_api/replication/dump"
  | restoreCollection overwrite =>
      String.join ["/_api/replication/restore-collection?overwrite=",toString overwrite]
  | restoreData _ => "/_api/replication/restore-data"
  | collectionCount name => String.join ["/_api/collection/",name.text,"/count"]
  | createIndex _ => "/_api/index"
  | createGraph => "/_api/gharial"
  | dropGraph name dropCollections =>
      String.join ["/_api/gharial/",name.text,"?dropCollections=",toString dropCollections]
  | createView => "/_api/view"
  | dropView name => String.join ["/_api/view/",name.text]
  | dropCollection name => String.join ["/_api/collection/",name.text]
  | createCollection => "/_api/collection"

-- What is appended with `append_pair` once the path has been joined.
def pairs : Call → List (String × String)
  | importDocuments options =>
    [("collection",options.collection),("type","documents"),("onDuplicate",asQueryValue options.onDuplicate)] ++
      (if options.waitForSync then [("waitForSync","true")] else []) ++
      (if options.complete then [("complete","true")] else []) ++
      (if options.details then [("details","true")] else []) ++
      (if options.overwrite then [("overwrite","true")] else []) ++
      (options.fromPrefix.map fun value => ("fromPrefix",value)).toList ++
      (options.toPrefix.map fun value => ("toPrefix",value)).toList
  | replicationDumpChunk collection batchId fromTick chunkSize =>
    [("collection",collection),("batchId",batchId),("from",toString fromTick),("chunkSize",toString chunkSize)]
  | restoreData collection | createIndex collection => [("collection",collection)]
  | _ => []

end Call

inductive UrlRequest where
  | within (database : ObjectName) (call : Call)
  | dropDatabase (name : ObjectName)

namespace UrlRequest

def reference : UrlRequest → String
  | within database call => String.join ["/_db/",database.text,call.path]
  | dropDatabase name => String.join ["/_db/_system/_api/database/",name.text]

def pairs : UrlRequest → List (String × String)
  | within _ call => call.pairs
  | dropDatabase _ => []

-- `url_for`, the join of `drop_database`, and the pairs behind them.
def url (rules : Rules) (request : UrlRequest) : Parsed :=
  (parse rules request.reference.toList).appendPairs request.pairs

end UrlRequest

inductive Part where
  | own (text : String)
  | name (name : ObjectName)

def Part.text : Part → String
  | .own text => text
  | .name object => object.text

def Call.parts : Call → List Part
  | version => [.own "_api",.own "version"]
  | importDocuments _ => [.own "_api",.own "import"]
  | collectionInfo name | dropCollection name => [.own "_api",.own "collection",.name name]
  | cursorOpen => [.own "_api",.own "cursor"]
  | cursorNext id | cursorDelete id => [.own "_api",.own "cursor",.own id.text]
  | replicationBatchCreate => [.own "_api",.own "replication",.own "batch"]
  | replicationBatchExtend id | replicationBatchDelete id =>
      [.own "_api",.own "replication",.own "batch",.own id.text]
  | replicationInventory _ _ => [.own "_api",.own "replication",.own "inventory"]
  | replicationDumpChunk _ _ _ _ => [.own "_api",.own "replication",.own "dump"]
  | restoreCollection _ => [.own "_api",.own "replication",.own "restore-collection"]
  | restoreData _ => [.own "_api",.own "replication",.own "restore-data"]
  | collectionCount name => [.own "_api",.own "collection",.name name,.own "count"]
  | createIndex _ => [.own "_api",.own "index"]
  | createGraph => [.own "_api",.own "gharial"]
  | dropGraph name _ => [.own "_api",.own "gharial",.name name]
  | createView => [.own "_api",.own "view"]
  | dropView name => [.own "_api",.own "view",.name name]
  | createCollection => [.own "_api",.own "collection"]

def Call.query : Call → Option String
  | replicationInventory batchId includeSystem =>
      some ("batchId=" ++ batchId.text ++ "&includeSystem=" ++ toString includeSystem)
  | restoreCollection overwrite => some ("overwrite=" ++ toString overwrite)
  | dropGraph _ dropCollections => some ("dropCollections=" ++ toString dropCollections)
  | _ => none

namespace UrlRequest

def parts : UrlRequest → List Part
  | within database call => .own "_db" :: .name database :: call.parts
  | dropDatabase name => [.own "_db",.own "_system",.own "_api",.own "database",.name name]

def query : UrlRequest → Option String
  | within _ call => call.query
  | dropDatabase _ => none

end UrlRequest

def textsOf (parts : List Part) : List (List Char) := parts.map fun part => part.text.toList

theorem Call.path_text (call : Call) : call.path.toList = rooted (textsOf call.parts) ++ tail '?'
    (call.query.map String.toList) := by
  cases call <;> simp [path,textsOf,parts,query,rooted,Part.text,tail]

theorem UrlRequest.reference_text (request : UrlRequest) :
    request.reference.toList = rooted (textsOf request.parts) ++ tail '?'
      (request.query.map String.toList) := by
  cases request with
  | within database call => simp [reference,call.path_text,textsOf,parts,query,rooted,Part.text]
  | dropDatabase name => simp [reference,textsOf,parts,query,rooted,Part.text,tail]

section Own

def Part.sound : Part → Bool
  | .own text => word text
  | .name _ => true

theorem Call.parts_sound (call : Call) : call.parts.all Part.sound = true := by
  cases call
  case cursorNext id => simpa [parts,Part.sound,id.word] using by decide
  case cursorDelete id => simpa [parts,Part.sound,id.word] using by decide
  case replicationBatchExtend id => simpa [parts,Part.sound,id.word] using by decide
  case replicationBatchDelete id => simpa [parts,Part.sound,id.word] using by decide
  all_goals rfl

theorem UrlRequest.own_word {request : UrlRequest} {text : String}
    (member : .own text ∈ request.parts) : word text = true := by
  cases request with
  | within database call =>
    rcases List.mem_cons.mp member with same | inside
    · cases same
      decide
    · exact List.all_eq_true.mp call.parts_sound _ ((List.mem_cons.mp inside).resolve_left (by simp))
  | dropDatabase name =>
    have sound : (dropDatabase name).parts.all Part.sound = true := rfl
    exact List.all_eq_true.mp sound _ member

theorem ordinary_range {c : Char} (kind : ordinary c = true) : 32 < c.toNat := by
  simp only [ordinary,Bool.or_eq_true,decide_eq_true_eq,beq_iff_eq] at kind
  rcases kind with (((⟨low,-⟩ | ⟨low,-⟩) | ⟨low,-⟩) | rfl) | rfl
  · exact Nat.lt_of_lt_of_le (by decide) low
  · exact Nat.lt_of_lt_of_le (by decide) low
  · exact Nat.lt_of_lt_of_le (by decide) low
  · decide
  · decide

theorem word_other {text : String} {d : Char} (kind : word text = true)
    (sign : ordinary d = false) : d ∉ text.toList := by
  intro here
  have same := List.all_eq_true.mp (Bool.and_eq_true_iff.mp kind).2 d here
  rw [sign] at same
  cases same

theorem UrlRequest.pairs_own {request : UrlRequest} (some_ : request.pairs ≠ []) :
    request.query = none ∧ ∃ before text, request.parts = before ++ [.own text] := by
  cases request with
  | within database call =>
    cases call
    case importDocuments options => exact ⟨rfl,[.own "_db",.name database,.own "_api"],"import",rfl⟩
    case replicationDumpChunk =>
      exact ⟨rfl,[.own "_db",.name database,.own "_api",.own "replication"],"dump",rfl⟩
    case restoreData => exact ⟨rfl,[.own "_db",.name database,.own "_api",.own "replication"],
      "restore-data",rfl⟩
    case createIndex => exact ⟨rfl,[.own "_db",.name database,.own "_api"],"index",rfl⟩
    all_goals exact absurd rfl some_
  | dropDatabase name => exact absurd rfl some_

def queryChar (c : Char) : Bool := ordinary c || c == '=' || c == '&'

theorem queryChar_range {c : Char} (kind : queryChar c = true) : 32 < c.toNat := by
  rcases Bool.or_eq_true_iff.mp kind with either | same
  · rcases Bool.or_eq_true_iff.mp either with own | same
    · exact ordinary_range own
    · rw [eq_of_beq same]
      decide
  · rw [eq_of_beq same]
    decide

theorem UrlRequest.query_plain {request : UrlRequest} {query : String} (asked : request.query = some query) :
    query.toList.all queryChar = true := by
  have flags : ∀ flag : Bool, (toString flag).toList.all queryChar = true := by decide
  cases request with
  | within database call =>
    cases call
    case replicationInventory batchId includeSystem =>
      cases asked
      have letters : batchId.text.toList.all queryChar = true := by
        have own := List.all_eq_true.mp (Bool.and_eq_true_iff.mp batchId.word).2
        exact List.all_eq_true.mpr fun c member => by simp [queryChar,own c member]
      rw [String.toList_append,String.toList_append,String.toList_append,List.all_append,
        List.all_append,List.all_append,letters,flags]
      decide
    case restoreCollection overwrite => cases asked; cases overwrite <;> decide
    case dropGraph name dropCollections => cases asked; cases dropCollections <;> decide
    all_goals cases asked
  | dropDatabase name => cases asked

end Own

end ArangoDataTools.RequestUrls
