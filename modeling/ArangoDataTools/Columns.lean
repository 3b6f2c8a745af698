import Mathlib.Data.List.Induction
import ArangoDataTools.Doubles
import ArangoDataTools.RdfFold

namespace ArangoDataTools.Delimited
open Doubles
open Rdf (insertEntry lookup_insertEntry)

def reservedStringFields : List String := ["_key","_from","_to","_id"]

def isReservedStringField (name : String) : Bool := reservedStringFields.contains name

inductive ColumnType where
  | string | number | boolean
  deriving DecidableEq, Repr

inductive Segment where
  | literal (text : String)
  | column (name : String)
  deriving DecidableEq, Repr

structure MergeRule where
  target : String
  segments : List Segment
  deriving DecidableEq, Repr

-- The maps hold their latest entry of a name first.
structure ColumnTransforms where
  types : List (String × ColumnType) := []
  renames : List (String × String) := []
  merges : List MergeRule := []
  removals : List String := []
  deriving Repr

namespace ColumnTransforms

def columnType (transforms : ColumnTransforms) (column : String) : Option ColumnType :=
  transforms.types.lookup column

def targetName (transforms : ColumnTransforms) (column : String) : String :=
  (transforms.renames.lookup column).getD column

def isRemoved (transforms : ColumnTransforms) (column : String) : Bool := transforms.removals.contains column

end ColumnTransforms

-- `serde_json::Map` in key order, and `Value::to_string` for what is neither text nor null.
abbrev Row : Type := List (String × Value)

section Merging
variable (display : Value → String)

def render : Value → String
  | .string text => text
  | .null => ""
  | other => display other

def Segment.text (source : Row) : Segment → String
  | .literal text => text
  | .column name => ((Value.lookup name source).map (render display)).getD ""

def MergeRule.build (rule : MergeRule) (source : Row) : String :=
  String.join (rule.segments.map (Segment.text display source))

def ColumnTransforms.applyMerges (transforms : ColumnTransforms) (source out : Row) : Row :=
  transforms.merges.foldl (fun out rule =>
    insertEntry rule.target (.string (rule.build display source)) out) out

end Merging

inductive Scalar where
  | null
  | bool (value : Bool)
  | int (value : Int)
  | float (value : FiniteDouble)
  | string (text : String)

def Scalar.value (format : FiniteDouble → String) : Scalar → Value
  | null => .null
  | bool value => .bool value
  | int value => .number (if 0 ≤ value then .posInt value.toNat else .negInt value.natAbs)
  | float value => .number (.float (format value))
  | string text => .string text

def looksNumeric (token : String) : Bool :=
  let integerPart := (splitSign token.toList).2.takeWhile fun c => !(c = '.' || c = 'e' || c = 'E')
  !(1 < integerPart.length && integerPart.head? = some '0')

def parseNumber (field : String) : Option Scalar :=
  match parseI64 field with
  | some int => some (.int int)
  | none => match parseF64 field with
    | some (.finite float) => some (.float float)
    | _ => none

def inferScalar (field : String) : Scalar :=
  if field = "" then .null
  else if field = "true" then .bool true
  else if field = "false" then .bool false
  else if field = "null" then .null
  else if looksNumeric field then (parseNumber field).getD (.string field)
  else .string field

def coerce (field : String) (kind : ColumnType) (column : String) (row : Nat) : Except Error Scalar :=
  let bad := fun expected : String => Error.parse
    (s!"column '{column}' value '{field}' is not a valid {expected} " ++
      s!"(requested by --datatype {column}={expected})") (some row) none
  match kind with
  | .string => .ok (.string field)
  | .number =>
    if field = "" then .ok .null
    else match parseNumber field with
      | some number => .ok number
      | none => .error (bad "number")
  | .boolean =>
    if field = "" then .ok .null
    else if field = "true" ∨ field = "1" then .ok (.bool true)
    else if field = "false" ∨ field = "0" then .ok (.bool false)
    else .error (bad "boolean")

def typedField (transforms : ColumnTransforms) (row : Nat) (name field : String) : Except Error Scalar :=
  match transforms.columnType name with
  | some kind => coerce field kind name row
  | none => .ok (inferScalar field)

def decodeField (transforms : ColumnTransforms) (row : Nat) (name field : String) : Except Error Scalar :=
  if isReservedStringField (transforms.targetName name) then .ok (.string field)
    else typedField transforms row name field

section Reading
variable (format : FiniteDouble → String) (display : Value → String) (transforms : ColumnTransforms)

def decodeColumns (row : Nat) : List (String × String) → Row → Except Error Row
  | [], source => .ok source
  | (name,field) :: columns, source => do
    let value ← decodeField transforms row name field
    decodeColumns row columns (insertEntry name (value.value format) source)

def placeColumns (source : Row) : Row :=
  source.foldl (fun object entry =>
    if transforms.isRemoved entry.1 then object
      else insertEntry (transforms.targetName entry.1) entry.2 object) []

def readRow (headers record : List String) (row : Nat) : Except Error Value := do
  let source ← decodeColumns format transforms row (headers.zip record) []
  pure (.object (transforms.applyMerges display source (placeColumns transforms source)))

def readFrom (headers : List String) : Nat → List (Except String (List String)) → List (Except Error Value)
  | _, [] => []
  | row, .error err :: _ => [.error (.parse ("invalid delimited row: " ++ err) (some (row+1)) none)]
  | row, .ok record :: records => match readRow format display transforms headers record (row+1) with
    | .error err => [.error err]
    | .ok object => .ok object :: readFrom headers (row+1) records

def read (headers : Except String (List String)) (records : List (Except String (List String))) :
    List (Except Error Value) :=
  match headers with
  | .error err => [.error (.parse ("invalid delimited header: " ++ err) (some 1) none)]
  | .ok headers => readFrom format display transforms headers 1 records

end Reading

theorem mem_insertEntry {name : String} {value : Value} {entries : Row} {entry : String × Value}
    (held : entry ∈ insertEntry name value entries) : entry = (name,value) ∨ entry ∈ entries := by
  induction entries with
  | nil => exact .inl (List.mem_singleton.mp held)
  | cons first rest ih =>
    obtain ⟨other,old⟩ := first
    unfold insertEntry at held
    split at held
    · exact List.mem_cons.mp held
    · exact (List.mem_cons.mp held).imp_right (List.mem_cons_of_mem _)
    · rcases List.mem_cons.mp held with rfl | later
      · exact .inr (List.mem_cons_self ..)
      · exact (ih later).imp_right (List.mem_cons_of_mem _)

theorem mem_of_lookup {name : String} {value : Value} {entries : Row}
    (found : Value.lookup name entries = some value) :
    (name,value) ∈ entries := by
  induction entries with
  | nil => cases found
  | cons first rest ih =>
    obtain ⟨other,old⟩ := first
    rw [Value.lookup_cons] at found
    split at found
    · next same =>
      cases found
      exact same ▸ List.mem_cons_self ..
    · exact List.mem_cons_of_mem _ (ih found)

section Reserved
variable {format : FiniteDouble → String} {display : Value → String} {transforms : ColumnTransforms} {row : Nat}
  {columns all : List (String × String)} {source decoded out : Row} {name : String} {value : Value}

def RawReserved (transforms : ColumnTransforms) (columns : List (String × String)) (source : Row) : Prop :=
  ∀ entry ∈ source, isReservedStringField (transforms.targetName entry.1) = true →
    ∃ field, (entry.1,field) ∈ columns ∧ entry.2 = .string field

theorem decodeField_reserved {field : String} {scalar : Scalar}
    (reserved : isReservedStringField (transforms.targetName name) = true)
    (decoded : decodeField transforms row name field = .ok scalar) : scalar = .string field := by
  unfold decodeField at decoded
  rw [if_pos reserved] at decoded
  exact (Except.ok.inj decoded).symm

theorem decodeColumns_raw (within : ∀ column ∈ columns, column ∈ all) (raw : RawReserved transforms all source)
    (ran : decodeColumns format transforms row columns source = .ok decoded) :
    RawReserved transforms all decoded := by
  induction columns generalizing source with
  | nil =>
    cases ran
    exact raw
  | cons column columns ih =>
    obtain ⟨name,field⟩ := column
    obtain ⟨here,later⟩ := List.forall_mem_cons.mp within
    unfold decodeColumns at ran
    cases read : decodeField transforms row name field with
    | error err =>
      rw [read] at ran
      cases ran
    | ok scalar =>
      rw [read] at ran
      refine ih later ?_ ran
      intro entry held reserved
      rcases mem_insertEntry held with rfl | before
      · refine ⟨field,here,?_⟩
        rw [decodeField_reserved reserved read]
        rfl
      · exact raw entry before reserved

theorem placeColumns_mem (held : (name,value) ∈ placeColumns transforms source) :
    ∃ column, (column,value) ∈ source ∧ transforms.isRemoved column = false ∧
    transforms.targetName column = name := by
  have placed : ∀ (entries object : Row),
      (name,value) ∈ entries.foldl (fun object entry => if transforms.isRemoved entry.1 then object
        else insertEntry (transforms.targetName entry.1) entry.2 object) object →
      (name,value) ∈ object ∨
        ∃ column, (column,value) ∈ entries ∧ transforms.isRemoved column = false ∧
        transforms.targetName column = name := by
    intro entries
    induction entries with
    | nil => exact fun object held => .inl held
    | cons entry entries ih =>
      intro object held
      rcases ih _ held with before | ⟨column,among,kept,target⟩
      · dsimp only at before
        by_cases removed : transforms.isRemoved entry.1 = true
        · rw [if_pos removed] at before
          exact .inl before
        · rw [if_neg removed] at before
          rcases mem_insertEntry before with same | earlier
          · cases same
            exact .inr ⟨entry.1,List.mem_cons_self ..,Bool.not_eq_true _ ▸ removed,rfl⟩
          · exact .inl earlier
      · exact .inr ⟨column,List.mem_cons_of_mem _ among,kept,target⟩
  exact (placed source [] held).resolve_left List.not_mem_nil

def LastRule (merges : List MergeRule) (name : String) (rule : MergeRule) : Prop :=
  ∃ earlier later, merges = earlier ++ rule :: later ∧ rule.target = name ∧ ∀ other ∈ later, other.target ≠ name

theorem lookup_applyMerges (display : Value → String) (transforms : ColumnTransforms)
    (source out : Row) (name : String) :
    (∃ rule, LastRule transforms.merges name rule ∧
      Value.lookup name (transforms.applyMerges display source out) =
      some (.string (rule.build display source))) ∨
    (∀ rule ∈ transforms.merges, rule.target ≠ name) ∧
      Value.lookup name (transforms.applyMerges display source out) = Value.lookup name out := by
  unfold ColumnTransforms.applyMerges
  induction transforms.merges using List.reverseRecOn with
  | nil => exact .inr ⟨fun _ among => absurd among List.not_mem_nil,rfl⟩
  | append_singleton merges last ih =>
    rw [List.foldl_append,List.foldl_cons,List.foldl_nil,lookup_insertEntry]
    by_cases same : name = last.target
    · rw [if_pos same]
      exact .inl ⟨last,⟨merges,[],rfl,same.symm,by simp⟩,rfl⟩
    · rw [if_neg same]
      rcases ih with ⟨rule,⟨earlier,later,split,target,others⟩,found⟩ | ⟨untouched,found⟩
      · refine .inl ⟨rule,⟨earlier,later ++ [last],by rw [split,List.append_assoc,List.cons_append],
          target,?_⟩,found⟩
        intro other among
        rcases List.mem_append.mp among with early | final
        · exact others other early
        · rw [List.mem_singleton.mp final]
          exact Ne.symm same
      · refine .inr ⟨fun rule among => ?_,found⟩
        rcases List.mem_append.mp among with early | final
        · exact untouched rule early
        · rw [List.mem_singleton.mp final]
          exact Ne.symm same

-- Where the text of a reserved attribute comes from.
inductive ReservedText (display : Value → String) (transforms : ColumnTransforms)
    (columns : List (String × String)) (source : Row)
    (name text : String) : Prop where
  | column {column : String} : (∀ rule ∈ transforms.merges, rule.target ≠ name) → (column,text) ∈ columns →
      transforms.isRemoved column = false → transforms.targetName column = name →
      ReservedText display transforms columns source name text
  | merged {rule : MergeRule} : LastRule transforms.merges name rule → text = rule.build display source →
      ReservedText display transforms columns source name text

theorem readRow_reserved {headers record : List String} {object : Value}
    (ran : readRow format display transforms headers record row = .ok object) :
    ∃ source, decodeColumns format transforms row (headers.zip record) [] = .ok source ∧
      ∀ name value, isReservedStringField name = true → object.get name = some value →
        ∃ text, value = .string text ∧
        ReservedText display transforms (headers.zip record) source name text := by
  unfold readRow at ran
  cases decoded : decodeColumns format transforms row (headers.zip record) [] with
  | error err =>
    rw [decoded] at ran
    cases ran
  | ok source =>
    rw [decoded] at ran
    cases ran
    have raw : RawReserved transforms (headers.zip record) source :=
      decodeColumns_raw (fun _ among => among) (fun _ among => absurd among List.not_mem_nil) decoded
    refine ⟨source,rfl,fun name value reserved held => ?_⟩
    rw [Value.get_object] at held
    rcases lookup_applyMerges display transforms source (placeColumns transforms source) name
      with ⟨rule,last,found⟩ | ⟨untouched,found⟩
    · rw [found] at held
      cases held
      exact ⟨_,rfl,.merged last rfl⟩
    · rw [found] at held
      obtain ⟨column,among,kept,target⟩ := placeColumns_mem (mem_of_lookup held)
      obtain ⟨field,present,equal⟩ := raw _ among (target ▸ reserved)
      exact ⟨field,equal,.column untouched present kept target⟩

theorem readFrom_rows {headers : List String} {records : List (Except String (List String))} {object : Value}
    (yielded : .ok object ∈ readFrom format display transforms headers row records) :
    ∃ record number, .ok record ∈ records ∧
    readRow format display transforms headers record number = .ok object := by
  induction records generalizing row with
  | nil => cases yielded
  | cons first records ih =>
    cases first with
    | error err => cases List.mem_singleton.mp yielded
    | ok record =>
      unfold readFrom at yielded
      cases made : readRow format display transforms headers record (row+1) with
      | error err =>
        rw [made] at yielded
        cases List.mem_singleton.mp yielded
      | ok placed =>
        rw [made] at yielded
        rcases List.mem_cons.mp yielded with same | later
        · cases same
          exact ⟨record,row+1,List.mem_cons_self ..,made⟩
        · obtain ⟨record,number,among,made⟩ := ih later
          exact ⟨record,number,List.mem_cons_of_mem _ among,made⟩

end Reserved

theorem reserved_attributes_are_text (format : FiniteDouble → String) (display : Value → String)
    (transforms : ColumnTransforms)
    (headers : Except String (List String)) (records : List (Except String (List String))) :
    ∀ object, .ok object ∈ read format display transforms headers records →
      ∃ names record row source, headers = .ok names ∧ .ok record ∈ records ∧
        readRow format display transforms names record row = .ok object ∧
        decodeColumns format transforms row (names.zip record) [] = .ok source ∧
        ∀ name value, isReservedStringField name = true → object.get name = some value →
          ∃ text, value = .string text ∧
          ReservedText display transforms (names.zip record) source name text := by
  intro object yielded
  cases headers with
  | error err => cases List.mem_singleton.mp yielded
  | ok names =>
    obtain ⟨record,row,among,made⟩ := readFrom_rows yielded
    obtain ⟨source,decoded,texts⟩ := readRow_reserved made
    exact ⟨names,record,row,source,rfl,among,made,decoded,texts⟩

def keyed : ColumnTransforms := {types := [("id",.number)],renames := [("id","_key")]}

-- The row holds no float and nothing is rendered, so neither formatter is asked.
theorem numeric_key_stays_text :
    ∃ source text, Value.string "12345" = .string text ∧
    ReservedText (fun _ => "") keyed [("id","12345")] source "_key" text := by
  have yielded : .ok (Value.object [("_key",.string "12345")]) ∈
      read (fun _ => "") (fun _ => "") keyed (.ok ["id"]) [.ok ["12345"]] := List.mem_singleton_self _
  obtain ⟨names,record,row,source,named,among,_,_,texts⟩ := reserved_attributes_are_text _ _ keyed _ _ _ yielded
  cases named
  cases List.mem_singleton.mp among
  obtain ⟨text,equal,from_⟩ := texts "_key" (.string "12345") (by decide) rfl
  exact ⟨source,text,equal,from_⟩

end ArangoDataTools.Delimited
