import ArangoDataTools.ColumnIntegers
import ArangoDataTools.ExportRun

namespace ArangoDataTools.Delimited
open Doubles SplitExport
open Rdf (insertEntry lookup_insertEntry)

-- How the serializer writes a number.
structure Displays (encoder : Encoder) : Prop where
  natural : ∀ value, encoder.toText (.number (.posInt value)) = toString value
  negative : ∀ magnitude, encoder.toText (.number (.negInt magnitude)) = "-" ++ toString magnitude
  float : ∀ text, encoder.toText (.number (.float text)) = text

def Unguarded (text : String) : Prop := ∀ first, text.toList.head? = some first →
    first ∉ ['=','+','-','@','\t','\r']

def Untyped (text : String) : Prop := text ∉ ["","true","false","null"] ∧
    (looksNumeric text = true → parseNumber text = none)

def Printed (format : FiniteDouble → String) (text : String) : Prop :=
  ∃ value, inferScalar text = .float value ∧ format value = text

def Returns (format : FiniteDouble → String) (name : String) : Option Value → Prop
  | some (.string text) => Unguarded text ∧ (isReservedStringField name = true ∨ Untyped text)
  | some .null | some (.bool _) => isReservedStringField name = false
  | some (.number (.posInt value)) => isReservedStringField name = false ∧ value < 2^63
  | some (.number (.negInt magnitude)) => isReservedStringField name = false ∧ 0 < magnitude ∧ magnitude ≤ 2^63
  | some (.number (.float text)) => isReservedStringField name = false ∧ Printed format text
  | _ => False

section Texts
variable {text other : String}

theorem guard_same_iff : SplitExport.guard text = text ↔ Unguarded text := by
  unfold SplitExport.guard Unguarded
  cases head : text.toList.head? with
  | none => simp
  | some first =>
    by_cases trigger : first ∈ ['=','+','-','@','\t','\r']
    · have longer : "'" ++ text ≠ text := fun same => by
        have lengths := congrArg String.length same
        rw [String.length_append] at lengths
        have quote : "'".length = 1 := rfl
        omega
      simp only [if_pos trigger,longer,false_iff]
      exact fun unguarded => unguarded first rfl trigger
    · simp only [if_neg trigger,true_iff]
      intro found same
      cases same
      exact trigger

theorem parseNumber_text : parseNumber text ≠ some (.string other) := by
  intro parsed
  unfold parseNumber at parsed
  split at parsed
  · cases parsed
  · split at parsed <;> cases parsed

theorem inferScalar_string (inferred : inferScalar text = .string other) : other = text := by
  unfold inferScalar at inferred
  split at inferred
  · cases inferred
  split at inferred
  · cases inferred
  split at inferred
  · cases inferred
  split at inferred
  · cases inferred
  split at inferred
  · cases parsed : parseNumber text with
    | none =>
      rw [parsed] at inferred
      exact (Scalar.string.inj inferred).symm
    | some number =>
      rw [parsed,Option.getD_some] at inferred
      exact absurd (inferred ▸ parsed) parseNumber_text
  · exact (Scalar.string.inj inferred).symm

theorem inferScalar_worded (words : text ∉ ["","true","false","null"]) :
    inferScalar text = if looksNumeric text then (parseNumber text).getD (.string text) else .string text := by
  simp only [List.mem_cons,List.not_mem_nil,or_false,not_or] at words
  obtain ⟨empty,yes,no,nothing⟩ := words
  unfold inferScalar
  rw [if_neg empty,if_neg yes,if_neg no,if_neg nothing]

theorem inferScalar_text_iff : inferScalar text = .string text ↔ Untyped text := by
  by_cases words : text ∈ ["","true","false","null"]
  · refine ⟨fun inferred => ?_,fun untyped => absurd words untyped.1⟩
    simp only [List.mem_cons,List.not_mem_nil,or_false] at words
    rcases words with rfl | rfl | rfl | rfl <;> cases inferred
  · rw [inferScalar_worded words,Untyped]
    simp only [words,not_false_eq_true,true_and]
    by_cases numeric : looksNumeric text = true
    · rw [if_pos numeric]
      simp only [numeric,forall_true_left]
      cases parsed : parseNumber text with
      | none => exact ⟨fun _ => rfl,fun _ => rfl⟩
      | some number =>
        refine ⟨fun same => ?_,fun none_ => by cases none_⟩
        rw [Option.getD_some] at same
        exact absurd (same ▸ parsed) parseNumber_text
    · rw [if_neg numeric]
      exact ⟨fun _ looks => absurd looks numeric,fun _ => rfl⟩

end Texts

def importedField (format : FiniteDouble → String) (name field : String) : Value :=
  (if isReservedStringField name then Scalar.string field else inferScalar field).value format

section Fields
variable {format : FiniteDouble → String} {name field text : String} {value : Value}

theorem value_text_iff {scalar : Scalar} : scalar.value format = .string text ↔ scalar = .string text := by
  cases scalar with
  | string held => exact ⟨fun same => congrArg _ (Value.string.inj same),fun same =>
      congrArg _ (Scalar.string.inj same)⟩
  | null | bool | int | float => exact ⟨fun same => (by cases same),fun same => (by cases same)⟩

theorem importedField_text_iff : importedField format name field = .string text ↔
    field = text ∧ (isReservedStringField name = true ∨ Untyped text) := by
  unfold importedField
  rw [value_text_iff]
  by_cases reserved : isReservedStringField name = true
  · rw [if_pos reserved]
    exact ⟨fun same => ⟨Scalar.string.inj same,.inl reserved⟩,fun same => congrArg _ same.1⟩
  · rw [if_neg reserved]
    simp only [reserved,Bool.false_eq_true,false_or]
    constructor
    · intro inferred
      obtain rfl := inferScalar_string inferred
      exact ⟨rfl,inferScalar_text_iff.mp inferred⟩
    · rintro ⟨rfl,untyped⟩
      exact inferScalar_text_iff.mpr untyped

theorem importedField_typed (typed : ∀ text, value ≠ .string text) : importedField format name field = value ↔
    isReservedStringField name = false ∧ (inferScalar field).value format = value := by
  unfold importedField
  cases reserved : isReservedStringField name with
  | true => exact ⟨fun same => absurd same.symm (typed field),fun same => by cases same.1⟩
  | false => exact ⟨fun same => ⟨rfl,same⟩,And.right⟩

end Fields

section Numbers
variable {format : FiniteDouble → String} {text : String} {number : Number} {n : Nat} {sign : Sign}

theorem toDigits_zero_head (head : (Nat.toDigits 10 n).head? = some '0') : n = 0 := by
  induction n using Nat.strongRecOn with
  | ind n ih =>
    rw [Nat.toDigits_eq_if (by decide)] at head
    split at head
    · next small =>
      have only : ∀ m < 10, Nat.digitChar m = '0' → m = 0 := by decide
      exact only n small (Option.some.inj head)
    · rw [List.head?_append_of_ne_nil _ Nat.toDigits_ne_nil] at head
      have zero := ih (n / 10) (by omega) head
      omega

theorem toDigits_plain (n : Nat) : ¬LeadingZero (Nat.toDigits 10 n) := by
  intro leading
  obtain rfl := toDigits_zero_head leading.2
  exact absurd leading.1 (by decide)

theorem infer_digits (sign : Sign) (n : Nat) : inferScalar (integerField sign (Nat.toDigits 10 n)) =
    (parseNumber (integerField sign (Nat.toDigits 10 n))).getD
      (.string (integerField sign (Nat.toDigits 10 n))) := by
  have all : ∀ c ∈ Nat.toDigits 10 n, c.isDigit = true :=
    fun c present => Nat.isDigit_of_mem_toDigits (by decide) (by decide) present
  rw [integer_infer Nat.toDigits_ne_nil all,if_pos ((integer_looksNumeric all).mpr (toDigits_plain n))]

theorem infer_integer_iff (whole : ∀ text, number ≠ .float text) :
    (inferScalar (integerField sign (Nat.toDigits 10 n))).value format = .number number ↔
      InRange (signed sign.negative n) ∧ (Scalar.int (signed sign.negative n)).value format =
      .number number := by
  have all : ∀ c ∈ Nat.toDigits 10 n, c.isDigit = true :=
    fun c present => Nat.isDigit_of_mem_toDigits (by decide) (by decide) present
  have held : integerValue sign (Nat.toDigits 10 n) = signed sign.negative n := by
    rw [integerValue,Nat.ofDigitChars_toDigits (by decide) (by decide)]
  have read := @integer_number sign _ Nat.toDigits_ne_nil all
  rw [held] at read
  rw [infer_digits]
  obtain ⟨range,parsed⟩ | ⟨outside,float,-,parsed⟩ | ⟨outside,-,parsed⟩ := read
  · rw [parsed]
    exact ⟨fun same => ⟨range,same⟩,And.right⟩
  · rw [parsed]
    exact ⟨fun same => absurd (Value.number.inj same).symm (whole _),fun same => absurd same.1 outside⟩
  · rw [parsed]
    exact ⟨fun same => (by cases same),fun same => absurd same.1 outside⟩

theorem infer_float_iff : (inferScalar text).value format = .number (.float text) ↔ Printed format text := by
  unfold Printed
  cases inferScalar text with
  | float value =>
    constructor
    · intro same
      exact ⟨value,rfl,Number.float.inj (Value.number.inj same)⟩
    · rintro ⟨_,⟨⟩,printed⟩
      exact congrArg (fun text => Value.number (.float text)) printed
  | int value =>
    refine ⟨fun same => ?_,fun printed => ?_⟩
    · have number := Value.number.inj same
      split at number <;> cases number
    · obtain ⟨_,impossible,-⟩ := printed
      cases impossible
  | null | bool | string =>
    refine ⟨fun same => (by cases same),fun printed => ?_⟩
    obtain ⟨_,impossible,-⟩ := printed
    cases impossible

end Numbers

section Cells
variable {encoder : Encoder} {format : FiniteDouble → String} {document : Value} {name : String}

theorem natural_range {n : Nat} : InRange (signed false n) ↔ n < 2^63 := by
  change (-2^63 ≤ (n : Int) ∧ (n : Int) < 2^63) ↔ n < 2^63
  omega

theorem negative_range {m : Nat} : InRange (signed true m) ↔ m ≤ 2^63 := by
  change (-2^63 ≤ -(m : Int) ∧ -(m : Int) < 2^63) ↔ m ≤ 2^63
  omega

theorem natural_value (n : Nat) : (Scalar.int (signed false n)).value format = .number (.posInt n) := by
  change Value.number (if 0 ≤ (n : Int) then .posInt (n : Int).toNat else .negInt (n : Int).natAbs) = _
  rw [if_pos (Int.natCast_nonneg n),Int.toNat_natCast]

theorem negative_value {m : Nat} : (Scalar.int (signed true m)).value format = .number (.negInt m) ↔ 0 < m := by
  change Value.number (if 0 ≤ -(m : Int) then .posInt (-(m : Int)).toNat
    else .negInt (-(m : Int)).natAbs) = _ ↔ _
  by_cases zero : 0 < m
  · rw [if_neg (by omega),Int.natAbs_neg,Int.natAbs_natCast]
    exact ⟨fun _ => zero,fun _ => rfl⟩
  · rw [if_pos (by omega)]
    exact ⟨fun same => (by cases same),fun positive => absurd positive zero⟩

theorem natural_field (n : Nat) : toString n = integerField .none (Nat.toDigits 10 n) :=
  Nat.toString_eq_ofList_toDigits

theorem negative_field (m : Nat) : "-" ++ toString m = integerField .minus (Nat.toDigits 10 m) := by
  rw [Nat.toString_eq_ofList_toDigits]
  exact String.ofList_append.symm

def imported (encoder : Encoder) (format : FiniteDouble → String) (document : Value) (name : String) : Value :=
  importedField format name (cell encoder document name)

theorem imported_text_iff {text : String} (held : document.get name = some (.string text)) :
    imported encoder format document name = .string text ↔ Returns format name (some (.string text)) := by
  have written : cell encoder document name = SplitExport.guard text := by
    unfold cell
    rw [held]
  rw [imported,written,importedField_text_iff,guard_same_iff]
  rfl

theorem imported_number_iff (displays : Displays encoder) {number : Number}
    (held : document.get name = some (.number number)) :
    imported encoder format document name = .number number ↔ Returns format name (some (.number number)) := by
  have written : cell encoder document name = encoder.toText (.number number) := by
    unfold cell
    rw [held]
  rw [imported,written,importedField_typed (fun _ same => by cases same)]
  cases number with
  | posInt n =>
    rw [displays.natural,natural_field,infer_integer_iff (fun _ same => by cases same)]
    exact and_congr_right fun _ => (and_iff_left (natural_value n)).trans natural_range
  | negInt m =>
    rw [displays.negative,negative_field,infer_integer_iff (fun _ same => by cases same)]
    exact and_congr_right fun _ => and_comm.trans (and_congr negative_value negative_range)
  | float text =>
    rw [displays.float]
    exact and_congr_right fun _ => infer_float_iff

theorem imported_flag_iff {flag : Bool} (held : document.get name = some (.bool flag)) :
    imported encoder format document name = .bool flag ↔ Returns format name (some (.bool flag)) := by
  have written : cell encoder document name = if flag then "true" else "false" := by
    unfold cell
    rw [held]
  rw [imported,written,importedField_typed (fun _ same => by cases same)]
  cases flag with
  | false => exact and_iff_left rfl
  | true => exact and_iff_left rfl

theorem imported_null_iff (held : document.get name = some .null) :
    imported encoder format document name = .null ↔ Returns format name (some .null) := by
  have written : cell encoder document name = "" := by
    unfold cell
    rw [held]
  rw [imported,written,importedField_typed (fun _ same => by cases same)]
  exact and_iff_left rfl

theorem importedField_plain (field : String) : (∀ items, importedField format name field ≠ .array items) ∧
    ∀ entries, importedField format name field ≠ .object entries := by
  unfold importedField
  cases (if isReservedStringField name then Scalar.string field else inferScalar field) <;>
    exact ⟨fun _ same => (by cases same),fun _ same => (by cases same)⟩

theorem imported_returns_iff (displays : Displays encoder) :
    some (imported encoder format document name) = document.get name ↔
    Returns format name (document.get name) := by
  cases held : document.get name with
  | none => exact ⟨fun same => (by cases same),False.elim⟩
  | some value =>
    rw [Option.some_inj]
    cases value with
    | null => exact imported_null_iff held
    | bool => exact imported_flag_iff held
    | number => exact imported_number_iff displays held
    | string => exact imported_text_iff held
    | array items => exact ⟨fun same => absurd same ((importedField_plain _).1 items),False.elim⟩
    | object entries => exact ⟨fun same => absurd same ((importedField_plain _).2 entries),False.elim⟩

end Cells

section Rows
variable {encoder : Encoder} {format : FiniteDouble → String} {display : Value → String}
  {fields : List String} {document value : Value}
  {name : String} {entries object : Row} {documents : List (Except Error Value)}
    {values : List Value} {row : Nat}

def rowCells (encoder : Encoder) (fields : List String) (document : Value) : List (String × String) :=
  fields.map fun name => (name,cell encoder document name)

def importedRow (encoder : Encoder) (format : FiniteDouble → String) (fields : List String)
    (document : Value) : Row :=
  fields.map fun name => (name,imported encoder format document name)

def inserted (entries object : Row) : Row :=
  entries.foldl (fun object entry => insertEntry entry.1 entry.2 object) object

def importedObject (encoder : Encoder) (format : FiniteDouble → String) (fields : List String)
    (document : Value) : Value :=
  .object (inserted (inserted (importedRow encoder format fields document) []) [])

theorem mem_inserted {entry : String × Value} (held : entry ∈ inserted entries object) :
    entry ∈ entries ∨ entry ∈ object := by
  induction entries generalizing object with
  | nil => exact .inr held
  | cons first entries ih =>
    rcases ih held with later | before
    · exact .inl (List.mem_cons_of_mem _ later)
    · rcases mem_insertEntry before with same | earlier
      · exact .inl (same ▸ List.mem_cons_self ..)
      · exact .inr earlier

theorem lookup_inserted {held : String → Value}
    (faithful : ∀ entry ∈ entries, entry.2 = held entry.1) (object : Row) :
    Value.lookup name (inserted entries object) = if name ∈ entries.map Prod.fst then
      some (held name) else Value.lookup name object := by
  induction entries generalizing object with
  | nil => rfl
  | cons first entries ih =>
    obtain ⟨here,later⟩ := List.forall_mem_cons.mp faithful
    have rest := ih later (insertEntry first.1 first.2 object)
    unfold inserted at rest ⊢
    rw [List.foldl_cons,rest,lookup_insertEntry,List.map_cons]
    by_cases among : name ∈ entries.map Prod.fst
    · rw [if_pos among,if_pos (List.mem_cons_of_mem _ among)]
    · rw [if_neg among]
      by_cases same : name = first.1
      · rw [if_pos same,if_pos (same ▸ List.mem_cons_self ..),here,same]
      · rw [if_neg same,if_neg fun held => (List.mem_cons.mp held).elim same among]

theorem importedRow_names : (importedRow encoder format fields document).map Prod.fst = fields := by
  rw [importedRow,List.map_map]
  exact List.map_id _

theorem importedRow_faithful : ∀ entry ∈ importedRow encoder format fields document,
    entry.2 = imported encoder format document entry.1 := by
  intro entry among
  obtain ⟨name,-,rfl⟩ := List.mem_map.mp among
  rfl

theorem importedObject_get :
    (importedObject encoder format fields document).get name = if name ∈ fields then
      some (imported encoder format document name) else none := by
  have once := @lookup_inserted name _ _ (@importedRow_faithful encoder format fields document)
  have kept : ∀ entry ∈ inserted (importedRow encoder format fields document) [],
      entry ∈ importedRow encoder format fields document :=
    fun entry held => (mem_inserted held).resolve_right List.not_mem_nil
  have twice := @lookup_inserted name _ _
      (fun entry held => @importedRow_faithful encoder format fields document entry (kept entry held)) []
  rw [importedObject,Value.get_object,twice]
  by_cases among : name ∈ fields
  · have present : name ∈ (inserted (importedRow encoder format fields document) []).map Prod.fst := by
      have found := once []
      rw [importedRow_names,if_pos among] at found
      exact List.mem_map.mpr ⟨_,mem_of_lookup found,rfl⟩
    rw [if_pos present,if_pos among]
  · have absent : name ∉ (inserted (importedRow encoder format fields document) []).map Prod.fst := by
      intro present
      obtain ⟨entry,held,rfl⟩ := List.mem_map.mp present
      have column := List.mem_map_of_mem (f:=Prod.fst) (kept entry held)
      rw [importedRow_names] at column
      exact among column
    rw [if_neg absent,if_neg among]
    rfl

theorem decodeColumns_cells (names : List String) (source : Row) :
    decodeColumns format {} row (rowCells encoder names document) source =
    .ok (inserted (importedRow encoder format names document) source) := by
  induction names generalizing source with
  | nil => rfl
  | cons name names ih =>
    have decoded : decodeField {} row name (cell encoder document name) =
        .ok (if isReservedStringField name then .string (cell encoder document name)
          else inferScalar (cell encoder document name)) := by
      change (if isReservedStringField name then _ else _) = _
      split <;> rfl
    rw [rowCells,List.map_cons,decodeColumns,decoded]
    exact ih _

theorem readRow_cells : readRow format display {} fields (fields.map (cell encoder document)) row =
    .ok (importedObject encoder format fields document) := by
  have zipped : fields.zip (fields.map (cell encoder document)) =
      rowCells encoder fields document := List.map_prod_left_eq_zip.symm
  unfold readRow
  rw [zipped,decodeColumns_cells]
  rfl

theorem readFrom_cells : readFrom format display {} fields row
    (values.map fun value => .ok (fields.map (cell encoder value))) =
    (values.map (importedObject encoder format fields)).map .ok := by
  induction values generalizing row with
  | nil => rfl
  | cons value values ih =>
    rw [List.map_cons,List.map_cons,List.map_cons,readFrom,readRow_cells]
    exact congrArg _ ih

theorem rows_written (ended : (encodeRows encoder fields documents).2 = none) : ∃ values :
    List Value, documents = values.map .ok ∧
    List.Forall₂ (fun value row => csvRow encoder fields value = .ok row) values
      (encodeRows encoder fields documents).1 := by
  induction documents with
  | nil => exact ⟨[],rfl,.nil⟩
  | cons item rest ih =>
    cases item with
    | error err => cases ended
    | ok document =>
      cases encoded : csvRow encoder fields document with
      | error err =>
        simp only [encodeRows,encoded] at ended
        cases ended
      | ok bytes =>
        simp only [encodeRows,encoded] at ended ⊢
        obtain ⟨values,rfl,rows⟩ := ih ended
        exact ⟨document :: values,rfl,.cons encoded rows⟩

end Rows

section Transfer
open Interaction DumpRun StoredManifest ExportRun

-- The reader would drop a byte order mark that comes first.
def Unmarked (fields : List String) : Prop := ∀ name, fields.head? = some name →
    name.toList.head? ≠ some (Char.ofNat 0xFEFF)

abbrev CsvReader : Type := Bytes → Except String (List String) × List (Except String (List String))

-- The reader takes apart what the writer wrote, if all records are as long as the header.
def Parses (encoder : Encoder) (parse : CsvReader) : Prop :=
  ∀ (header : List String) (top : Bytes) (records : List (List String)) (rows : List Bytes),
    header ≠ [] → Unmarked header → encoder.csvRecord header = .ok top →
    List.Forall₂ (fun record row => record.length = header.length ∧
    encoder.csvRecord record = .ok row) records rows →
      parse (top ++ rows.flatten) = (.ok header,records.map .ok)

-- What has become of a document that was exported as CSV and imported.
structure Transferred (format : FiniteDouble → String) (fields : List String)
    (document object : Value) : Prop where
  columns : ∀ name, (object.get name).isSome = true ↔ name ∈ fields
  same_iff : ∀ name ∈ fields, object.get name = document.get name ↔ Returns format name (document.get name)

variable {codec : Codec} {held : Holdings} {options : ExportOptions}
  {documents : List (Except Error Value)} {size : Nat} {w w' : Objects}
  {format : FiniteDouble → String} {parse : CsvReader} {fields : List String} {document : Value}

theorem importedObject_transferred (displays : Displays options.encoder) :
    Transferred format fields document (importedObject options.encoder format fields document) where
  columns name := by
    rw [importedObject_get]
    split
    · next among => exact ⟨fun _ => among,fun _ => rfl⟩
    · next absent => exact ⟨fun some_ => (by cases some_),fun among => absurd among absent⟩
  same_iff name among := by
    rw [importedObject_get,if_pos among]
    exact imported_returns_iff displays

theorem parsed_rows (parses : Parses options.encoder parse) {top : Bytes} {values : List Value}
    {rows : List Bytes} (some_ : fields ≠ [])
    (unmarked : Unmarked fields) (header : csvHeader options.encoder fields = .ok top)
    (written : List.Forall₂ (fun value row => csvRow options.encoder fields value = .ok row) values rows) :
    parse (top ++ rows.flatten) =
    (.ok fields,values.map fun value => .ok (fields.map (cell options.encoder value))) := by
  have records : List.Forall₂ (fun record row => record.length = fields.length ∧
      options.encoder.csvRecord record = .ok row)
      (values.map fun value => fields.map (cell options.encoder value)) rows :=
    List.forall₂_map_left_iff.mpr (written.imp fun _ _ encoded => ⟨List.length_map _,encoded⟩)
  rw [parses fields top _ rows some_ unmarked header records,List.map_map]
  rfl

theorem csv_transferred (roundTrip : ∀ compression bytes,
    codec.decode compression (codec.encode compression bytes) = .ok bytes)
    (displays : Displays options.encoder) (parses : Parses options.encoder parse)
      (format : FiniteDouble → String) (display : Value → String)
    (csv : options.format = .csv) (columns : options.fields = some fields) (unmarked : Unmarked fields)
    (exported : Runs (Keeps held) (runExport codec options documents) w (Program.done size) w') :
    ∃ (values : List Value) (stored bytes : Bytes) (objects : List Value),
      documents = values.map .ok ∧ w' options.object = some stored ∧
      decompress codec options.compression stored = .ok bytes ∧
      read format display {} (parse bytes).1 (parse bytes).2 = objects.map .ok ∧
      List.Forall₂ (Transferred format fields) values objects := by
  obtain ⟨output,encoded,ended,stored⟩ := export_written exported
  rw [csv,columns] at encoded
  cases fields with
  | nil => cases encoded
  | cons first rest =>
    cases encoded
    unfold encodeCsv at ended stored
    cases header : csvHeader options.encoder (first :: rest) with
    | error err =>
      rw [header] at ended
      cases ended
    | ok top =>
      rw [header] at ended stored
      dsimp only at ended stored
      obtain ⟨values,rfl,rows⟩ := rows_written ended
      refine ⟨values,_,_,values.map (importedObject options.encoder format (first :: rest)),rfl,
        stored,decompress_compress roundTrip _ _,?_,?_⟩
      · rw [List.flatten_cons,parsed_rows parses (List.cons_ne_nil _ _) unmarked header rows]
        exact readFrom_cells
      · exact List.forall₂_map_right_iff.mpr
          (List.forall₂_same.mpr fun _ _ => importedObject_transferred displays)

def columnEncoder : Encoder where
  toVec _ := .error (.serialization "unexpected value")
  toText := fun
    | .number (.posInt value) => toString value
    | .number (.negInt magnitude) => "-" ++ toString magnitude
    | .number (.float text) => text
    | _ => ""
  csvRecord record := if record = ["n"] then .ok [110,10] else if record = ["7"] then .ok [55,10]
    else .error (.serialization "unexpected record")

def columnCells : Bytes → List (List String)
  | c :: _ :: rest => [if c = 110 then "n" else "7"] :: columnCells rest
  | _ => []

def columnReader : CsvReader :=
  fun bytes => (.ok ((columnCells bytes).headD []),(columnCells bytes).tail.map .ok)

def columnOptions : ExportOptions :=
  {encoder := columnEncoder,format := .csv,fields := some ["n"],object := ⟨0,"docs.csv"⟩}

def columnDocuments : List Value := [.object [("n",.number (.posInt 7))],.object [("n",.string "7")]]

def columnText : Bytes := [110,10,55,10,55,10]

theorem column_displays : Displays columnEncoder := ⟨fun _ => rfl,fun _ => rfl,fun _ => rfl⟩

theorem column_cells {record : List String} {bytes : Bytes}
    (written : columnEncoder.csvRecord record = .ok bytes) (rest : Bytes) :
    columnCells (bytes ++ rest) = record :: columnCells rest := by
  unfold columnEncoder at written
  dsimp only at written
  split at written
  · next name =>
    cases written
    rw [name]
    rfl
  · split at written
    · next digit =>
      cases written
      rw [digit]
      rfl
    · cases written

theorem column_parses : Parses columnEncoder columnReader := by
  intro header top records rows _ _ written all
  have cells : columnCells rows.flatten = records := by
    induction all with
    | nil => rfl
    | cons first _ ih => rw [List.flatten_cons,column_cells first.2,ih]
  rw [columnReader,column_cells written,cells]
  rfl

theorem column_exported :
    Runs (Keeps {}) (runExport ManifestExactness.exportCodec columnOptions
      (columnDocuments.map .ok)) (fun _ => none)
    (Program.done columnText.length)
      (Function.update (fun _ => none) columnOptions.object (some columnText)) := by
  have written : runExport ManifestExactness.exportCodec columnOptions (columnDocuments.map .ok) =
      columnOptions.object.putStream columnText := by rfl
  rw [written]
  exact SplitParts.put_runs _ _ _

theorem seven_typed : ¬Untyped "7" := by
  intro untyped
  have field : "7" = integerField .none (Nat.toDigits 10 7) := natural_field 7
  have number := (@infer_integer_iff (fun _ => "") (.posInt 7) 7 .none (fun _ same => by cases same)).mpr
    ⟨natural_range.mpr (by decide),natural_value 7⟩
  rw [← field,inferScalar_text_iff.mpr untyped] at number
  cases number

theorem column_transferred : ∃ number text : Value,
    read (fun _ => "0.5") (fun _ => "") {} (columnReader columnText).1 (columnReader columnText).2 =
    [.ok number,.ok text] ∧
    number.get "n" = some (.number (.posInt 7)) ∧ text.get "n" ≠ some (.string "7") := by
  obtain ⟨values,stored,bytes,objects,exported,there,decoded,back,each⟩ :=
    csv_transferred (fun _ _ => rfl) column_displays column_parses
    (fun _ => "0.5") (fun _ => "") rfl rfl (fun name first => by cases first; decide) column_exported
  rw [Function.update_self] at there
  cases there
  cases decoded
  obtain rfl := List.map_injective_iff.mpr (fun _ _ => Except.ok.inj) exported
  rcases each with _ | ⟨number,_ | ⟨text,_ | _⟩⟩
  refine ⟨_,_,back,(number.same_iff "n" (.head _)).mpr ⟨by decide,by decide⟩,fun same => ?_⟩
  have returns := (text.same_iff "n" (.head _)).mp same
  exact returns.2.elim (by decide) seven_typed

end Transfer
end ArangoDataTools.Delimited
