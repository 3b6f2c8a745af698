import Mathlib.Data.List.Nodup
import ArangoDataTools.Columns

namespace ArangoDataTools.Delimited
open Doubles
open Rdf (insertEntry lookup_insertEntry)

-- Reshaping as the documentation orders it: the whole row goes through one stage after the other.
-- A column's raw text is remembered for the case that it becomes a reserved attribute.
structure Cell where
  value : Value
  raw : Option String := none

abbrev Staged : Type := List (String × Cell)

def Cell.asText (cell : Cell) : Cell := match cell.raw with
  | some text => {cell with value := .string text}
  | none => cell

def values (staged : Staged) : Row := staged.map fun entry => (entry.1,entry.2.value)

section Stages
variable (format : FiniteDouble → String) (display : Value → String) (transforms : ColumnTransforms)

def inferColumn (row : Nat) (name field : String) : Except Error Scalar :=
  if isReservedStringField name && (transforms.renames.lookup name).isNone then .ok (.string field)
  else typedField transforms row name field

def inferStage (row : Nat) : List (String × String) → Except Error Staged
  | [] => .ok []
  | (name,field) :: columns => do
    let value ← inferColumn transforms row name field
    let rest ← inferStage row columns
    pure ((name,{value := value.value format,raw := some field}) :: rest)

def mergeStage (inferred : Staged) : Staged :=
  (transforms.merges.map fun rule =>
    (rule.target,({value := .string (rule.build display (values inferred))} : Cell))).reverse ++ inferred

def renamedCell (name : String) (cell : Cell) : Cell := match transforms.renames.lookup name with
  | some target => if isReservedStringField target then cell.asText else cell
  | none => cell

def renameStage (staged : Staged) : Staged :=
  staged.map fun entry => (transforms.targetName entry.1,renamedCell transforms entry.1 entry.2)

def removeStage (staged : Staged) : Staged := staged.filter fun entry => !transforms.isRemoved entry.1

def stagedRow (headers record : List String) (row : Nat) : Except Error Staged := do
  let inferred ← inferStage format transforms row (headers.zip record)
  pure (removeStage transforms (renameStage transforms (mergeStage display transforms inferred)))

-- An emitted object has the attributes the stages give, and no others.
def FollowsStages (headers record : List String) (row : Nat) : Prop :=
  ∀ object, readRow format display transforms headers record row = .ok object →
    ∃ staged, stagedRow format display transforms headers record row = .ok staged ∧
      ∀ name, object.get name = (staged.lookup name).map Cell.value

end Stages

section Lookups
variable {β : Type}

theorem lookup_filter_key (keep : String → Bool) (entries : List (String × β)) (name : String) :
    (entries.filter fun entry => keep entry.1).lookup name = if keep name then entries.lookup name
      else none := by
  induction entries with
  | nil => simp
  | cons entry entries ih =>
    obtain ⟨other,held⟩ := entry
    by_cases same : name = other
    · subst same
      cases kept : keep name with
      | true => simp [kept]
      | false =>
        rw [List.filter_cons_of_neg (by simp [kept]),ih,kept]
        rfl
    · have apart : (name == other) = false := beq_eq_false_iff_ne.mpr same
      cases kept : keep other with
      | true => simp [kept,List.lookup_cons,apart,ih]
      | false => simp [kept,List.lookup_cons,apart,ih]

theorem lookup_rename {rename : String → String} {change : String → β → β}
    {entries : List (String × β)} {name : String}
    (apart : ∀ entry ∈ entries, rename entry.1 = rename name → entry.1 = name) :
    (entries.map fun entry => (rename entry.1,change entry.1 entry.2)).lookup (rename name) =
    (entries.lookup name).map (change name) := by
  induction entries with
  | nil => rfl
  | cons entry entries ih =>
    obtain ⟨other,held⟩ := entry
    obtain ⟨here,later⟩ := List.forall_mem_cons.mp apart
    by_cases same : other = name
    · subst same
      simp
    · have target : rename name ≠ rename other := fun equal => same (here equal.symm)
      rw [List.map_cons,List.lookup_cons,List.lookup_cons,beq_eq_false_iff_ne.mpr target,
        beq_eq_false_iff_ne.mpr (Ne.symm same)]
      exact ih later

theorem lookup_absent {entries : List (String × β)} {name : String}
    (absent : ∀ entry ∈ entries, entry.1 ≠ name) :
    entries.lookup name = none := by
  refine List.lookup_eq_none_iff.mpr fun entry among => ?_
  exact bne_iff_ne.mpr (absent entry among).symm

theorem lookup_of_mem {name : String} {held : β} {entries : List (String × β)}
    (nodup : (entries.map Prod.fst).Nodup)
    (among : (name,held) ∈ entries) : entries.lookup name = some held := by
  induction entries with
  | nil => cases among
  | cons entry entries ih =>
    obtain ⟨other,old⟩ := entry
    obtain ⟨fresh,rest⟩ := List.nodup_cons.mp nodup
    rcases List.mem_cons.mp among with same | later
    · cases same
      exact List.lookup_cons_self
    · have apart : name ≠ other := by
        rintro rfl
        exact fresh (List.mem_map.mpr ⟨_,later,rfl⟩)
      rw [List.lookup_cons,beq_eq_false_iff_ne.mpr apart]
      exact ih rest later

theorem value_lookup_eq (name : String) (entries : Row) : Value.lookup name entries = entries.lookup name := by
  induction entries with
  | nil => rfl
  | cons entry entries ih =>
    obtain ⟨other,old⟩ := entry
    rw [Value.lookup_cons,List.lookup_cons,ih]
    by_cases same : other = name
    · subst same
      simp
    · rw [if_neg same,beq_eq_false_iff_ne.mpr (Ne.symm same)]

theorem lookup_last {rule : MergeRule} {merges : List MergeRule} {name : String}
    (last : LastRule merges name rule)
    (make : MergeRule → β) : (merges.map fun rule => (rule.target,make rule)).reverse.lookup name =
    some (make rule) := by
  obtain ⟨earlier,later,rfl,target,others⟩ := last
  refine List.lookup_eq_some_iff.mpr
    ⟨(later.map fun rule => (rule.target,make rule)).reverse,
    (earlier.map fun rule => (rule.target,make rule)).reverse,?_,?_⟩
  · simp [target]
  · intro entry among
    obtain ⟨other,listed,rfl⟩ := List.mem_map.mp (List.mem_reverse.mp among)
    exact bne_iff_ne.mpr (others other listed).symm

end Lookups

section Columns
variable {format : FiniteDouble → String} {display : Value → String} {transforms : ColumnTransforms} {row : Nat}
  {columns : List (String × String)} {source decoded : Row} {inferred : Staged}
    {name field : String} {value : Value}

theorem insertEntry_perm {entries : Row} (fresh : ∀ entry ∈ entries, entry.1 ≠ name) :
    (insertEntry name value entries).Perm ((name,value) :: entries) := by
  induction entries with
  | nil => exact .refl _
  | cons first rest ih =>
    obtain ⟨held,old⟩ := first
    obtain ⟨here,later⟩ := List.forall_mem_cons.mp fresh
    unfold insertEntry
    split
    · exact .refl _
    · next equal => exact absurd (Std.LawfulEqOrd.eq_of_compare equal).symm here
    · exact ((ih later).cons _).trans (.swap ..)

def DecodesTo (format : FiniteDouble → String) (transforms : ColumnTransforms) (row : Nat)
    (column : String × String)
    (entry : String × Value) : Prop :=
  entry.1 = column.1 ∧ ∃ scalar, decodeField transforms row column.1 column.2 = .ok scalar ∧
    entry.2 = scalar.value format

def InfersTo (format : FiniteDouble → String) (transforms : ColumnTransforms) (row : Nat)
    (column : String × String)
    (entry : String × Cell) : Prop :=
  entry.1 = column.1 ∧ ∃ scalar, inferColumn transforms row column.1 column.2 = .ok scalar ∧
    entry.2 = {value := scalar.value format,raw := some column.2}

theorem decodeColumns_decodes (nodup : (columns.map Prod.fst).Nodup)
    (fresh : ∀ entry ∈ source, entry.1 ∉ columns.map Prod.fst)
    (ran : decodeColumns format transforms row columns source = .ok decoded) :
    ∃ entries, List.Forall₂ (DecodesTo format transforms row) columns entries ∧
    decoded.Perm (entries ++ source) := by
  induction columns generalizing source with
  | nil =>
    cases ran
    exact ⟨[],.nil,.refl _⟩
  | cons column columns ih =>
    obtain ⟨name,field⟩ := column
    obtain ⟨apart,rest⟩ := List.nodup_cons.mp nodup
    unfold decodeColumns at ran
    cases read : decodeField transforms row name field with
    | error err =>
      rw [read] at ran
      cases ran
    | ok scalar =>
      rw [read] at ran
      have inserted : (insertEntry name (scalar.value format) source).Perm
          ((name,scalar.value format) :: source) :=
        insertEntry_perm fun entry held same => fresh entry held (same ▸ List.mem_cons_self ..)
      obtain ⟨entries,decodes,perm⟩ := ih rest (by
        intro entry held
        rcases List.mem_cons.mp (inserted.mem_iff.mp held) with rfl | before
        · exact apart
        · exact fun among => fresh entry before (List.mem_cons_of_mem _ among)) ran
      refine ⟨(name,scalar.value format) :: entries,.cons ⟨rfl,scalar,read,rfl⟩ decodes,?_⟩
      exact perm.trans ((List.Perm.append_left entries inserted).trans List.perm_middle)

theorem inferStage_infers (ran : inferStage format transforms row columns = .ok inferred) :
    List.Forall₂ (InfersTo format transforms row) columns inferred := by
  induction columns generalizing inferred with
  | nil =>
    cases ran
    exact .nil
  | cons column columns ih =>
    obtain ⟨name,field⟩ := column
    unfold inferStage at ran
    cases read : inferColumn transforms row name field with
    | error err =>
      rw [read] at ran
      cases ran
    | ok scalar =>
      cases others : inferStage format transforms row columns with
      | error err =>
        rw [read,others] at ran
        cases ran
      | ok rest =>
        rw [read,others] at ran
        cases ran
        exact .cons ⟨rfl,scalar,read,rfl⟩ (ih others)

theorem inferStage_ok (all : ∀ column ∈ columns, ∃ scalar,
    inferColumn transforms row column.1 column.2 = .ok scalar) :
    ∃ inferred, inferStage format transforms row columns = .ok inferred := by
  induction columns with
  | nil => exact ⟨[],rfl⟩
  | cons column columns ih =>
    obtain ⟨⟨scalar,read⟩,later⟩ := List.forall_mem_cons.mp all
    obtain ⟨rest,others⟩ := ih later
    exact ⟨_,by rw [inferStage,read,others]; rfl⟩

theorem decodeColumns_ok (all : ∀ column ∈ columns, ∃ scalar,
    decodeField transforms row column.1 column.2 = .ok scalar) (source : Row) :
    ∃ decoded, decodeColumns format transforms row columns source = .ok decoded := by
  induction columns generalizing source with
  | nil => exact ⟨source,rfl⟩
  | cons column columns ih =>
    obtain ⟨⟨scalar,read⟩,later⟩ := List.forall_mem_cons.mp all
    obtain ⟨decoded,others⟩ := ih later (insertEntry column.1 (scalar.value format) source)
    exact ⟨decoded,by rw [decodeColumns,read]; exact others⟩

theorem zip_keys_nodup {headers : List String} (nodup : headers.Nodup) (record : List String) :
    ((headers.zip record).map Prod.fst).Nodup := by
  induction headers generalizing record with
  | nil => simp
  | cons name headers ih =>
    obtain ⟨apart,rest⟩ := List.nodup_cons.mp nodup
    cases record with
    | nil => simp
    | cons field record =>
      refine List.nodup_cons.mpr ⟨?_,ih rest record⟩
      intro among
      obtain ⟨⟨other,text⟩,zipped,rfl⟩ := List.mem_map.mp among
      exact apart (List.of_mem_zip zipped).1

section Aligned
variable {β : Type} {Related : String × String → String × β → Prop} {entries : List (String × β)}

theorem aligned_keys (same : ∀ column entry, Related column entry → entry.1 = column.1)
    (aligned : List.Forall₂ Related columns entries) : entries.map Prod.fst = columns.map Prod.fst := by
  induction aligned with
  | nil => rfl
  | cons related _ ih => rw [List.map_cons,List.map_cons,same _ _ related,ih]

theorem aligned_mem (aligned : List.Forall₂ Related columns entries) {column : String × String}
    (among : column ∈ columns) :
    ∃ entry ∈ entries, Related column entry := by
  induction aligned with
  | nil => cases among
  | cons related _ ih =>
    rcases List.mem_cons.mp among with rfl | later
    · exact ⟨_,List.mem_cons_self ..,related⟩
    · obtain ⟨entry,held,related⟩ := ih later
      exact ⟨entry,List.mem_cons_of_mem _ held,related⟩

end Aligned

theorem decoded_entries (nodup : (columns.map Prod.fst).Nodup)
    (ran : decodeColumns format transforms row columns [] = .ok decoded) :
    (decoded.map Prod.fst).Perm (columns.map Prod.fst) ∧ ∀ column ∈ columns, ∃ scalar,
      decodeField transforms row column.1 column.2 = .ok scalar ∧ (column.1,scalar.value format) ∈ decoded := by
  obtain ⟨entries,decodes,perm⟩ := decodeColumns_decodes nodup (fun _ held => absurd held List.not_mem_nil) ran
  rw [List.append_nil] at perm
  refine ⟨?_,fun column among => ?_⟩
  · rw [← aligned_keys (fun _ _ related => related.1) decodes]
    exact perm.map _
  · obtain ⟨⟨name,value⟩,held,same,scalar,read,equal⟩ := aligned_mem decodes among
    refine ⟨scalar,read,perm.mem_iff.mpr ?_⟩
    cases same
    cases equal
    exact held

theorem inferred_entries (ran : inferStage format transforms row columns = .ok inferred) :
    inferred.map Prod.fst = columns.map Prod.fst ∧ ∀ column ∈ columns, ∃ scalar,
      inferColumn transforms row column.1 column.2 = .ok scalar ∧
      (column.1,({value := scalar.value format,raw := some column.2} : Cell)) ∈ inferred := by
  have infers := inferStage_infers ran
  refine ⟨aligned_keys (fun _ _ related => related.1) infers,fun column among => ?_⟩
  obtain ⟨⟨name,cell⟩,held,same,scalar,read,equal⟩ := aligned_mem infers among
  cases same
  cases equal
  exact ⟨scalar,read,held⟩

theorem placed_kept (entries object : Row) (among : (name,value) ∈ entries)
    (kept : transforms.isRemoved name = false)
    (only : ∀ entry ∈ entries, transforms.isRemoved entry.1 = false →
    transforms.targetName entry.1 = transforms.targetName name →
      entry = (name,value)) :
    Value.lookup (transforms.targetName name)
      (entries.foldl (fun object entry => if transforms.isRemoved entry.1 then object
      else insertEntry (transforms.targetName entry.1) entry.2 object) object) = some value := by
  induction entries using List.reverseRecOn with
  | nil => cases among
  | append_singleton entries last ih =>
    have earlier : last ≠ (name,value) → (name,value) ∈ entries := fun other =>
      (List.mem_append.mp among).resolve_right fun final => other (List.mem_singleton.mp final).symm
    have rest (before : (name,value) ∈ entries) :=
      ih before fun entry held => only entry (List.mem_append_left _ held)
    rw [List.foldl_append,List.foldl_cons,List.foldl_nil]
    by_cases removed : transforms.isRemoved last.1 = true
    · rw [if_pos removed]
      refine rest (earlier ?_)
      rintro rfl
      exact Bool.false_ne_true (kept.symm.trans removed)
    · rw [if_neg removed,lookup_insertEntry]
      by_cases same : transforms.targetName name = transforms.targetName last.1
      · have final := only last (List.mem_append_right _ (List.mem_singleton_self last))
            (Bool.not_eq_true _ ▸ removed) same.symm
        rw [if_pos same,final]
      · rw [if_neg same]
        refine rest (earlier ?_)
        rintro rfl
        exact same rfl

theorem placed_lookup {source : Row} (keys : (source.map Prod.fst).Nodup)
    (apart : ∀ other ∈ source.map Prod.fst, transforms.targetName other =
    transforms.targetName name → other = name)
    (among : (name,value) ∈ source) : Value.lookup (transforms.targetName name)
      (placeColumns transforms source) =
      if transforms.isRemoved name then none else some value := by
  cases removed : transforms.isRemoved name with
  | false =>
    refine placed_kept source [] among removed fun entry held _ same => ?_
    obtain ⟨other,old⟩ := entry
    obtain rfl : other = name := apart other (List.mem_map.mpr ⟨_,held,rfl⟩) same
    have equal := (lookup_of_mem keys held).symm.trans (lookup_of_mem keys among)
    rw [Option.some.inj equal]
  | true =>
    rw [if_pos rfl]
    by_contra some_
    obtain ⟨held,found⟩ := Option.ne_none_iff_exists'.mp some_
    obtain ⟨column,listed,kept,target⟩ := placeColumns_mem (mem_of_lookup found)
    obtain rfl := apart column (List.mem_map.mpr ⟨_,listed,rfl⟩) target
    exact Bool.false_ne_true (kept.symm.trans removed)

theorem placed_absent {source : Row} (none_ : ∀ other ∈ source.map Prod.fst,
    transforms.targetName other ≠ name) :
    Value.lookup name (placeColumns transforms source) = none := by
  by_contra some_
  obtain ⟨held,found⟩ := Option.ne_none_iff_exists'.mp some_
  obtain ⟨column,listed,_,target⟩ := placeColumns_mem (mem_of_lookup found)
  exact none_ column (List.mem_map.mpr ⟨_,listed,rfl⟩) target

theorem inferColumn_decode
    (plain : ∀ target, transforms.renames.lookup name = some target → isReservedStringField target = false) :
    inferColumn transforms row name field = decodeField transforms row name field := by
  unfold inferColumn decodeField ColumnTransforms.targetName
  cases renamed : transforms.renames.lookup name with
  | none => simp
  | some target => simp [plain target renamed]

theorem decodeField_renamed {target : String} (renamed : transforms.renames.lookup name = some target)
    (reserved : isReservedStringField target = true) : decodeField transforms row name field =
    .ok (.string field) := by
  unfold decodeField ColumnTransforms.targetName
  rw [renamed,Option.getD_some,if_pos reserved]

end Columns

section Agreement
variable {format : FiniteDouble → String} {display : Value → String} {transforms : ColumnTransforms}
  {headers record : List String}
  {row : Nat} {source : Row} {inferred : Staged} {name : String}

def attributes (transforms : ColumnTransforms) (headers : List String) : List String :=
  headers ++ transforms.merges.map MergeRule.target

-- No two attributes are mapped to one name.
def Apart (transforms : ColumnTransforms) (headers : List String) : Prop :=
  ∀ one ∈ attributes transforms headers, ∀ other ∈ attributes transforms headers,
    transforms.targetName one = transforms.targetName other → one = other

-- The rules for which the order in which the code works makes no difference.
structure InOrder (transforms : ColumnTransforms) (headers : List String) : Prop where
  merges : ∀ rule ∈ transforms.merges, transforms.targetName rule.target = rule.target ∧
    transforms.isRemoved rule.target = false
  removals : ∀ column ∈ headers, transforms.isRemoved column =
    transforms.isRemoved (transforms.targetName column)
  texts : ∀ column ∈ headers, ∀ target, transforms.renames.lookup column = some target →
    isReservedStringField target = true →
    transforms.columnType column = some .string ∨ transforms.columnType column = none ∧
      ∀ rule, LastRule transforms.merges rule.target rule → .column column ∉ rule.segments

theorem zipped_header {column : String × String} (among : column ∈ headers.zip record) : column.1 ∈ headers :=
  (List.of_mem_zip (a:=column.1) (b:=column.2) among).1

theorem merged_keys (keys : inferred.map Prod.fst = (headers.zip record).map Prod.fst) {entry : String × Cell}
    (held : entry ∈ mergeStage display transforms inferred) : entry.1 ∈ attributes transforms headers := by
  rcases List.mem_append.mp held with merged | column
  · obtain ⟨rule,listed,rfl⟩ := List.mem_map.mp (List.mem_reverse.mp merged)
    exact List.mem_append_right _ (List.mem_map.mpr ⟨rule,listed,rfl⟩)
  · have among : entry.1 ∈ (headers.zip record).map Prod.fst := keys ▸ List.mem_map.mpr ⟨entry,column,rfl⟩
    obtain ⟨zipped,listed,equal⟩ := List.mem_map.mp among
    exact List.mem_append_left _ (equal ▸ zipped_header listed)

theorem staged_lookup (apart : Apart transforms headers)
    (keys : inferred.map Prod.fst = (headers.zip record).map Prod.fst)
    (among : name ∈ attributes transforms headers) :
    (removeStage transforms (renameStage transforms
      (mergeStage display transforms inferred))).lookup (transforms.targetName name) =
      if transforms.isRemoved (transforms.targetName name) then none
      else ((mergeStage display transforms inferred).lookup name).map (renamedCell transforms name) := by
  unfold removeStage renameStage
  rw [lookup_filter_key (fun name => !transforms.isRemoved name),
    lookup_rename fun entry held same => apart entry.1 (merged_keys keys held) name among same]
  cases transforms.isRemoved (transforms.targetName name) <;> rfl

theorem staged_absent (none_ : ∀ entry ∈ mergeStage display transforms inferred,
    transforms.targetName entry.1 ≠ name) :
    (removeStage transforms (renameStage transforms
      (mergeStage display transforms inferred))).lookup name = none := by
  unfold removeStage renameStage
  rw [lookup_filter_key (fun name => !transforms.isRemoved name),lookup_absent,ite_self]
  intro entry held
  obtain ⟨before,listed,rfl⟩ := List.mem_map.mp held
  exact none_ before listed

theorem merged_last {rule : MergeRule} (last : LastRule transforms.merges name rule) :
    (mergeStage display transforms inferred).lookup name =
    some {value := .string (rule.build display (values inferred))} := by
  unfold mergeStage
  rw [List.lookup_append,lookup_last last]
  rfl

theorem merged_column (untouched : ∀ rule ∈ transforms.merges, rule.target ≠ name) :
    (mergeStage display transforms inferred).lookup name = inferred.lookup name := by
  unfold mergeStage
  rw [List.lookup_append,lookup_absent,Option.none_or]
  intro entry held
  obtain ⟨rule,listed,rfl⟩ := List.mem_map.mp (List.mem_reverse.mp held)
  exact untouched rule listed

theorem values_lookup (name : String) (staged : Staged) : Value.lookup name (values staged) =
    (staged.lookup name).map Cell.value := by
  rw [value_lookup_eq]
  induction staged with
  | nil => rfl
  | cons entry staged ih =>
    obtain ⟨other,cell⟩ := entry
    change List.lookup name ((other,cell.value) :: values staged) = _
    rw [List.lookup_cons,List.lookup_cons]
    cases name == other with
    | true => rfl
    | false => exact ih

theorem lastRule_mem {merges : List MergeRule} {rule : MergeRule} (last : LastRule merges name rule) :
    rule ∈ merges ∧ rule.target = name := by
  obtain ⟨earlier,later,rfl,target,_⟩ := last
  exact ⟨by simp,target⟩

theorem renamed_typed {target field : String} (renamed : transforms.renames.lookup name = some target) :
    inferColumn transforms row name field = typedField transforms row name field := by
  unfold inferColumn
  rw [renamed,if_neg (by simp)]

theorem renamed_value {field : String} {read inferredScalar : Scalar}
    (decodes : decodeField transforms row name field = .ok read)
    (infers : inferColumn transforms row name field = .ok inferredScalar) :
    (renamedCell transforms name {value := inferredScalar.value format,raw := some field}).value =
    read.value format := by
  unfold renamedCell
  cases renamed : transforms.renames.lookup name with
  | none =>
    rw [inferColumn_decode (by simp [renamed])] at infers
    cases decodes.symm.trans infers
    rfl
  | some target =>
    cases reserved : isReservedStringField target with
    | true =>
      cases (decodeField_renamed renamed reserved).symm.trans decodes
      simp [reserved,Cell.asText,Scalar.value]
    | false =>
      rw [inferColumn_decode (by simp [renamed,reserved])] at infers
      cases decodes.symm.trans infers
      simp [reserved]

theorem column_standing (ordered : InOrder transforms headers) (header : name ∈ headers) (field : String) :
    inferColumn transforms row name field = decodeField transforms row name field ∨
    inferColumn transforms row name field = .ok (inferScalar field) ∧
      ∀ rule, LastRule transforms.merges rule.target rule → .column name ∉ rule.segments := by
  by_cases special : ∃ target, transforms.renames.lookup name = some target ∧
    isReservedStringField target = true
  · obtain ⟨target,renamed,reserved⟩ := special
    rw [renamed_typed renamed]
    unfold typedField
    rcases ordered.texts name header target renamed reserved with text | ⟨untyped,unused⟩
    · rw [text,decodeField_renamed renamed reserved]
      exact .inl rfl
    · rw [untyped]
      exact .inr ⟨rfl,unused⟩
  · refine .inl (inferColumn_decode fun target renamed => ?_)
    by_contra reserved
    exact special ⟨target,renamed,Bool.not_eq_false _ ▸ reserved⟩

theorem build_same {rule : MergeRule} {others : Row}
    (same : ∀ column, .column column ∈ rule.segments → Value.lookup column source =
    Value.lookup column others) :
    rule.build display source = rule.build display others := by
  unfold MergeRule.build
  congr 1
  refine List.map_congr_left fun segment among => ?_
  cases segment with
  | literal text => rfl
  | column column => simp only [Segment.text,same column among]

theorem source_absent {columns : List (String × String)}
    (perm : (source.map Prod.fst).Perm (columns.map Prod.fst))
    (absent : name ∉ columns.map Prod.fst) : Value.lookup name source = none := by
  rw [value_lookup_eq]
  refine lookup_absent fun entry held same => absent ?_
  exact perm.mem_iff.mp (List.mem_map.mpr ⟨entry,held,same⟩)

theorem renamed_merged (name : String) (value : Value) :
    (renamedCell transforms name {value}).value = value := by
  unfold renamedCell
  split
  · split <;> rfl
  · rfl

theorem stages_follow (nodup : headers.Nodup) (apart : Apart transforms headers)
    (ordered : InOrder transforms headers) :
    FollowsStages format display transforms headers record row := by
  intro object ran
  unfold readRow at ran
  cases decoded : decodeColumns format transforms row (headers.zip record) [] with
  | error err =>
    rw [decoded] at ran
    cases ran
  | ok source =>
    rw [decoded] at ran
    cases ran
    have columnKeys := zip_keys_nodup nodup record
    obtain ⟨perm,decodes⟩ := decoded_entries columnKeys decoded
    have sourceKeys : (source.map Prod.fst).Nodup := perm.nodup_iff.mpr columnKeys
    obtain ⟨inferred,infers⟩ : ∃ inferred, inferStage format transforms row (headers.zip record) =
        .ok inferred := by
      refine inferStage_ok fun column among => ?_
      rcases column_standing ordered (zipped_header among) column.2 with same | ⟨read,_⟩
      · obtain ⟨scalar,read,_⟩ := decodes column among
        exact ⟨scalar,same.trans read⟩
      · exact ⟨_,read⟩
    obtain ⟨keys,inferreds⟩ := inferred_entries infers
    have inferredKeys : (inferred.map Prod.fst).Nodup := keys ▸ columnKeys
    refine ⟨removeStage transforms
      (renameStage transforms (mergeStage display transforms inferred)),by rw [stagedRow,infers]; rfl,?_⟩
    intro name
    rw [Value.get_object]
    rcases lookup_applyMerges display transforms source (placeColumns transforms source) name
      with ⟨rule,last,found⟩ | ⟨untouched,found⟩
    · obtain ⟨listed,rfl⟩ := lastRule_mem last
      obtain ⟨stays,kept⟩ := ordered.merges rule listed
      have located := @staged_lookup display transforms headers record inferred rule.target apart keys
        (List.mem_append_right _ (List.mem_map.mpr ⟨rule,listed,rfl⟩))
      rw [stays,kept,merged_last last] at located
      have built : rule.build display source = rule.build display (values inferred) := by
        refine build_same fun column used => ?_
        rw [values_lookup]
        by_cases header : column ∈ (headers.zip record).map Prod.fst
        · obtain ⟨⟨column,field⟩,among,rfl⟩ := List.mem_map.mp header
          obtain ⟨read,decodes,held⟩ := decodes _ among
          obtain ⟨scalar,infers,cell⟩ := inferreds _ among
          rw [value_lookup_eq,lookup_of_mem sourceKeys held,lookup_of_mem inferredKeys cell]
          rcases column_standing ordered (zipped_header among) field with same | ⟨_,unused⟩
          · cases decodes.symm.trans (same.symm.trans infers)
            rfl
          · exact absurd used (unused rule last)
        · rw [source_absent perm header,lookup_absent]
          · rfl
          · rintro entry held rfl
            exact header (keys ▸ List.mem_map.mpr ⟨entry,held,rfl⟩)
      rw [found,located,built]
      exact congrArg some (renamed_merged _ _).symm
    · rw [found]
      by_cases some_ : ∃ column ∈ headers.zip record, transforms.targetName column.1 = name
      · obtain ⟨⟨column,field⟩,among,rfl⟩ := some_
        have header : column ∈ headers := zipped_header among
        have listed : column ∈ attributes transforms headers := List.mem_append_left _ header
        obtain ⟨read,decodes,held⟩ := decodes _ among
        obtain ⟨scalar,infers,cell⟩ := inferreds _ among
        have unmerged : ∀ rule ∈ transforms.merges, rule.target ≠ column := by
          rintro rule present rfl
          exact untouched rule present (ordered.merges rule present).1.symm
        have clear : ∀ other ∈ source.map Prod.fst, transforms.targetName other =
            transforms.targetName column → other = column := by
          intro other held same
          obtain ⟨zipped,zippedIn,rfl⟩ := List.mem_map.mp (perm.mem_iff.mp held)
          exact apart _ (List.mem_append_left _ (zipped_header zippedIn)) column listed same
        rw [placed_lookup sourceKeys clear held,staged_lookup apart keys listed,
          merged_column unmerged,lookup_of_mem inferredKeys cell,
          ordered.removals column header]
        cases transforms.isRemoved (transforms.targetName column) with
        | true => rfl
        | false => exact congrArg some (renamed_value decodes infers).symm
      · rw [placed_absent,staged_absent]
        · rfl
        · intro entry held same
          rcases List.mem_append.mp held with merged | column
          · obtain ⟨rule,listed,rfl⟩ := List.mem_map.mp (List.mem_reverse.mp merged)
            exact untouched rule listed ((ordered.merges rule listed).1.symm.trans same)
          · have among : entry.1 ∈ (headers.zip record).map Prod.fst :=
              keys ▸ List.mem_map.mpr ⟨entry,column,rfl⟩
            obtain ⟨zipped,listed,equal⟩ := List.mem_map.mp among
            exact some_ ⟨zipped,listed,(congrArg transforms.targetName equal).trans same⟩
        · intro other held same
          obtain ⟨zipped,among,rfl⟩ := List.mem_map.mp (perm.mem_iff.mp held)
          exact some_ ⟨zipped,among,same⟩

def probe (headers : List String) (column word : String) : List String :=
  headers.map fun name => if name = column then word else ""

-- No rename leads to the name of another attribute.
def Fresh (transforms : ColumnTransforms) (headers : List String) : Prop :=
  ∀ name ∈ attributes transforms headers, transforms.targetName name = name ∨
    transforms.targetName name ∉ attributes transforms headers

theorem probe_columns (headers : List String) (column word : String) :
    headers.zip (probe headers column word) = headers.map fun name =>
    (name,if name = column then word else "") := by
  unfold probe
  induction headers with
  | nil => rfl
  | cons name headers ih => rw [List.map_cons,List.zip_cons_cons,ih,List.map_cons]

theorem typedField_empty (name : String) : typedField transforms row name "" = .ok .null ∨
    typedField transforms row name "" = .ok (.string "") := by
  unfold typedField
  cases transforms.columnType name with
  | none => exact .inl rfl
  | some kind => cases kind with
    | string => exact .inr rfl
    | number => exact .inl rfl
    | boolean => exact .inl rfl

theorem decodeField_empty (name : String) : ∃ scalar, decodeField transforms row name "" = .ok scalar := by
  unfold decodeField
  split
  · exact ⟨_,rfl⟩
  · rcases @typedField_empty transforms row name with empty | empty
    · exact ⟨_,empty⟩
    · exact ⟨_,empty⟩

theorem inferColumn_empty {scalar : Scalar} (read : inferColumn transforms row name "" = .ok scalar) :
    render display (scalar.value format) = "" := by
  unfold inferColumn at read
  split at read
  · cases read
    rfl
  · rcases @typedField_empty transforms row name with empty | empty
    · cases empty.symm.trans read
      rfl
    · cases empty.symm.trans read
      rfl

theorem follows_lookup (follows : FollowsStages format display transforms headers record row)
    (decoded : decodeColumns format transforms row (headers.zip record) [] = .ok source) :
    ∃ inferred, inferStage format transforms row (headers.zip record) = .ok inferred ∧ ∀ name,
      Value.lookup name (transforms.applyMerges display source (placeColumns transforms source)) =
        ((removeStage transforms (renameStage transforms (mergeStage display transforms inferred))).lookup name).map Cell.value := by
  obtain ⟨staged,ran,same⟩ := follows _ (by rw [readRow,decoded]; rfl)
  cases infers : inferStage format transforms row (headers.zip record) with
  | error err =>
    rw [stagedRow,infers] at ran
    cases ran
  | ok inferred =>
    rw [stagedRow,infers] at ran
    cases ran
    exact ⟨inferred,rfl,same⟩

theorem probe_decodes {column word : String}
    (reads : ∃ scalar, decodeField transforms row column word = .ok scalar) :
    ∃ source, decodeColumns format transforms row (headers.zip (probe headers column word)) [] =
    .ok source := by
  refine decodeColumns_ok (fun zipped among => ?_) []
  rw [probe_columns] at among
  obtain ⟨name,_,rfl⟩ := List.mem_map.mp among
  by_cases same : name = column
  · rw [if_pos same,same]
    exact reads
  · rw [if_neg same]
    exact decodeField_empty name

theorem lastRule_unique {merges : List MergeRule} {one other : MergeRule} (first : LastRule merges name one)
    (second : LastRule merges name other) : one = other :=
  Option.some.inj ((lookup_last first id).symm.trans (lookup_last second id))

end Agreement

section Necessary
variable {format : FiniteDouble → String} {display : Value → String} {transforms : ColumnTransforms}
  {headers : List String}
  {row : Nat} {source : Row} {inferred : Staged} {column word : String}

structure Probed (format : FiniteDouble → String) (display : Value → String)
    (transforms : ColumnTransforms) (headers : List String)
    (row : Nat) (column word : String) (source : Row) (inferred : Staged) : Prop where
  decodes : decodeColumns format transforms row (headers.zip (probe headers column word)) [] = .ok source
  infers : inferStage format transforms row (headers.zip (probe headers column word)) = .ok inferred
  same : ∀ name, Value.lookup name (transforms.applyMerges display source (placeColumns transforms source)) =
    ((removeStage transforms (renameStage transforms (mergeStage display transforms inferred))).lookup name).map Cell.value

theorem probed (follows : ∀ record row, FollowsStages format display transforms headers record row) (row : Nat)
    (reads : ∃ scalar, decodeField transforms row column word = .ok scalar) :
    ∃ source inferred, Probed format display transforms headers row column word source inferred := by
  obtain ⟨source,decoded⟩ := @probe_decodes format transforms headers row column word reads
  obtain ⟨inferred,infers,same⟩ := follows_lookup (follows _ row) decoded
  exact ⟨source,inferred,decoded,infers,same⟩

theorem probed_merge (probed : Probed format display transforms headers row column word source
    inferred) {rule : MergeRule}
    (listed : rule ∈ transforms.merges) : ∃ last, LastRule transforms.merges rule.target last ∧
      ((removeStage transforms (renameStage transforms (mergeStage display transforms inferred))).lookup rule.target).map Cell.value =
        some (.string (last.build display source)) := by
  rcases lookup_applyMerges display transforms source (placeColumns transforms source) rule.target
    with ⟨last,isLast,found⟩ | ⟨untouched,_⟩
  · exact ⟨last,isLast,(probed.same rule.target).symm.trans found⟩
  · exact absurd rfl (untouched rule listed)

theorem probed_stays (apart : Apart transforms headers) (fresh : Fresh transforms headers)
    (probed : Probed format display transforms headers row column word source inferred) {rule : MergeRule}
    (listed : rule ∈ transforms.merges) :
    transforms.targetName rule.target = rule.target ∧ transforms.isRemoved rule.target = false := by
  obtain ⟨last,_,found⟩ := probed_merge probed listed
  have among : rule.target ∈ attributes transforms headers :=
    List.mem_append_right _ (List.mem_map.mpr ⟨rule,listed,rfl⟩)
  have keys := (inferred_entries probed.infers).1
  have stays : transforms.targetName rule.target = rule.target := by
    by_contra moved
    rw [staged_absent] at found
    · cases found
    · intro entry held same
      rcases fresh entry.1 (merged_keys keys held) with kept | new
      · rw [kept] at same
        exact moved (same ▸ kept)
      · exact new (same ▸ among)
  refine ⟨stays,?_⟩
  by_contra removed
  have located := @staged_lookup display transforms headers
      (probe headers column word) inferred rule.target apart keys among
  rw [stays,if_pos (Bool.not_eq_false _ ▸ removed)] at located
  rw [located] at found
  cases found

theorem probed_removals (nodup : headers.Nodup) (apart : Apart transforms headers)
    (fresh : Fresh transforms headers)
    (probed : Probed format display transforms headers row column word source inferred)
      {name : String} (header : name ∈ headers) :
    transforms.isRemoved name = transforms.isRemoved (transforms.targetName name) := by
  have columnKeys := zip_keys_nodup nodup (probe headers column word)
  obtain ⟨perm,decodes⟩ := decoded_entries columnKeys probed.decodes
  obtain ⟨keys,inferreds⟩ := inferred_entries probed.infers
  have listed : name ∈ attributes transforms headers := List.mem_append_left _ header
  have among : (name,if name = column then word else "") ∈ headers.zip (probe headers column word) := by
    rw [probe_columns]
    exact List.mem_map.mpr ⟨name,header,rfl⟩
  obtain ⟨read,_,held⟩ := decodes _ among
  obtain ⟨scalar,_,cell⟩ := inferreds _ among
  have clear : ∀ other ∈ source.map Prod.fst, transforms.targetName other =
      transforms.targetName name → other = name := by
    intro other held same
    obtain ⟨zipped,zippedIn,rfl⟩ := List.mem_map.mp (perm.mem_iff.mp held)
    exact apart _ (List.mem_append_left _ (zipped_header zippedIn)) name listed same
  have placed := placed_lookup (perm.nodup_iff.mpr columnKeys) clear held
  have located := @staged_lookup display transforms headers
      (probe headers column word) inferred name apart keys listed
  have same := probed.same (transforms.targetName name)
  cases removed : transforms.isRemoved name with
  | true =>
    by_contra kept
    have stays : transforms.isRemoved (transforms.targetName name) = false := by simpa using Ne.symm kept
    have moved : transforms.targetName name ≠ name := by
      intro equal
      rw [equal,removed] at stays
      cases stays
    have new : transforms.targetName name ∉ attributes transforms headers :=
      (fresh name listed).resolve_left moved
    have unmerged : ∀ rule ∈ transforms.merges, rule.target ≠ name := by
      rintro rule present rfl
      exact moved (probed_stays apart fresh probed present).1
    rw [merged_column unmerged,lookup_of_mem (keys ▸ columnKeys) cell,stays,
      if_neg Bool.false_ne_true] at located
    rw [located] at same
    rcases lookup_applyMerges display transforms source (placeColumns transforms source)
      (transforms.targetName name) with
      ⟨rule,last,_⟩ | ⟨_,found⟩
    · obtain ⟨present,target⟩ := lastRule_mem last
      exact new (target ▸ List.mem_append_right _ (List.mem_map.mpr ⟨rule,present,rfl⟩))
    · rw [found,placed,if_pos removed] at same
      cases same
  | false =>
    by_contra gone
    have dropped : transforms.isRemoved (transforms.targetName name) = true := by simpa using Ne.symm gone
    rw [if_pos dropped] at located
    rw [located] at same
    rcases lookup_applyMerges display transforms source (placeColumns transforms source)
      (transforms.targetName name) with
      ⟨rule,_,found⟩ | ⟨_,found⟩
    · cases found.symm.trans same
    · rw [removed,if_neg Bool.false_ne_true] at placed
      cases (found.trans placed).symm.trans same

theorem join_shorter {α : Type} {less more : α → String}
    (bounded : ∀ a, (less a).length ≤ (more a).length) {items : List α} {a : α}
    (among : a ∈ items) (shorter : (less a).length < (more a).length) :
    (String.join (items.map less)).length < (String.join (items.map more)).length := by
  have total : ∀ others : List α,
      (String.join (others.map less)).length ≤ (String.join (others.map more)).length := by
    intro others
    induction others with
    | nil => exact Nat.le_refl _
    | cons other others ih =>
      have here := bounded other
      rw [List.map_cons,List.map_cons,String.join_cons,String.join_cons,String.length_append,
        String.length_append]
      omega
  induction items with
  | nil => cases among
  | cons first items ih =>
    rw [List.map_cons,List.map_cons,String.join_cons,String.join_cons,String.length_append,String.length_append]
    rcases List.mem_cons.mp among with rfl | later
    · have rest := total items
      omega
    · have here := bounded first
      have rest := ih later
      omega

theorem probed_unused (nodup : headers.Nodup) (apart : Apart transforms headers)
    (fresh : Fresh transforms headers)
    {target : String} (header : column ∈ headers) (renamed : transforms.renames.lookup column = some target)
    (reserved : isReservedStringField target = true) (untyped : transforms.columnType column = none)
    (probed : Probed format display transforms headers row column "null" source inferred) {rule : MergeRule}
    (last : LastRule transforms.merges rule.target rule) : .column column ∉ rule.segments := by
  intro used
  have columnKeys := zip_keys_nodup nodup (probe headers column "null")
  obtain ⟨perm,decodes⟩ := decoded_entries columnKeys probed.decodes
  obtain ⟨keys,inferreds⟩ := inferred_entries probed.infers
  have listed : rule ∈ transforms.merges := (lastRule_mem last).1
  obtain ⟨stays,kept⟩ := probed_stays apart fresh probed listed
  have built : rule.build display source = rule.build display (values inferred) := by
    obtain ⟨other,isLast,found⟩ := probed_merge probed listed
    have located := @staged_lookup display transforms headers _ inferred rule.target apart keys
      (List.mem_append_right _ (List.mem_map.mpr ⟨rule,listed,rfl⟩))
    rw [stays,kept,merged_last last] at located
    rw [located,lastRule_unique isLast last] at found
    have equal : some (Value.string (rule.build display (values inferred))) =
        some (.string (rule.build display source)) :=
      (congrArg some (renamed_merged _ _).symm).trans found
    exact (Value.string.inj (Option.some.inj equal)).symm
  have among (name : String) (present : name ∈ headers) :
      (name,if name = column then "null" else "") ∈ headers.zip (probe headers column "null") := by
    rw [probe_columns]
    exact List.mem_map.mpr ⟨name,present,rfl⟩
  have blank (name : String) : ((Value.lookup name (values inferred)).map (render display)).getD "" = "" := by
    rw [values_lookup]
    by_cases present : name ∈ headers
    · obtain ⟨scalar,infers,cell⟩ := inferreds _ (among name present)
      rw [lookup_of_mem (keys ▸ columnKeys) cell]
      by_cases same : name = column
      · subst same
        rw [if_pos rfl] at infers
        have read := (renamed_typed renamed).symm.trans infers
        rw [typedField,untyped] at read
        cases read
        rfl
      · rw [if_neg same] at infers
        exact inferColumn_empty infers
    · rw [lookup_absent]
      · rfl
      · rintro entry held rfl
        have zipped : entry.1 ∈ (headers.zip (probe headers column "null")).map Prod.fst :=
          keys ▸ List.mem_map.mpr ⟨entry,held,rfl⟩
        obtain ⟨pair,paired,equal⟩ := List.mem_map.mp zipped
        exact present (equal ▸ zipped_header paired)
  have spelled : Segment.text display source (.column column) = "null" := by
    obtain ⟨read,decodes,held⟩ := decodes _ (among column header)
    cases (decodeField_renamed renamed reserved).symm.trans decodes
    simp only [Segment.text,value_lookup_eq]
    rw [lookup_of_mem (perm.nodup_iff.mpr columnKeys) held]
    simp [Scalar.value,render]
  have longer : (rule.build display (values inferred)).length < (rule.build display source).length := by
    refine join_shorter (fun segment => ?_) used ?_
    · cases segment with
      | literal text => exact Nat.le_refl _
      | column name =>
        simp only [Segment.text,blank name]
        exact Nat.zero_le _
    · rw [spelled]
      simp only [Segment.text,blank column]
      decide
  rw [built] at longer
  exact Nat.lt_irrefl _ longer

theorem coerce_word (kind : ColumnType) (forced : kind ≠ .string) (column : String) (row : Nat) :
    ∃ err, coerce "x" kind column row = .error err := by
  cases kind with
  | string => exact absurd rfl forced
  | number => exact ⟨_,rfl⟩
  | boolean => exact ⟨_,rfl⟩

theorem follows_ordered (nodup : headers.Nodup) (apart : Apart transforms headers)
    (fresh : Fresh transforms headers)
    (follows : ∀ record row, FollowsStages format display transforms headers record row) :
    InOrder transforms headers := by
  refine ⟨fun rule listed => ?_,fun column header => ?_,fun column header target renamed reserved => ?_⟩
  · obtain ⟨source,inferred,seen⟩ := @probed format display transforms headers "" "" follows 2
        (decodeField_empty "")
    exact probed_stays apart fresh seen listed
  · obtain ⟨source,inferred,seen⟩ := @probed format display transforms headers "" "" follows 2
        (decodeField_empty "")
    exact probed_removals nodup apart fresh seen header
  · cases typed : transforms.columnType column with
    | none =>
      obtain ⟨source,inferred,seen⟩ :=
        @probed format display transforms headers column "null" follows 2
          ⟨_,decodeField_renamed renamed reserved⟩
      exact .inr ⟨rfl,fun rule last => probed_unused nodup apart fresh header renamed reserved typed seen last⟩
    | some kind =>
      refine .inl (congrArg some ?_)
      by_contra forced
      obtain ⟨source,inferred,seen⟩ :=
        @probed format display transforms headers column "x" follows 2 ⟨_,decodeField_renamed renamed reserved⟩
      have among : (column,"x") ∈ headers.zip (probe headers column "x") := by
        rw [probe_columns]
        exact List.mem_map.mpr ⟨column,header,by rw [if_pos rfl]⟩
      obtain ⟨scalar,infers,_⟩ := (inferred_entries seen.infers).2 _ among
      obtain ⟨err,failed⟩ := coerce_word kind forced column 2
      have read := (renamed_typed renamed).symm.trans infers
      rw [typedField,typed] at read
      cases failed.symm.trans read

end Necessary

-- The reshaping is the documented one for every record when the rules are in order; without
-- renames onto other attributes' names it is the documented one only then.
theorem reshaping_follows_stages (format : FiniteDouble → String) (display : Value → String)
    (transforms : ColumnTransforms)
    (headers : List String) (nodup : headers.Nodup) (apart : Apart transforms headers) :
    (InOrder transforms headers → ∀ record row, FollowsStages format display transforms headers record row) ∧
    (Fresh transforms headers →
    (∀ record row, FollowsStages format display transforms headers record row) → InOrder transforms headers) :=
  ⟨fun ordered _ _ => stages_follow nodup apart ordered,fun fresh follows =>
    follows_ordered nodup apart fresh follows⟩

def compositeKey : ColumnTransforms :=
  {renames := [("id","ident")],merges := [⟨"_key",[.column "id",.literal "_",.column "name"]⟩]}

def shownNumber : Value → String
  | .number (.posInt value) => toString value
  | _ => ""

theorem composite_key_follows : FollowsStages (fun _ => "") shownNumber compositeKey ["id","name"]
    ["7","alice"] 2 := by
  refine (reshaping_follows_stages _ _ compositeKey ["id","name"] (by decide) ?_).1 ⟨?_,?_,?_⟩ _ _
  · unfold Apart
    decide
  · decide
  · decide
  · intro column header target renamed reserved
    rcases List.mem_cons.mp header with rfl | other
    · cases (show some "ident" = some target from renamed)
      cases reserved
    · cases List.mem_singleton.mp other
      cases (show none = some target from renamed)

def removedTarget : ColumnTransforms := {types := [("a",.string)],renames := [("a","b")],removals := ["b"]}

theorem renamed_column_kept : ¬∀ (format : FiniteDouble → String) (display : Value → String)
    (transforms : ColumnTransforms)
    (headers : List String), headers.Nodup → Apart transforms headers → ∀ record row,
      FollowsStages format display transforms headers record row := by
  intro always
  have apart : Apart removedTarget ["a"] := by
    unfold Apart
    decide
  have emitted : readRow (fun _ => "") (fun _ => "") removedTarget ["a"] ["x"] 2 =
      .ok (.object [("b",.string "x")]) := rfl
  obtain ⟨staged,ran,same⟩ :=
    always (fun _ => "") (fun _ => "") removedTarget ["a"] (by decide) apart ["x"] 2 _ emitted
  have empty : stagedRow (fun _ => "") (fun _ => "") removedTarget ["a"] ["x"] 2 = .ok [] := rfl
  cases empty.symm.trans ran
  cases same "b"

end ArangoDataTools.Delimited
