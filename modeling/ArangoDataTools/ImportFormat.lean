import ArangoDataTools.LocalStore
import ArangoDataTools.SplitExport

namespace ArangoDataTools
open LocalStore

-- `std::path` of a path without a drive.
namespace Path

def fileName (path : List Char) : Option Name := (components path).getLast?.bind Component.name

def rsplitFileAtDot (file : Name) : Option Name × Option Name :=
  let after := (file.reverse.takeWhile (· ≠ '.')).reverse
  let before := (file.reverse.dropWhile (· ≠ '.')).reverse
  if file = ['.','.'] then (some file,none)
  else if before = [] then (none,some file)
  else if before = ['.'] then (some file,none)
  else (some before.dropLast,some after)

def extension (path : List Char) : Option Name :=
  (fileName path).bind fun file => (rsplitFileAtDot file).1.bind fun _ => (rsplitFileAtDot file).2

def fileStem (path : List Char) : Option Name :=
  (fileName path).bind fun file => (rsplitFileAtDot file).1.or (rsplitFileAtDot file).2

end Path

def Compression.fromExtension (ext : String) : Option Compression :=
  if ext = "gz" ∨ ext = "gzip" then some .gzip
  else if ext = "zst" ∨ ext = "zstd" then some .zstd
  else Option.none

def lowercased (ext : Name) : String := String.ofList (ext.map Char.toLower)

def Compression.inferFromPath (path : String) : Compression :=
  ((Path.extension path.toList).bind fun ext => fromExtension (lowercased ext)).getD .none

inductive ImportFormat where
  | jsonLines | jsonArray | csv | tsv
  deriving DecidableEq, Repr

namespace ImportFormat

def fromExtension (ext : String) : Option ImportFormat :=
  if ext = "jsonl" ∨ ext = "ndjson" then some jsonLines
  else if ext = "json" then some jsonArray
  else if ext = "csv" then some csv
  else if ext = "tsv" ∨ ext = "tab" then some tsv
  else none

def delimiter : ImportFormat → Option UInt8
  | csv => some 44
  | tsv => some 9
  | jsonLines | jsonArray => none

def dataExtension (path : List Char) : Option String :=
  (Path.extension path).bind fun last =>
    if (Compression.fromExtension (lowercased last)).isSome then
      (Path.fileStem path).bind fun stem => (Path.extension stem).map lowercased
    else some (lowercased last)

def inferFromPath (path : String) : Except Error ImportFormat :=
  match dataExtension path.toList with
  | none => .error (.config
      ("cannot infer import format: '" ++ path ++ "' has no file extension; pass an explicit format"))
  | some ext => match fromExtension ext with
    | none => .error (.config
        ("cannot infer import format from extension '." ++ ext ++ "'; pass an explicit format"))
    | some format => .ok format

end ImportFormat

namespace Path

variable {before after stem ext file : List Char}

theorem pieces_single (slashless : '/' ∉ after) : pieces after = [after] := by
  induction after with
  | nil => rfl
  | cons char rest ih =>
    have other : char ≠ '/' := fun same => slashless (same ▸ List.mem_cons_self)
    rw [pieces.eq_3 _ _ other,ih fun inside => slashless (List.mem_cons_of_mem _ inside)]

theorem pieces_last (slashless : '/' ∉ after) (before : List Char) :
    ∃ front last, pieces before = front ++ [last] ∧ pieces (before ++ after) = front ++ [last ++ after] := by
  induction before with
  | nil => exact ⟨[],[],rfl,pieces_single slashless⟩
  | cons char rest ih =>
    obtain ⟨front,last,single,whole⟩ := ih
    rw [List.cons_append]
    by_cases slash : char = '/'
    · subst slash
      exact ⟨[] :: front,last,by rw [pieces,single]; rfl,by rw [pieces,whole]; rfl⟩
    · rw [pieces.eq_3 _ _ slash,pieces.eq_3 _ _ slash,single,whole]
      cases front with
      | nil => exact ⟨[],char :: last,rfl,rfl⟩
      | cons head tail => exact ⟨(char :: head) :: tail,last,rfl,rfl⟩

theorem component_normal (starts : Bool) (long : 2 < file.length) : component starts file =
    some (.normal file) := by
  unfold component
  split <;> first | rfl | simp at long

theorem fileName_last (slashless : '/' ∉ after) (long : 2 < after.length) (before : List Char) :
    ∃ last, fileName (before ++ after) = some (last ++ after) := by
  obtain ⟨front,last,-,whole⟩ := pieces_last slashless before
  have normal : ∀ starts, component starts (last ++ after) = some (.normal (last ++ after)) := fun starts =>
    component_normal starts (by rw [List.length_append]; omega)
  refine ⟨last,?_⟩
  unfold fileName components
  rw [whole]
  cases front with
  | nil => simp [normal,Component.name]
  | cons head tail => simp [normal,Component.name,List.filterMap_append]

theorem rsplit_dot (dotless : '.' ∉ ext) (some_ : stem ≠ []) (named : ext ≠ []) :
    rsplitFileAtDot (stem ++ '.' :: ext) = (some stem,some ext) := by
  have plain : ∀ c ∈ ext.reverse, decide (c ≠ '.') = true := fun c member =>
    decide_eq_true fun same => dotless (same ▸ List.mem_reverse.mp member)
  have reversed : (stem ++ '.' :: ext).reverse = ext.reverse ++ '.' :: stem.reverse := by simp
  have taken : (stem ++ '.' :: ext).reverse.takeWhile (· ≠ '.') = ext.reverse := by
    rw [reversed,List.takeWhile_append_of_pos plain]
    simp
  have dropped : (stem ++ '.' :: ext).reverse.dropWhile (· ≠ '.') = '.' :: stem.reverse := by
    rw [reversed,List.dropWhile_append_of_pos plain]
    simp
  have other : stem ++ '.' :: ext ≠ ['.','.'] := by
    intro same
    have sizes := congrArg List.length same
    have first := List.length_pos_iff.mpr some_
    have second := List.length_pos_iff.mpr named
    simp at sizes
    omega
  unfold rsplitFileAtDot
  simp only [taken,dropped]
  simp [other,some_]

theorem extension_last (slashless : '/' ∉ ext) (dotless : '.' ∉ ext) (named : ext ≠ [])
    (plain : '/' ∉ stem) (long : 2 ≤ stem.length)
    (before : List Char) : extension (before ++ (stem ++ '.' :: ext)) = some ext ∧
      ∃ last, fileStem (before ++ (stem ++ '.' :: ext)) = some (last ++ stem) := by
  have inside : '/' ∉ stem ++ '.' :: ext := by simp [plain,slashless]
  have size : 2 < (stem ++ '.' :: ext).length := by
    have first := List.length_pos_iff.mpr named
    simp
    omega
  obtain ⟨last,name⟩ := fileName_last inside size before
  have split : rsplitFileAtDot (last ++ (stem ++ '.' :: ext)) = (some (last ++ stem),some ext) := by
    rw [← List.append_assoc]
    exact rsplit_dot dotless (by simp [← List.length_pos_iff]; omega) named
  exact ⟨by simp [extension,name,split],last,by simp [fileStem,name,split]⟩

end Path

section Parts
open SplitExport

def ImportFormat.of : ExportFormat → ImportFormat
  | .jsonLines => jsonLines
  | .jsonArray => jsonArray
  | .csv => csv

theorem paddedPart_plain (part : UInt32) : '/' ∉ paddedPart part ∧ '.' ∉ paddedPart part := by
  have digits : ∀ c ∈ paddedPart part, c.isDigit = true := by
    intro c member
    rcases List.mem_append.mp member with zero | digit
    · rw [List.eq_of_mem_replicate zero]
      rfl
    · exact Nat.isDigit_of_mem_toDigits (by omega) (by omega) digit
  exact ⟨fun inside => absurd (digits _ inside) (by decide),fun inside => absurd (digits _ inside) (by decide)⟩

theorem format_named (format : ExportFormat) : '/' ∉ format.extension.toList ∧
    '.' ∉ format.extension.toList ∧ format.extension.toList ≠ [] ∧
    Compression.fromExtension (lowercased format.extension.toList) = none ∧
    ImportFormat.fromExtension (lowercased format.extension.toList) = some (.of format) := by
  cases format <;> exact ⟨by decide,by decide,by decide,by decide,by decide⟩

theorem codec_named {compression : Compression} {ext : String}
    (named : compression.extension = some ext) : '/' ∉ ext.toList ∧
    '.' ∉ ext.toList ∧ ext.toList ≠ [] ∧ Compression.fromExtension (lowercased ext.toList) =
    some compression := by
  cases compression with
  | none => cases named
  | gzip | zstd => cases named; exact ⟨by decide,by decide,by decide,by decide⟩

theorem part_inferred (options : SplitOptions) (part : UInt32) :
    ImportFormat.inferFromPath (partPath options part) = .ok (ImportFormat.of options.format) ∧
      Compression.inferFromPath (partPath options part) = options.compression := by
  obtain ⟨slashless,dotless⟩ := paddedPart_plain part
  obtain ⟨formatSlash,formatDot,formatNamed,plain,formatOf⟩ := format_named options.format
  have word : '/' ∉ ".part-".toList := by decide
  have data : ∀ front, Path.extension
      (front ++ ((".part-".toList ++ paddedPart part) ++ '.' :: options.format.extension.toList)) =
      some options.format.extension.toList := fun front =>
    (Path.extension_last formatSlash formatDot formatNamed (by simp [slashless]) (by simp) front).1
  unfold ImportFormat.inferFromPath ImportFormat.dataExtension Compression.inferFromPath
  cases named : options.compression.extension with
  | none =>
    have path : (partPath options part).toList =
        options.basePath.toList ++
          ((".part-".toList ++ paddedPart part) ++ '.' :: options.format.extension.toList) := by
      simp [partPath,partSuffix,named]
    have none_ : options.compression = .none := by
      cases compression : options.compression <;> first | rfl | (rw [compression] at named; cases named)
    rw [path,data,Option.bind_some,Option.bind_some,plain]
    simp only [Option.isSome_none,Bool.false_eq_true,if_false,formatOf,none_,Option.getD_none,and_self]
  | some ext =>
    obtain ⟨codecSlash,codecDot,codecNamed,codecOf⟩ := codec_named named
    have path : (partPath options part).toList = options.basePath.toList ++
        (((".part-".toList ++ paddedPart part) ++ '.' :: options.format.extension.toList) ++
          '.' :: ext.toList) := by
      simp [partPath,partSuffix,named]
    have inside : '/' ∉ (".part-".toList ++ paddedPart part) ++
        '.' :: options.format.extension.toList := by simp [slashless,formatSlash]
    obtain ⟨outside,last,stem⟩ := Path.extension_last codecSlash codecDot codecNamed inside
        (by simp) options.basePath.toList
    rw [path,outside,stem,Option.bind_some,Option.bind_some,Option.bind_some,codecOf,data]
    simp only [Option.isSome_some,if_true,Option.map_some,formatOf,Option.getD_some,and_self]

end Parts
end ArangoDataTools
