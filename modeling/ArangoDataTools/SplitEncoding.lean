import Mathlib.Data.List.Induction
import ArangoDataTools.SplitExport

namespace ArangoDataTools.SplitExport

abbrev ByteStream := List Bytes × Option Error

def encodeJsonl (encoder : Encoder) : List (Except Error Value) → ByteStream
  | [] => ([],none)
  | .error err :: _ => ([],some err)
  | .ok document :: rest => match jsonLine encoder document with
    | .error err => ([],some err)
    | .ok line => (line :: (encodeJsonl encoder rest).1,(encodeJsonl encoder rest).2)

-- The loop of `encode_json_array` and the closing bracket.
def encodeElements (encoder : Encoder) (first : Bool) : List (Except Error Value) → ByteStream
  | [] => ([asciiBytes "]"],none)
  | .error err :: _ => ([],some err)
  | .ok document :: rest => match jsonElement encoder document with
    | .error err => ([],some err)
    | .ok element => (((if first then [] else asciiBytes ",") ++ element) ::
        (encodeElements encoder false rest).1,
      (encodeElements encoder false rest).2)

def encodeJsonArray (encoder : Encoder) (documents : List (Except Error Value)) : ByteStream :=
  (asciiBytes "[" :: (encodeElements encoder true documents).1,(encodeElements encoder true documents).2)

def encodeRows (encoder : Encoder) (fields : List String) : List (Except Error Value) → ByteStream
  | [] => ([],none)
  | .error err :: _ => ([],some err)
  | .ok document :: rest => match csvRow encoder fields document with
    | .error err => ([],some err)
    | .ok row => (row :: (encodeRows encoder fields rest).1,(encodeRows encoder fields rest).2)

def encodeCsv (encoder : Encoder) (fields : List String) (documents : List (Except Error Value)) : ByteStream :=
  match csvHeader encoder fields with
  | .error err => ([],some err)
  | .ok header => (header :: (encodeRows encoder fields documents).1,(encodeRows encoder fields documents).2)

def encode (encoder : Encoder) (format : ExportFormat) (fields : Option (List String))
    (documents : List (Except Error Value)) :
    Except Error ByteStream :=
  match format with
  | .jsonLines => .ok (encodeJsonl encoder documents)
  | .jsonArray => .ok (encodeJsonArray encoder documents)
  | .csv => match fields with
    | none => .error (.config "CSV export requires an explicit list of fields")
    | some [] => .error (.config "CSV export requires at least one field")
    | some fields => .ok (encodeCsv encoder fields documents)

-- All that `encode` gives for the documents.
def Encodes (encoder : Encoder) (format : ExportFormat) (fields : Option (List String)) (documents : List Value)
    (output : Bytes) : Prop :=
  ∃ chunks, encode encoder format fields (documents.map .ok) = .ok (chunks,none) ∧ output = chunks.flatten

inductive Unclosed (encoder : Encoder) (fresh : PartFramer) : List Value → Bytes → PartFramer → Prop where
  | opened : fresh.open encoder = .ok (bytes,framer) → Unclosed encoder fresh [] bytes framer
  | recorded : Unclosed encoder fresh documents bytes framer → framer.record encoder document =
      .ok (chunk,next) →
      Unclosed encoder fresh (documents ++ [document]) (bytes ++ chunk) next

variable {encoder : Encoder} {fresh framer : PartFramer} {documents : List Value} {document : Value}
  {bytes : Bytes}

theorem open_kept {framer next : PartFramer} (opened : framer.open encoder = .ok (bytes,next)) :
    next.format = framer.format ∧ next.fields = framer.fields := by
  unfold PartFramer.open at opened
  cases format : framer.format with
  | jsonLines =>
    rw [format] at opened
    cases opened
    exact ⟨format,rfl⟩
  | jsonArray =>
    rw [format] at opened
    cases opened
    exact ⟨rfl,rfl⟩
  | csv =>
    rw [format] at opened
    cases header : csvHeader encoder (framer.fields.getD []) with
    | error err =>
      simp only [header] at opened
      cases opened
    | ok row =>
      simp only [header] at opened
      cases opened
      exact ⟨format,rfl⟩

theorem record_cases {next : PartFramer} {chunk : Bytes}
    (recorded : framer.record encoder document = .ok (chunk,next)) :
    (framer.format = .jsonLines ∧ jsonLine encoder document = .ok chunk ∧ next = framer) ∨
    (framer.format = .jsonArray ∧ ∃ element, jsonElement encoder document = .ok element ∧
      chunk = (if framer.arrayFirst then [] else asciiBytes ",") ++ element ∧
      next = {framer with arrayFirst := false}) ∨
    (framer.format = .csv ∧ csvRow encoder (framer.fields.getD []) document = .ok chunk ∧ next = framer) := by
  unfold PartFramer.record at recorded
  cases format : framer.format with
  | jsonLines =>
    rw [format] at recorded
    cases line : jsonLine encoder document with
    | error err =>
      simp only [line] at recorded
      cases recorded
    | ok bytes =>
      simp only [line] at recorded
      cases recorded
      exact .inl ⟨rfl,rfl,rfl⟩
  | jsonArray =>
    rw [format] at recorded
    cases element : jsonElement encoder document with
    | error err =>
      simp only [element] at recorded
      cases recorded
    | ok bytes =>
      simp only [element] at recorded
      cases recorded
      exact .inr (.inl ⟨rfl,bytes,rfl,rfl,rfl⟩)
  | csv =>
    rw [format] at recorded
    cases row : csvRow encoder (framer.fields.getD []) document with
    | error err =>
      simp only [row] at recorded
      cases recorded
    | ok bytes =>
      simp only [row] at recorded
      cases recorded
      exact .inr (.inr ⟨rfl,rfl,rfl⟩)

theorem record_kept {next : PartFramer} {chunk : Bytes}
    (recorded : framer.record encoder document = .ok (chunk,next)) :
    next.format = framer.format ∧ next.fields = framer.fields := by
  rcases record_cases recorded with ⟨-,-,rfl⟩ | ⟨-,element,-,-,rfl⟩ | ⟨-,-,rfl⟩ <;> exact ⟨rfl,rfl⟩

theorem unclosed_kept (part : Unclosed encoder fresh documents bytes framer) :
    framer.format = fresh.format ∧ framer.fields = fresh.fields := by
  induction part with
  | opened begun => exact open_kept begun
  | recorded _ step ih =>
    obtain ⟨format,fields⟩ := record_kept step
    exact ⟨format.trans ih.1,fields.trans ih.2⟩

theorem open_framer {next : PartFramer} (opened : framer.open encoder = .ok (bytes,next)) :
    next = {framer with arrayFirst := framer.format = .jsonArray || framer.arrayFirst} := by
  unfold PartFramer.open at opened
  obtain ⟨format,fields,first⟩ := framer
  cases format with
  | jsonLines | jsonArray =>
    cases opened
    rfl
  | csv =>
    cases header : csvHeader encoder (fields.getD []) with
    | error err =>
      simp only [header] at opened
      cases opened
    | ok row =>
      simp only [header] at opened
      cases opened
      rfl

theorem unclosed_framer (part : Unclosed encoder fresh documents bytes framer) :
    framer = {fresh with arrayFirst := framer.arrayFirst} ∧
    (fresh.format ≠ .jsonArray → framer.arrayFirst = fresh.arrayFirst) := by
  induction part with
  | opened begun =>
    obtain rfl := open_framer begun
    exact ⟨rfl,fun other => by simp [other]⟩
  | recorded before step ih =>
    obtain ⟨same,kept⟩ := ih
    rcases record_cases step with ⟨-,-,rfl⟩ | ⟨array,element,-,-,rfl⟩ | ⟨-,-,rfl⟩
    · exact ⟨same,kept⟩
    · refine ⟨?_,fun other => absurd ((unclosed_kept before).1.symm.trans array) other⟩
      rw [same]
    · exact ⟨same,kept⟩

theorem reopen_same (part : Unclosed encoder fresh documents bytes framer) : framer.open encoder =
    fresh.open encoder := by
  obtain ⟨same,kept⟩ := unclosed_framer part
  by_cases array : fresh.format = .jsonArray
  · rw [same]
    simp [PartFramer.open,array]
  · rw [same,kept array]

theorem unclosed_unique {other : PartFramer} {more : Bytes}
    (part : Unclosed encoder fresh documents bytes framer)
    (again : Unclosed encoder fresh documents more other) : bytes = more ∧ framer = other := by
  induction part generalizing more other with
  | opened begun =>
    generalize none_ : ([] : List Value) = documents at again
    cases again with
    | opened begins =>
      cases begun.symm.trans begins
      exact ⟨rfl,rfl⟩
    | recorded _ _ => simp at none_
  | @recorded documents bytes framer document chunk next before step ih =>
    generalize whole : documents ++ [document] = all at again
    cases again with
    | opened _ => simp at whole
    | recorded earlier steps =>
      obtain ⟨rfl,last⟩ := List.append_inj' whole rfl
      obtain ⟨rfl,rfl⟩ := ih earlier
      cases List.singleton_inj.mp last
      cases step.symm.trans steps
      exact ⟨rfl,rfl⟩

theorem unclosed_before (part : Unclosed encoder fresh (documents ++ [document]) bytes framer) :
    ∃ shorter earlier chunk, Unclosed encoder fresh documents shorter earlier ∧
      earlier.record encoder document = .ok (chunk,framer) ∧ bytes = shorter ++ chunk := by
  generalize whole : documents ++ [document] = all at part
  cases part with
  | opened => simp at whole
  | recorded before step =>
    obtain ⟨rfl,last⟩ := List.append_inj' whole rfl
    cases List.singleton_inj.mp last
    exact ⟨_,_,_,before,step,rfl⟩

theorem unclosed_shorter {more : List Value} (part : Unclosed encoder fresh (documents ++ more) bytes framer) :
    ∃ shorter earlier, Unclosed encoder fresh documents shorter earlier ∧ shorter.length ≤ bytes.length := by
  induction more using List.reverseRecOn generalizing bytes framer with
  | nil => exact ⟨bytes,framer,by simpa using part,Nat.le_refl _⟩
  | append_singleton more document ih =>
    rw [← List.append_assoc] at part
    obtain ⟨shorter,earlier,chunk,before,-,rfl⟩ := unclosed_before part
    obtain ⟨shortest,earliest,start,less⟩ := ih before
    exact ⟨shortest,earliest,start,less.trans (by rw [List.length_append]; exact Nat.le_add_right _ _)⟩

theorem jsonl_snoc {chunks : List Bytes} {line : Bytes}
    (before : encodeJsonl encoder (documents.map .ok) = (chunks,none))
    (next : jsonLine encoder document = .ok line) :
    encodeJsonl encoder ((documents ++ [document]).map .ok) = (chunks ++ [line],none) := by
  induction documents generalizing chunks with
  | nil =>
    cases before
    simp [encodeJsonl,next]
  | cons first rest ih =>
    rw [List.map_cons,encodeJsonl] at before
    rw [List.cons_append,List.map_cons,encodeJsonl]
    cases here : jsonLine encoder first with
    | error err =>
      simp only [here] at before
      cases before
    | ok bytes =>
      simp only [here] at before ⊢
      obtain ⟨rfl,ending⟩ := Prod.ext_iff.mp before
      simp only [ih (Prod.ext rfl ending),List.cons_append]

theorem rows_snoc {chunks : List Bytes} {row : Bytes} {fields : List String}
    (before : encodeRows encoder fields (documents.map .ok) = (chunks,none))
      (next : csvRow encoder fields document = .ok row) :
    encodeRows encoder fields ((documents ++ [document]).map .ok) = (chunks ++ [row],none) := by
  induction documents generalizing chunks with
  | nil =>
    cases before
    simp [encodeRows,next]
  | cons first rest ih =>
    rw [List.map_cons,encodeRows] at before
    rw [List.cons_append,List.map_cons,encodeRows]
    cases here : csvRow encoder fields first with
    | error err =>
      simp only [here] at before
      cases before
    | ok bytes =>
      simp only [here] at before ⊢
      obtain ⟨rfl,ending⟩ := Prod.ext_iff.mp before
      simp only [ih (Prod.ext rfl ending),List.cons_append]

theorem elements_snoc {chunks : List Bytes} {element : Bytes} {first : Bool}
    (before : encodeElements encoder first (documents.map .ok) = (chunks,none))
      (next : jsonElement encoder document = .ok element) :
    ∃ body, chunks = body ++ [asciiBytes "]"] ∧
      encodeElements encoder first ((documents ++ [document]).map .ok) =
      (body ++ [(if first && documents.isEmpty then [] else asciiBytes ",") ++ element] ++
        [asciiBytes "]"],none) := by
  induction documents generalizing chunks first with
  | nil =>
    cases before
    exact ⟨[],rfl,by simp [encodeElements,next]⟩
  | cons head rest ih =>
    rw [List.map_cons,encodeElements] at before
    rw [List.cons_append,List.map_cons,encodeElements]
    cases here : jsonElement encoder head with
    | error err =>
      simp only [here] at before
      cases before
    | ok bytes =>
      simp only [here] at before ⊢
      obtain ⟨rfl,ending⟩ := Prod.ext_iff.mp before
      obtain ⟨body,closed,later⟩ := @ih (encodeElements encoder false (rest.map .ok)).1 false
          (Prod.ext rfl ending)
      refine ⟨((if first then [] else asciiBytes ",") ++ bytes) :: body,by rw [closed,List.cons_append],?_⟩
      simp only [later,List.cons_append,List.isEmpty_cons,Bool.and_false,Bool.false_and]

theorem unclosed_lines (part : Unclosed encoder fresh documents bytes framer)
    (format : fresh.format = .jsonLines) :
    ∃ chunks, encodeJsonl encoder (documents.map .ok) = (chunks,none) ∧ bytes = chunks.flatten := by
  induction part with
  | opened begun =>
    simp only [PartFramer.open,format] at begun
    cases begun
    exact ⟨[],rfl,rfl⟩
  | recorded before step ih =>
    obtain ⟨chunks,lines,rfl⟩ := ih
    rcases record_cases step with ⟨-,line,-⟩ | ⟨other,-⟩ | ⟨other,-⟩
    · exact ⟨_,jsonl_snoc lines line,by rw [List.flatten_append,List.flatten_singleton]⟩
    · exact absurd ((unclosed_kept before).1.symm.trans other) (by simp [format])
    · exact absurd ((unclosed_kept before).1.symm.trans other) (by simp [format])

theorem unclosed_rows (part : Unclosed encoder fresh documents bytes framer) (format : fresh.format = .csv) :
    ∃ header chunks, csvHeader encoder (fresh.fields.getD []) = .ok header ∧
      encodeRows encoder (fresh.fields.getD []) (documents.map .ok) = (chunks,none) ∧
      bytes = header ++ chunks.flatten := by
  induction part with
  | opened begun =>
    simp only [PartFramer.open,format] at begun
    cases header : csvHeader encoder (fresh.fields.getD []) with
    | error err =>
      rw [header] at begun
      cases begun
    | ok row =>
      rw [header] at begun
      cases begun
      exact ⟨_,[],rfl,rfl,(List.append_nil _).symm⟩
  | recorded before step ih =>
    obtain ⟨header,chunks,first,rows,rfl⟩ := ih
    rcases record_cases step with ⟨other,-⟩ | ⟨other,-⟩ | ⟨-,row,-⟩
    · exact absurd ((unclosed_kept before).1.symm.trans other) (by simp [format])
    · exact absurd ((unclosed_kept before).1.symm.trans other) (by simp [format])
    · rw [(unclosed_kept before).2] at row
      exact ⟨header,_,first,rows_snoc rows
        row,by rw [List.flatten_append,List.flatten_singleton,List.append_assoc]⟩

theorem unclosed_elements (part : Unclosed encoder fresh documents bytes framer)
    (format : fresh.format = .jsonArray) :
    framer.arrayFirst = documents.isEmpty ∧
    ∃ body, encodeElements encoder true (documents.map .ok) = (body ++ [asciiBytes "]"],none) ∧
    bytes = asciiBytes "[" ++ body.flatten := by
  induction part with
  | opened begun =>
    simp only [PartFramer.open,format] at begun
    cases begun
    exact ⟨rfl,[],rfl,rfl⟩
  | recorded before step ih =>
    obtain ⟨first,body,elements,rfl⟩ := ih
    rcases record_cases step with ⟨other,-⟩ | ⟨-,element,encoded,rfl,rfl⟩ | ⟨other,-⟩
    · exact absurd ((unclosed_kept before).1.symm.trans other) (by simp [format])
    · obtain ⟨others,closed,later⟩ := elements_snoc elements encoded
      obtain rfl : body = others := List.append_cancel_right closed
      refine ⟨by simp,_,later,?_⟩
      rw [first,List.flatten_append,List.flatten_singleton,Bool.true_and,List.append_assoc]
    · exact absurd ((unclosed_kept before).1.symm.trans other) (by simp [format])

theorem unclosed_encodes (part : Unclosed encoder fresh documents bytes framer)
    (listed : fresh.format = .csv → fresh.fields.getD [] ≠ []) :
    Encodes encoder fresh.format fresh.fields documents (bytes ++ framer.close) := by
  have kept := (unclosed_kept part).1
  cases format : fresh.format with
  | jsonLines =>
    obtain ⟨chunks,lines,rfl⟩ := unclosed_lines part format
    refine ⟨chunks,by rw [encode,lines],?_⟩
    simp [PartFramer.close,kept.trans format]
  | jsonArray =>
    obtain ⟨-,body,elements,rfl⟩ := unclosed_elements part format
    refine ⟨asciiBytes "[" :: (body ++ [asciiBytes "]"]),by rw [encode,encodeJsonArray,elements],?_⟩
    simp [PartFramer.close,kept.trans format]
  | csv =>
    obtain ⟨header,chunks,first,rows,rfl⟩ := unclosed_rows part format
    obtain ⟨field,fields,given⟩ := List.exists_cons_of_ne_nil (listed format)
    cases names : fresh.fields with
    | none => simp [names] at given
    | some all =>
      obtain rfl : all = field :: fields := by simpa [names] using given
      simp only [names,Option.getD_some] at first rows
      refine ⟨header :: chunks,by simp only [encode,encodeCsv,first,rows],?_⟩
      simp [PartFramer.close,kept.trans format]

end ArangoDataTools.SplitExport
