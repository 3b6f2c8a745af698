import ArangoDataTools.Greedy
import ArangoDataTools.ImportFormat
import ArangoDataTools.JsonLines
import ArangoDataTools.SplitPartition

namespace ArangoDataTools.SplitReading
open Interaction Interaction.Program StoredManifest DumpRun SplitExport SplitParts SplitPartition JsonText JsonLines

-- A stream of documents, as the values it yields and how it ends.
abbrev Documents := List Value × Except Error Unit

-- `delimited` stands for the reader of records with a header row.
def readDocuments (fromSlice : Bytes → Except (String × Nat) Value)
    (delimited : UInt8 → Reads → Documents) (format : ImportFormat)
    (reads : Reads) : Documents :=
  match format with
  | .jsonLines => JsonLines.read fromSlice reads
  | .jsonArray => JsonArray.read (fun element => (fromSlice element).mapError Prod.fst) reads
  | .csv | .tsv => delimited (format.delimiter.getD 44) reads

-- Of these documents the parser takes what the serializer writes: the text of a value, without control
-- characters. A parser of floats that rounds does so of some documents only.
structure Inverts (encoder : Encoder) (fromSlice : Bytes → Except (String × Nat) Value)
    (documents : List Value) : Prop where
  parsed : ∀ value ∈ documents, ∀ bytes, encoder.toVec value = .ok bytes → fromSlice bytes = .ok value
  text : ∀ value ∈ documents, ∀ bytes, encoder.toVec value = .ok bytes → Text .value bytes
  visible : ∀ value ∈ documents, ∀ bytes, encoder.toVec value = .ok bytes → ∀ byte ∈ bytes, 32 ≤ byte

section Encoded

variable {encoder : Encoder} {fromSlice : Bytes → Except (String × Nat) Value}
  {delimited : UInt8 → Reads → Documents}
  {documents : List Value} {chunks : List Bytes} {output : Bytes}

theorem Inverts.subset (inverts : Inverts encoder fromSlice documents) {part : List Value}
    (within : part ⊆ documents) :
    Inverts encoder fromSlice part where
  parsed value inside := inverts.parsed value (within inside)
  text value inside := inverts.text value (within inside)
  visible value inside := inverts.visible value (within inside)

theorem line_of (inverts : Inverts encoder fromSlice documents) {value : Value}
    (inside : value ∈ documents) {bytes : Bytes}
    (encoded : encoder.toVec value = .ok bytes) : LineOf fromSlice bytes value where
  single control := absurd (inverts.visible value inside bytes encoded 10 control) (by decide)
  trimmed := trimAscii_text (inverts.text value inside bytes encoded)
  nonempty := by
    obtain ⟨first,rest,rfl,-⟩ := value_begins (inverts.text value inside bytes encoded) rfl
    exact List.cons_ne_nil _ _
  parsed := inverts.parsed value inside bytes encoded

theorem jsonl_lines (inverts : Inverts encoder fromSlice documents)
    (encoded : encodeJsonl encoder (documents.map .ok) = (chunks,none)) :
    ∃ lines, List.Forall₂ (LineOf fromSlice) lines documents ∧ chunks = lines.map (· ++ [10]) := by
  induction documents generalizing chunks with
  | nil =>
    cases encoded
    exact ⟨[],.nil,rfl⟩
  | cons document documents ih =>
    rw [List.map_cons,encodeJsonl] at encoded
    cases bytes : encoder.toVec document with
    | error err =>
      simp only [jsonLine,bytes] at encoded
      cases encoded
    | ok line =>
      have framed : jsonLine encoder document = .ok (line ++ [10]) := by rw [jsonLine,bytes]; rfl
      simp only [framed,Prod.mk.injEq] at encoded
      obtain ⟨rfl,ended⟩ := encoded
      obtain ⟨lines,each,same⟩ := ih (inverts.subset (List.subset_cons_self _ _)) (Prod.ext rfl ended)
      exact ⟨line :: lines,.cons (line_of inverts List.mem_cons_self bytes) each,congrArg (List.cons _) same⟩

theorem encodeElements_cons {first : Bool} {document : Value}
    (encoded : encodeElements encoder first ((document :: documents).map .ok) = (chunks,none)) : ∃ element rest,
      encoder.toVec document = .ok element ∧ encodeElements encoder false (documents.map .ok) = (rest,none) ∧
      chunks.flatten = (if first then [] else [comma]) ++ (element ++ rest.flatten) := by
  rw [List.map_cons,encodeElements] at encoded
  cases bytes : encoder.toVec document with
  | error err =>
    simp only [jsonElement,bytes] at encoded
    cases encoded
  | ok element =>
    simp only [jsonElement,bytes,Prod.mk.injEq] at encoded
    obtain ⟨rfl,ended⟩ := encoded
    exact ⟨element,_,rfl,Prod.ext rfl ended,by rw [List.flatten_cons,List.append_assoc]; rfl⟩

theorem element_begun {element : Bytes} (value : Text .value element) :
    ArrayScanner.Feeds ArrayScanner.between element [] (ArrayScanner.inside 0 element) := by
  have none_ : Spaces [] := fun _ member => absurd member List.not_mem_nil
  have begun := ArrayScanner.element_read none_ value none_
  rwa [List.nil_append,List.append_nil] at begun

theorem elements_follow (inverts : Inverts encoder fromSlice documents)
    (encoded : encodeElements encoder false (documents.map .ok) = (chunks,none)) :
    ∃ texts, List.Forall₂ (fun text value => fromSlice text = .ok value) texts documents ∧
      ∀ current, ArrayScanner.Feeds (ArrayScanner.inside 0 current) chunks.flatten
        (current :: texts) ArrayScanner.ended := by
  induction documents generalizing chunks with
  | nil =>
    cases encoded
    exact ⟨[],.nil,fun current => ArrayScanner.feeds_single.mpr ArrayScanner.element_ends_bracket⟩
  | cons document documents ih =>
    obtain ⟨element,rest,bytes,later,whole⟩ := encodeElements_cons encoded
    obtain ⟨texts,each,feeds⟩ := ih (inverts.subset (List.subset_cons_self _ _)) later
    refine ⟨element :: texts,.cons (inverts.parsed _ List.mem_cons_self _ bytes) each,fun current => ?_⟩
    rw [whole]
    have closed := ArrayScanner.feeds_append
        (element_begun (inverts.text _ List.mem_cons_self _ bytes)) (feeds element)
    exact ArrayScanner.feeds_append (ArrayScanner.feeds_single.mpr ArrayScanner.element_ends_comma) closed

theorem elements_read (inverts : Inverts encoder fromSlice documents)
    (encoded : encodeElements encoder true (documents.map .ok) = (chunks,none)) :
    ∃ texts, List.Forall₂ (fun text value => fromSlice text = .ok value) texts documents ∧
      ArrayScanner.Feeds ArrayScanner.between chunks.flatten texts ArrayScanner.ended := by
  cases documents with
  | nil =>
    cases encoded
    exact ⟨[],.nil,ArrayScanner.feeds_single.mpr ArrayScanner.between_closes⟩
  | cons document documents =>
    obtain ⟨element,rest,bytes,later,whole⟩ := encodeElements_cons encoded
    obtain ⟨texts,each,feeds⟩ := elements_follow (inverts.subset (List.subset_cons_self _ _)) later
    refine ⟨element :: texts,.cons (inverts.parsed _ List.mem_cons_self _ bytes) each,?_⟩
    rw [whole]
    exact ArrayScanner.feeds_append (element_begun (inverts.text _ List.mem_cons_self _ bytes)) (feeds element)

theorem encoded_read (inverts : Inverts encoder fromSlice documents) {format : ExportFormat}
    {fields : Option (List String)}
    (json : format ≠ .csv) (encodes : Encodes encoder format fields documents output)
      (nonempty : ∀ chunk ∈ chunks, chunk ≠ []) (division : chunks.flatten = output) :
    readDocuments fromSlice delimited (.of format) (chunks.map .ok) = (documents,.ok ()) := by
  obtain ⟨written,encoded,rfl⟩ := encodes
  cases format with
  | csv => exact absurd rfl json
  | jsonLines =>
    rw [encode,Except.ok.injEq] at encoded
    obtain ⟨lines,each,same⟩ := jsonl_lines inverts encoded
    exact documents_lines each 0 nonempty (by rw [List.nil_append,division,same])
  | jsonArray =>
    rw [encode,Except.ok.injEq,encodeJsonArray] at encoded
    obtain ⟨front,ended⟩ := Prod.mk.inj encoded
    obtain ⟨texts,each,feeds⟩ := elements_read inverts (Prod.ext rfl ended)
    have whole : ArrayScanner.Feeds {} chunks.flatten texts ArrayScanner.ended := by
      rw [division,← front]
      exact ArrayScanner.feeds_append (ArrayScanner.feeds_single.mpr ArrayScanner.fresh_opens) feeds
    have parsed : JsonArray.Parsed (fun element => (fromSlice element).mapError Prod.fst) texts documents := by
      exact each.imp fun _ _ taken => congrArg (Except.mapError Prod.fst) taken
    exact JsonArray.stream_reads chunks nonempty whole parsed 0

end Encoded

section Marks

variable {options : SplitOptions} {encoder : Encoder} {fresh framer other next : PartFramer}
  {documents before : List Value}
  {document : Value} {bytes chunk : Bytes} {part : Part}

theorem record_shorter (same : other = {framer with arrayFirst := other.arrayFirst})
    (first : framer.arrayFirst = true → other.arrayFirst = true)
    (recorded : framer.record encoder document = .ok (chunk,next)) :
    ∃ chunk' next', other.record encoder document = .ok (chunk',next') ∧ chunk'.length ≤ chunk.length := by
  rw [same]
  unfold PartFramer.record
  rcases record_cases recorded with ⟨format,line,-⟩ | ⟨format,element,encoded,rfl,-⟩ | ⟨format,row,-⟩
  · simp only [format,line]
    exact ⟨chunk,_,rfl,Nat.le_refl _⟩
  · simp only [format,encoded]
    refine ⟨_,_,rfl,?_⟩
    by_cases begins : framer.arrayFirst = true
    · simp [begins,first begins]
    · rw [if_neg begins]
      split_ifs <;> simp
  · simp only [format,row]
    exact ⟨chunk,_,rfl,Nat.le_refl _⟩

theorem unclosed_later (part : Unclosed encoder fresh (before ++ documents) bytes framer) :
    ∃ shorter earlier, Unclosed encoder fresh documents shorter earlier ∧ shorter.length ≤ bytes.length := by
  induction documents using List.reverseRecOn generalizing bytes framer with
  | nil => exact unclosed_shorter (show Unclosed encoder fresh ([] ++ before) bytes framer by simpa using part)
  | append_singleton documents document ih =>
    rw [← List.append_assoc] at part
    obtain ⟨shorter,earlier,chunk,held,recorded,rfl⟩ := unclosed_before part
    obtain ⟨short,early,holds,less⟩ := ih held
    obtain ⟨same,kept⟩ := unclosed_framer held
    obtain ⟨same',kept'⟩ := unclosed_framer holds
    have first : earlier.arrayFirst = true → early.arrayFirst = true := by
      by_cases array : fresh.format = .jsonArray
      · rw [(unclosed_elements held array).1,(unclosed_elements holds array).1]
        simp
      · rw [kept array,kept' array]
        exact id
    have alike : early = {earlier with arrayFirst := early.arrayFirst} := by rw [same',same]
    obtain ⟨chunk',next,again,fewer⟩ := record_shorter alike first recorded
    exact ⟨_,next,.recorded holds again,by rw [List.length_append,List.length_append]; omega⟩

def Reaches (options : SplitOptions) (documents : List Value) : Prop :=
  ∀ bytes framer, Holds options documents bytes framer → threshold options ≤ bytes.length

theorem reaches_grows (options : SplitOptions) : Greedy.Grows (Reaches options) := by
  rintro part whole ⟨before,after,rfl⟩ reaches bytes framer holds
  obtain ⟨_,_,shorter,less⟩ := unclosed_shorter holds
  obtain ⟨_,_,inside,fewer⟩ := unclosed_later shorter
  exact (reaches _ _ inside).trans (fewer.trans less)

theorem whole_early (early : SplitPartition.Early options documents) :
    Greedy.Early (Reaches options) documents := by
  intro before last split some_ reaches
  obtain ⟨bytes,framer,holds,less⟩ := early before last split some_
  exact absurd (reaches _ _ holds) (Nat.not_le.mpr less)

theorem reached_cut (whole : Whole options part) (reached : SplitPartition.Reached options part)
    (some_ : part.documents ≠ []) :
    Greedy.Cut (Reaches options) part.documents where
  some_ := some_
  reached _ _ holds := by
    obtain ⟨bytes,framer,held,-,enough⟩ := reached
    rwa [(unclosed_unique holds held).1]
  early := whole_early whole.early

end Marks

section Numbers

variable {options : SplitOptions} {parts : List Part} {n i j : Nat}

-- The last of `n` parts with the number of this one.
def latest (n index : Nat) : Nat := index + 2^32 * ((n - 1 - index) / 2^32)

theorem latest_bounds (inside : i < n) : i ≤ latest n i ∧ latest n i < n ∧ latest n i % 2^32 = i % 2^32 := by
  unfold latest
  omega

theorem latest_last (later : latest n i < j) (inside : j < n) : j % 2^32 ≠ i % 2^32 := by
  unfold latest at later
  omega

theorem latest_same (first : i < n) (second : j < n) (alike : i % 2^32 = j % 2^32) :
    latest n i = latest n j := by
  unfold latest
  omega

theorem latest_own (near : n ≤ i + 2^32) (inside : i < n) : latest n i = i := by
  unfold latest
  omega

def left (parts : List Part) : List Part := parts.mapIdx fun index part =>
    (parts[latest parts.length index]?).getD part

theorem left_length : (left parts).length = parts.length := List.length_mapIdx

theorem left_at (inside : i < parts.length) : (left parts)[i]? = parts[latest parts.length i]? := by
  have bound := (latest_bounds inside).2.1
  rw [left,List.getElem?_mapIdx,List.getElem?_eq_getElem inside,List.getElem?_eq_getElem bound]
  rfl

-- Parts with one number have the same documents.
def Alike (parts : List Part) : Prop :=
  ∀ i j first second, parts[i]? = some first → parts[j]? = some second → i % 2^32 = j % 2^32 →
    first.documents = second.documents

theorem alike_left (alike : Alike parts) : (left parts).map Part.documents = parts.map Part.documents := by
  apply List.ext_getElem?
  intro i
  rw [List.getElem?_map,List.getElem?_map]
  by_cases inside : i < parts.length
  · obtain ⟨-,bound,number⟩ := latest_bounds inside
    rw [left_at inside,List.getElem?_eq_getElem inside,List.getElem?_eq_getElem bound]
    exact congrArg some (alike _ _ _ _ (List.getElem?_eq_getElem bound)
      (List.getElem?_eq_getElem inside) number)
  · rw [List.getElem?_eq_none (Nat.not_lt.mp inside),
      List.getElem?_eq_none (by rw [left_length]; exact Nat.not_lt.mp inside)]

theorem left_alike (same : (left parts).map Part.documents = parts.map Part.documents) : Alike parts := by
  have held : ∀ i part, parts[i]? = some part → ∃ last, parts[latest parts.length i]? = some last ∧
      last.documents = part.documents := by
    intro i part here
    obtain ⟨inside,-⟩ := List.getElem?_eq_some_iff.mp here
    have documents := congrArg (·[i]?) same
    simp only [List.getElem?_map,left_at inside,here] at documents
    exact Option.map_eq_some_iff.mp documents
  intro i j first second here there number
  obtain ⟨inside,-⟩ := List.getElem?_eq_some_iff.mp here
  obtain ⟨inside',-⟩ := List.getElem?_eq_some_iff.mp there
  obtain ⟨last,found,documents⟩ := held i first here
  obtain ⟨last',found',documents'⟩ := held j second there
  rw [latest_same inside inside' number,found'] at found
  cases found
  exact documents.symm.trans documents'

theorem left_mem {part : Part} (member : part ∈ left parts) : part ∈ parts := by
  obtain ⟨i,here⟩ := List.mem_iff_getElem?.mp member
  obtain ⟨inside,-⟩ := List.getElem?_eq_some_iff.mp here
  rw [left_length] at inside
  rw [left_at inside] at here
  exact List.mem_of_getElem? here

theorem left_split {front : List Part} {last : Part} (many : 2^32 ≤ front.length) : ∃ before part after others,
    front ++ [last] = before ++ part :: after ∧ left (front ++ [last]) = others ++ last :: after ∧
    before.length = others.length ∧
      before.length < front.length := by
  have size : (front ++ [last]).length = front.length + 1 := by simp
  have size' : (left (front ++ [last])).length = front.length + 1 := left_length.trans size
  obtain ⟨m,middle⟩ : ∃ m, m + 2^32 = front.length := ⟨front.length - 2^32,by omega⟩
  have inside : m < (front ++ [last]).length := by omega
  have inside' : m < (left (front ++ [last])).length := by omega
  have replaced : (left (front ++ [last]))[m]? = some last := by
    have end_ : latest (front ++ [last]).length m = front.length := by
      rw [size]
      unfold latest
      omega
    rw [left_at inside,end_]
    simp
  have tail : (left (front ++ [last])).drop (m+1) = (front ++ [last]).drop (m+1) := by
    apply List.ext_getElem?
    intro k
    rw [List.getElem?_drop,List.getElem?_drop]
    by_cases within : m + 1 + k < (front ++ [last]).length
    · rw [left_at within,latest_own (by omega) within]
    · rw [List.getElem?_eq_none (by omega),List.getElem?_eq_none (by omega)]
  refine ⟨(front ++ [last]).take m,(front ++ [last])[m],(front ++ [last]).drop (m+1),
    (left (front ++ [last])).take m,?_,?_,?_,?_⟩
  · rw [List.getElem_cons_drop,List.take_append_drop]
  · have here : (left (front ++ [last]))[m] = last := (List.getElem_eq_iff inside').mpr replaced
    have split := (List.take_append_drop m (left (front ++ [last]))).symm
    rwa [← List.getElem_cons_drop inside',here,tail] at split
  · rw [List.length_take,List.length_take,size,size']
  · rw [List.length_take]
    omega

-- All but the last part are cut as short as they can be, so what other parts leave at their
-- paths makes up the same documents only where it is the same documents.
theorem left_flatten (cuts : ∀ part ∈ parts.dropLast, Greedy.Cut (Reaches options) part.documents)
    (early : ∀ part ∈ parts, Greedy.Early (Reaches options) part.documents)
    (flat : (left parts).flatMap Part.documents = parts.flatMap Part.documents) :
    (left parts).map Part.documents = parts.map Part.documents := by
  rw [List.flatMap_def,List.flatMap_def] at flat
  rcases List.eq_nil_or_concat' parts with rfl | ⟨front,last,rfl⟩
  · rfl
  · rw [List.dropLast_concat] at cuts
    by_cases full : Greedy.Cut (Reaches options) last.documents
    · have all : ∀ piece ∈ (front ++ [last]).map Part.documents, Greedy.Cut (Reaches options) piece := by
        intro piece member
        obtain ⟨part,here,rfl⟩ := List.mem_map.mp member
        rcases List.mem_append.mp here with before | final
        · exact cuts part before
        · rw [List.mem_singleton.mp final]
          exact full
      have replaced : ∀ piece ∈ (left (front ++ [last])).map Part.documents,
          Greedy.Cut (Reaches options) piece := by
        intro piece member
        obtain ⟨part,here,rfl⟩ := List.mem_map.mp member
        exact all _ (List.mem_map_of_mem (left_mem here))
      exact @Greedy.cuts_same _ _ _ _ [] [] (reaches_grows options) replaced all
        (by rw [List.length_map,List.length_map,left_length])
        (by rw [flat])
    · by_cases few : (front ++ [last]).length ≤ 2^32
      · apply alike_left
        intro i j first second here there number
        obtain ⟨inside,-⟩ := List.getElem?_eq_some_iff.mp here
        obtain ⟨inside',-⟩ := List.getElem?_eq_some_iff.mp there
        obtain rfl : i = j := by omega
        rw [here] at there
        cases there
        rfl
      · obtain ⟨before,part,after,others,whole,replaced,size,bound⟩ :=
          @left_split front last (by simp at few; omega)
        have firsts : ∀ piece ∈ before ++ [part], Greedy.Cut (Reaches options) piece.documents := by
          have within : before ++ [part] <+: front := by
            have shown : before ++ [part] <+: front ++ [last] := ⟨after,by rw [whole]; simp⟩
            exact List.prefix_of_prefix_length_le shown (List.prefix_append front [last])
              (by rw [List.length_append]; exact bound)
          exact fun piece member => cuts piece (within.subset member)
        have others_ : ∀ piece ∈ others ++ [last], Greedy.Early (Reaches options) piece.documents := by
          intro piece member
          refine early piece (left_mem ?_)
          rw [replaced]
          rcases List.mem_append.mp member with before | final
          · exact List.mem_append_left _ before
          · exact List.mem_append_right _ (List.mem_cons.mpr (.inl (List.mem_singleton.mp final)))
        rw [replaced,whole] at flat
        simp only [List.map_append,List.map_cons,List.flatten_append,List.flatten_cons,
          ← List.append_assoc] at flat
        have made := List.append_cancel_right flat
        refine absurd (Greedy.replaced_cut (reaches_grows options) ?_ (firsts part (by simp)) ?_
          (others_ last (by simp)) ?_ made.symm) full
        · intro piece member
          obtain ⟨part',here,rfl⟩ := List.mem_map.mp member
          exact firsts part' (List.mem_append_left _ here)
        · intro piece member
          obtain ⟨part',here,rfl⟩ := List.mem_map.mp member
          exact others_ part' (List.mem_append_left _ here)
        · rw [List.length_map,List.length_map,size]

end Numbers

section Objects

variable {codec : Codec} {held : Holdings} {options : SplitOptions} {store : Nat} {reporting : Bool}
  {w w' : Objects} {manifest : Manifest}
  {framer : PartFramer} {buffer : Bytes} {kept documents : List Value} {cut : Nat}

theorem cutting_filled (documents : List (Except Error Value)) :
    ∀ part ∈ (cutting options documents framer buffer kept cut).dropLast, part.documents ≠ [] := by
  induction documents generalizing framer buffer kept cut with
  | nil =>
    rw [cutting]
    split_ifs <;> exact List.forall_mem_nil _
  | cons item rest ih => cases item with
    | error err => exact List.forall_mem_nil _
    | ok document =>
      rcases cutting_cons options document rest framer buffer kept cut
        with ⟨err,-,none_⟩ | ⟨chunk,next,-,-,ends⟩ |
        ⟨chunk,next,-,-,more⟩
      · rw [none_]
        exact List.forall_mem_nil _
      · rcases ends with ⟨err,-,single⟩ | ⟨opened,reopened,-,more⟩
        · rw [single]
          exact List.forall_mem_nil _
        · rw [more]
          have later := @ih reopened opened [] (cut+1)
          cases others : cutting options rest reopened opened [] (cut+1) with
          | nil => exact List.forall_mem_nil _
          | cons second others_ =>
            rw [others] at later
            rw [List.dropLast_cons_cons]
            exact List.forall_mem_cons.mpr ⟨by simp,later⟩
      · rw [more]
        exact ih

theorem written_filled (documents : List (Except Error Value)) :
    ∀ part ∈ (written options documents).dropLast, part.documents ≠ [] := by
  unfold written
  cases PartFramer.new options.format options.fields with
  | error err => exact List.forall_mem_nil _
  | ok framer =>
    cases opened : framer.open options.encoder with
    | error err =>
      simp only [opened]
      exact List.forall_mem_nil _
    | ok result =>
      simp only [opened]
      exact cutting_filled documents

theorem putAll_last {store : Nat} {front back : List (String × Bytes)} {path : String} {bytes : Bytes}
    (absent : path ∉ back.map Prod.fst) (w : Objects) :
    putAll store (front ++ (path,bytes) :: back) w ⟨store,path⟩ = some bytes := by
  rw [putAll_append]
  exact (putAll_other absent _).trans (Function.update_self _ _ _)

theorem number_same (i j : Nat) : UInt32.ofNat i = UInt32.ofNat j ↔ i % 2^32 = j % 2^32 := by
  rw [← UInt32.toNat_inj]
  simp

theorem object_left {parts : List Part} {pieces : List Piece}
    (numbered : Numbered codec options 0 (parts.map Part.payload) pieces)
    (inside : i < parts.length) (w : Objects) : ∃ piece part, pieces[i]? = some piece ∧
    (left parts)[i]? = some part ∧
      piece.1.path = partPath options (UInt32.ofNat i) ∧
      putAll store (writes pieces) w ⟨store,piece.1.path⟩ =
      some (codec.encode options.compression part.payload) := by
  obtain ⟨size,each⟩ := numbered_at numbered
  rw [List.length_map] at size
  have placed : ∀ k part, parts[k]? = some part → ∃ piece, pieces[k]? = some piece ∧
      piece.1.path = partPath options (UInt32.ofNat k) ∧
      piece.2 = codec.encode options.compression part.payload := by
    intro k part here
    obtain ⟨piece,found,path,body⟩ := each k part.payload (by rw [List.getElem?_map,here]; rfl)
    exact ⟨piece,found,by rw [path,Nat.zero_add],body⟩
  obtain ⟨-,bound,number⟩ := latest_bounds inside
  obtain ⟨piece,found,path,-⟩ := placed i _ (List.getElem?_eq_getElem inside)
  obtain ⟨last,kept,place,body⟩ := placed _ _ (List.getElem?_eq_getElem bound)
  have same : last.1.path = piece.1.path := by rw [place,path,(number_same _ _).mpr number]
  refine ⟨piece,_,found,(left_at inside).trans (List.getElem?_eq_getElem bound),path,?_⟩
  obtain ⟨within,last_⟩ := List.getElem?_eq_some_iff.mp kept
  have split := (List.take_append_drop (latest parts.length i) pieces).symm
  rw [← List.getElem_cons_drop within,last_] at split
  have listed : writes pieces = writes (pieces.take (latest parts.length i)) ++
      (last.1.path,last.2) :: writes (pieces.drop (latest parts.length i + 1)) := by
    conv_lhs => rw [split]
    simp [writes]
  rw [← same,listed,← body]
  apply putAll_last
  intro later
  rw [writes_paths,List.map_map] at later
  obtain ⟨other,member,again⟩ := List.mem_map.mp later
  obtain ⟨k,here⟩ := List.mem_iff_getElem?.mp member
  rw [List.getElem?_drop] at here
  obtain ⟨beyond,-⟩ := List.getElem?_eq_some_iff.mp here
  rw [size] at beyond
  obtain ⟨other',found',path',-⟩ := placed _ _ (List.getElem?_eq_getElem beyond)
  rw [here] at found'
  cases found'
  rw [Function.comp_apply,path',same,path] at again
  exact latest_last (by omega) beyond ((number_same _ _).mp (partPath_inj again))

-- What an importer finds at an artifact's path.
structure ReadsAs (codec : Codec) (fromSlice : Bytes → Except (String × Nat) Value)
    (delimited : UInt8 → Reads → Documents)
    (options : SplitOptions) (store : Nat) (w : Objects) (artifact : Artifact)
      (documents : List Value) : Prop where
  format : ImportFormat.inferFromPath artifact.path = .ok (.of options.format)
  compression : Compression.inferFromPath artifact.path = options.compression
  object : ∃ body payload, w ⟨store,artifact.path⟩ = some body ∧
    codec.decode options.compression body = .ok payload ∧
    ∀ chunks : List Bytes, (∀ chunk ∈ chunks, chunk ≠ []) → chunks.flatten = payload →
      readDocuments fromSlice delimited (.of options.format) (chunks.map .ok) = (documents,.ok ())

theorem readsAs_unique {fromSlice : Bytes → Except (String × Nat) Value}
    {delimited : UInt8 → Reads → Documents} {artifact : Artifact}
    {others : List Value} (first : ReadsAs codec fromSlice delimited options store w artifact documents)
    (second : ReadsAs codec fromSlice delimited options store w artifact others) : documents = others := by
  obtain ⟨body,payload,stored,decoded,reads⟩ := first.object
  obtain ⟨body',payload',stored',decoded',reads'⟩ := second.object
  rw [stored] at stored'
  cases stored'
  rw [decoded] at decoded'
  cases decoded'
  obtain ⟨chunks,nonempty,whole⟩ : ∃ chunks : List Bytes, (∀ chunk ∈ chunks, chunk ≠ []) ∧
      chunks.flatten = payload := by
    by_cases empty : payload = []
    · exact ⟨[],List.forall_mem_nil _,empty.symm⟩
    · exact ⟨[payload],List.forall_mem_singleton.mpr empty,List.flatten_singleton⟩
  exact congrArg Prod.fst ((reads chunks nonempty whole).symm.trans (reads' chunks nonempty whole))

theorem artifacts_read {fromSlice : Bytes → Except (String × Nat) Value} {delimited : UInt8 → Reads → Documents}
    (roundTrip : ∀ compression bytes, codec.decode compression (codec.encode compression bytes) = .ok bytes)
    (json : options.format ≠ .csv) (inverts : Inverts options.encoder fromSlice documents)
    (runs : Runs (Keeps held)
      (runSplitExportWithProgress codec (documents.map .ok) store options reporting) w (done manifest) w') :
    List.Forall₂ (ReadsAs codec fromSlice delimited options store w') manifest.artifacts
      ((left (written options (documents.map .ok))).map Part.documents) := by
  obtain ⟨payloads,pieces,cuts,numbered,listed,rfl⟩ := split_returns runs
  obtain ⟨rfl,covers,fields,whole,-⟩ := parts_written cuts
  have count : manifest.artifacts.length = (written options (documents.map .ok)).length := by
    rw [listed,List.length_map,(numbered_at numbered).1,List.length_map]
  refine List.forall₂_iff_get.mpr ⟨by rw [List.length_map,left_length,count],fun i inside inside' => ?_⟩
  obtain ⟨piece,part,found,kept,path,stored⟩ :=
    @object_left codec options store i _ pieces numbered (count ▸ inside) w
  obtain ⟨number,here⟩ := List.getElem?_eq_some_iff.mp found
  obtain ⟨within,there⟩ := List.getElem?_eq_some_iff.mp kept
  have artifact : manifest.artifacts.get ⟨i,inside⟩ = piece.1 := by
    simp only [List.get_eq_getElem,listed,List.getElem_map,here]
  have part_documents : ((left (written options (documents.map .ok))).map Part.documents).get
      ⟨i,inside'⟩ = part.documents := by
    simp only [List.get_eq_getElem,List.getElem_map,there]
  rw [artifact,part_documents]
  obtain ⟨format,codec_⟩ := part_inferred options (UInt32.ofNat i)
  rw [← path] at format codec_
  have other : (⟨store,piece.1.path⟩ : ObjectRef) ≠ ⟨store,manifestPath options⟩ := by
    rw [path]
    exact fun same => partPath_plain (UInt32.ofNat i) (congrArg ObjectRef.path same)
  refine ⟨format,codec_,_,part.payload,(Function.update_of_ne other _ _).trans stored,roundTrip _ _,
    fun chunks nonempty division => ?_⟩
  have member := left_mem (List.mem_of_getElem? kept)
  have within : part.documents ⊆ documents := by
    rw [← covers]
    exact fun document inside => List.mem_flatMap.mpr ⟨part,member,inside⟩
  exact encoded_read (inverts.subset within) json (whole_encodes (whole part member) fields) nonempty division

theorem record_encoded (json : framer.format ≠ .csv) {document : Value} {bytes : Bytes}
    (encoded : options.encoder.toVec document = .ok bytes) :
    ∃ chunk next, framer.record options.encoder document = .ok (chunk,next) := by
  unfold PartFramer.record
  cases format : framer.format with
  | csv => exact absurd format json
  | jsonLines | jsonArray => exact ⟨_,_,by simp only [jsonLine,jsonElement,encoded]; rfl⟩

theorem holds_encoded (json : options.format ≠ .csv) (holds : Holds options documents buffer framer) :
    ∀ document ∈ documents, ∃ bytes, options.encoder.toVec document = .ok bytes := by
  induction holds with
  | opened => exact List.forall_mem_nil _
  | recorded before step ih =>
    have format := (unclosed_kept before).1
    refine List.forall_mem_append.mpr ⟨ih,List.forall_mem_singleton.mpr ?_⟩
    rcases record_cases step with ⟨-,line,-⟩ | ⟨-,element,encoded,-⟩ | ⟨csv,-⟩
    · rw [jsonLine] at line
      cases encoded : options.encoder.toVec _ with
      | error err =>
        rw [encoded] at line
        cases line
      | ok bytes => exact ⟨bytes,rfl⟩
    · exact ⟨element,encoded⟩
    · exact absurd (format.symm.trans csv) json

theorem encoded_holds (json : options.format ≠ .csv) (opened : ∃ bytes framer, Holds options [] bytes framer)
    (each : ∀ document ∈ documents, ∃ bytes, options.encoder.toVec document = .ok bytes) :
    ∃ bytes framer, Holds options documents bytes framer := by
  induction documents using List.reverseRecOn with
  | nil => exact opened
  | append_singleton documents document ih =>
    obtain ⟨before,last⟩ := List.forall_mem_append.mp each
    obtain ⟨bytes,framer,holds⟩ := ih before
    obtain ⟨text,encoded⟩ := List.forall_mem_singleton.mp last
    obtain ⟨chunk,next,recorded⟩ :=
      @record_encoded options framer (fun csv => json ((unclosed_kept holds).1.symm.trans csv))
        document text encoded
    exact ⟨_,_,.recorded holds recorded⟩

theorem parts_encoded (json : options.format ≠ .csv) {payloads : List Bytes}
    (cuts : parts options (documents.map .ok) = some payloads) :
    ∃ output, Encodes options.encoder options.format options.fields documents output := by
  obtain ⟨-,covers,fields,whole,-⟩ := parts_written cuts
  have each : ∀ document ∈ documents, ∃ bytes, options.encoder.toVec document = .ok bytes := by
    intro document member
    rw [← covers] at member
    obtain ⟨part,here,inside⟩ := List.mem_flatMap.mp member
    obtain ⟨bytes,framer,holds,-⟩ := (whole part here).closed
    exact holds_encoded json holds document inside
  have opened : ∃ bytes framer, Holds options [] bytes framer := by
    unfold parts at cuts
    cases built : PartFramer.new options.format options.fields with
    | error err =>
      rw [built] at cuts
      cases cuts
    | ok framer =>
      rw [built] at cuts
      obtain ⟨rfl,-⟩ := new_framer built
      cases begun : PartFramer.open options.encoder {format := options.format,fields := options.fields} with
      | error err =>
        simp only [begun] at cuts
        cases cuts
      | ok result => exact ⟨_,_,.opened begun⟩
  obtain ⟨bytes,framer,holds⟩ := encoded_holds json opened each
  exact ⟨_,unclosed_encodes holds fields⟩

theorem parts_back_iff {fromSlice : Bytes → Except (String × Nat) Value} {delimited : UInt8 → Reads → Documents}
    (roundTrip : ∀ compression bytes, codec.decode compression (codec.encode compression bytes) = .ok bytes)
    (json : options.format ≠ .csv) (inverts : Inverts options.encoder fromSlice documents)
    (runs : Runs (Keeps held)
      (runSplitExportWithProgress codec (documents.map .ok) store options reporting) w (done manifest) w') :
    (∃ groups, List.Forall₂ (ReadsAs codec fromSlice delimited options store w') manifest.artifacts
      groups ∧ groups.flatten = documents) ↔
      Alike (written options (documents.map .ok)) := by
  have read := @artifacts_read codec held options store reporting w w' manifest documents fromSlice
      delimited roundTrip json inverts runs
  obtain ⟨payloads,pieces,cuts,-⟩ := split_returns runs
  obtain ⟨-,covers,-,whole,reached,-⟩ := parts_written cuts
  constructor
  · rintro ⟨groups,found,flat⟩
    obtain ⟨size,each⟩ := List.forall₂_iff_get.mp found
    obtain ⟨size',each'⟩ := List.forall₂_iff_get.mp read
    have same : groups = (left (written options (documents.map .ok))).map Part.documents :=
      List.ext_get (size.symm.trans size') fun i inside inside' =>
        readsAs_unique (each i (size ▸ inside) inside) (each' i (size ▸ inside) inside')
    rw [same,← List.flatMap_def,← covers] at flat
    refine left_alike (@left_flatten options _ (fun part member => ?_)
      (fun part member => whole_early (whole part member).early) ?_)
    · exact reached_cut (whole part (List.dropLast_subset _ member)) (reached part member)
        (written_filled _ part member)
    · rw [covers] at flat ⊢
      exact flat
  · intro alike
    refine ⟨_,read,?_⟩
    rw [alike_left alike,← List.flatMap_def,covers]

-- Exported documents are read back, from the parts and from a single object, exactly if no
-- part has the number of another one with other documents.
theorem reads_back_iff (codec : Codec) (roundTrip : ∀ compression bytes,
    codec.decode compression (codec.encode compression bytes) = .ok bytes)
    (fromSlice : Bytes → Except (String × Nat) Value) (delimited : UInt8 → Reads → Documents)
      (options : SplitOptions)
    (json : options.format ≠ .csv) (held : Holdings) (documents : List Value)
      (inverts : Inverts options.encoder fromSlice documents) (store : Nat)
    (reporting : Bool) (manifest : Manifest) (w w' : Objects)
    (runs : Runs (Keeps held)
      (runSplitExportWithProgress codec (documents.map .ok) store options reporting) w (done manifest) w') :
    ((∃ groups, List.Forall₂ (ReadsAs codec fromSlice delimited options store w') manifest.artifacts
      groups ∧ groups.flatten = documents) ∧
      ∃ output, Encodes options.encoder options.format options.fields documents output ∧
        ∀ chunks : List Bytes, (∀ chunk ∈ chunks, chunk ≠ []) → chunks.flatten = output →
          readDocuments fromSlice delimited (.of options.format) (chunks.map .ok) = (documents,.ok ())) ↔
      Alike (written options (documents.map .ok)) := by
  rw [parts_back_iff roundTrip json inverts runs]
  obtain ⟨payloads,pieces,cuts,-⟩ := split_returns runs
  obtain ⟨output,encodes⟩ := parts_encoded json cuts
  exact ⟨And.left,fun alike =>
    ⟨alike,output,encodes,fun _ nonempty division => encoded_read inverts json encodes nonempty division⟩⟩

end Objects

section Samples

def truth : Value := .bool true

def plainEncoder : Encoder where
  toVec
    | .null => .ok (asciiBytes "null")
    | .bool true => .ok (asciiBytes "true")
    | _ => .error (.serialization "unsupported value")
  toText _ := ""
  csvRecord _ := .ok []

def plainSlice (bytes : Bytes) : Except (String × Nat) Value :=
  if bytes = asciiBytes "null" then .ok .null else if bytes = asciiBytes "true" then .ok truth
    else .error ("expected value",1)

def plainOptions : SplitOptions := {ManifestExactness.nullOptions with encoder := plainEncoder}

theorem plain_cases {value : Value} {bytes : Bytes} (encoded : plainEncoder.toVec value = .ok bytes) :
    value = .null ∧ bytes = asciiBytes "null" ∨ value = truth ∧ bytes = asciiBytes "true" := by
  cases value with
  | null => exact .inl ⟨rfl,(Except.ok.inj encoded).symm⟩
  | bool value =>
    cases value with
    | true => exact .inr ⟨rfl,(Except.ok.inj encoded).symm⟩
    | false => cases encoded
  | number | string | array | object => cases encoded

theorem plain_inverts (documents : List Value) : Inverts plainEncoder plainSlice documents where
  parsed value _ bytes encoded := by
    rcases plain_cases encoded with ⟨rfl,rfl⟩ | ⟨rfl,rfl⟩ <;> rfl
  text value _ bytes encoded := by
    rcases plain_cases encoded with ⟨-,rfl⟩ | ⟨-,rfl⟩ <;> exact .literal (by decide)
  visible value _ bytes encoded := by
    rcases plain_cases encoded with ⟨-,rfl⟩ | ⟨-,rfl⟩ <;> exact List.forall_iff_forall_mem.mp (by decide)

theorem singles_cut {documents : List Value}
    (each : ∀ document ∈ documents, document = .null ∨ document = truth) {framer : PartFramer}
    (lines : framer.format = .jsonLines) (cut : Nat) :
    (∃ tail, (cutting plainOptions (documents.map .ok) framer [] [] cut).map Part.documents =
    documents.map ([·]) ++ tail) ∧
      ∃ payloads, cutParts plainOptions (documents.map .ok) framer [] 0 cut = some payloads := by
  induction documents generalizing cut with
  | nil => exact ⟨⟨_,rfl⟩,_,rfl⟩
  | cons document documents ih =>
    obtain ⟨first,others⟩ := List.forall_mem_cons.mp each
    obtain ⟨⟨tail,later⟩,payloads,cuts⟩ := ih others (cut+1)
    obtain ⟨text,recorded⟩ : ∃ text, framer.record plainEncoder document = .ok (text ++ [10],framer) := by
      rcases first with rfl | rfl <;> exact ⟨_,by rw [PartFramer.record,lines]; rfl⟩
    have opened : framer.open plainEncoder = .ok ([],framer) := by rw [PartFramer.open,lines]
    have encoder : plainOptions.encoder = plainEncoder := rfl
    have full : ([] ++ (text ++ [10])).length ≥ threshold plainOptions := by
      simp [threshold,plainOptions,ManifestExactness.nullOptions]
    constructor
    · refine ⟨tail,?_⟩
      rw [List.map_cons,cutting,encoder,recorded]
      simp only [if_pos full,opened]
      rw [List.map_cons,later]
      rfl
    · refine ⟨([] ++ (text ++ [10]) ++ framer.close) :: payloads,?_⟩
      rw [List.map_cons,cutParts,encoder,recorded]
      simp only [if_pos full,opened,cuts,Option.map_some]

theorem singles_written {documents : List Value}
    (each : ∀ document ∈ documents, document = .null ∨ document = truth) :
    (∃ tail, (written plainOptions (documents.map .ok)).map Part.documents = documents.map ([·]) ++ tail) ∧
      ∃ payloads, parts plainOptions (documents.map .ok) = some payloads :=
  @singles_cut documents each {format := .jsonLines,fields := none} rfl 0

theorem two_documents_read : ∃ (manifest : Manifest) (w' : Objects),
    ∃ groups, List.Forall₂ (ReadsAs ManifestExactness.exportCodec plainSlice
      (fun _ _ => ([],.ok ())) plainOptions 0 w') manifest.artifacts
      groups ∧ groups.flatten = [truth,.null] := by
  have cuts : parts plainOptions ([truth,.null].map .ok) = some [asciiBytes "true\n",asciiBytes "null\n"] := rfl
  obtain ⟨manifest,w',runs⟩ :=
    @split_runs ManifestExactness.exportCodec {} plainOptions 0 false _ _ cuts fun _ => none
  have alike : Alike (written plainOptions ([truth,.null].map .ok)) := by
    have two : (written plainOptions ([truth,.null].map .ok)).length = 2 := rfl
    intro i j first second here there number
    obtain ⟨inside,-⟩ := List.getElem?_eq_some_iff.mp here
    obtain ⟨inside',-⟩ := List.getElem?_eq_some_iff.mp there
    obtain rfl : i = j := by omega
    rw [here] at there
    cases there
    rfl
  have back := (reads_back_iff ManifestExactness.exportCodec (fun _ _ => rfl) plainSlice
      (fun _ _ => ([],.ok ())) plainOptions nofun
    {} [truth,.null] (plain_inverts _) 0 false manifest (fun _ => none) w' runs).mpr alike
  exact ⟨manifest,w',back.1⟩

def wrapping (count : Nat) : List Value := truth :: List.replicate count .null

theorem wrapping_lost {count : Nat} (positive : 0 < count) (wraps : count % 2^32 = 0) :
    ∃ (manifest : Manifest) (w' : Objects),
    Runs (Keeps {}) (runSplitExport ManifestExactness.exportCodec
      ((wrapping count).map .ok) 0 plainOptions) (fun _ => none) (done manifest) w' ∧
    ¬ ∃ groups, List.Forall₂ (ReadsAs ManifestExactness.exportCodec plainSlice
      (fun _ _ => ([],.ok ())) plainOptions 0 w')
      manifest.artifacts groups ∧ groups.flatten = wrapping count := by
  have each : ∀ document ∈ wrapping count, document = .null ∨ document = truth :=
    List.forall_mem_cons.mpr ⟨.inr rfl,fun document member => .inl (List.eq_of_mem_replicate member)⟩
  obtain ⟨⟨tail,documents⟩,payloads,cuts⟩ := singles_written each
  obtain ⟨manifest,w',runs⟩ :=
    @split_runs ManifestExactness.exportCodec {} plainOptions 0 false _ _ cuts fun _ => none
  refine ⟨manifest,w',runs,fun back => ?_⟩
  have alike := (parts_back_iff (fun _ _ => rfl) (show plainOptions.format ≠ .csv from nofun)
      (plain_inverts _) runs).mp back
  have placed : ∀ (i : Nat) (document : Value), (wrapping count)[i]? = some document →
      ∃ part : Part, (written plainOptions ((wrapping count).map .ok))[i]? = some part ∧
      part.documents = [document] := by
    intro i document here
    obtain ⟨inside,-⟩ := List.getElem?_eq_some_iff.mp here
    have found := congrArg (·[i]?) documents
    simp only [List.getElem?_map] at found
    rw [List.getElem?_append_left (by rw [List.length_map]; exact inside),List.getElem?_map,here] at found
    exact Option.map_eq_some_iff.mp found
  have null : (wrapping count)[count]? = some .null := by
    obtain ⟨less,rfl⟩ : ∃ less, count = less + 1 := ⟨count - 1,by omega⟩
    rw [wrapping,List.getElem?_cons_succ,List.getElem?_replicate_of_lt (Nat.lt_succ_self less)]
  obtain ⟨first,here,documents₁⟩ := placed 0 truth rfl
  obtain ⟨last,there,documents₂⟩ := placed count .null null
  have same := alike 0 count first last here there wraps.symm
  rw [documents₁,documents₂] at same
  cases same

-- One document more than there are numbers: the part of the last one replaces that of the first.
theorem replaced_part_lost : ∃ (manifest : Manifest) (w' : Objects),
    Runs (Keeps {}) (runSplitExport ManifestExactness.exportCodec
      ((wrapping (2^32)).map .ok) 0 plainOptions) (fun _ => none) (done manifest) w' ∧
    ¬ ∃ groups, List.Forall₂ (ReadsAs ManifestExactness.exportCodec plainSlice
      (fun _ _ => ([],.ok ())) plainOptions 0 w')
      manifest.artifacts groups ∧ groups.flatten = wrapping (2^32) :=
      wrapping_lost (Nat.two_pow_pos 32) (Nat.mod_self _)

end Samples
end ArangoDataTools.SplitReading
