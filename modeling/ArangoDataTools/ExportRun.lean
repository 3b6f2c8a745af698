import ArangoDataTools.Deliveries
import ArangoDataTools.ImportOverwrite
import ArangoDataTools.SplitReading

namespace ArangoDataTools.ExportRun
open Interaction Interaction.Program StoredManifest DumpRun SplitExport SplitReading ImportPipeline JsonLines JsonText

structure ExportOptions where
  encoder : Encoder
  format : ExportFormat
  fields : Option (List String) := none
  compression : Compression := .none
  object : ObjectRef

def compress (codec : Codec) (compression : Compression) (input : ByteStream) : Bytes × Option Error :=
  match compression with
  | .none => (input.1.flatten,input.2)
  | .gzip | .zstd => (codec.encode compression input.1.flatten,input.2.map fun err => .io .other err.display)

def decompress (codec : Codec) (compression : Compression) (bytes : Bytes) : Except Error Bytes :=
  match compression with
  | .none => .ok bytes
  | .gzip | .zstd => codec.decode compression bytes

-- A `put_stream` whose input fails ends with the input's error.
def runExport (codec : Codec) (options : ExportOptions) (documents : List (Except Error Value)) : Tool Nat :=
  (lift (encode options.encoder options.format options.fields documents)).bind fun encoded =>
    let output := compress codec options.compression encoded
    match output.2 with
    | some err => (ask (.abortPut options.object output.1)).bind fun _ => fail err
    | none => options.object.putStream output.1

def streamed (read : Documents) : List (Except Error Value) := read.1.map .ok ++ match read.2 with
  | .ok _ => []
  | .error err => [.error err]

def ReadBack (codec : Codec) (fromSlice : Bytes → Except (String × Nat) Value)
    (delimited : UInt8 → Reads → Documents)
    (options : ExportOptions) (w : Objects) (documents : List (Except Error Value)) : Prop :=
  ∃ (stored bytes : Bytes) (chunks : List Bytes), w options.object = some stored ∧
    decompress codec options.compression stored = .ok bytes ∧
    (∀ chunk ∈ chunks, chunk ≠ []) ∧ chunks.flatten = bytes ∧
    documents = streamed (readDocuments fromSlice delimited (.of options.format) (chunks.map .ok))

def lineOf (encoder : Encoder) (document : Value) : Bytes := ((encoder.toVec document).toOption).getD []

section Written
variable {codec : Codec} {held : Holdings} {encoder : Encoder} {options : ExportOptions}
  {documents : List (Except Error Value)} {size : Nat}
  {w w' : Objects}

theorem lineOf_encoded {document : Value} (encodes : ∃ bytes, encoder.toVec document = .ok bytes) :
    encoder.toVec document = .ok (lineOf encoder document) := by
  obtain ⟨bytes,encoded⟩ := encodes
  rw [lineOf,encoded]
  rfl

def Writable (encoder : Encoder) (documents : List (Except Error Value)) : Prop :=
  ∃ values : List Value, documents = values.map .ok ∧ ∀ value ∈ values, ∃ bytes, encoder.toVec value = .ok bytes

theorem writable_cons {document : Value} (encodes : ∃ bytes, encoder.toVec document = .ok bytes)
    (rest : Writable encoder documents) :
    Writable encoder (.ok document :: documents) := by
  obtain ⟨values,rfl,each⟩ := rest
  exact ⟨document :: values,rfl,List.forall_mem_cons.mpr ⟨encodes,each⟩⟩

theorem jsonl_writable (ended : (encodeJsonl encoder documents).2 = none) : Writable encoder documents := by
  induction documents with
  | nil => exact ⟨[],rfl,List.forall_mem_nil _⟩
  | cons item rest ih =>
    cases item with
    | error err => cases ended
    | ok document =>
      cases encoded : encoder.toVec document with
      | error err =>
        simp only [encodeJsonl,jsonLine,encoded] at ended
        cases ended
      | ok bytes =>
        simp only [encodeJsonl,jsonLine,encoded] at ended
        exact writable_cons ⟨bytes,encoded⟩ (ih ended)

theorem elements_writable {first : Bool}
    (ended : (encodeElements encoder first documents).2 = none) : Writable encoder documents := by
  induction documents generalizing first with
  | nil => exact ⟨[],rfl,List.forall_mem_nil _⟩
  | cons item rest ih =>
    cases item with
    | error err => cases ended
    | ok document =>
      cases encoded : encoder.toVec document with
      | error err =>
        simp only [encodeElements,jsonElement,encoded] at ended
        cases ended
      | ok bytes =>
        simp only [encodeElements,jsonElement,encoded] at ended
        exact writable_cons ⟨bytes,encoded⟩ (ih ended)

theorem compress_ended {input : ByteStream}
    (ended : (compress codec options.compression input).2 = none) : input.2 = none := by
  unfold compress at ended
  split at ended
  · exact ended
  · exact Option.map_eq_none_iff.mp ended
  · exact Option.map_eq_none_iff.mp ended

theorem decompress_compress (roundTrip : ∀ compression bytes,
    codec.decode compression (codec.encode compression bytes) = .ok bytes)
    (compression : Compression) (input : ByteStream) :
    decompress codec compression (compress codec compression input).1 = .ok input.1.flatten := by
  cases compression with
  | none => rfl
  | gzip | zstd => exact roundTrip _ _

theorem encode_writable {format : ExportFormat} {fields : Option (List String)}
    (json : format ≠ .csv) {output : ByteStream}
    (encoded : encode encoder format fields documents = .ok output) (ended : output.2 = none) :
    Writable encoder documents := by
  cases format with
  | csv => exact absurd rfl json
  | jsonLines =>
    cases encoded
    exact jsonl_writable ended
  | jsonArray =>
    cases encoded
    exact elements_writable ended

theorem export_written (exported : Runs (Keeps held) (runExport codec options documents) w (done size) w') :
    ∃ output, encode options.encoder options.format options.fields documents = .ok output ∧ output.2 = none ∧
      w' options.object = some (compress codec options.compression output).1 := by
  obtain ⟨output,middle,first,rest⟩ := runs_bind_done exported
  cases encoded : encode options.encoder options.format options.fields documents with
  | error err =>
    rw [encoded] at first
    cases (runs_fail first).1
  | ok value =>
    rw [encoded] at first
    obtain ⟨same,rfl⟩ := runs_done first
    cases same
    cases ended : (compress codec options.compression output).2 with
    | some err =>
      simp only [ended] at rest
      obtain ⟨_,_,-,last⟩ := runs_bind_done rest
      cases (runs_fail last).1
    | none =>
      simp only [ended] at rest
      obtain ⟨-,rfl⟩ := put_returns rest
      exact ⟨output,rfl,compress_ended ended,Function.update_self _ _ _⟩

theorem filterMap_ok (values : List Value) :
    (values.map (Except.ok : Value → Except Error Value)).filterMap Except.toOption = values := by
  rw [List.filterMap_map]
  exact List.filterMap_some

theorem export_read_back {fromSlice : Bytes → Except (String × Nat) Value}
    {delimited : UInt8 → Reads → Documents}
    (roundTrip : ∀ compression bytes, codec.decode compression (codec.encode compression bytes) =
    .ok bytes) (json : options.format ≠ .csv)
    (inverts : Inverts options.encoder fromSlice (documents.filterMap Except.toOption))
      (exported : Runs (Keeps held) (runExport codec options documents) w (done size) w')
    {read : List (Except Error Value)} (back : ReadBack codec fromSlice delimited options w' read) :
    read = documents ∧ Writable options.encoder documents := by
  obtain ⟨output,encoded,ended,stored⟩ := export_written exported
  have writable := encode_writable json encoded ended
  obtain ⟨values,rfl,-⟩ := id writable
  rw [filterMap_ok] at inverts
  obtain ⟨found,bytes,chunks,there,decoded,nonempty,division,rfl⟩ := back
  rw [stored] at there
  cases there
  rw [decompress_compress roundTrip] at decoded
  cases decoded
  have encodes : Encodes options.encoder options.format options.fields values output.1.flatten :=
    ⟨output.1,encoded.trans (congrArg Except.ok (Prod.ext rfl ended)),rfl⟩
  refine ⟨?_,writable⟩
  rw [encoded_read inverts json encodes nonempty division]
  exact List.append_nil _

end Written

section Imported
variable {W : Type} {codec : Codec} {held : Holdings} {options : ExportOptions}
  {documents : List (Except Error Value)} {size : Nat}
  {w w' : Objects} {fromSlice : Bytes → Except (String × Nat) Value} {delimited : UInt8 → Reads →
    Documents} {run : ImportRun Op Op.Answer W}
  {sender : ArangoBatchSender} {s : RunState run} {document : W → String → Option Value}
    {decode : Bytes → List Value} {key : Value → String}
  {start : W}

-- An import, from the start, of the object an export has written.
structure Imports (codec : Codec) (fromSlice : Bytes → Except (String × Nat) Value)
    (delimited : UInt8 → Reads → Documents)
    (options : ExportOptions) (w : Objects) (sender : ArangoBatchSender)
      (run : ImportRun Op Op.Answer W) : Prop where
  documents : ReadBack codec fromSlice delimited options w run.documents
  toVec : run.toVec = options.encoder.toVec
  send : run.send = sender.send
  checkpoint : run.checkpoint = none

theorem imports_supplies (imports : Imports codec fromSlice delimited options w sender run)
    {values : List Value}
    (read : run.documents = values.map .ok) (each : ∀ value ∈ values, ∃ bytes,
    options.encoder.toVec value = .ok bytes) :
    Supplies run sender (lineOf options.encoder) values where
  documents := read
  encodes value inside := imports.toVec ▸ lineOf_encoded (each value inside)
  send := imports.send
  checkpoint := imports.checkpoint

-- The server takes the documents of a request from its lines.
def Decoded (encoder : Encoder) (decode : Bytes → List Value) (documents : List Value) : Prop :=
  ∀ chunk : List Value, chunk ⊆ documents → (∀ value ∈ chunk, ∃ bytes, encoder.toVec value = .ok bytes) →
    decode (jsonl (lineOf encoder) chunk) = chunk

def parsedLines (fromSlice : Bytes → Except (String × Nat) Value) (body : Bytes) : List Value :=
  (body.splitOn newline).filterMap fun line => (fromSlice line).toOption

theorem parsedLines_decoded {values : List Value} (inverts : Inverts options.encoder fromSlice values)
    (empty : (fromSlice []).toOption = none) : Decoded options.encoder (parsedLines fromSlice) values := by
  intro chunk within each
  induction chunk with
  | nil =>
    rw [jsonl_nil,parsedLines,List.splitOn_nil,List.filterMap_cons,empty]
    rfl
  | cons value rest ih =>
    obtain ⟨first,others⟩ := List.forall_mem_cons.mp each
    obtain ⟨inside,within⟩ := List.cons_subset.mp within
    have encoded := lineOf_encoded first
    have single : newline ∉ lineOf options.encoder value :=
      fun control => absurd (inverts.visible _ inside _ encoded newline control) (by decide)
    have split : (jsonl (lineOf options.encoder) (value :: rest)).splitOn newline =
        lineOf options.encoder value :: (jsonl (lineOf options.encoder) rest).splitOn newline := by
      rw [jsonl,List.flatMap_cons,List.append_assoc,List.singleton_append,List.splitOn_append_cons_self,
        List.splitOn_eq_singleton single]
      rfl
    rw [parsedLines,split,List.filterMap_cons,inverts.parsed _ inside _ encoded]
    exact congrArg _ (ih within others)

theorem exported_collection_imported (roundTrip : ∀ compression bytes,
    codec.decode compression (codec.encode compression bytes) = .ok bytes)
    (json : options.format ≠ .csv)
      (inverts : Inverts options.encoder fromSlice (documents.filterMap Except.toOption))
    (exported : Runs (Keeps held) (runExport codec options documents) w (done size) w')
    (imports : Imports codec fromSlice delimited options w' sender run)
      (stocks : Stocks run sender.options document decode key)
    (decodes : Decoded options.encoder decode (documents.filterMap Except.toOption))
    (distinct : ((documents.filterMap Except.toOption).map key).Nodup)
    (fresh : ∀ value, .ok value ∈ documents → document start (key value) = none)
      (reached : ReachedFrom run start s) :
    Partly document key (documents.filterMap Except.toOption) start s.world ∧
      ∀ summary, s.returned = some (.ok summary) → Unrejected s →
        ∀ value, .ok value ∈ documents → document s.world (key value) = some value := by
  obtain ⟨read,values,rfl,each⟩ := export_read_back roundTrip json inverts exported imports.documents
  rw [filterMap_ok] at decodes distinct ⊢
  have inside : ∀ {value}, .ok value ∈ values.map (Except.ok : Value → Except Error Value) ↔ value ∈ values :=
    List.mem_map_of_injective fun _ _ => Except.ok.inj
  have filled := collection_filled stocks (imports_supplies imports read each)
    (fun chunk part => decodes chunk part.subset fun value held => each value (part.subset held)) distinct
    (fun value held => fresh value (inside.mpr held)) reached
  exact ⟨filled.1,fun summary returned clean value held => filled.2 summary returned clean value
    (inside.mp held)⟩

end Imported

section Sample

def single : Value := keyed "a"

def singleEncoder : Encoder where
  toVec := fun
    | .object [("_key",.string "a")] => .ok (keyLine single)
    | _ => .error (.serialization "unexpected value")
  toText _ := ""
  csvRecord _ := .ok []

def singleSlice (bytes : Bytes) : Except (String × Nat) Value :=
  if bytes = keyLine single then .ok single else .error ("expected value",1)

def singleOptions : ExportOptions :=
  {encoder := singleEncoder,format := .jsonArray,compression := .gzip,object := ⟨0,"docs.json.gz"⟩}

def keyOf (value : Value) : String := match value.get "_key" with
  | some (.string key) => key
  | _ => ""

def underKey (w : List Value) (name : String) : Option Value := w.find? fun value => keyOf value = name

def singleSender : ArangoBatchSender := ⟨{database := "db"},{collection := "docs"}⟩

def singleImport : ImportRun Op Op.Answer (List Value) where
  documents := [.ok single]
  toVec := singleEncoder.toVec
  batchConfig := {maxDocs := 1}
  concurrency := {workers := 1,maxInFlightBytes := 2 ^ 23,adaptive := true}
  send := singleSender.send
  answers := ImportServer (parsedLines singleSlice)

theorem single_encoded {value : Value} {bytes : Bytes} (encoded : singleEncoder.toVec value = .ok bytes) :
    value = single ∧ bytes = keyLine single := by
  unfold singleEncoder at encoded
  dsimp only at encoded
  split at encoded
  · exact ⟨rfl,(Except.ok.inj encoded).symm⟩
  · cases encoded

theorem single_text : Text .value (keyLine single) := by
  have none_ : Spaces [] := fun _ member => absurd member List.not_mem_nil
  have name : StringBody [95,107,101,121] :=
    .raw '_' (by decide) (by decide) (by decide) (.raw 'k' (by decide) (by decide) (by decide)
      (.raw 'e' (by decide) (by decide) (by decide) (.raw 'y' (by decide) (by decide) (by decide) .nil)))
  have letter : StringBody [97] := .raw 'a' (by decide) (by decide) (by decide) .nil
  exact .object (.member none_ name none_ none_ (.string letter) none_)

theorem single_inverts (documents : List Value) : Inverts singleEncoder singleSlice documents where
  parsed value _ bytes encoded := by
    obtain ⟨rfl,rfl⟩ := single_encoded encoded
    exact if_pos rfl
  text value _ bytes encoded := by
    obtain ⟨-,rfl⟩ := single_encoded encoded
    exact single_text
  visible value _ bytes encoded := by
    obtain ⟨-,rfl⟩ := single_encoded encoded
    exact List.forall_iff_forall_mem.mp (by decide)

theorem decode_single {body : Bytes} {value : Value}
    (present : value ∈ parsedLines singleSlice body) : value = single := by
  obtain ⟨line,-,parsed⟩ := List.mem_filterMap.mp present
  unfold singleSlice at parsed
  split at parsed
  · exact (Option.some.inj parsed).symm
  · cases parsed

theorem under_append (w more : List Value) (name : String) : underKey (w ++ more) name =
    (underKey w name).or (underKey more name) :=
  List.find?_append

theorem single_stocks : Stocks singleImport singleSender.options underKey (parsedLines singleSlice) keyOf where
  counts counter w answer w' answered := by
    cases answered
    rfl
  others database body w answer w' answered name none_ := by
    cases answered with
    | processed =>
      have absent : underKey (parsedLines singleSlice body) name = none :=
        List.find?_eq_none.mpr fun value present same => none_ value present (of_decide_eq_true same)
      exact (under_append _ _ _).trans (by rw [absent,Option.or_none]; rfl)
    | lost => rfl
  takes database body w answer w' answered value present free := by
    cases answered with
    | processed =>
      obtain rfl := decode_single present
      have found : underKey (parsedLines singleSlice body) (keyOf single) = some single := by
        have some_ : (underKey (parsedLines singleSlice body) (keyOf single)).isSome :=
          List.find?_isSome.mpr ⟨single,present,decide_eq_true rfl⟩
        obtain ⟨first,here⟩ := Option.isSome_iff_exists.mp some_
        rw [here,decode_single (List.mem_of_find?_eq_some here)]
      right
      refine (under_append _ _ _).trans ?_
      rw [found]
      rcases free with none_ | some_
      · exact congrArg (Option.or · _) none_
      · exact congrArg (Option.or · _) some_
    | lost => exact .inl rfl
  stores database body w result w' answered clean value present := by
    cases answered with
    | processed =>
      exact List.find?_isSome.mpr ⟨value,List.mem_append_right _ present,decide_eq_true rfl⟩

def singleText : Bytes := openBracket :: keyLine single ++ [closeBracket]

theorem single_exported :
    Runs (Keeps {}) (runExport ManifestExactness.exportCodec singleOptions [.ok single]) (fun _ => none)
    (done singleText.length) (Function.update (fun _ => none) singleOptions.object (some singleText)) := by
  have written : runExport ManifestExactness.exportCodec singleOptions [.ok single] =
      singleOptions.object.putStream singleText := by rfl
  rw [written]
  exact SplitParts.put_runs _ _ _

theorem single_imports : Imports ManifestExactness.exportCodec singleSlice
    (fun _ _ => ([],.ok ())) singleOptions
    (Function.update (fun _ => none) singleOptions.object (some singleText)) singleSender singleImport where
  documents := by
    have nonempty : ∀ chunk ∈ ([singleText] : List Bytes), chunk ≠ [] :=
      List.forall_mem_singleton.mpr (List.cons_ne_nil _ _)
    have encodes : Encodes singleEncoder .jsonArray none [single] singleText := ⟨_,rfl,rfl⟩
    have whole : ([singleText] : List Bytes).flatten = singleText := List.append_nil _
    exact ⟨singleText,singleText,[singleText],Function.update_self _ _ _,rfl,nonempty,whole,
      congrArg streamed (encoded_read (single_inverts _) (by decide) encodes nonempty whole).symm⟩
  toVec := rfl
  send := rfl
  checkpoint := rfl

theorem single_accepted : ∃ w',
    Accepted singleImport singleImport.batches [] [(⟨keyLine single ++ [newline],1,1⟩,{})] w' := by
  have batches : singleImport.batches = [⟨keyLine single ++ [newline],1,1⟩] := by rfl
  rw [batches]
  exact ⟨_,.send (by decide) (send_resolves singleSender (by decide) _ _ _) .nil⟩

theorem single_transferred : ∃ (s : RunState singleImport) (summary : ImportSummary),
    ReachedFrom singleImport [] s ∧
    s.returned = some (.ok summary) ∧ underKey s.world "a" = some single := by
  obtain ⟨w',accepted⟩ := single_accepted
  obtain ⟨s,summary,reached,returned,-,answered,-⟩ :=
    solo_completes rfl (by decide) (by simp [singleImport]) rfl accepted
  have clean : Unrejected s := by
    intro answer present
    rw [answered] at present
    rw [List.mem_singleton.mp present]
  refine ⟨s,summary,reached,returned,?_⟩
  have filled := exported_collection_imported (fun _ _ => rfl)
      (show singleOptions.format ≠ .csv from (by decide)) (single_inverts _) single_exported
    single_imports single_stocks
      (@parsedLines_decoded singleOptions singleSlice _ (single_inverts _) rfl) (by decide)
    (fun value held => rfl) reached
  exact filled.2 summary returned clean single (.head _)

end Sample
end ArangoDataTools.ExportRun
