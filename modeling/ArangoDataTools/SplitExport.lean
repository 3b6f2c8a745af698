import ArangoDataTools.Dump

namespace ArangoDataTools.SplitExport
open Interaction Interaction.Program

inductive ExportFormat where
  | jsonLines | jsonArray | csv
  deriving DecidableEq, Repr

def ExportFormat.extension : ExportFormat → String
  | jsonLines => "jsonl"
  | jsonArray => "json"
  | csv => "csv"

-- The third-party serializers behind the encoders: `to_vec` and `to_string` of a
-- JSON value, and a CSV record with its quoting.
structure Encoder where
  toVec : Value → Except Error Bytes
  toText : Value → String
  csvRecord : List String → Except Error Bytes

def guard (value : String) : String :=
  match value.toList.head? with
  | some first => if first ∈ ['=', '+', '-', '@', '\t', '\r'] then "'" ++ value else value
  | none => value

def cell (encoder : Encoder) (document : Value) (field : String) : String :=
  match document.get field with
  | none | some .null => ""
  | some (.string text) => guard text
  | some (.bool value) => if value then "true" else "false"
  | some (.number value) => encoder.toText (.number value)
  | some other => guard (encoder.toText other)

def jsonLine (encoder : Encoder) (document : Value) : Except Error Bytes :=
  (encoder.toVec document).map (· ++ [10])
def jsonElement (encoder : Encoder) (document : Value) : Except Error Bytes := encoder.toVec document
def csvHeader (encoder : Encoder) (fields : List String) : Except Error Bytes := encoder.csvRecord fields
def csvRow (encoder : Encoder) (fields : List String) (document : Value) : Except Error Bytes :=
  encoder.csvRecord (fields.map (cell encoder document))

structure PartFramer where
  format : ExportFormat
  fields : Option (List String)
  arrayFirst : Bool := true

namespace PartFramer

def new (format : ExportFormat) (fields : Option (List String)) : Except Error PartFramer :=
  if format = .csv ∧ fields.getD [] = [] then
    .error (.config "CSV split export requires an explicit, non-empty list of fields")
  else .ok {format := format,fields := fields}

def dataFormat (framer : PartFramer) : DataFormat :=
  match framer.format with
  | .jsonLines => .jsonl
  | .jsonArray => .json
  | .csv => .csv

def extension (framer : PartFramer) : String := framer.format.extension

def «open» (encoder : Encoder) (framer : PartFramer) : Except Error (Bytes × PartFramer) :=
  match framer.format with
  | .jsonLines => .ok ([],framer)
  | .jsonArray => .ok (asciiBytes "[",{framer with arrayFirst := true})
  | .csv => (csvHeader encoder (framer.fields.getD [])).map fun header => (header,framer)

def record (encoder : Encoder) (framer : PartFramer) (document : Value) : Except Error (Bytes × PartFramer) :=
  match framer.format with
  | .jsonLines => (jsonLine encoder document).map fun line => (line,framer)
  | .jsonArray => (jsonElement encoder document).map fun element =>
    ((if framer.arrayFirst then [] else asciiBytes ",") ++ element,{framer with arrayFirst := false})
  | .csv => (csvRow encoder (framer.fields.getD []) document).map fun row => (row,framer)

def close (framer : PartFramer) : Bytes :=
  match framer.format with
  | .jsonLines | .csv => []
  | .jsonArray => asciiBytes "]"

end PartFramer

structure ManifestMeta where
  database : String
  toolVersion : String
  createdAt : String
  source : Option String := none

-- The arguments that stay the same throughout an export.
structure SplitOptions where
  encoder : Encoder
  format : ExportFormat
  fields : Option (List String) := none
  compression : Compression := .none
  basePath : String
  maxPartBytes : Nat
  info : ManifestMeta

-- The local variables of the loop; `part` is a `u32`.
structure Splitting where
  framer : PartFramer
  buffer : Bytes
  recordsInPart : Nat := 0
  part : UInt32 := 0
  bytesWritten : Nat := 0
  manifest : Manifest

-- `{part:05}`
def paddedPart (part : UInt32) : List Char :=
  List.replicate (5 - (Nat.toDigits 10 part.toNat).length) '0' ++ Nat.toDigits 10 part.toNat

def partSuffix (options : SplitOptions) : String :=
  match options.compression.extension with
  | some ext => options.format.extension ++ "." ++ ext
  | none => options.format.extension

def partPath (options : SplitOptions) (part : UInt32) : String :=
  options.basePath ++ ".part-" ++ String.ofList (paddedPart part) ++ "." ++ partSuffix options

def manifestPath (options : SplitOptions) : String := options.basePath ++ ".manifest.json"

def writePart (codec : Codec) (store : Nat) (options : SplitOptions) (part : UInt32)
    (payload : Bytes) (framer : PartFramer)
    (manifest : Manifest) : Tool Manifest :=
  let path := partPath options part
  let compressed := codec.encode options.compression payload
  let checksum : Checksum := ⟨"sha256",Dump.hex (codec.sha256 compressed)⟩
  ((⟨store,path⟩ : ObjectRef).putStream compressed).bind fun written =>
    done (manifest.push
      {path := path,kind := .data,format := framer.dataFormat,compression := options.compression,byteSize := written,
       checksum := some checksum,part := some part.toNat})

def emitPartProgress (reporting : Bool) (manifest : Manifest) (bytesWritten : Nat) : Tool Nat :=
  let total := bytesWritten + (manifest.artifacts.getLast?.map Artifact.byteSize).getD 0
  if reporting then
    (emit (.progress {bytesWritten := total,batches := manifest.artifacts.length})).bind fun _ => done total
  else done total

-- `buffer` closed, written as the current part and reported.
def flushPart (codec : Codec) (store : Nat) (options : SplitOptions) (reporting : Bool)
    (s : Splitting) : Tool Splitting :=
  (writePart codec store options s.part (s.buffer ++ s.framer.close) s.framer s.manifest).bind fun manifest =>
  (emitPartProgress reporting manifest s.bytesWritten).bind fun total =>
    done {s with manifest := manifest,bytesWritten := total}

def threshold (options : SplitOptions) : Nat := max options.maxPartBytes 1

-- The loop over the documents. `part += 1` wraps around.
def splitDocuments (codec : Codec) (store : Nat) (options : SplitOptions) (reporting : Bool) :
    List (Except Error Value) → Splitting → Tool Splitting
  | [], s => done s
  | document :: rest, s =>
    (lift document).bind fun document =>
    (lift (s.framer.record options.encoder document)).bind fun recorded =>
    let s := {s with framer := recorded.2,buffer := s.buffer ++ recorded.1,recordsInPart := s.recordsInPart + 1}
    if s.buffer.length ≥ threshold options then
      (flushPart codec store options reporting s).bind fun s =>
      (lift (s.framer.open options.encoder)).bind fun opened =>
        splitDocuments codec store options reporting rest
          {s with framer := opened.2,buffer := opened.1,recordsInPart := 0,part := s.part + 1}
    else splitDocuments codec store options reporting rest s

def runSplitExportWithProgress (codec : Codec) (documents : List (Except Error Value)) (store : Nat)
    (options : SplitOptions)
    (reporting : Bool) : Tool Manifest :=
  let manifest := {Manifest.new options.info.database options.info.toolVersion options.info.createdAt with
    source := options.info.source}
  (lift (PartFramer.new options.format options.fields)).bind fun framer =>
  (lift (framer.open options.encoder)).bind fun opened =>
  (splitDocuments codec store options reporting documents
    {framer := opened.2,buffer := opened.1,manifest := manifest}).bind fun s =>
  (if s.recordsInPart > 0 ∨ s.part = 0 then flushPart codec store options reporting s else done s).bind fun s =>
  ((⟨store,manifestPath options⟩ : ObjectRef).putStream (codec.manifestToJson s.manifest)).bind
    fun _ => done s.manifest

def runSplitExport (codec : Codec) (documents : List (Except Error Value)) (store : Nat)
    (options : SplitOptions) : Tool Manifest :=
  runSplitExportWithProgress codec documents store options false

end ArangoDataTools.SplitExport
