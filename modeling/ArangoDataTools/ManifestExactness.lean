import ArangoDataTools.DumpPaths
import ArangoDataTools.DumpRestore
import ArangoDataTools.SplitParts

namespace ArangoDataTools.ManifestExactness
open Interaction Interaction.Program Dump DumpRun StoredManifest DumpPaths SplitExport SplitParts

variable {w w' : Objects}

-- A dump describes what it left, and a split export does as long as the number of a part fits its counter.
theorem manifest_describes_store (codec : Codec) (held : Holdings) (store : Nat) (w w' : Objects)
    (manifest : Manifest)
    (reads : codec.manifestFromJson (codec.manifestToJson manifest) = .ok manifest) :
    (∀ (client : Client) (options : DumpOptions) (reporting : Bool), held.databases.Nodup →
      (∀ database, Named (held.inventories database)) →
      Runs (Keeps held) (runDumpWithProgress codec client store options reporting) w (done manifest) w' →
      Exact codec store manifestName [dumpLockName] manifest w') ∧
    ∀ (documents : List (Except Error Value)) (options : SplitOptions) (reporting : Bool),
      Runs (Keeps held) (runSplitExportWithProgress codec documents store options reporting) w
        (done manifest) w' →
      (Exact codec store (manifestPath options) [] manifest w' ↔
        ∃ payloads, parts options documents = some payloads ∧ payloads.length ≤ 2 ^ 32) :=
  ⟨fun _ _ _ databases named runs => dump_exact databases named reads runs,fun _ _ _ runs =>
    split_exact_iff reads runs⟩

section Wrapping

def nullEncoder : Encoder where
  toVec _ := .ok (asciiBytes "null")
  toText _ := "null"
  csvRecord _ := .ok (asciiBytes "\"\"\n")

def nullOptions : SplitOptions where
  encoder := nullEncoder
  format := .jsonLines
  basePath := "export"
  maxPartBytes := 1
  info := {database := "shop",toolVersion := "0.1.0",createdAt := "2026-06-01T00:00:00Z"}

def nulls (count : Nat) : List (Except Error Value) := List.replicate count (.ok .null)

theorem nulls_cut (count cut : Nat) (framer : PartFramer) (lines : framer.format = .jsonLines) :
    ∃ payloads, cutParts nullOptions (nulls count) framer [] 0 cut = some payloads ∧
    count ≤ payloads.length := by
  induction count generalizing cut with
  | zero => exact ⟨_,rfl,Nat.zero_le _⟩
  | succ count ih =>
    obtain ⟨payloads,later,many⟩ := ih (cut+1)
    have recorded : framer.record nullEncoder .null = .ok (asciiBytes "null" ++ [10],framer) := by
      simp [PartFramer.record,lines,jsonLine,nullEncoder,Except.map]
    have opened : framer.open nullEncoder = .ok ([],framer) := by simp [PartFramer.open,lines]
    have full : ([] ++ (asciiBytes "null" ++ [10])).length ≥ threshold nullOptions := by
      simp [threshold,nullOptions]
    refine ⟨([] ++ (asciiBytes "null" ++ [10]) ++ framer.close) :: payloads,?_,Nat.succ_le_succ many⟩
    have encoder : nullOptions.encoder = nullEncoder := rfl
    rw [nulls,List.replicate_succ,cutParts,encoder,recorded]
    simp only [if_pos full,opened]
    rw [← nulls,later,Option.map_some]

theorem part_path_repeats : ¬ ∃ codec : Codec, ∀ manifest w',
    Runs (Keeps {}) (runSplitExportWithProgress codec (nulls (2 ^ 32 + 1)) 0 nullOptions false)
      (fun _ => none) (done manifest) w' →
      (manifest.artifacts.map Artifact.path).Nodup := by
  intro always
  obtain ⟨codec,distinct⟩ := always
  obtain ⟨payloads,cut,many⟩ := nulls_cut (2 ^ 32 + 1) 0 {format := .jsonLines,fields := none} rfl
  have whole : parts nullOptions (nulls (2 ^ 32 + 1)) = some payloads := cut
  obtain ⟨manifest,w',runs⟩ := @split_runs codec {} nullOptions 0 false _ _ whole fun _ => none
  obtain ⟨others,pieces,same,numbered,listed,-⟩ := split_returns runs
  rw [whole] at same
  cases same
  have paths := distinct manifest w' runs
  rw [listed,numbered_paths numbered,numbers_distinct] at paths
  omega

end Wrapping

section Sample

def emptyDigest : Bytes :=
  [227,176,196,66,152,252,28,20,154,251,244,200,153,111,185,36,39,174,65,228,100,155,147,76,164,149,153,27,
  120,82,184,85]

def lineDigest : Bytes :=
  [56,224,185,222,129,127,100,92,75,236,55,192,212,163,229,139,174,204,203,4,15,87,24,220,6,154,114,199,
  56,90,11,237]

def line : Bytes := asciiBytes "null" ++ [10]

def partText (number : String) : List String := ["    \x7b",
  "      \"path\": \"export.part-0000" ++ number ++ ".jsonl\",","      \"kind\": \"data\",",
    "      \"format\": \"jsonl\",",
  "      \"compression\": \"none\",","      \"byte_size\": 5,","      \"checksum\": \x7b",
  "        \"algorithm\": \"sha256\",",
  "        \"value\": \"38e0b9de817f645c4bec37c0d4a3e58baecccb040f5718dc069a72c7385a0bed\"","      \x7d,",
  "      \"part\": " ++ number]

def exportText : Bytes :=
  asciiBytes ("\n".intercalate (["\x7b","  \"manifest_version\": 1,","  \"tool_version\": \"0.1.0\",",
  "  \"created_at\": \"2026-06-01T00:00:00Z\",","  \"database\": \"shop\",","  \"encryption\": \x7b",
  "    \"algorithm\": \"none\"","  \x7d,","  \"artifacts\": ["] ++ partText "0" ++ ["    \x7d,"] ++
    partText "1" ++ ["    \x7d","  ]","\x7d"]))

def nullPart (path : String) (number : Nat) : Artifact :=
  {path := path,kind := .data,format := .jsonl,byteSize := 5,
   checksum := some ⟨"sha256","38e0b9de817f645c4bec37c0d4a3e58baecccb040f5718dc069a72c7385a0bed"⟩,
     part := some number}

def exportManifest : Manifest := {Manifest.new "shop" "0.1.0" "2026-06-01T00:00:00Z" with
  artifacts := [nullPart "export.part-00000.jsonl" 0,nullPart "export.part-00001.jsonl" 1]}

def parseExport (bytes : Bytes) : Except Error Manifest :=
  if bytes = exportText then .ok exportManifest else .error (.serialization "expected value at line 1 column 1")

def exportCodec : Codec where
  toVecPretty _ := []
  fromSlice _ := .error (.serialization "EOF while parsing a value at line 1 column 0")
  manifestToJson _ := exportText
  manifestFromJson := parseExport
  checkpointToJson _ := []
  checkpointFromJson _ := .error (.serialization "EOF while parsing a value at line 1 column 0")
  encode _ bytes := bytes
  decode _ bytes := .ok bytes
  sha256 bytes := if bytes = line then lineDigest else emptyDigest

theorem export_reads : exportCodec.manifestFromJson (exportCodec.manifestToJson exportManifest) =
    .ok exportManifest := by
  have parser : exportCodec.manifestFromJson = parseExport := rfl
  have printer : exportCodec.manifestToJson exportManifest = exportText := by simp only [exportCodec]
  rw [parser,printer,parseExport,if_pos rfl]

theorem dumping_keeps (source : Source) (op : Op) (w : Objects) :
    Keeps {inventories := fun _ => source.inventory} op w (dumping source op w).1 (dumping source op w).2 := by
  cases op with
  | send database request => cases request with
    | serverRole | replicationBatchCreate | replicationBatchExtend | replicationBatchDelete | replicationDumpChunk =>
      exact .answered trivial
    | replicationInventory => exact .answered rfl
    | _ => exact .refused _
  | head object => exact .head
  | get object =>
    cases present : w object with
    | some bytes =>
      have handled : dumping source (.get object) w = (.ok bytes,w) := by simp only [dumping,present]
      rw [handled]
      exact .get present
    | none =>
      have handled : dumping source (.get object) w =
          (.error (.storage ("object not found: " ++ object.path)),w) := by
        simp only [dumping,present]
      rw [handled]
      exact .getFailed _
  | putStream object body => exact .put
  | putIfAbsent object body =>
    unfold dumping
    simp only
    by_cases present : (w object).isSome = true
    · rw [if_pos present]
      have kept : Keeps {inventories := fun _ => source.inventory} (.putIfAbsent object body) w
          (.error (.alreadyExists object.path))
        (Function.update w object (w object)) := .notCreated _ (w object)
      rwa [Function.update_eq_self] at kept
    · rw [if_neg present]
      exact .created (Option.not_isSome_iff_eq_none.mp present)
  | delete object => exact .deleted
  | abortPut object received =>
    have kept : Keeps {inventories := fun _ => source.inventory} (.abortPut object received) w ()
      (Function.update w object (w object)) := .aborted (w object)
    rwa [Function.update_eq_self] at kept
  | emit event => exact .emitted
  | count counter => exact .counted
  | pass item => exact .passed false

theorem export_run : ∃ w', run (dumping DumpRestore.sampleBackup.source)
    (runSplitExportWithProgress exportCodec (nulls 2) 0 nullOptions false) (fun _ => none) =
    (.ok exportManifest,w') := by
  have paths : partPath nullOptions 0 = "export.part-00000.jsonl" ∧
      partPath nullOptions 1 = "export.part-00001.jsonl" := by decide
  have digest : hex lineDigest = "38e0b9de817f645c4bec37c0d4a3e58baecccb040f5718dc069a72c7385a0bed" := by decide
  have ran : ∃ w', run (dumping DumpRestore.sampleBackup.source)
      (runSplitExportWithProgress exportCodec (nulls 2) 0 nullOptions false) (fun _ => none) =
        (.ok {Manifest.new "shop" "0.1.0" "2026-06-01T00:00:00Z" with artifacts := [
          {nullPart (partPath nullOptions 0) 0 with checksum := some ⟨"sha256",hex lineDigest⟩},
          {nullPart (partPath nullOptions 1) 1 with checksum := some ⟨"sha256",hex lineDigest⟩}]},w') := ⟨_,rfl⟩
  rw [paths.1,paths.2,digest] at ran
  exact ran

theorem sample_named : Named DumpRestore.sampleBackup.source.inventory where
  collections := List.nodup_singleton _
  views := List.nodup_singleton _
  slashless := by decide

theorem samples_described :
    (∃ w', Exact DumpRestore.sampleBackup.codec 0 manifestName
      [dumpLockName] DumpRestore.sampleBackup.manifest w') ∧
    ∃ w', Exact exportCodec 0 "export.manifest.json" [] exportManifest w' := by
  let held : Holdings := {inventories := fun _ => DumpRestore.sampleBackup.source.inventory}
  constructor
  · have named : ∀ collection ∈ DumpRestore.sampleBackup.source.inventory.collections,
        collection.name.isSome := by
      intro collection member
      rw [List.mem_singleton.mp member]
      rfl
    have namedViews : ∀ view ∈ DumpRestore.sampleBackup.source.inventory.views, (viewName view).isSome := by
      intro view member
      rw [List.mem_singleton.mp member]
      rfl
    obtain ⟨w',ran,-⟩ := @dump_written DumpRestore.sampleBackup rfl rfl DumpRestore.sample_paged
        named namedViews
      (List.nodup_singleton _) (List.nodup_singleton _) false (fun _ => none) (.inr ⟨rfl,rfl⟩)
    have runs := @runs_of_run _ _ _ _ _ (Keeps held) (dumping DumpRestore.sampleBackup.source) (dumping_keeps _)
      (runDumpWithProgress DumpRestore.sampleBackup.codec DumpRestore.sampleBackup.client
        DumpRestore.sampleBackup.store
        DumpRestore.sampleBackup.options false) fun _ => none
    rw [ran] at runs
    have described := manifest_describes_store DumpRestore.sampleBackup.codec held
        DumpRestore.sampleBackup.store
      (fun _ => none) w' DumpRestore.sampleBackup.manifest DumpRestore.sample_reads.manifest
    exact ⟨w',described.1 _ _ false List.nodup_nil (fun _ => sample_named) runs⟩
  · obtain ⟨w',ran⟩ := export_run
    have runs := @runs_of_run _ _ _ _ _ (Keeps held) (dumping DumpRestore.sampleBackup.source) (dumping_keeps _)
      (runSplitExportWithProgress exportCodec (nulls 2) 0 nullOptions false) fun _ => none
    rw [ran] at runs
    have described := manifest_describes_store exportCodec held 0 (fun _ => none) w' exportManifest export_reads
    exact ⟨w',(described.2 (nulls 2) nullOptions false runs).mpr ⟨[line,line],rfl,by decide⟩⟩

end Sample
end ArangoDataTools.ManifestExactness
