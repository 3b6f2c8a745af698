import ArangoDataTools.ExportRun
import ArangoDataTools.SharedWorld

namespace ArangoDataTools.ImportPipeline

section Beside
variable {ι W : Type} {runs : ι → ImportRun Op Op.Answer W} {senders : ι → ArangoBatchSender}
  {values : ι → List Value} {all : List Value}
  {document : W → String → Option Value} {decode : Bytes → List Value} {key : Value → String}
    {line : Value → Bytes} {start w w' : W}

def beside (runs : ι → ImportRun Op Op.Answer W) : SharedWorld (fun i => RunState (runs i)) W where
  world _ s := s.world
  enter _ s w := s.at_ w
  moves i := Step (runs i)

theorem beside_lawful : SharedWorld.Lawful (beside runs) := ⟨fun _ _ _ => rfl,fun _ _ => rfl,fun _ _ _ _ => rfl⟩

def Filled (document : W → String → Option Value) (key : Value → String) (all : List Value) (w w' : W) : Prop :=
  ∀ name, document w' name = document w name ∨ ∃ value ∈ all, key value = name ∧ document w' name = some value

structure Filling (options : ImportOptions) (document : W → String → Option Value)
    (decode : Bytes → List Value) (key : Value → String)
    (all : List Value) (start : W) {run : ImportRun Op Op.Answer W} (s : RunState run) : Prop where
  reachable : Reachable run.blurred s.blur
  arrivals : Arrivals options (Partly document key all start) (Delivered document decode key) s

theorem delivered_filled {batch : Batch} {result : ImportResult} (filled : Filled document key all w w')
    (delivered : Delivered document decode key w batch result) :
    Delivered document decode key w' batch result := by
  intro clean value inside
  rcases filled (key value) with same | ⟨_,_,_,placed⟩
  · rw [same]
    exact delivered clean value inside
  · rw [placed]
    rfl

theorem filled_run (distinct : (all.map key).Nodup) (partly : Partly document key all start w)
    (changes : Relation.ReflTransGen (Filled document key all) w w') : Partly document key all start w' := by
  induction changes with
  | refl => exact partly
  | tail _ filled ih => exact partly_kept distinct ih filled

theorem filling_stable {options : ImportOptions} {run : ImportRun Op Op.Answer W} {s : RunState run}
    (distinct : (all.map key).Nodup)
    (filling : Filling options document decode key all start s) (filled : Filled document key all s.world w) :
    Filling options document decode key all start (s.at_ w) := by
  obtain ⟨reachable,world_,workers,answered⟩ := filling
  refine ⟨reachable,partly_kept distinct world_ filled,fun i => ?_,fun answer present => ?_⟩
  · exact posts_mono (fun _ _ => delivered_filled filled) (workers i)
  · exact delivered_filled filled (answered answer present)

variable (stocks : ∀ i, Stocks (runs i) (senders i).options document decode key)
  (supplies : ∀ i, Supplies (runs i) (senders i) line (values i))
  (decodes : ∀ i chunk, chunk <:+: values i → decode (jsonl line chunk) = chunk) (within : ∀ i, values i ⊆ all)
    (distinct : (all.map key).Nodup)
include stocks supplies decodes within distinct

theorem beside_guaranteed : SharedWorld.Guaranteed (beside runs)
    (fun i s => Filling (senders i).options document decode key all start s) (Filled document key all) where
  step i s s' filling moved := by
    have accepts := @supplies_accepts _ (runs i) _ _ _ _ _ _ start _ (stocks i) (supplies i)
        (decodes i) (within i) distinct
    obtain ⟨arrivals,changed⟩ := step_arrivals accepts filling.reachable moved filling.arrivals
    refine ⟨⟨moved_blur (w:=s.world) filling.reachable moved,arrivals⟩,?_⟩
    rcases changed with same | ⟨batch,present,last,op,answer,permitted,answered⟩
    · exact fun name => .inl (congrArg (document · name) same)
    · have sent := List.Subset.trans (batch_within (supplies i) (decodes i) present) (within i)
      exact post_moves (stocks i) sent permitted answered filling.arrivals.world
  stable i s w filling filled := filling_stable distinct filling filled

variable [DecidableEq ι] {opened : (i : ι) → RunState (runs i)}
  {t : SharedWorld.Together (fun i => RunState (runs i)) W}
  (fresh : ∀ value ∈ all, document start (key value) = none)
  (begun : ∀ i, ∃ now, runImportWithCheckpoint (runs i) start now = .ok (opened i))
  (path : SharedWorld.Path (beside runs) ⟨opened,start⟩ t)
include fresh begun path

theorem beside_filled : Partly document key all start t.world ∧ ∀ i summary,
    (t.states i).returned = some (.ok summary) →
    Unrejected (t.states i) → ∀ value ∈ values i, document t.world (key value) = some value := by
  have begins : Partly document key all start start :=
    ⟨fun _ _ => rfl,fun value inside => .inl (fresh value inside)⟩
  have before : ∀ i, Filling (senders i).options document decode key all start
      ((⟨opened,start⟩ : SharedWorld.Together (fun i => RunState (runs i)) W).state (beside runs) i) := by
    intro i
    obtain ⟨now,started⟩ := begun i
    have same : opened i = opening (runs i) start now := (runImportWithCheckpoint_inv started).2.2
    have reachable : Reachable (runs i).blurred (opened i).blur := started_blur started
    refine ⟨reachable,?_⟩
    simp only [SharedWorld.Together.state,same]
    exact opening_arrivals begins now
  obtain ⟨filling,changes⟩ :=
    SharedWorld.guaranteed_run beside_lawful
      (beside_guaranteed stocks supplies decodes within distinct) before path
  have partly := filled_run distinct begins changes
  refine ⟨partly,fun i summary returned clean value inside =>
    (partly.own value (within i inside)).resolve_left fun missing => ?_⟩
  obtain ⟨reachable,arrivals⟩ := filling i
  have placed : (document t.world (key value)).isSome :=
    supplied_there (supplies i) (decodes i) reachable arrivals returned clean inside
  rw [missing] at placed
  cases placed

end Beside
end ArangoDataTools.ImportPipeline

namespace ArangoDataTools.PartImports
open Interaction Interaction.Program StoredManifest DumpRun SplitExport SplitReading SplitPartition SplitParts ImportPipeline JsonLines ExportRun

section Parts
variable {codec : Codec} {held : Holdings} {options : SplitOptions} {store : Nat} {reporting : Bool}
  {w w' : Objects} {manifest : Manifest}
  {artifact : Artifact} {documents group : List Value} {fromSlice : Bytes → Except (String × Nat) Value}
    {delimited : UInt8 → Reads → Documents}

def PartRead (codec : Codec) (fromSlice : Bytes → Except (String × Nat) Value)
    (delimited : UInt8 → Reads → Documents) (store : Nat)
    (w : Objects) (artifact : Artifact) (documents : List (Except Error Value)) : Prop :=
  ∃ (format : ImportFormat) (stored bytes : Bytes) (chunks : List Bytes),
    ImportFormat.inferFromPath artifact.path = .ok format ∧
    w ⟨store,artifact.path⟩ = some stored ∧
    codec.decode (Compression.inferFromPath artifact.path) stored = .ok bytes ∧
    (∀ chunk ∈ chunks, chunk ≠ []) ∧ chunks.flatten = bytes ∧
    documents = streamed (readDocuments fromSlice delimited format (chunks.map .ok))

theorem streamed_group (group : List Value) : streamed (group,.ok ()) = group.map .ok := List.append_nil _

theorem partRead_group {read : List (Except Error Value)}
    (reads : ReadsAs codec fromSlice delimited options store w artifact group)
    (back : PartRead codec fromSlice delimited store w artifact read) : read = group.map .ok := by
  obtain ⟨format,stored,bytes,chunks,inferred,there,decoded,nonempty,division,rfl⟩ := back
  obtain ⟨format_,codec_,body,payload,there',decoded',reads⟩ := reads
  rw [format_] at inferred
  cases inferred
  rw [there'] at there
  cases there
  rw [codec_,decoded'] at decoded
  cases decoded
  rw [reads chunks nonempty division,streamed_group]

theorem group_partRead (reads : ReadsAs codec fromSlice delimited options store w artifact group) :
    PartRead codec fromSlice delimited store w artifact (group.map .ok) := by
  obtain ⟨format_,codec_,body,payload,there,decoded,reads⟩ := reads
  obtain ⟨chunks,nonempty,whole⟩ : ∃ chunks : List Bytes, (∀ chunk ∈ chunks, chunk ≠ []) ∧
      chunks.flatten = payload := by
    by_cases empty : payload = []
    · exact ⟨[],List.forall_mem_nil _,empty.symm⟩
    · exact ⟨[payload],List.forall_mem_singleton.mpr empty,List.flatten_singleton⟩
  refine ⟨_,body,payload,chunks,format_,there,codec_ ▸ decoded,nonempty,whole,?_⟩
  rw [reads chunks nonempty whole,streamed_group]

theorem export_groups (roundTrip : ∀ compression bytes,
    codec.decode compression (codec.encode compression bytes) = .ok bytes)
    (json : options.format ≠ .csv) (inverts : Inverts options.encoder fromSlice documents)
    (exported : Runs (Keeps held)
      (runSplitExportWithProgress codec (documents.map .ok) store options reporting) w (done manifest) w')
    (few : manifest.artifacts.length ≤ 2^32) :
    ∃ groups, List.Forall₂ (ReadsAs codec fromSlice delimited options store w') manifest.artifacts
      groups ∧ groups.flatten = documents := by
  have read := @artifacts_read codec held options store reporting w w' manifest documents fromSlice
      delimited roundTrip json inverts exported
  have count : manifest.artifacts.length = (written options (documents.map .ok)).length := by
    rw [read.length_eq,List.length_map,left_length]
  refine (parts_back_iff roundTrip json inverts exported).mpr fun i j first second here there number => ?_
  obtain ⟨inside,-⟩ := List.getElem?_eq_some_iff.mp here
  obtain ⟨inside',-⟩ := List.getElem?_eq_some_iff.mp there
  obtain rfl : i = j := by omega
  rw [Option.some.inj (here.symm.trans there)]

theorem export_encodes (json : options.format ≠ .csv)
    (exported : Runs (Keeps held)
      (runSplitExportWithProgress codec (documents.map .ok) store options reporting) w (done manifest) w') :
    ∀ value ∈ documents, ∃ bytes, options.encoder.toVec value = .ok bytes := by
  obtain ⟨payloads,pieces,cuts,-⟩ := split_returns exported
  obtain ⟨output,chunks,encoded,-⟩ := parts_encoded json cuts
  obtain ⟨values,same,each⟩ := encode_writable json encoded rfl
  rwa [List.map_injective_iff.mpr (fun _ _ => Except.ok.inj) same]

end Parts

section Imports
variable {ι W : Type} [DecidableEq ι] {codec : Codec} {held : Holdings} {options : SplitOptions}
  {store : Nat} {reporting : Bool}
  {w w' : Objects} {manifest : Manifest} {documents : List Value}
    {fromSlice : Bytes → Except (String × Nat) Value}
  {delimited : UInt8 → Reads → Documents} {runs : ι → ImportRun Op Op.Answer W}
    {senders : ι → ArangoBatchSender}
    {artifacts : ι → Artifact}
  {document : W → String → Option Value} {decode : Bytes → List Value} {key : Value → String} {start : W}
  {opened : (i : ι) → RunState (runs i)} {t : SharedWorld.Together (fun i => RunState (runs i)) W}

-- An import, from the start, of one artifact.
structure PartImport (codec : Codec) (fromSlice : Bytes → Except (String × Nat) Value)
    (delimited : UInt8 → Reads → Documents)
    (encoder : Encoder) (store : Nat) (w : Objects) (artifact : Artifact)
      (sender : ArangoBatchSender) (run : ImportRun Op Op.Answer W) :
    Prop where
  documents : PartRead codec fromSlice delimited store w artifact run.documents
  toVec : run.toVec = encoder.toVec
  send : run.send = sender.send
  checkpoint : run.checkpoint = none

-- The parts of an export may be imported beside each other, each any number of times: the collection takes in
-- documents of the export only, and holds all of them when each part is in an import that came back clean.
theorem parts_imported (roundTrip : ∀ compression bytes,
    codec.decode compression (codec.encode compression bytes) = .ok bytes)
    (json : options.format ≠ .csv) (inverts : Inverts options.encoder fromSlice documents)
    (exported : Runs (Keeps held)
      (runSplitExportWithProgress codec (documents.map .ok) store options reporting) w (done manifest) w')
    (few : manifest.artifacts.length ≤ 2^32) (listed : ∀ i, artifacts i ∈ manifest.artifacts)
    (imports : ∀ i, PartImport codec fromSlice delimited options.encoder store w' (artifacts i)
      (senders i) (runs i))
    (stocks : ∀ i, Stocks (runs i) (senders i).options document decode key)
      (decodes : Decoded options.encoder decode documents)
    (distinct : (documents.map key).Nodup) (fresh : ∀ value ∈ documents, document start (key value) = none)
    (begun : ∀ i, ∃ now, runImportWithCheckpoint (runs i) start now = .ok (opened i))
    (path : SharedWorld.Path (beside runs) ⟨opened,start⟩ t) :
    Partly document key documents start t.world ∧
      ((∀ artifact ∈ manifest.artifacts, ∃ i summary, artifacts i = artifact ∧
          (t.states i).returned = some (.ok summary) ∧ Unrejected (t.states i)) →
        ∀ value ∈ documents, document t.world (key value) = some value) := by
  obtain ⟨groups,read,rfl⟩ :=
    @export_groups codec held options store reporting w w' manifest documents fromSlice delimited
      roundTrip json inverts
    exported few
  have each := export_encodes json exported
  have group : ∀ i, ∃ values, ReadsAs codec fromSlice delimited options store w'
      (artifacts i) values ∧ values ∈ groups := by
    intro i
    obtain ⟨n,inside,same⟩ := List.mem_iff_getElem.mp (listed i)
    have bound : n < groups.length := read.length_eq ▸ inside
    refine ⟨groups[n],?_,List.getElem_mem bound⟩
    rw [← same]
    exact (List.forall₂_iff_get.mp read).2 n inside bound
  choose values reads member using group
  have within : ∀ i, values i ⊆ groups.flatten := fun i value inside => List.mem_flatten.mpr ⟨_,member i,inside⟩
  have supplies : ∀ i, Supplies (runs i) (senders i) (lineOf options.encoder) (values i) := by
    intro i
    obtain ⟨documents,toVec,send,checkpoint⟩ := imports i
    exact ⟨partRead_group (reads i) documents,fun value inside =>
      toVec ▸ lineOf_encoded (each value (within i inside)),send,checkpoint⟩
  have lines : ∀ i chunk, chunk <:+: values i → decode (jsonl (lineOf options.encoder) chunk) = chunk :=
    fun i chunk part => decodes chunk (fun _ held => within i (part.subset held)) fun value held =>
      each value (within i (part.subset held))
  obtain ⟨partly,filled⟩ := beside_filled stocks supplies lines within distinct fresh begun path
  refine ⟨partly,fun every value inside => ?_⟩
  obtain ⟨own,listed_,held_⟩ := List.mem_flatten.mp inside
  obtain ⟨n,bound,rfl⟩ := List.mem_iff_getElem.mp listed_
  have bound' : n < manifest.artifacts.length := read.length_eq ▸ bound
  obtain ⟨i,summary,same,returned,clean⟩ := every _ (List.getElem_mem bound')
  have reads_ : ReadsAs codec fromSlice delimited options store w' (artifacts i) groups[n] :=
    same ▸ (List.forall₂_iff_get.mp read).2 n bound' bound
  exact filled i summary returned clean value (readsAs_unique reads_ (reads i) ▸ held_)

end Imports

section Sample

def partOptions : SplitOptions := {ManifestExactness.nullOptions with encoder := singleEncoder}

def twice : Bool → ImportRun Op Op.Answer (List Value) := fun _ => singleImport

theorem single_part : ∃ (manifest : Manifest) (artifact : Artifact) (w' : Objects),
    Runs (Keeps {}) (runSplitExportWithProgress ManifestExactness.exportCodec
      ([single].map .ok) 0 partOptions false) (fun _ => none)
      (done manifest) w' ∧ manifest.artifacts = [artifact] ∧
    ReadsAs ManifestExactness.exportCodec singleSlice
      (fun _ _ => ([],.ok ())) partOptions 0 w' artifact [single] := by
  have cuts : parts partOptions ([single].map .ok) = some [keyLine single ++ [newline]] := rfl
  obtain ⟨manifest,w',exported⟩ :=
    @split_runs ManifestExactness.exportCodec {} partOptions 0 false _ _ cuts fun _ => none
  have read := @artifacts_read ManifestExactness.exportCodec {} partOptions 0 false
      (fun _ => none) w' manifest [single] singleSlice
    (fun _ _ => ([],.ok ())) (fun _ _ => rfl) (show ExportFormat.jsonLines ≠ .csv from (by decide))
      (single_inverts _) exported
  have groups : (left (written partOptions ([single].map .ok))).map Part.documents = [[single]] := rfl
  rw [groups] at read
  obtain ⟨artifact,rest,reads,others,same⟩ := List.forall₂_cons_right_iff.mp read
  rw [List.forall₂_nil_right_iff.mp others] at same
  exact ⟨manifest,artifact,w',exported,same,reads⟩

theorem twice_run : ∃ (now : Nat) (opened : RunState singleImport)
    (t : SharedWorld.Together (fun i => RunState (twice i)) (List Value)),
    runImportWithCheckpoint singleImport [] now = .ok opened ∧
    SharedWorld.Path (beside twice) ⟨fun _ => opened,[]⟩ t ∧
    ∃ summary, (t.states true).returned = some (.ok summary) ∧ Unrejected (t.states true) := by
  obtain ⟨w',accepted⟩ := single_accepted
  obtain ⟨s,summary,reached,returned,-,answered,-⟩ :=
    solo_completes rfl (by decide) (by simp [singleImport]) rfl accepted
  have clean : Unrejected s := by
    intro answer present
    rw [answered] at present
    rw [List.mem_singleton.mp present]
  obtain ⟨now,opened,started,path⟩ := reached
  have lawful : SharedWorld.Lawful (beside twice) := beside_lawful
  have run := SharedWorld.alone (i:=true) lawful
      (⟨fun _ => opened,[]⟩ : SharedWorld.Together (fun i => RunState (twice i)) (List Value)) path
  have world : opened.world = [] := by rw [(runImportWithCheckpoint_inv started).2.2]; rfl
  have begins : (⟨fun _ => opened,[]⟩ : SharedWorld.Together (fun i => RunState (twice i))
      (List Value)).moved (beside twice) true opened =
      ⟨fun _ => opened,[]⟩ := by
    unfold SharedWorld.Together.moved
    congr 1
    exact Function.update_eq_self true _
  rw [begins] at run
  exact ⟨now,opened,_,started,run,summary,returned,clean⟩

theorem parts_filled : ∃ (opened : RunState singleImport)
    (t : SharedWorld.Together (fun i => RunState (twice i)) (List Value)),
    SharedWorld.Path (beside twice) ⟨fun _ => opened,[]⟩ t ∧ underKey t.world "a" = some single := by
  obtain ⟨manifest,artifact,w',exported,only,reads⟩ := single_part
  obtain ⟨now,opened,t,started,path,summary,returned,clean⟩ := twice_run
  have imports : ∀ i, PartImport ManifestExactness.exportCodec singleSlice
      (fun _ _ => ([],.ok ())) partOptions.encoder 0 w' artifact
      singleSender (twice i) := fun _ => ⟨group_partRead reads,rfl,rfl,rfl⟩
  have few : manifest.artifacts.length ≤ 2^32 := by rw [only]; exact Nat.one_le_two_pow
  have listed : ∀ _ : Bool, artifact ∈ manifest.artifacts := fun _ => by
    rw [only]; exact List.mem_singleton_self _
  have filled := parts_imported (fun _ _ => rfl) (show partOptions.format ≠ .csv from (by decide))
      (single_inverts _) exported few listed imports
    (fun _ => single_stocks) (@parsedLines_decoded singleOptions singleSlice _ (single_inverts _) rfl)
    (by decide) (fun _ _ => rfl) (fun _ => ⟨now,started⟩) path
  refine ⟨opened,t,path,filled.2 (fun other listed => ?_) single (.head _)⟩
  rw [only] at listed
  exact ⟨true,summary,(List.mem_singleton.mp listed).symm,returned,clean⟩

end Sample
end ArangoDataTools.PartImports
