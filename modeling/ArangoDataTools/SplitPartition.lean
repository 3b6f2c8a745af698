import ArangoDataTools.ManifestExactness
import ArangoDataTools.SplitEncoding

namespace ArangoDataTools.SplitPartition
open Interaction Interaction.Program StoredManifest DumpRun DumpSnapshot SplitExport SplitParts

-- A part of an export: its documents and its payload.
structure Part where
  documents : List Value
  payload : Bytes

-- The parts an export writes, one after the other, with the documents in them; where a
-- document or its encoding fails, those before it.
def cutting (options : SplitOptions) : List (Except Error Value) → PartFramer → Bytes → List Value →
    Nat → List Part
  | [],framer,buffer,held,cut => if held ≠ [] ∨ cut % 2^32 = 0 then [⟨held,buffer ++ framer.close⟩] else []
  | .error _ :: _,_,_,_,_ => []
  | .ok document :: rest,framer,buffer,held,cut => match framer.record options.encoder document with
    | .error _ => []
    | .ok (chunk,framer) =>
      if (buffer ++ chunk).length ≥ threshold options then
        ⟨held ++ [document],buffer ++ chunk ++ framer.close⟩ :: match framer.open options.encoder with
          | .error _ => []
          | .ok (opened,next) => cutting options rest next opened [] (cut+1)
      else cutting options rest framer (buffer ++ chunk) (held ++ [document]) cut

def written (options : SplitOptions) (documents : List (Except Error Value)) : List Part :=
  match PartFramer.new options.format options.fields with
  | .error _ => []
  | .ok framer => match framer.open options.encoder with
    | .error _ => []
    | .ok (opened,framer) => cutting options documents framer opened [] 0

def freshFramer (options : SplitOptions) : PartFramer := {format := options.format,fields := options.fields}

abbrev Holds (options : SplitOptions) : List Value → Bytes → PartFramer → Prop :=
  Unclosed options.encoder (freshFramer options)

def Early (options : SplitOptions) (documents : List Value) : Prop :=
  ∀ before last, documents = before ++ [last] → before ≠ [] →
    ∃ bytes framer, Holds options before bytes framer ∧ bytes.length < threshold options

variable {codec : Codec} {held : Holdings} {options : SplitOptions} {store : Nat} {reporting : Bool}
  {w w' : Objects}
  {framer next : PartFramer} {buffer chunk : Bytes} {kept : List Value} {document : Value} {cut : Nat}

structure Holding (options : SplitOptions) (framer : PartFramer) (buffer : Bytes)
    (kept : List Value) : Prop where
  holds : Holds options kept buffer framer
  short : kept ≠ [] → buffer.length < threshold options

theorem holding_early (holding : Holding options framer buffer kept) : Early options kept := by
  rintro before last rfl _
  obtain ⟨shorter,earlier,holds,less⟩ := unclosed_shorter holding.holds
  exact ⟨shorter,earlier,holds,less.trans_lt (holding.short (by simp))⟩

theorem filled_early (holding : Holding options framer buffer kept) (document : Value) :
    Early options (kept ++ [document]) := by
  intro before last whole some_
  obtain ⟨rfl,-⟩ := List.append_inj' whole rfl
  exact ⟨buffer,framer,holding.holds,holding.short some_⟩

structure Whole (options : SplitOptions) (part : Part) : Prop where
  closed : ∃ bytes framer, Holds options part.documents bytes framer ∧ part.payload = bytes ++ framer.close
  early : Early options part.documents

def Reached (options : SplitOptions) (part : Part) : Prop :=
  ∃ bytes framer, Holds options part.documents bytes framer ∧ part.payload = bytes ++ framer.close ∧
    threshold options ≤ bytes.length

theorem cutting_cons (options : SplitOptions) (document : Value) (rest : List (Except Error Value))
    (framer : PartFramer) (buffer : Bytes)
    (kept : List Value) (cut : Nat) :
    (∃ err, framer.record options.encoder document = .error err ∧
    cutting options (.ok document :: rest) framer buffer kept cut = []) ∨
    (∃ chunk next, framer.record options.encoder document = .ok (chunk,next) ∧
    (buffer ++ chunk).length ≥ threshold options ∧
      ((∃ err, next.open options.encoder = .error err ∧
          cutting options (.ok document :: rest) framer buffer kept cut =
          [⟨kept ++ [document],buffer ++ chunk ++ next.close⟩]) ∨
        ∃ opened reopened, next.open options.encoder = .ok (opened,reopened) ∧
          cutting options (.ok document :: rest) framer buffer kept cut =
          ⟨kept ++ [document],buffer ++ chunk ++ next.close⟩ :: cutting options rest reopened opened
            [] (cut+1))) ∨
    ∃ chunk next, framer.record options.encoder document = .ok (chunk,next) ∧
      (buffer ++ chunk).length < threshold options ∧
      cutting options (.ok document :: rest) framer buffer kept cut =
      cutting options rest next (buffer ++ chunk) (kept ++ [document]) cut := by
  rw [cutting]
  cases recorded : framer.record options.encoder document with
  | error err => exact .inl ⟨err,rfl,rfl⟩
  | ok result =>
    obtain ⟨chunk,next⟩ := result
    by_cases full : (buffer ++ chunk).length ≥ threshold options
    · refine .inr (.inl ⟨chunk,next,rfl,full,?_⟩)
      simp only [if_pos full]
      cases opened : next.open options.encoder with
      | error err => exact .inl ⟨err,rfl,rfl⟩
      | ok result => exact .inr ⟨result.1,result.2,rfl,rfl⟩
    · exact .inr (.inr ⟨chunk,next,rfl,by omega,by simp only [if_neg full]⟩)

theorem filled_reached (holding : Holding options framer buffer kept)
    (recorded : framer.record options.encoder document = .ok (chunk,next))
      (full : (buffer ++ chunk).length ≥ threshold options) :
    Whole options ⟨kept ++ [document],buffer ++ chunk ++ next.close⟩ ∧
      Reached options ⟨kept ++ [document],buffer ++ chunk ++ next.close⟩ :=
  ⟨⟨⟨_,_,.recorded holding.holds recorded,rfl⟩,filled_early holding document⟩,_,_,
    .recorded holding.holds recorded,rfl,full⟩

theorem reopened_holding {opened : Bytes} {reopened : PartFramer} (holding : Holding options framer buffer kept)
    (recorded : framer.record options.encoder document = .ok (chunk,next))
      (again : next.open options.encoder = .ok (opened,reopened)) :
    Holding options reopened opened [] := by
  rw [reopen_same (.recorded holding.holds recorded)] at again
  exact ⟨.opened again,fun some_ => absurd rfl some_⟩

theorem added_holding (holding : Holding options framer buffer kept)
    (recorded : framer.record options.encoder document = .ok (chunk,next))
      (few : (buffer ++ chunk).length < threshold options) :
    Holding options next (buffer ++ chunk) (kept ++ [document]) :=
      ⟨.recorded holding.holds recorded,fun _ => few⟩

theorem cutting_parts (documents : List (Except Error Value)) (holding : Holding options framer buffer kept) :
    (∀ part ∈ cutting options documents framer buffer kept cut, Whole options part) ∧
      ∀ part ∈ (cutting options documents framer buffer kept cut).dropLast, Reached options part := by
  induction documents generalizing framer buffer kept cut with
  | nil =>
    rw [cutting]
    split_ifs with more
    · refine ⟨fun part member => ?_,List.forall_mem_nil _⟩
      rw [List.mem_singleton.mp member]
      exact ⟨⟨_,_,holding.holds,rfl⟩,holding_early holding⟩
    · exact ⟨List.forall_mem_nil _,List.forall_mem_nil _⟩
  | cons item rest ih => cases item with
    | error err => exact ⟨List.forall_mem_nil _,List.forall_mem_nil _⟩
    | ok document =>
      rcases cutting_cons options document rest framer buffer kept cut
        with ⟨err,-,none_⟩ | ⟨chunk,next,recorded,full,ends⟩ |
        ⟨chunk,next,recorded,few,more⟩
      · rw [none_]
        exact ⟨List.forall_mem_nil _,List.forall_mem_nil _⟩
      · obtain ⟨whole,reached⟩ := filled_reached holding recorded full
        rcases ends with ⟨err,-,single⟩ | ⟨opened,reopened,again,more⟩
        · rw [single]
          exact ⟨fun part member => List.mem_singleton.mp member ▸ whole,List.forall_mem_nil _⟩
        · obtain ⟨later,onwards⟩ := @ih reopened opened [] (cut+1) (reopened_holding holding recorded again)
          rw [more]
          refine ⟨List.forall_mem_cons.mpr ⟨whole,later⟩,?_⟩
          cases others : cutting options rest reopened opened [] (cut+1) with
          | nil => exact List.forall_mem_nil _
          | cons second others_ =>
            rw [others] at onwards
            rw [List.dropLast_cons_cons]
            exact List.forall_mem_cons.mpr ⟨reached,onwards⟩
      · rw [more]
        exact ih (added_holding holding recorded few)

theorem cutParts_cutting (documents : List Value) {payloads : List Bytes}
    (cuts : cutParts options (documents.map .ok) framer buffer kept.length cut = some payloads) :
    payloads = (cutting options (documents.map .ok) framer buffer kept cut).map Part.payload ∧
      (cutting options (documents.map .ok) framer buffer kept cut).flatMap Part.documents =
      kept ++ documents := by
  induction documents generalizing framer buffer kept cut payloads with
  | nil =>
    have some_ : kept.length > 0 ↔ kept ≠ [] := List.length_pos_iff
    simp only [List.map_nil,cutParts,cutting,some_,Option.some.injEq] at cuts ⊢
    subst cuts
    by_cases more : kept ≠ [] ∨ cut % 2^32 = 0
    · simp only [if_pos more]
      exact ⟨rfl,by simp⟩
    · simp only [if_neg more]
      obtain rfl : kept = [] := by simpa using (not_or.mp more).1
      exact ⟨rfl,rfl⟩
  | cons document rest ih =>
    rw [List.map_cons,cutParts] at cuts
    rw [List.map_cons,cutting]
    cases recorded : framer.record options.encoder document with
    | error err =>
      simp only [recorded] at cuts
      cases cuts
    | ok result =>
      obtain ⟨chunk,next⟩ := result
      simp only [recorded] at cuts ⊢
      by_cases full : (buffer ++ chunk).length ≥ threshold options
      · simp only [if_pos full] at cuts ⊢
        cases opened : next.open options.encoder with
        | error err =>
          simp only [opened] at cuts
          cases cuts
        | ok result =>
          simp only [opened] at cuts ⊢
          obtain ⟨later,others,rfl⟩ := Option.map_eq_some_iff.mp cuts
          obtain ⟨rfl,documents⟩ := @ih result.2 result.1 [] (cut+1) later others
          exact ⟨rfl,by rw [List.flatMap_cons,documents]; simp⟩
      · simp only [if_neg full] at cuts ⊢
        have size : kept.length + 1 = (kept ++ [document]).length := by
          rw [List.length_append,List.length_singleton]
        rw [size] at cuts
        obtain ⟨rfl,documents⟩ := ih cuts
        exact ⟨rfl,by rw [documents]; simp⟩

theorem cutting_nonempty (documents : List Value)
    (few : cut + (cutting options (documents.map .ok) framer buffer kept cut).length < 2^32) :
    (∀ part ∈ cutting options (documents.map .ok) framer buffer kept cut, part.documents ≠ []) ∨
    cut = 0 ∧ kept = [] ∧ documents = [] := by
  induction documents generalizing framer buffer kept cut with
  | nil =>
    by_cases empty : kept = []
    · by_cases first : cut = 0
      · exact .inr ⟨first,empty,rfl⟩
      · have over_ : ¬ (kept ≠ [] ∨ cut % 2^32 = 0) := by
          simp only [not_or,not_not]
          exact ⟨empty,by omega⟩
        simp only [List.map_nil,cutting,if_neg over_]
        exact .inl (List.forall_mem_nil _)
    · simp only [List.map_nil,cutting,if_pos (Or.inl empty : kept ≠ [] ∨ cut % 2^32 = 0)]
      exact .inl fun part member => by rw [List.mem_singleton.mp member]; exact empty
  | cons document rest ih =>
    rw [List.map_cons] at few ⊢
    rcases cutting_cons options document (rest.map .ok) framer buffer kept cut
      with ⟨err,-,none_⟩ | ⟨chunk,next,-,-,ends⟩ |
      ⟨chunk,next,-,-,more⟩
    · rw [none_]
      exact .inl (List.forall_mem_nil _)
    · have some_ : kept ++ [document] ≠ [] := by simp
      rcases ends with ⟨err,-,single⟩ | ⟨opened,reopened,-,more⟩
      · rw [single]
        exact .inl fun part member => by rw [List.mem_singleton.mp member]; exact some_
      · rw [more] at few ⊢
        rw [List.length_cons] at few
        rcases @ih reopened opened [] (cut+1) (by omega) with later | ⟨absurd_,-⟩
        · exact .inl (List.forall_mem_cons.mpr ⟨some_,later⟩)
        · omega
    · rw [more] at few ⊢
      rcases ih few with later | ⟨-,absurd_,-⟩
      · exact .inl later
      · simp at absurd_

section Labels

structure Labelled (options : SplitOptions) (number : UInt32) (artifact : Artifact) : Prop where
  path : artifact.path = partPath options number
  part : artifact.part = some number.toNat
  kind : artifact.kind = .data
  format : artifact.format = (freshFramer options).dataFormat
  compression : artifact.compression = options.compression

def AllLabelled (options : SplitOptions) (manifest : Manifest) : Prop :=
  ∀ artifact ∈ manifest.artifacts, ∃ number, Labelled options number artifact

theorem dataFormat_same {first second : PartFramer} (same : first.format = second.format) :
    first.dataFormat = second.dataFormat := by
  rw [PartFramer.dataFormat,PartFramer.dataFormat,same]

theorem flush_labelled {s s' : Splitting}
    (runs : Runs (Keeps held) (flushPart codec store options reporting s) w (done s') w')
    (format : s.framer.format = options.format) (labelled : AllLabelled options s.manifest) :
    AllLabelled options s'.manifest ∧ s'.framer = s.framer := by
  obtain ⟨manifest,w₁,written,runs₁⟩ := runs_bind_done runs
  obtain ⟨total,w₂,-,runs₂⟩ := runs_bind_done runs₁
  obtain ⟨same,-⟩ := runs_done runs₂
  cases same
  obtain ⟨size,w₃,-,pushed⟩ := runs_bind_done written
  obtain ⟨same,-⟩ := runs_done pushed
  cases same
  refine ⟨fun artifact member => ?_,rfl⟩
  simp only [Manifest.push_artifacts,List.mem_append,List.mem_singleton] at member
  rcases member with before | rfl
  · exact labelled artifact before
  · exact ⟨s.part,rfl,rfl,rfl,dataFormat_same format,rfl⟩

theorem documents_labelled {documents : List (Except Error Value)} {s s' : Splitting}
    (runs : Runs (Keeps held) (splitDocuments codec store options reporting documents s) w (done s') w')
    (format : s.framer.format = options.format) (labelled : AllLabelled options s.manifest) :
    AllLabelled options s'.manifest ∧ s'.framer.format = options.format := by
  induction documents generalizing s w with
  | nil =>
    obtain ⟨same,-⟩ := runs_done runs
    cases same
    exact ⟨labelled,format⟩
  | cons document rest ih =>
    unfold splitDocuments at runs
    obtain ⟨value,w₁,-,runs₁⟩ := runs_bind_done runs
    obtain ⟨⟨chunk,framer⟩,w₂,framed,runs₂⟩ := runs_bind_done runs₁
    obtain ⟨recorded,-⟩ := lift_returns framed
    have kept : framer.format = options.format := (record_kept recorded).1.trans format
    by_cases full : (s.buffer ++ chunk).length ≥ threshold options
    · simp only [if_pos full] at runs₂
      obtain ⟨s₁,w₃,flushed,runs₃⟩ := runs_bind_done runs₂
      obtain ⟨⟨opened,next⟩,w₄,reopened,runs₄⟩ := runs_bind_done runs₃
      obtain ⟨again,-⟩ := lift_returns reopened
      obtain ⟨pushed,same⟩ := flush_labelled flushed kept labelled
      exact ih runs₄ ((open_kept again).1.trans (same ▸ kept)) pushed
    · simp only [if_neg full] at runs₂
      exact ih runs₂ kept labelled

theorem new_framer {format : ExportFormat} {fields : Option (List String)}
    (built : PartFramer.new format fields = .ok framer) :
    framer = {format := format,fields := fields} ∧ (format = .csv → fields.getD [] ≠ []) := by
  unfold PartFramer.new at built
  split_ifs at built with nameless
  cases built
  exact ⟨rfl,fun csv none_ => nameless ⟨csv,none_⟩⟩

theorem split_labelled {documents : List (Except Error Value)} {manifest : Manifest}
    (runs : Runs (Keeps held) (runSplitExportWithProgress codec documents store options reporting) w
      (done manifest) w') :
    AllLabelled options manifest := by
  obtain ⟨framer,w₁,built,runs₁⟩ := runs_bind_done runs
  obtain ⟨framed,-⟩ := lift_returns built
  obtain ⟨⟨opened,framer₁⟩,w₂,begun,runs₂⟩ := runs_bind_done runs₁
  obtain ⟨first,-⟩ := lift_returns begun
  obtain ⟨s,w₃,looped,runs₃⟩ := runs_bind_done runs₂
  obtain ⟨s',w₄,ended,runs₄⟩ := runs_bind_done runs₃
  obtain ⟨size,w₅,-,runs₅⟩ := runs_bind_done runs₄
  obtain ⟨same,-⟩ := runs_done runs₅
  cases same
  obtain ⟨rfl,-⟩ := new_framer framed
  obtain ⟨labelled,format⟩ := documents_labelled looped (open_kept first).1 (List.forall_mem_nil _)
  split_ifs at ended with more
  · exact (flush_labelled ended format labelled).1
  · obtain ⟨same,-⟩ := runs_done ended
    cases same
    exact labelled

end Labels
section Partition

theorem numbered_at {payloads : List Bytes} {pieces : List Piece}
    (numbered : Numbered codec options cut payloads pieces) :
    pieces.length = payloads.length ∧ ∀ i payload, payloads[i]? = some payload → ∃ piece,
    pieces[i]? = some piece ∧
      piece.1.path = partPath options (UInt32.ofNat (cut+i)) ∧
      piece.2 = codec.encode options.compression payload := by
  induction numbered with
  | nil => exact ⟨rfl,fun i payload none_ => by simp at none_⟩
  | cons path body _ _ ih =>
    obtain ⟨size,each⟩ := ih
    refine ⟨by rw [List.length_cons,List.length_cons,size],fun i other found => ?_⟩
    cases i with
    | zero =>
      cases found
      exact ⟨_,rfl,path,body⟩
    | succ i =>
      obtain ⟨later,present,place,content⟩ := each i other found
      refine ⟨later,present,?_,content⟩
      rw [place,Nat.add_assoc,Nat.add_comm 1]

structure Stored (codec : Codec) (options : SplitOptions) (store : Nat) (w : Objects) (number : Nat)
    (artifact : Artifact)
    (content : Part) : Prop where
  path : artifact.path = partPath options (UInt32.ofNat number)
  part : artifact.part = some number
  format : artifact.format = (freshFramer options).dataFormat
  compression : artifact.compression = options.compression
  object : ∃ body, w ⟨store,artifact.path⟩ = some body ∧ codec.decode options.compression body =
    .ok content.payload

structure Partition (codec : Codec) (options : SplitOptions) (store : Nat) (w : Objects)
    (documents : List Value) (artifacts : List Artifact)
    (parts : List Part) : Prop where
  covers : parts.flatMap Part.documents = documents
  encoded : ∀ part ∈ parts, Encodes options.encoder options.format options.fields part.documents part.payload
  count : artifacts.length = parts.length
  stored : ∀ number part, parts[number]? = some part → ∃ artifact, artifacts[number]? = some artifact ∧
    Stored codec options store w number artifact part
  distinct : (artifacts.map Artifact.path).Nodup
  nonempty : documents ≠ [] → ∀ part ∈ parts, part.documents ≠ []
  empty : documents = [] → parts.length = 1
  reached : ∀ part ∈ parts.dropLast, Reached options part
  early : ∀ part ∈ parts, Early options part.documents

theorem whole_encodes {part : Part} (whole : Whole options part)
    (listed : options.format = .csv → options.fields.getD [] ≠ []) :
    Encodes options.encoder options.format options.fields part.documents part.payload := by
  obtain ⟨bytes,framer,holds,payload⟩ := whole.closed
  rw [payload]
  exact unclosed_encodes holds listed

theorem parts_written {documents : List Value} {payloads : List Bytes}
    (cuts : parts options (documents.map .ok) = some payloads) :
    payloads = (written options (documents.map .ok)).map Part.payload ∧
      (written options (documents.map .ok)).flatMap Part.documents = documents ∧
      (options.format = .csv → options.fields.getD [] ≠ []) ∧
      (∀ part ∈ written options (documents.map .ok), Whole options part) ∧
      (∀ part ∈ (written options (documents.map .ok)).dropLast, Reached options part) ∧
      ((written options (documents.map .ok)).length < 2^32 →
        (∀ part ∈ written options (documents.map .ok), part.documents ≠ []) ∨ documents = []) ∧
      (documents = [] → (written options (documents.map .ok)).length = 1) := by
  unfold parts at cuts
  unfold written
  cases built : PartFramer.new options.format options.fields with
  | error err =>
    rw [built] at cuts
    cases cuts
  | ok framer =>
    rw [built] at cuts
    cases begun : framer.open options.encoder with
    | error err =>
      simp only [begun] at cuts
      cases cuts
    | ok result =>
      obtain ⟨opened,next⟩ := result
      simp only [begun] at cuts ⊢
      obtain ⟨rfl,listed⟩ := new_framer built
      have start : Holding options next opened [] := ⟨.opened begun,fun some_ => absurd rfl some_⟩
      obtain ⟨payloads_,covers⟩ := @cutParts_cutting options next opened [] 0 documents payloads cuts
      obtain ⟨whole,reached⟩ := @cutting_parts options next opened [] 0 (documents.map .ok) start
      refine ⟨payloads_,covers,listed,whole,reached,fun few => ?_,?_⟩
      · rcases @cutting_nonempty options next opened [] 0 documents (by omega) with some_ | ⟨-,-,none_⟩
        · exact .inl some_
        · exact .inr none_
      · rintro rfl
        rfl

-- An export that returns has stored the encodings of a partition of its documents.
theorem split_partition (codec : Codec) (roundTrip : ∀ compression bytes,
    codec.decode compression (codec.encode compression bytes) = .ok bytes)
    (held : Holdings) (documents : List Value) (store : Nat) (options : SplitOptions)
      (reporting : Bool) (manifest : Manifest) (w w' : Objects)
    (few : manifest.artifacts.length < 2^32)
    (runs : Runs (Keeps held)
      (runSplitExportWithProgress codec (documents.map .ok) store options reporting) w (done manifest) w') :
    ∃ parts, Partition codec options store w' documents manifest.artifacts parts := by
  obtain ⟨payloads,pieces,cuts,numbered,listed,rfl⟩ := split_returns runs
  obtain ⟨rfl,covers,fields,whole,reached,some_,empty⟩ := parts_written cuts
  obtain ⟨size,each⟩ := numbered_at numbered
  have labelled := split_labelled runs
  have count : manifest.artifacts.length = (written options (documents.map .ok)).length := by
    rw [listed,List.length_map,size,List.length_map]
  have paths : manifest.artifacts.map Artifact.path =
      (List.range' 0 (written options (documents.map .ok)).length).map fun index =>
      partPath options (UInt32.ofNat index) := by
    rw [listed,numbered_paths numbered,List.length_map]
  have distinct : (manifest.artifacts.map Artifact.path).Nodup := by
    rw [paths]
    exact (numbers_distinct _).mpr (by omega)
  refine ⟨written options (documents.map .ok),covers,fun part member =>
    whole_encodes (whole part member) fields,count,
    fun number part present => ?_,distinct,fun nonempty => ?_,empty,reached,fun part member =>
      (whole part member).early⟩
  · obtain ⟨piece,found,path,content⟩ := each number part.payload (by rw [List.getElem?_map,present]; rfl)
    rw [Nat.zero_add] at path
    have inside : piece ∈ pieces := List.mem_of_getElem? found
    have listed_ : piece.1 ∈ manifest.artifacts := listed ▸ List.mem_map_of_mem inside
    obtain ⟨other,label⟩ := labelled piece.1 listed_
    obtain rfl : other = UInt32.ofNat number := partPath_inj (label.path.symm.trans path)
    have below : number < 2^32 := by
      have bound := (List.getElem?_eq_some_iff.mp present).1
      omega
    refine ⟨piece.1,by rw [listed,List.getElem?_map,found]; rfl,path,?_,label.format,
      label.compression,piece.2,?_,?_⟩
    · rw [label.part,UInt32.toNat_ofNat_of_lt' below]
    · have other : (⟨store,piece.1.path⟩ : ObjectRef) ≠ ⟨store,manifestPath options⟩ := by
        rw [path]
        exact fun same => partPath_plain (UInt32.ofNat number) (congrArg ObjectRef.path same)
      rw [Function.update_of_ne other]
      exact pieces_left (listed ▸ distinct) inside w
    · rw [content]
      exact roundTrip _ _
  · rcases some_ (by omega) with all | none_
    · exact all
    · exact absurd none_ nonempty

-- Two documents, each one a part.
theorem two_nulls_partitioned : ∃ (manifest : Manifest) (w' : Objects) (parts : List Part),
    manifest.artifacts.length = 2 ∧
    Partition ManifestExactness.exportCodec ManifestExactness.nullOptions 0 w'
      [.null,.null] manifest.artifacts parts := by
  let line : Bytes := asciiBytes "null" ++ [10]
  have cuts : parts ManifestExactness.nullOptions (ManifestExactness.nulls 2) = some [line,line] := rfl
  obtain ⟨manifest,w',runs⟩ :=
    @split_runs ManifestExactness.exportCodec {} ManifestExactness.nullOptions 0 false _ _ cuts fun _ => none
  obtain ⟨payloads,pieces,same,numbered,listed,-⟩ := split_returns runs
  obtain rfl : [line,line] = payloads := Option.some.inj (cuts.symm.trans same)
  have two : manifest.artifacts.length = 2 := by rw [listed,List.length_map,(numbered_at numbered).1]; rfl
  obtain ⟨parts,partition⟩ := split_partition ManifestExactness.exportCodec (fun _ _ => rfl) {} [.null,.null] 0
    ManifestExactness.nullOptions false manifest (fun _ => none) w' (by omega) runs
  exact ⟨manifest,w',parts,two,partition⟩

end Partition
end ArangoDataTools.SplitPartition
