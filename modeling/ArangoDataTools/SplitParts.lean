import ArangoDataTools.DumpSnapshot
import ArangoDataTools.SplitExport

namespace ArangoDataTools.SplitParts
open Interaction Interaction.Program Dump DumpRun StoredManifest DumpSnapshot SplitExport

-- The parts an export cuts its documents into, `cut` of them done: each holds
-- records up to the first one with which it reaches the threshold. Nothing is
-- left over, except that the first part is there even when it is empty.
def cutParts (options : SplitOptions) : List (Except Error Value) → PartFramer → Bytes → Nat → Nat →
    Option (List Bytes)
  | [], framer, buffer, records, cut =>
      some (if records > 0 ∨ cut % 2^32 = 0 then [buffer ++ framer.close] else [])
  | .error _ :: _, _, _, _, _ => none
  | .ok document :: rest, framer, buffer, records, cut => match framer.record options.encoder document with
    | .error _ => none
    | .ok (chunk,framer) =>
      if (buffer ++ chunk).length ≥ threshold options then match framer.open options.encoder with
        | .error _ => none
        | .ok (opened,next) => (cutParts options rest next opened 0 (cut+1)).map
            ((buffer ++ chunk ++ framer.close) :: ·)
      else cutParts options rest framer (buffer ++ chunk) (records+1) cut

def parts (options : SplitOptions) (documents : List (Except Error Value)) : Option (List Bytes) :=
  match PartFramer.new options.format options.fields with
  | .error _ => none
  | .ok framer => match framer.open options.encoder with
    | .error _ => none
    | .ok (opened,framer) => cutParts options documents framer opened 0 0

-- The pieces of the parts, numbered from `cut` on.
inductive Numbered (codec : Codec) (options : SplitOptions) : Nat → List Bytes → List Piece → Prop where
  | nil : Numbered codec options cut [] []
  | cons : piece.1.path = partPath options (UInt32.ofNat cut) →
      piece.2 = codec.encode options.compression payload →
      Measured codec piece → Numbered codec options (cut+1) payloads pieces →
      Numbered codec options cut (payload :: payloads) (piece :: pieces)

variable {codec : Codec} {held : Holdings} {options : SplitOptions} {store : Nat} {reporting : Bool}
  {w w' : Objects}

theorem numbered_append {first second : List Bytes} {one two : List Piece}
    (left : Numbered codec options cut first one)
    (right : Numbered codec options (cut + first.length) second two) :
    Numbered codec options cut (first ++ second) (one ++ two) := by
  induction left with
  | nil => exact right
  | cons path body measured _ ih =>
    refine .cons path body measured (ih ?_)
    rw [List.length_cons] at right
    rwa [Nat.add_assoc,Nat.add_comm 1]

theorem numbered_measured {payloads : List Bytes} {pieces : List Piece}
    (numbered : Numbered codec options cut payloads pieces) :
    ∀ piece ∈ pieces, Measured codec piece := by
  induction numbered with
  | nil => exact fun _ none_ => by cases none_
  | cons _ _ measured _ ih =>
    intro piece member
    rcases List.mem_cons.mp member with rfl | later
    · exact measured
    · exact ih piece later

theorem numbered_paths {payloads : List Bytes} {pieces : List Piece}
    (numbered : Numbered codec options cut payloads pieces) :
    (pieces.map Prod.fst).map Artifact.path =
      (List.range' cut payloads.length).map fun index => partPath options (UInt32.ofNat index) := by
  induction numbered with
  | nil => rfl
  | cons path _ _ _ ih =>
    rw [List.map_cons,List.map_cons,ih,List.length_cons,List.range'_succ,List.map_cons,path]

section Paths

theorem paddedPart_value (part : UInt32) : Nat.ofDigitChars 10 (paddedPart part) 0 = part.toNat := by
  simp [paddedPart,Nat.ofDigitChars_append]

theorem partPath_inj {i j : UInt32} (same : partPath options i = partPath options j) : i = j := by
  have digits : paddedPart i = paddedPart j := by
    simpa [partPath,← String.toList_inj] using same
  exact UInt32.toNat_inj.mp (by rw [← paddedPart_value i,digits,paddedPart_value])

theorem partPath_plain (part : UInt32) : partPath options part ≠ manifestPath options := by
  intro same
  have cut : ".part-" ++ (String.ofList (paddedPart part) ++ ("." ++ partSuffix options)) =
      ".manifest.json" := by
    apply (String.append_right_inj options.basePath).mp
    simpa only [partPath,manifestPath,String.append_assoc] using same
  have lists := congrArg String.toList cut
  rw [String.toList_append] at lists
  have second := congrArg (fun chars : List Char => chars.tail.head?) lists
  change some 'p' = some 'm' at second
  exact absurd second (by decide)

theorem numbers_distinct (count : Nat) :
    ((List.range' 0 count).map fun index => partPath options (UInt32.ofNat index)).Nodup ↔ count ≤ 2^32 := by
  constructor
  · intro distinct
    by_contra beyond
    have first : 0 < ((List.range' 0 count).map fun index => partPath options (UInt32.ofNat index)).length := by
      rw [List.length_map,List.length_range']
      omega
    have last : 2^32 < ((List.range' 0 count).map fun index =>
        partPath options (UInt32.ofNat index)).length := by
      rw [List.length_map,List.length_range']
      omega
    have equal := (@List.Nodup.getElem_inj_iff _ _ distinct 0 first (2^32) last).mp (by simp)
    omega
  · intro few
    apply List.Nodup.map_on _ List.nodup_range'
    intro i low j low' same
    have below : i < 2^32 := by
      have bound := (List.mem_range'_1.mp low).2
      omega
    have below' : j < 2^32 := by
      have bound := (List.mem_range'_1.mp low').2
      omega
    have numbers := congrArg UInt32.toNat (partPath_inj same)
    rwa [UInt32.toNat_ofNat_of_lt' below,UInt32.toNat_ofNat_of_lt' below'] at numbers

end Paths
section Returned

theorem progress_still {q : Tool Nat} {manifest : Manifest} {total : Nat}
    (runs : Runs (Keeps held) (emitPartProgress reporting manifest total) w q w') : w' = w := by
  unfold emitPartProgress at runs
  cases reporting with
  | true =>
    cases runs with
    | here => rfl
    | call _ _ answer middle answered rest =>
      obtain ⟨-,rfl⟩ := runs_done rest
      cases answered
      rfl
  | false => exact (runs_done runs).2

theorem flush_returns {s s' : Splitting}
    (runs : Runs (Keeps held) (flushPart codec store options reporting s) w (done s') w') :
    ∃ piece : Piece, piece.1.path = partPath options s.part ∧
    piece.2 = codec.encode options.compression (s.buffer ++ s.framer.close) ∧
      Measured codec piece ∧ Added store s.manifest s'.manifest [piece] w w' ∧
      s'.framer = s.framer ∧ s'.part = s.part := by
  obtain ⟨manifest,w₁,written,runs₁⟩ := runs_bind_done runs
  obtain ⟨total,w₂,shown,runs₂⟩ := runs_bind_done runs₁
  obtain rfl := progress_still shown
  obtain ⟨same,rfl⟩ := runs_done runs₂
  cases same
  obtain ⟨size,w₃,stored,pushed⟩ := runs_bind_done written
  obtain ⟨rfl,rfl⟩ := put_returns stored
  obtain ⟨same,rfl⟩ := runs_done pushed
  cases same
  exact ⟨(_,_),rfl,rfl,⟨rfl,fun _ same => (Option.some.inj same).symm⟩,⟨rfl,rfl⟩,rfl,rfl⟩

theorem documents_returns {documents : List (Except Error Value)} {s s' : Splitting} {cut : Nat}
    (numbered : s.part = UInt32.ofNat cut)
    (runs : Runs (Keeps held) (splitDocuments codec store options reporting documents s) w (done s') w') :
    ∃ payloads pieces, Numbered codec options cut payloads pieces ∧
    Added store s.manifest s'.manifest pieces w w' ∧
      s'.part = UInt32.ofNat (cut + payloads.length) ∧
      cutParts options documents s.framer s.buffer s.recordsInPart cut =
        (cutParts options [] s'.framer s'.buffer s'.recordsInPart (cut + payloads.length)).map
          (payloads ++ ·) := by
  induction documents generalizing s w cut with
  | nil =>
    obtain ⟨same,rfl⟩ := runs_done runs
    cases same
    exact ⟨[],[],.nil,added_nothing _ _ _,numbered,by simp⟩
  | cons document rest ih =>
    unfold splitDocuments at runs
    obtain ⟨value,w₁,given,runs₁⟩ := runs_bind_done runs
    obtain ⟨rfl,rfl⟩ := lift_returns given
    obtain ⟨⟨chunk,framer⟩,w₂,framed,runs₂⟩ := runs_bind_done runs₁
    obtain ⟨recorded,rfl⟩ := lift_returns framed
    unfold cutParts
    simp only [recorded]
    by_cases full : (s.buffer ++ chunk).length ≥ threshold options
    · simp only [if_pos full] at runs₂ ⊢
      obtain ⟨s₁,w₃,flushed,runs₃⟩ := runs_bind_done runs₂
      obtain ⟨⟨opened,next⟩,w₄,reopened,runs₄⟩ := runs_bind_done runs₃
      obtain ⟨again,rfl⟩ := lift_returns reopened
      obtain ⟨piece,path,body,measured,added,framer_,part⟩ := flush_returns flushed
      have following : s₁.part + 1 = UInt32.ofNat (cut+1) := by
        rw [part,numbered]
        apply UInt32.toNat_inj.mp
        simp
      obtain ⟨payloads,pieces,later,more,reached,left⟩ := ih following runs₄
      rw [framer_] at again
      refine ⟨(s.buffer ++ chunk ++ framer.close) :: payloads,piece :: pieces,
        .cons ?_ body measured later,added_then added more,?_,?_⟩
      · rw [path,numbered]
      · rw [reached,List.length_cons]
        congr 1
        omega
      · simp only at left
        rw [again]
        simp only
        rw [left,Option.map_map,List.length_cons,Nat.add_assoc,Nat.add_comm 1]
        rfl
    · simp only [if_neg full] at runs₂ ⊢
      exact ih (s:={s with framer := framer,buffer := s.buffer ++ chunk,recordsInPart := s.recordsInPart + 1}) numbered runs₂

theorem part_zero (count : Nat) : UInt32.ofNat count = 0 ↔ count % 2^32 = 0 := by
  rw [← UInt32.toNat_inj]
  simp

theorem split_returns {documents : List (Except Error Value)} {manifest : Manifest}
    (runs : Runs (Keeps held) (runSplitExportWithProgress codec documents store options reporting) w
      (done manifest) w') :
    ∃ payloads pieces, parts options documents = some payloads ∧ Numbered codec options 0 payloads pieces ∧
      manifest.artifacts = pieces.map Prod.fst ∧
      w' = Function.update (putAll store (writes pieces) w) ⟨store,manifestPath options⟩
        (some (codec.manifestToJson manifest)) := by
  obtain ⟨framer,w₁,built,runs₁⟩ := runs_bind_done runs
  obtain ⟨framed,rfl⟩ := lift_returns built
  obtain ⟨⟨opened,framer₁⟩,w₂,begun,runs₂⟩ := runs_bind_done runs₁
  obtain ⟨first,rfl⟩ := lift_returns begun
  obtain ⟨s,w₃,looped,runs₃⟩ := runs_bind_done runs₂
  obtain ⟨s',w₄,ended,runs₄⟩ := runs_bind_done runs₃
  obtain ⟨size,w₅,written,runs₅⟩ := runs_bind_done runs₄
  obtain ⟨rfl,rfl⟩ := put_returns written
  obtain ⟨same,rfl⟩ := runs_done runs₅
  cases same
  obtain ⟨payloads,pieces,numbered,added,part,left⟩ := @documents_returns _ _ _ _ _ _ _ _ _ _ 0 rfl looped
  rw [Nat.zero_add] at part left
  have wraps : s.part = 0 ↔ payloads.length % 2^32 = 0 := by rw [part,part_zero]
  have cut : parts options documents =
      (cutParts options [] s.framer s.buffer s.recordsInPart payloads.length).map (payloads ++ ·) := by
    unfold parts
    simp only [framed,first]
    exact left
  unfold cutParts at cut
  by_cases more : s.recordsInPart > 0 ∨ s.part = 0
  · rw [if_pos more] at ended
    obtain ⟨piece,path,body,measured,last,-,-⟩ := flush_returns ended
    rw [wraps] at more
    rw [if_pos more] at cut
    have whole := added_then added last
    refine ⟨payloads ++ [s.buffer ++ s.framer.close],pieces ++ [piece],cut,?_,?_,?_⟩
    · apply numbered_append numbered
      exact .cons (by rw [path,part,Nat.zero_add]) body measured .nil
    · rw [whole.1]
      exact List.nil_append _
    · rw [whole.2]
  · rw [if_neg more] at ended
    obtain ⟨same,rfl⟩ := runs_done ended
    cases same
    rw [wraps] at more
    rw [if_neg more] at cut
    refine ⟨payloads,pieces,cut.trans (by simp),numbered,?_,?_⟩
    · rw [added.1]
      exact List.nil_append _
    · rw [added.2]

theorem split_exact_iff {documents : List (Except Error Value)} {manifest : Manifest}
    (reads : codec.manifestFromJson (codec.manifestToJson manifest) = .ok manifest)
    (runs : Runs (Keeps held) (runSplitExportWithProgress codec documents store options reporting) w
      (done manifest) w') :
    Exact codec store (manifestPath options) [] manifest w' ↔ ∃ payloads, parts options documents =
      some payloads ∧ payloads.length ≤ 2^32 := by
  obtain ⟨payloads,pieces,cut,numbered,listed,rfl⟩ := split_returns runs
  have paths : manifest.artifacts.map Artifact.path =
      (List.range' 0 payloads.length).map fun index => partPath options (UInt32.ofNat index) := by
    rw [listed,numbered_paths numbered]
  have plain : ∀ artifact ∈ manifest.artifacts, artifact.path ≠ manifestPath options := by
    intro artifact member
    have path : artifact.path ∈ manifest.artifacts.map Artifact.path := List.mem_map_of_mem member
    rw [paths] at path
    obtain ⟨index,-,same⟩ := List.mem_map.mp path
    exact same ▸ partPath_plain (UInt32.ofNat index)
  constructor
  · intro exact_
    have distinct := exact_.distinct
    rw [paths,numbers_distinct] at distinct
    exact ⟨payloads,cut,distinct⟩
  · intro few
    obtain ⟨others,same,bound⟩ := few
    rw [cut] at same
    cases same
    have distinct : (manifest.artifacts.map Artifact.path).Nodup :=
      paths ▸ (numbers_distinct payloads.length).mpr bound
    apply exact_of_pieces listed reads distinct _ (numbered_measured numbered) (Function.update_self _ _ _)
    · intro piece member
      have other : piece.1.path ≠ manifestPath options := plain piece.1 (listed ▸ List.mem_map_of_mem member)
      have differs : (⟨store,piece.1.path⟩ : ObjectRef) ≠ ⟨store,manifestPath options⟩ :=
        fun same => other (congrArg ObjectRef.path same)
      rw [Function.update_of_ne differs]
      exact pieces_left (listed ▸ distinct) member w
    · exact fun artifact member => ⟨plain artifact member,List.not_mem_nil⟩

end Returned

section Existence

theorem put_runs (object : ObjectRef) (body : Bytes) (w : Objects) :
    Runs (Keeps held) (object.putStream body) w (done body.length) (Function.update w object (some body)) :=
  .call _ _ _ _ .put (.here _ _)

theorem progress_runs (reporting : Bool) (manifest : Manifest) (total : Nat) (w : Objects) :
    ∃ next, Runs (Keeps held) (emitPartProgress reporting manifest total) w (done next) w := by
  unfold emitPartProgress
  cases reporting with
  | true => exact ⟨_,.call _ _ _ _ .emitted (.here _ _)⟩
  | false => exact ⟨_,.here _ _⟩

theorem flush_runs (s : Splitting) (w : Objects) : ∃ manifest total w',
    Runs (Keeps held) (flushPart codec store options reporting s) w
      (done {s with manifest := manifest,bytesWritten := total}) w' := by
  have written : ∃ manifest w', Runs (Keeps held)
      (writePart codec store options s.part (s.buffer ++ s.framer.close) s.framer s.manifest) w
        (done manifest) w' :=
    ⟨_,_,runs_then (put_runs _ _ w) (.here _ _)⟩
  obtain ⟨manifest,w',writing⟩ := written
  obtain ⟨total,showing⟩ := @progress_runs held reporting manifest s.bytesWritten w'
  exact ⟨manifest,total,w',runs_then writing (runs_then showing (.here _ _))⟩

theorem documents_run {documents : List (Except Error Value)} {cut : Nat} {payloads : List Bytes} (s : Splitting) (w : Objects)
    (cuts : cutParts options documents s.framer s.buffer s.recordsInPart cut = some payloads) :
    ∃ s' w', Runs (Keeps held) (splitDocuments codec store options reporting documents s) w (done s') w' := by
  induction documents generalizing s w cut payloads with
  | nil => exact ⟨s,w,.here _ _⟩
  | cons document rest ih =>
    cases document with
    | error err => cases cuts
    | ok document =>
      unfold cutParts at cuts
      unfold splitDocuments
      cases recorded : s.framer.record options.encoder document with
      | error err =>
        rw [recorded] at cuts
        cases cuts
      | ok result =>
        obtain ⟨chunk,framer⟩ := result
        rw [recorded] at cuts
        simp only [recorded,lift,done_bind] at cuts ⊢
        by_cases full : (s.buffer ++ chunk).length ≥ threshold options
        · rw [if_pos full] at cuts
          simp only [if_pos full]
          obtain ⟨manifest,total,middle,flushing⟩ := @flush_runs codec held options store reporting
            {s with framer := framer,buffer := s.buffer ++ chunk,recordsInPart := s.recordsInPart + 1} w
          cases reopened : framer.open options.encoder with
          | error err =>
            rw [reopened] at cuts
            cases cuts
          | ok result =>
            obtain ⟨opened,next⟩ := result
            rw [reopened] at cuts
            obtain ⟨later,rest_,-⟩ := Option.map_eq_some_iff.mp cuts
            obtain ⟨s',w',more⟩ := ih {s with framer := next,buffer := opened,recordsInPart := 0,part := s.part + 1
                                              bytesWritten := total,manifest := manifest} middle rest_
            refine ⟨s',w',runs_then flushing ?_⟩
            simp only [reopened]
            exact more
        · rw [if_neg full] at cuts
          simp only [if_neg full]
          exact ih {s with framer := framer,buffer := s.buffer ++ chunk,recordsInPart := s.recordsInPart + 1} w cuts

theorem split_runs {documents : List (Except Error Value)} {payloads : List Bytes}
    (cuts : parts options documents = some payloads)
    (w : Objects) : ∃ manifest w',
      Runs (Keeps held) (runSplitExportWithProgress codec documents store options reporting) w
        (done manifest) w' := by
  unfold parts at cuts
  unfold runSplitExportWithProgress
  cases built : PartFramer.new options.format options.fields with
  | error err =>
    rw [built] at cuts
    cases cuts
  | ok framer =>
    rw [built] at cuts
    simp only [lift,done_bind] at cuts ⊢
    cases begun : framer.open options.encoder with
    | error err =>
      rw [begun] at cuts
      cases cuts
    | ok result =>
      obtain ⟨opened,framer⟩ := result
      rw [begun] at cuts
      simp only [done_bind]
      obtain ⟨s,middle,looping⟩ := @documents_run codec held options store reporting documents 0 payloads
        {framer := framer,buffer := opened,manifest := {Manifest.new options.info.database options.info.toolVersion
          options.info.createdAt with source := options.info.source}} w cuts
      have ending : ∃ s' w', Runs (Keeps held)
          (if s.recordsInPart > 0 ∨ s.part = 0 then flushPart codec store options reporting s
            else done s) middle (done s') w' := by
        by_cases more : s.recordsInPart > 0 ∨ s.part = 0
        · rw [if_pos more]
          obtain ⟨manifest,total,w',flushing⟩ := @flush_runs codec held options store reporting s middle
          exact ⟨_,w',flushing⟩
        · rw [if_neg more]
          exact ⟨s,middle,.here _ _⟩
      obtain ⟨s',last,flushing⟩ := ending
      exact ⟨s'.manifest,_,runs_then looping (runs_then flushing (runs_then (put_runs _ _ last) (.here _ _)))⟩

end Existence
end ArangoDataTools.SplitParts
