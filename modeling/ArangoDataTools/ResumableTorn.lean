import ArangoDataTools.ResumableHistory

namespace ArangoDataTools.Resumable
open Interaction Interaction.Program

-- A sequence of calls at one base, each of them stopped after any operation, with
-- the sources of the uploads that returned. An operation must be allowed in the
-- store it is made in, given these sources and that of the call.
inductive Sequence (codec : StateCodec) (base : String)
    (allowed : List Bytes → StoreOp → Objects → Prop) : List Bytes → Objects → Prop where
  | fresh (w : Objects) : (∀ path, (base ++ ".upload/").toList <+: path.toList → w path = none) →
      Sequence codec base allowed [] w
  | returned {finished : List Bytes} {w w' : Objects} (source : PartSource) (data : Bytes)
      (partSize : Nat) (upload : ResumableUpload) :
      Sequence codec base allowed finished w → source.Reads data →
      Runs (fun op w answer w' => allowed (data :: finished) op w ∧ Serves op w answer w')
        (uploadResumable codec base source partSize) w
        (done upload) w' → Sequence codec base allowed (data :: finished) w'
  | stopped {finished : List Bytes} {w w' : Objects} (source : PartSource) (data : Bytes)
      (partSize : Nat) (p : Transfer ResumableUpload) :
      Sequence codec base allowed finished w → source.Reads data →
      Runs (fun op w answer w' => allowed (data :: finished) op w ∧ Serves op w answer w')
        (uploadResumable codec base source partSize) w
        p w' → (∀ upload, p ≠ done upload) → Sequence codec base allowed finished w'
  | delete {finished : List Bytes} {w w' : Objects} (p : Transfer Unit) :
      Sequence codec base allowed finished w →
      Runs (fun op w answer w' => allowed finished op w ∧ Serves op w answer w') (deleteResumable base) w p w' →
      Sequence codec base allowed finished w'

-- Whoever opens the upload reads the source of an upload that returned.
def Whole (codec : StateCodec) (base : String) (finished : List Bytes) (w : Objects) : Prop :=
  ∀ upload, (run look (openResumable codec base) w).1 = .ok upload →
    ∃ bytes ∈ finished, (run look (readResumable base upload) w).1 = .ok bytes

def Joined (base : String) (parts : Nat) (w : Objects) (bytes : Bytes) : Prop :=
  ∃ piece : Nat → Bytes, (∀ index < parts, w (partObject base index) = some (piece index)) ∧
    bytes = (List.range parts).flatMap piece

def Marked (codec : StateCodec) (base : String) (w : Objects) (state : UploadState) : Prop :=
  ∃ body, w (stateObject base) = some body ∧ codec.fromSlice body = .ok state ∧ state.complete = true

-- The marker is written over parts that make up a source, and as long as it is there
-- no part it speaks for is deleted or written with other bytes.
def Careful (codec : StateCodec) (base : String) (sources : List Bytes) : StoreOp → Objects → Prop
  | .putStream path body,w =>
    (path = stateObject base → ∀ state, codec.fromSlice body = .ok state → ∃ bytes ∈ sources,
      Joined base state.parts w bytes) ∧
      ∀ state, Marked codec base w state → ∀ index < state.parts, path = partObject base index →
      w path = some body
  | .delete path,w => ∀ state, Marked codec base w state → ∀ index < state.parts, path ≠ partObject base index
  | _,_ => True

variable {codec : StateCodec} {base : String} {finished sources : List Bytes} {w w' : Objects}

def Intact (codec : StateCodec) (base : String) (finished : List Bytes) (w : Objects) : Prop :=
  ∀ state, Marked codec base w state → ∃ bytes ∈ finished, Joined base state.parts w bytes

theorem joined_run (joined : Joined base upload.parts w bytes) :
    (run look (readResumable base upload) w).1 = .ok bytes := by
  obtain ⟨piece,held,rfl⟩ := joined
  unfold readResumable
  rw [readParts_run fun index below => held index (List.mem_range.mp below)]

theorem opened_marked (opened : (run look (openResumable codec base) w).1 = .ok upload) :
    ∃ state, Marked codec base w state ∧ upload = ⟨state.partSize,state.totalSize,state.parts⟩ := by
  have ran : run look (openResumable codec base) w =
      (.ok upload,(run look (openResumable codec base) w).2) := Prod.ext opened rfl
  obtain ⟨size,middle,asked,rest⟩ := run_bind_inv look ran
  rw [store_run] at asked
  obtain ⟨rfl,rfl⟩ : (w (stateObject base)).map List.length = size ∧ w = middle := by simpa [look] using asked
  cases found : w (stateObject base) with
  | none => simp [found] at rest
  | some body =>
    rw [found,if_neg (by simp),run_bind_ok look (get_run found)] at rest
    cases parsed : codec.fromSlice body with
    | error err => simp [parsed] at rest
    | ok state =>
      rw [parsed] at rest
      by_cases complete : state.complete = true
      · simp only [complete,if_true,run_done,Prod.mk.injEq,Except.ok.injEq] at rest
        exact ⟨state,⟨body,found,parsed,complete⟩,rest.1.symm⟩
      · simp [complete] at rest

theorem intact_whole (intact : Intact codec base finished w) : Whole codec base finished w := by
  intro upload opened
  obtain ⟨state,marked,rfl⟩ := opened_marked opened
  obtain ⟨bytes,present,joined⟩ := intact state marked
  exact ⟨bytes,present,joined_run joined⟩

def NotMarker (base : String) (op : StoreOp) : Prop := ∀ body, op ≠ .putStream (stateObject base) body

theorem joined_same (joined : Joined base parts w bytes)
    (same : ∀ index < parts, w' (partObject base index) = w (partObject base index)) :
    Joined base parts w' bytes := by
  obtain ⟨piece,held,content⟩ := joined
  exact ⟨piece,fun index below => (same index below).trans (held index below),content⟩

theorem careful_intact {op : StoreOp} {answer : op.Answer} (other : NotMarker base op)
    (intact : Intact codec base finished w)
    (step : Careful codec base sources op w ∧ Serves op w answer w') : Intact codec base finished w' := by
  obtain ⟨careful,serves⟩ := step
  cases serves with
  | failed => exact intact
  | served served => cases served with
    | read | list => exact intact
    | putStream path body =>
      have apart : stateObject base ≠ path := fun same => other body (same ▸ rfl)
      intro state marked
      have before : Marked codec base w state := by simpa [Marked,Function.update_of_ne apart] using marked
      obtain ⟨bytes,present,joined⟩ := intact state before
      refine ⟨bytes,present,joined_same joined fun index below => ?_⟩
      by_cases same : path = partObject base index
      · rw [← same,Function.update_self]
        exact (careful.2 state before index below same).symm
      · exact Function.update_of_ne (Ne.symm same) _ _
    | delete path =>
      intro state marked
      by_cases gone : stateObject base = path
      · obtain ⟨body,held,-⟩ := marked
        simp [gone] at held
      · have before : Marked codec base w state := by simpa [Marked,Function.update_of_ne gone] using marked
        obtain ⟨bytes,present,joined⟩ := intact state before
        exact ⟨bytes,present,joined_same joined fun index below =>
          Function.update_of_ne (careful state before index below).symm _ _⟩

theorem store_only {kind : StoreOp → Prop} {op : StoreOp} (holds : kind op) : Only kind (store op) := by
  refine ⟨holds,fun answer => ?_⟩
  cases answer <;> trivial

theorem uploadPart_only (base : String) (source : PartSource) (partSize index : Nat) :
    Only (NotMarker base) (uploadPart base source partSize index) := by
  refine only_bind (store_only fun body same => by cases same) fun size => ?_
  split
  · trivial
  · refine only_bind
      (by cases source.readPart (index * partSize) (source.partLen partSize index) <;> trivial) fun bytes => ?_
    split
    · trivial
    · exact store_only fun body same => stateObject_apart base index (StoreOp.putStream.inj same).1.symm

theorem delete_only (base : String) : Only (NotMarker base) (deleteResumable base) :=
  only_bind (store_only fun body same => by cases same) fun paths =>
    only_each paths fun path _ => store_only fun body same => by cases same

theorem intact_mono (intact : Intact codec base finished w)
    (more : ∀ bytes ∈ finished, bytes ∈ sources) : Intact codec base sources w := by
  intro state marked
  obtain ⟨bytes,present,joined⟩ := intact state marked
  exact ⟨bytes,more bytes present,joined⟩

theorem marker_intact {body : Bytes}
    (careful : Careful codec base sources (.putStream (stateObject base) body) w) :
    Intact codec base sources (Function.update w (stateObject base) (some body)) := by
  rintro state ⟨other,held,parsed,-⟩
  rw [Function.update_self] at held
  obtain rfl := Option.some.inj held
  obtain ⟨bytes,present,joined⟩ := careful.1 rfl state parsed
  exact ⟨bytes,present,joined_same joined fun index _ =>
    Function.update_of_ne (stateObject_apart base index).symm _ _⟩

theorem upload_intact {source : PartSource} {p : Transfer ResumableUpload}
    (intact : Intact codec base finished w)
    (more : ∀ bytes ∈ finished, bytes ∈ sources)
    (runs : Runs (fun op w answer w' => Careful codec base sources op w ∧ Serves op w answer w')
      (uploadResumable codec base source partSize) w p w') :
    Intact codec base sources w' ∧ ((∀ upload, p ≠ done upload) → Intact codec base finished w') := by
  have parts := only_each (List.range (source.partCount (max partSize 1))) fun index _ =>
      uploadPart_only base source (max partSize 1) index
  rcases runs_bind runs with ⟨_,-,-,inside⟩ | ⟨_,middle,through,rest⟩
  · have kept := only_preserves inside parts (fun _ _ _ _ => careful_intact) intact
    exact ⟨intact_mono kept more,fun _ => kept⟩
  · have kept := only_preserves through parts (fun _ _ _ _ => careful_intact) intact
    rcases runs_bind rest with ⟨_,-,unfinished,marking⟩ | ⟨_,last,marked,ended⟩
    · have same : w' = middle := by
        rcases store_runs marking with ⟨same,-⟩ | ⟨answer,⟨-,serves⟩,result⟩
        · exact same
        · cases answer with
          | ok value => exact (unfinished value result).elim
          | error err => cases serves with
            | failed => rfl
            | served served => cases served with
              | read => rfl
      exact same ▸ ⟨intact_mono kept more,fun _ => kept⟩
    · obtain ⟨rfl,rfl⟩ := runs_done ended
      obtain ⟨careful,serves⟩ := store_done.mp marked
      have put := put_done (.serves serves)
      exact ⟨put ▸ marker_intact careful,fun unfinished => (unfinished _ rfl).elim⟩

theorem sequence_intact (sequence : Sequence codec base (Careful codec base) finished w) :
    Intact codec base finished w := by
  induction sequence with
  | fresh w empty =>
    rintro state ⟨body,held,-⟩
    have inside : (base ++ ".upload/").toList <+: (stateObject base).toList :=
      ⟨"state.json".toList,by simp [stateObject]⟩
    simp [empty _ inside] at held
  | returned source data partSize upload _ _ runs ih =>
      exact (upload_intact ih (fun bytes => List.mem_cons_of_mem _) runs).1
  | stopped source data partSize p _ _ runs going ih =>
      exact (upload_intact ih (fun bytes => List.mem_cons_of_mem data) runs).2 going
  | delete p _ runs ih => exact only_preserves runs (delete_only base) (fun _ _ _ _ => careful_intact) ih

-- Calls that are careful with the marker never show a torn upload.
theorem careful_sequence_whole (sequence : Sequence codec base (Careful codec base) finished w) :
    Whole codec base finished w :=
  intact_whole (sequence_intact sequence)

theorem unmarked_careful {source : PartSource} {data : Bytes} {upload : ResumableUpload}
    (unmarked : w (stateObject base) = none)
    (reads : source.Reads data) (right : Trustworthy base source data (max partSize 1) w)
      (present : data ∈ sources)
    (runs : Runs Served (uploadResumable codec base source partSize) w (done upload) w') :
    Runs (fun op w answer w' => Careful codec base sources op w ∧ Serves op w answer w')
      (uploadResumable codec base source partSize) w
      (done upload) w' := by
  have parts := only_each (List.range (source.partCount (max partSize 1))) fun index _ =>
      uploadPart_only base source (max partSize 1) index
  obtain ⟨_,middle,through,rest⟩ := runs_bind_done runs
  obtain ⟨_,last,marked,ended⟩ := runs_bind_done rest
  have kept : ∀ op w answer w', NotMarker base op → w (stateObject base) = none → Served op w answer w' →
      w' (stateObject base) = none ∧ Careful codec base sources op w ∧ Serves op w answer w' := by
    intro op w answer w' other none_ served
    have nothing : ∀ state, ¬Marked codec base w state := fun state ⟨body,held,_⟩ => by simp [none_] at held
    cases served with
    | read op w read => exact ⟨none_,by cases op <;> trivial,.served (.read op w read)⟩
    | list under paths w lists => exact ⟨none_,trivial,.served (.list under paths w lists)⟩
    | putStream path body w =>
      have apart : stateObject base ≠ path := fun same => other body (same ▸ rfl)
      exact ⟨(Function.update_of_ne apart _ _).trans none_,
        ⟨fun same => (apart same.symm).elim,fun state marked => (nothing state marked).elim⟩,
        .served (.putStream path body w)⟩
    | delete path w =>
      refine ⟨?_,fun state marked => (nothing state marked).elim,.served (.delete path w)⟩
      by_cases same : stateObject base = path
      · rw [same,Function.update_self]
      · exact (Function.update_of_ne same _ _).trans none_
  have held := (uploadParts_done reads (served_tears through)).1
  have content : (List.range (source.partCount (max partSize 1))).flatMap
      (settled base source data (max partSize 1) w) = data :=
    ((pieces_same fun index _ => settled_length reads (max partSize 1) index).mpr
      ((trustworthy_iff reads).mp right)).trans
      (windows_join reads (by omega))
  have careful : Careful codec base sources (.putStream (stateObject base)
      (codec.toVec ⟨max partSize 1,source.len,source.partCount (max partSize 1),true⟩)) middle := by
    refine ⟨fun _ state parsed => ?_,fun state _ index _ same => (stateObject_apart base index same).elim⟩
    rw [codec.reads_back] at parsed
    obtain rfl := Except.ok.inj parsed
    exact ⟨data,present,_,held,content.symm⟩
  obtain ⟨same,rfl⟩ := runs_done ended
  exact runs_then (only_strengthen through parts kept unmarked)
    (runs_then (store_done.mpr ⟨careful,.served (store_done.mp marked)⟩) (same ▸ .here _ _))

theorem one_part_store : ∃ upload w,
    Runs Served (uploadResumable jsonCodec "object.bin" (bytesPartSource [7]) 1) emptyStore (done upload) w ∧
    w (partObject "object.bin" 0) = some [7] ∧ w (stateObject "object.bin") =
    some (jsonCodec.toVec ⟨1,1,1,true⟩) ∧
    ∀ path, path ≠ stateObject "object.bin" → path ≠ partObject "object.bin" 0 → w path = none := by
  obtain ⟨upload,w,runs⟩ := uploadResumable_served jsonCodec "object.bin" [7] 1 emptyStore
  obtain ⟨parts,marker,others⟩ := uploadResumable_done (bytesPartSource_reads [7]) (served_tears runs)
  refine ⟨upload,w,runs,?_,marker,fun path apart other => others path apart ?_⟩
  · rw [parts 0 (by decide),settled_mistrusted (by simp [Trusted,emptyStore])]
    rfl
  · rintro ⟨index,below,rfl⟩
    have first : index < 1 := below
    obtain rfl : index = 0 := by omega
    exact other rfl

theorem one_part_lists (part : w (partObject "object.bin" 0) = some [7])
    (marker : w (stateObject "object.bin") = some bytes)
    (others : ∀ path, path ≠ stateObject "object.bin" → path ≠ partObject "object.bin" 0 → w path = none) :
    Lists w ("object.bin" ++ ".upload/") [partObject "object.bin" 0,stateObject "object.bin"] := by
  refine ⟨by simpa using (stateObject_apart "object.bin" 0).symm,fun path => ?_⟩
  constructor
  · intro present
    rcases List.mem_pair.mp present with rfl | rfl
    · exact ⟨⟨paddedIndex 0 ++ ".part".toList,by simp [partObject]⟩,by rw [part]; rfl⟩
    · exact ⟨⟨"state.json".toList,by simp [stateObject]⟩,by rw [marker]; rfl⟩
  · rintro ⟨-,some_⟩
    by_contra absent
    simp only [List.mem_pair,not_or] at absent
    simp [others path absent.2 absent.1] at some_

-- Deletion removes the part first and is stopped there.
theorem stopped_delete_exposes : ¬∀ (codec : StateCodec) (base : String) (finished : List Bytes) (w : Objects),
    Sequence codec base (fun _ _ _ => True) finished w → Whole codec base finished w := by
  intro always
  obtain ⟨upload,w,runs,part,marker,others⟩ := one_part_store
  have uploaded : Sequence jsonCodec "object.bin" (fun _ _ _ => True) [[7]] w :=
    .returned _ [7] 1 upload (.fresh emptyStore fun _ _ => rfl) (bytesPartSource_reads [7])
      (runs_mono (fun _ _ _ _ served => ⟨trivial,.served served⟩) runs)
  have torn := uploaded.delete _
      (runs_then (store_done.mpr ⟨trivial,.served (.list _ _ w (one_part_lists part marker others))⟩)
    (runs_then (store_done.mpr ⟨trivial,.served (.delete _ w)⟩) (.here _ _)))
  have still : Function.update w (partObject "object.bin" 0) none (stateObject "object.bin") =
      some (jsonCodec.toVec ⟨1,1,1,true⟩) :=
    (Function.update_of_ne (stateObject_apart "object.bin" 0) _ _).trans marker
  obtain ⟨bytes,-,read⟩ := always _ _ _ _ torn _ (congrArg Prod.fst (openResumable_run still rfl))
  have missing : (run look (store (.getStream (partObject "object.bin" 0)))
      (Function.update w (partObject "object.bin" 0) none)) =
      (.error (.storage "not found"),Function.update w (partObject "object.bin" 0) none) := by
    rw [store_run]
    simp [look]
  have failed := run_bind_error (f:=fun bytes => (readParts "object.bin" []).bind fun more =>
      done (bytes ++ more)) look missing
  have both := (congrArg Prod.fst failed).symm.trans read
  cases both

-- The first of two parts is written and the upload stopped.
def halfStore : Objects := Function.update emptyStore (partObject "object.bin" 0) (some [7])

theorem upload_cut (sources : List Bytes) : ∃ p, (∀ upload, p ≠ done upload) ∧
    Runs (fun op w answer w' => Careful jsonCodec "object.bin" sources op w ∧ Serves op w answer w')
      (uploadResumable jsonCodec "object.bin" (bytesPartSource [7,8]) 1) emptyStore p halfStore := by
  have careful : Careful jsonCodec "object.bin" sources
      (.putStream (partObject "object.bin" 0) [7]) emptyStore := by
    refine ⟨fun same => absurd same.symm (stateObject_apart "object.bin" 0),fun state marked => ?_⟩
    obtain ⟨body,held,-⟩ := marked
    cases held
  have missing : Serves (.head (partObject "object.bin" 0)) emptyStore (.ok none) emptyStore :=
    .served (.read (.head (partObject "object.bin" 0)) emptyStore trivial)
  have put : Serves (.putStream (partObject "object.bin" 0) [7]) emptyStore (.ok ()) halfStore :=
    .served (.putStream _ _ _)
  refine ⟨_,?_,Runs.call _ _ _ _ ⟨trivial,missing⟩ (Runs.call _ _ _ _ ⟨careful,put⟩ (Runs.here _ _))⟩
  intro upload same
  cases same

-- The second call finds the part there and writes the other one and the marker.
theorem cut_upload_whole : halfStore (stateObject "object.bin") = none ∧
    ∃ upload w, Runs Served (uploadResumable jsonCodec "object.bin" (bytesPartSource [7,8]) 1)
      halfStore (done upload) w ∧
      (∃ opened, (run look (openResumable jsonCodec "object.bin") w).1 = .ok opened) ∧
      Whole jsonCodec "object.bin" [[7,8]] w := by
  have unmarked : halfStore (stateObject "object.bin") = none :=
    Function.update_of_ne (stateObject_apart "object.bin" 0) _ _
  obtain ⟨p,going,cut⟩ := upload_cut [[7,8]]
  obtain ⟨upload,w,runs⟩ := uploadResumable_served jsonCodec "object.bin" [7,8] 1 halfStore
  have marker := (uploadResumable_done (bytesPartSource_reads [7,8]) (served_tears runs)).2.1
  have right : Trustworthy "object.bin" (bytesPartSource [7,8]) [7,8] 1 halfStore := by
    intro index _ bytes held _
    by_cases first : partObject "object.bin" index = partObject "object.bin" 0
    · obtain rfl := partObject_inj first
      rw [halfStore,Function.update_self] at held
      cases held
      rfl
    · rw [halfStore,Function.update_of_ne first] at held
      cases held
  have careful : Runs (fun op w answer w' => Careful jsonCodec "object.bin" [[7,8]] op w ∧
      Serves op w answer w')
      (uploadResumable jsonCodec "object.bin" (bytesPartSource [7,8]) 1) halfStore (done upload) w :=
    unmarked_careful unmarked (bytesPartSource_reads [7,8]) right (List.mem_singleton_self _) runs
  refine ⟨unmarked,upload,w,runs,⟨_,congrArg Prod.fst (openResumable_run marker rfl)⟩,careful_sequence_whole ?_⟩
  exact .returned _ [7,8] 1 upload
    (.stopped _ [7,8] 1 p (.fresh emptyStore fun _ _ => rfl) (bytesPartSource_reads [7,8]) cut going)
    (bytesPartSource_reads [7,8]) careful

end ArangoDataTools.Resumable
