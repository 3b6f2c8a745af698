import Mathlib.Data.List.Basic
import ArangoDataTools.ResumableMarker

namespace ArangoDataTools.Resumable
open Interaction Interaction.Program

variable {codec : StateCodec} {base : String} {source : PartSource} {data : Bytes} {w w' : Objects}

section Windows

theorem windows_take (data : Bytes) (partSize count : Nat) :
    (List.range count).flatMap (window data partSize) = data.take (count * partSize) := by
  induction count with
  | zero => simp
  | succ count ih =>
    rw [List.range_succ,List.flatMap_append,ih,List.flatMap_singleton,Nat.succ_mul,List.take_add,window]

theorem windows_join (reads : source.Reads data) (positive : 0 < partSize) :
    (List.range (source.partCount partSize)).flatMap (window data partSize) = data := by
  rw [windows_take]
  refine List.take_of_length_le ?_
  unfold PartSource.partCount
  rw [reads.1]
  have covered := Nat.div_add_mod (data.length + partSize - 1) partSize
  have rest := Nat.mod_lt (data.length + partSize - 1) positive
  rw [Nat.mul_comm] at covered
  omega

theorem pieces_same {first second : Nat → Bytes} {indices : List Nat}
    (sized : ∀ index ∈ indices, (first index).length = (second index).length) :
    indices.flatMap first = indices.flatMap second ↔ ∀ index ∈ indices, first index = second index := by
  induction indices with
  | nil => simp
  | cons index rest ih =>
    have later := ih fun other present => sized other (List.mem_cons_of_mem _ present)
    simp only [List.flatMap_cons,List.forall_mem_cons]
    constructor
    · intro same
      obtain ⟨here,there⟩ := List.append_inj same (sized index List.mem_cons_self)
      exact ⟨here,later.mp there⟩
    · rintro ⟨here,there⟩
      rw [here,later.mpr there]

end Windows

section Reading

theorem store_run {handle : Handler StoreOp StoreOp.Answer Objects} (op : StoreOp) (w : Objects) :
    run handle (store op) w = handle op w := by
  change run handle (lift (handle op w).1) (handle op w).2 = _
  cases answer : (handle op w).1 with
  | ok value => exact Prod.ext answer.symm rfl
  | error err => exact Prod.ext answer.symm rfl

theorem get_run {bytes : Bytes} (held : w path = some bytes) :
    run look (store (.getStream path)) w = (.ok bytes,w) := by
  rw [store_run]
  simp [look,held]

theorem readParts_run {piece : Nat → Bytes} {indices : List Nat}
    (held : ∀ index ∈ indices, w (partObject base index) = some (piece index)) :
    run look (readParts base indices) w = (.ok (indices.flatMap piece),w) := by
  induction indices with
  | nil => rfl
  | cons index rest ih =>
    have more := ih fun other present => held other (List.mem_cons_of_mem _ present)
    unfold readParts
    rw [run_bind_ok look (get_run (held index List.mem_cons_self)),run_bind_ok look more]
    rfl

theorem openResumable_run {state : UploadState}
    (marker : w (stateObject base) = some (codec.toVec state)) (complete : state.complete = true) :
    run look (openResumable codec base) w = (.ok ⟨state.partSize,state.totalSize,state.parts⟩,w) := by
  have found : run look (store (.head (stateObject base))) w = (.ok (some (codec.toVec state).length),w) := by
    rw [store_run]
    simp [look,marker]
  unfold openResumable
  rw [run_bind_ok look found,if_neg (by simp),run_bind_ok look (get_run marker),codec.reads_back]
  simp [complete]

end Reading

-- What a reader gets from the completed upload at `base`.
def Reconstructs (codec : StateCodec) (base : String) (w : Objects) (data : Bytes) : Prop :=
  ∃ upload, (run look (openResumable codec base) w).1 = .ok upload ∧
    (run look (readResumable base upload) w).1 = .ok data

theorem upload_reads (reads : source.Reads data)
    (runs : Runs Tears (uploadResumable codec base source partSize) w (done upload) w') :
    Reconstructs codec base w' other ↔
      (List.range (source.partCount (max partSize 1))).flatMap
        (settled base source data (max partSize 1) w) = other := by
  obtain ⟨parts,marker,-⟩ := uploadResumable_done reads runs
  have opened := @openResumable_run codec base w' _ marker rfl
  have read := @readParts_run base w' (settled base source data (max partSize 1) w)
      (List.range (source.partCount (max partSize 1)))
    fun index below => parts index (List.mem_range.mp below)
  unfold Reconstructs
  rw [opened]
  constructor
  · rintro ⟨_,same,content⟩
    cases same
    unfold readResumable at content
    rw [read] at content
    exact Except.ok.inj content
  · intro same
    refine ⟨_,rfl,?_⟩
    unfold readResumable
    rw [read,same]

-- Every stored part that the call will trust holds its own window.
def Trustworthy (base : String) (source : PartSource) (data : Bytes) (partSize : Nat) (w : Objects) : Prop :=
  ∀ index < source.partCount partSize, ∀ bytes, w (partObject base index) = some bytes →
    bytes.length = source.partLen partSize index → bytes = window data partSize index

theorem settled_length (reads : source.Reads data) (partSize index : Nat) :
    (settled base source data partSize w index).length = (window data partSize index).length := by
  by_cases trusted : Trusted base source partSize w index
  · have held : w (partObject base index) = some (settled base source data partSize w index) :=
      settled_trusted trusted
    rw [Trusted,held] at trusted
    rw [window_length reads]
    simpa using trusted
  · rw [settled_mistrusted trusted]

theorem trustworthy_iff (reads : source.Reads data) : Trustworthy base source data partSize w ↔
    ∀ index ∈ List.range (source.partCount partSize), settled base source data partSize w index =
    window data partSize index := by
  simp only [List.mem_range]
  constructor
  · intro trustworthy index below
    by_cases trusted : Trusted base source partSize w index
    · refine trustworthy index below _ (settled_trusted trusted) ?_
      rw [settled_length reads,window_length reads]
    · exact settled_mistrusted trusted
  · intro right index below bytes held sized
    have trusted : Trusted base source partSize w index := by simp [Trusted,held,sized]
    rw [← right index below]
    exact Option.some.inj (held.symm.trans (settled_trusted trusted))

-- Calls for one source at one base, each stopped anywhere, with their part sizes.
inductive History (codec : StateCodec) (base : String) (data : Bytes) : List Nat → Objects → Prop where
  | fresh (w : Objects) : (∀ index, w (partObject base index) = none) → History codec base data [] w
  | call {sizes : List Nat} {w w' : Objects} (source : PartSource) (partSize : Nat)
      (p : Transfer ResumableUpload) :
      History codec base data sizes w → source.Reads data →
      Runs Tears (uploadResumable codec base source partSize) w p w' →
      History codec base data (partSize :: sizes) w'

def Pieces (base : String) (data : Bytes) (sizes : List Nat) (w : Objects) : Prop :=
  ∀ index bytes, w (partObject base index) = some bytes → ∃ size ∈ sizes, ∃ n,
    bytes = (window data (max size 1) index).take n

theorem pieces_put (pieces : Pieces base data sizes w) (present : size ∈ sizes) (index n : Nat) :
    Pieces base data sizes (Function.update w (partObject base index)
      (some ((window data (max size 1) index).take n))) := by
  intro other bytes held
  by_cases equal : other = index
  · subst equal
    rw [Function.update_self] at held
    exact ⟨size,present,n,(Option.some.inj held).symm⟩
  · rw [Function.update_of_ne fun same => equal (partObject_inj same)] at held
    exact pieces other bytes held

theorem pieces_part (reads : source.Reads data) (present : size ∈ sizes)
    (below : index < source.partCount (max size 1))
    (pieces : Pieces base data sizes w) (runs : Runs Tears (uploadPart base source (max size 1) index) w q w') :
    Pieces base data sizes w' := by
  rcases uploadPart_cases reads (inside_of_lt reads below) runs with ⟨rfl,-⟩ | ⟨-,⟨-,n,rfl⟩ | rfl⟩
  · exact pieces
  · exact pieces_put pieces present index n
  · have whole := pieces_put pieces present index (window data (max size 1) index).length
    rwa [List.take_length] at whole

theorem pieces_others (pieces : Pieces base data sizes w)
    (same : ∀ index, w' (partObject base index) = w (partObject base index)) :
    Pieces base data sizes w' := fun index bytes held => pieces index bytes (same index ▸ held)

theorem pieces_upload (reads : source.Reads data) (present : size ∈ sizes) (pieces : Pieces base data sizes w)
    (runs : Runs Tears (uploadResumable codec base source size) w q w') : Pieces base data sizes w' := by
  have parts : ∀ q w', Runs Tears
      (each (List.range (source.partCount (max size 1))) (uploadPart base source (max size 1))) w q w' →
      Pieces base data sizes w' := fun q w' part =>
    (runs_each (fun _ => Pieces base data sizes) (Pieces base data sizes) _ pieces
      (fun index _ w w' below kept turn => pieces_part reads present (List.mem_range.mp below) kept turn)
      (fun index _ w q w' below kept turn =>
      pieces_part reads present (List.mem_range.mp below) kept turn) (fun _ kept => kept) part).1
  rcases runs_bind runs with ⟨p',-,-,part⟩ | ⟨_,middle,part,rest⟩
  · exact parts _ _ part
  · have kept := parts _ _ part
    have marked : ∀ q w', Runs Tears (store (.putStream (stateObject base)
        (codec.toVec ⟨max size 1,source.len,source.partCount (max size 1),true⟩))) middle q w' →
        Pieces base data sizes w' := by
      intro q w' put
      rcases store_runs put with ⟨rfl,-⟩ | ⟨answer,answered,-⟩
      · exact kept
      · rcases put_any answered with rfl | ⟨n,rfl⟩
        · exact kept
        · exact pieces_others kept fun index => Function.update_of_ne (stateObject_apart base index).symm _ _
    rcases runs_bind rest with ⟨p',-,-,put⟩ | ⟨_,last,put,ended⟩
    · exact marked _ _ put
    · obtain ⟨-,rfl⟩ := runs_done ended
      exact marked _ _ put

theorem pieces_mono (more : ∀ size ∈ sizes, size ∈ sizes') (pieces : Pieces base data sizes w) :
    Pieces base data sizes' w := by
  intro index bytes held
  obtain ⟨size,present,piece⟩ := pieces index bytes held
  exact ⟨size,more size present,piece⟩

theorem history_pieces (history : History codec base data sizes w) : Pieces base data sizes w := by
  induction history with
  | fresh w empty => exact fun index bytes held => by simp [empty] at held
  | call source partSize p _ reads runs ih =>
    exact pieces_upload reads List.mem_cons_self
      (pieces_mono (fun size present => List.mem_cons_of_mem _ present) ih) runs

theorem pieces_trustworthy (reads : source.Reads data) (pieces : Pieces base data sizes w)
    (one : ∀ size ∈ sizes, max size 1 = partSize) : Trustworthy base source data partSize w := by
  intro index below bytes held sized
  obtain ⟨size,present,n,rfl⟩ := pieces index bytes held
  rw [one size present] at sized ⊢
  refine List.take_of_length_le ?_
  rw [← window_length reads,List.length_take] at sized
  omega

theorem reconstructs_iff_trustworthy (reads : source.Reads data)
    (runs : Runs Tears (uploadResumable codec base source partSize) w (done upload) w') :
    Reconstructs codec base w' data ↔ Trustworthy base source data (max partSize 1) w := by
  have positive : 0 < max partSize 1 := by omega
  rw [upload_reads reads runs,trustworthy_iff reads,← pieces_same fun index _ =>
    settled_length reads (max partSize 1) index,
    windows_join reads positive]

-- After any history a call that returns leaves its source, unless a part of another
-- extent had the size it looked for.
theorem upload_reconstructs_iff (history : History codec base data sizes w) (reads : source.Reads data)
    (runs : Runs Tears (uploadResumable codec base source partSize) w (done upload) w') :
    (Reconstructs codec base w' data ↔ Trustworthy base source data (max partSize 1) w) ∧
      ((∀ size ∈ sizes, max size 1 = max partSize 1) → Reconstructs codec base w' data) :=
  ⟨reconstructs_iff_trustworthy reads runs,fun one =>
    (reconstructs_iff_trustworthy reads runs).mpr (pieces_trustworthy reads (history_pieces history) one)⟩

def emptyStore : Objects := fun _ => none

theorem sample_history (partSize : Nat) : ∃ w, History jsonCodec "object.bin" [0,1,2] [partSize] w ∧
    (∀ index < (bytesPartSource [0,1,2]).partCount (max partSize 1),
      w (partObject "object.bin" index) = some (window [0,1,2] (max partSize 1) index)) := by
  obtain ⟨upload,w,runs⟩ := uploadResumable_served jsonCodec "object.bin" [0,1,2] partSize emptyStore
  have reads := bytesPartSource_reads [0,1,2]
  refine ⟨w,.call _ _ _ (.fresh _ fun _ => rfl) reads (served_tears runs),fun index below => ?_⟩
  rw [(uploadResumable_done reads (served_tears runs)).1 index below,
    settled_mistrusted (by simp [Trusted,emptyStore])]

-- The last part of the first call has the size of the second part of the second one.
theorem other_part_size_corrupts : ¬∀ (codec : StateCodec) (base : String) (data : Bytes)
    (sizes : List Nat) (w w' : Objects)
    (source : PartSource) (partSize : Nat) (upload : ResumableUpload),
    History codec base data sizes w → source.Reads data →
      Runs Tears (uploadResumable codec base source partSize) w (done upload) w' →
      Reconstructs codec base w' data := by
  intro always
  obtain ⟨w,history,parts⟩ := sample_history 2
  have reads := bytesPartSource_reads [0,1,2]
  obtain ⟨upload,w',runs⟩ := uploadResumable_served jsonCodec "object.bin" [0,1,2] 1 w
  have right := (reconstructs_iff_trustworthy reads (served_tears runs)).mp
      (always _ _ _ _ _ _ _ _ _ history reads (served_tears runs))
  have stale := right 1 (by decide) _ (parts 1 (by decide)) (by decide)
  exact absurd stale (by decide)

theorem same_part_size_reconstructs : ∃ w, Reconstructs jsonCodec "object.bin" w [0,1,2] := by
  obtain ⟨w,history,-⟩ := sample_history 2
  obtain ⟨upload,w',runs⟩ := uploadResumable_served jsonCodec "object.bin" [0,1,2] 2 w
  exact ⟨w',(upload_reconstructs_iff history (bytesPartSource_reads [0,1,2]) (served_tears runs)).2 (by decide)⟩

end ArangoDataTools.Resumable
