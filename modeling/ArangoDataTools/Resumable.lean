import Mathlib.Logic.Function.Basic
import ArangoDataTools.Answering
import ArangoDataTools.Manifest

namespace ArangoDataTools.Resumable
open Interaction Interaction.Program

inductive StoreOp where
  | head (path : String)
  | getStream (path : String)
  | putStream (path : String) (body : Bytes)
  | list (under : String)
  | delete (path : String)

abbrev StoreOp.Result : StoreOp → Type
  | head _ => Option Nat
  | getStream _ => Bytes
  | list _ => List String
  | putStream _ _ | delete _ => Unit

abbrev StoreOp.Answer (op : StoreOp) : Type := Except Error op.Result

abbrev Transfer (α : Type) : Type := Program StoreOp StoreOp.Answer Error α

-- One call of the object store, its error returned with `?`.
def store (op : StoreOp) : Transfer op.Result := (perform op).bind lift

structure PartSource where
  len : Nat
  readPart : (offset len : Nat) → Except Error Bytes

def bytesPartSource (data : Bytes) : PartSource :=
  {len := data.length
   readPart := fun offset len =>
     let start := min offset data.length
     let end_ := min (start + len) data.length
     .ok ((data.take end_).drop start)}

-- `path` holds `content` when the part is read and held `len` bytes when it was opened.
def filePartSource (len : Nat) (content : Bytes) : PartSource :=
  {len := len
   readPart := fun offset want =>
     let want := min (len - offset) want
     if offset + want ≤ content.length then .ok ((content.drop offset).take want)
     else .error (.io .other "failed to fill whole buffer")}

-- A source of the bytes of `data`: a part of the wanted size is the window asked for.
def PartSource.Reads (source : PartSource) (data : Bytes) : Prop :=
  source.len = data.length ∧ ∀ offset len bytes, offset + len ≤ data.length →
    source.readPart offset len = .ok bytes →
    bytes.length = len → bytes = (data.drop offset).take len

structure UploadState where
  partSize : Nat
  totalSize : Nat
  parts : Nat
  complete : Bool
  deriving DecidableEq, Repr

structure ResumableUpload where
  partSize : Nat
  totalSize : Nat
  parts : Nat
  deriving DecidableEq, Repr

-- The derived JSON form of the marker.
structure StateCodec where
  toVec : UploadState → Bytes
  fromSlice : Bytes → Except String UploadState
  reads_back : ∀ state, fromSlice (toVec state) = .ok state

def stateObject (base : String) : String := base ++ ".upload/state.json"

-- `{index:08}`
def paddedIndex (index : Nat) : List Char :=
  List.replicate (8 - (Nat.toDigits 10 index).length) '0' ++ Nat.toDigits 10 index

def partObject (base : String) (index : Nat) : String :=
  base ++ ".upload/" ++ String.ofList (paddedIndex index) ++ ".part"

def PartSource.partLen (source : PartSource) (partSize index : Nat) : Nat :=
  min (source.len - index * partSize) partSize

def PartSource.partCount (source : PartSource) (partSize : Nat) : Nat := (source.len + partSize - 1) / partSize

-- One turn of the loop of `upload_resumable`.
def uploadPart (base : String) (source : PartSource) (partSize index : Nat) : Transfer Unit :=
  (store (.head (partObject base index))).bind fun size =>
    if size = some (source.partLen partSize index) then done ()
    else (lift (source.readPart (index * partSize) (source.partLen partSize index))).bind fun bytes =>
      if bytes.length ≠ source.partLen partSize index then
        fail (.storage (s!"part source returned {bytes.length} bytes for part {index}, " ++
          s!"expected {source.partLen partSize index}"))
      else store (.putStream (partObject base index) bytes)

def uploadResumable (codec : StateCodec) (base : String) (source : PartSource) (partSize : Nat) :
    Transfer ResumableUpload :=
  let partSize := max partSize 1
  let parts := source.partCount partSize
  (each (List.range parts) (uploadPart base source partSize)).bind fun _ =>
    (store (.putStream (stateObject base) (codec.toVec ⟨partSize,source.len,parts,true⟩))).bind fun _ =>
      done ⟨partSize,source.len,parts⟩

def openResumable (codec : StateCodec) (base : String) : Transfer ResumableUpload :=
  (store (.head (stateObject base))).bind fun size =>
    if size.isNone then fail (.storage s!"no resumable upload at {base}")
    else (store (.getStream (stateObject base))).bind fun bytes =>
      match codec.fromSlice bytes with
      | .error err => fail (.storage s!"invalid resumable upload state: {err}")
      | .ok state =>
        if state.complete then done ⟨state.partSize,state.totalSize,state.parts⟩
        else fail (.storage s!"resumable upload at {base} is incomplete")

def readParts (base : String) : List Nat → Transfer Bytes
  | [] => done []
  | index :: rest => (store (.getStream (partObject base index))).bind fun bytes =>
    (readParts base rest).bind fun more => done (bytes ++ more)

def readResumable (base : String) (upload : ResumableUpload) : Transfer Bytes :=
  readParts base (List.range upload.parts)

def deleteResumable (base : String) : Transfer Unit :=
  (store (.list (base ++ ".upload/"))).bind fun paths => each paths fun path => store (.delete path)

section Paths
variable {base : String}

theorem paddedIndex_value (index : Nat) : Nat.ofDigitChars 10 (paddedIndex index) 0 = index := by
  simp [paddedIndex,Nat.ofDigitChars_append]

theorem partObject_inj (same : partObject base i = partObject base j) : i = j := by
  have digits : paddedIndex i = paddedIndex j := by
    simpa [partObject,← String.toList_inj] using same
  rw [← paddedIndex_value i,digits,paddedIndex_value]

theorem stateObject_apart (base : String) (index : Nat) : stateObject base ≠ partObject base index := by
  intro same
  have ends : (stateObject base).toList.reverse.head? =
      (partObject base index).toList.reverse.head? := by rw [same]
  simp [stateObject,partObject] at ends

end Paths

-- The store as its callers know it: what is listed is complete and in no order.
abbrev Objects : Type := String → Option Bytes

def Lists (w : Objects) (under : String) (paths : List String) : Prop :=
  paths.Nodup ∧ ∀ path, path ∈ paths ↔ under.toList <+: path.toList ∧ (w path).isSome

-- What a reader finds: it writes nothing, and listing is not among its operations.
def look : Handler StoreOp StoreOp.Answer Objects
  | .head path,w => (.ok ((w path).map List.length),w)
  | .getStream path,w => (match w path with
    | some body => .ok body
    | none => .error (.storage "not found"),w)
  | _,w => (.error (.storage "not a read"),w)

def StoreOp.IsRead : StoreOp → Prop
  | head _ | getStream _ => True
  | _ => False

inductive Served : (op : StoreOp) → Objects → op.Answer → Objects → Prop where
  | read (op : StoreOp) (w : Objects) : op.IsRead → Served op w (look op w).1 w
  | putStream (path : String) (body : Bytes) (w : Objects) :
      Served (.putStream path body) w (.ok ()) (Function.update w path (some body))
  | list (under : String) (paths : List String) (w : Objects) : Lists w under paths →
      Served (.list under) w (.ok paths) w
  | delete (path : String) (w : Objects) : Served (.delete path) w (.ok ()) (Function.update w path none)

-- An operation may also fail without an effect.
inductive Serves : (op : StoreOp) → Objects → op.Answer → Objects → Prop where
  | served : Served op w answer w' → Serves op w answer w'
  | failed (op : StoreOp) (w : Objects) (err : Error) : Serves op w (.error err) w

-- Or a write may leave the first bytes of its object.
inductive Tears : (op : StoreOp) → Objects → op.Answer → Objects → Prop where
  | serves : Serves op w answer w' → Tears op w answer w'
  | torn (path : String) (body : Bytes) (n : Nat) (w : Objects) (err : Error) :
      Tears (.putStream path body) w (.error err) (Function.update w path (some (body.take n)))

section Calls
variable {answers : Answering StoreOp StoreOp.Answer Objects} {op : StoreOp}

theorem store_runs {q : Transfer op.Result} (runs : Runs answers (store op) w q w') :
    w' = w ∧ q = store op ∨ ∃ answer, answers op w answer w' ∧ q = lift answer := by
  cases runs with
  | here => exact .inl ⟨rfl,rfl⟩
  | call _ _ answer middle answered rest =>
    have lifted : Runs answers (lift answer : Transfer op.Result) middle q w' := rest
    cases answer with
    | ok value =>
      obtain ⟨rfl,rfl⟩ := runs_done lifted
      exact .inr ⟨_,answered,rfl⟩
    | error err =>
      obtain ⟨rfl,rfl⟩ := runs_fail lifted
      exact .inr ⟨_,answered,rfl⟩

theorem store_done {value : op.Result} : Runs answers (store op) w (done value) w' ↔
    answers op w (.ok value) w' := by
  constructor
  · intro runs
    rcases store_runs runs with ⟨-,same⟩ | ⟨answer,answered,same⟩
    · cases same
    · cases answer with
      | ok result => cases same; exact answered
      | error err => cases same
  · exact fun answered => .call _ _ (.ok value) _ answered (.here _ _)

theorem head_done (answered : Tears (.head path) w (.ok size) w') :
    size = (w path).map List.length ∧ w' = w := by
  cases answered with
  | serves serves => cases serves with
    | served served => cases served with
      | read => exact ⟨rfl,rfl⟩

theorem put_done (answered : Tears (.putStream path body) w (.ok ()) w') :
    w' = Function.update w path (some body) := by
  cases answered with
  | serves serves => cases serves with
    | served served => cases served with
      | putStream => rfl

theorem put_any {answer : StoreOp.Answer (.putStream path body)}
    (answered : Tears (.putStream path body) w answer w') :
    w' = w ∨ ∃ n, w' = Function.update w path (some (body.take n)) := by
  cases answered with
  | serves serves => cases serves with
    | served served => cases served with
      | read _ _ reads => exact reads.elim
      | putStream => exact .inr ⟨body.length,by rw [List.take_length]⟩
    | failed => exact .inl rfl
  | torn path body n => exact .inr ⟨n,rfl⟩

theorem head_any {answer : StoreOp.Answer (.head path)}
    (answered : Tears (.head path) w answer w') : w' = w := by
  cases answered with
  | serves serves => cases serves with
    | served served => cases served with
      | read => rfl
    | failed => rfl

end Calls

def window (data : Bytes) (partSize index : Nat) : Bytes := (data.drop (index * partSize)).take partSize

section Part
variable {base : String} {source : PartSource} {data : Bytes}

theorem window_length (reads : source.Reads data) (partSize index : Nat) :
    (window data partSize index).length = source.partLen partSize index := by
  simp only [window,PartSource.partLen,reads.1,List.length_take,List.length_drop]
  omega

theorem reads_window (reads : source.Reads data) (inside : index * partSize ≤ data.length)
    (read : source.readPart (index * partSize) (source.partLen partSize index) = .ok bytes)
    (whole : bytes.length = source.partLen partSize index) : bytes = window data partSize index := by
  have short : source.partLen partSize index = min partSize (data.drop (index * partSize)).length := by
    simp only [PartSource.partLen,reads.1,List.length_drop]
    exact Nat.min_comm _ _
  have fits : index * partSize + source.partLen partSize index ≤ data.length := by
    simp only [short,List.length_drop]
    omega
  rw [reads.2 _ _ _ fits read whole,short,← List.take_eq_take_min,window]

def Trusted (base : String) (source : PartSource) (partSize : Nat) (w : Objects) (index : Nat) : Prop :=
  (w (partObject base index)).map List.length = some (source.partLen partSize index)

instance : Decidable (Trusted base source partSize w index) := inferInstanceAs (Decidable (_ = _))

theorem uploadPart_cases (reads : source.Reads data) (inside : index * partSize ≤ data.length)
    (runs : Runs Tears (uploadPart base source partSize index) w q w') :
    w' = w ∧ (q = done () → Trusted base source partSize w index) ∨
      ¬Trusted base source partSize w index ∧
        (q ≠ done () ∧ (∃ n, w' = Function.update w (partObject base index)
          (some ((window data partSize index).take n))) ∨
          w' = Function.update w (partObject base index) (some (window data partSize index))) := by
  rcases runs_bind runs with ⟨p',going,-,asked⟩ | ⟨size,middle,asked,rest⟩
  · refine .inl ⟨?_,fun ended => (going () ended).elim⟩
    rcases store_runs asked with ⟨same,-⟩ | ⟨answer,answered,-⟩
    · exact same
    · exact head_any answered
  · obtain ⟨rfl,rfl⟩ := head_done (store_done.mp asked)
    split at rest
    · rename_i sized
      obtain ⟨-,rfl⟩ := runs_done rest
      exact .inl ⟨rfl,fun _ => sized⟩
    · rename_i unsized
      cases part : source.readPart (index * partSize) (source.partLen partSize index) with
      | error err =>
        simp only [part,lift,fail_bind] at rest
        obtain ⟨rfl,rfl⟩ := runs_fail rest
        exact .inl ⟨rfl,fun ended => by cases ended⟩
      | ok bytes =>
        simp only [part,lift,done_bind] at rest
        split at rest
        · obtain ⟨rfl,rfl⟩ := runs_fail rest
          exact .inl ⟨rfl,fun ended => by cases ended⟩
        · rename_i whole
          obtain rfl := reads_window reads inside part (not_ne_iff.mp whole)
          rcases store_runs rest with ⟨rfl,rfl⟩ | ⟨answer,answered,rfl⟩
          · exact .inl ⟨rfl,fun ended => by cases ended⟩
          · cases answer with
            | ok value => exact .inr ⟨unsized,.inr (put_done answered)⟩
            | error err =>
              rcases put_any answered with same | torn
              · exact .inl ⟨same,fun ended => by cases ended⟩
              · exact .inr ⟨unsized,.inl ⟨by simp [lift],torn⟩⟩

def settled (base : String) (source : PartSource) (data : Bytes) (partSize : Nat) (w : Objects)
    (index : Nat) : Bytes :=
  if Trusted base source partSize w index then (w (partObject base index)).getD []
    else window data partSize index

theorem settled_trusted (trusted : Trusted base source partSize w index) :
    w (partObject base index) = some (settled base source data partSize w index) := by
  rw [settled,if_pos trusted]
  cases stored : w (partObject base index) with
  | none => simp [Trusted,stored] at trusted
  | some bytes => rfl

theorem settled_mistrusted (mistrusted : ¬Trusted base source partSize w index) :
    settled base source data partSize w index = window data partSize index := if_neg mistrusted

theorem trusted_same (same : w' (partObject base index) = w (partObject base index)) :
    Trusted base source partSize w' index ↔ Trusted base source partSize w index := by
  unfold Trusted
  rw [same]

def IsPart (base : String) (parts : Nat) (path : String) : Prop := ∃ index < parts, path = partObject base index

theorem inside_of_lt (reads : source.Reads data) (below : index < source.partCount partSize) :
    index * partSize ≤ data.length := by
  unfold PartSource.partCount at below
  rw [reads.1] at below
  by_cases zero : partSize = 0
  · simp [zero]
  · have enough := (Nat.lt_div_iff_mul_lt (by omega)).mp below
    have := Nat.mul_comm index partSize
    omega

structure Turns (base : String) (source : PartSource) (data : Bytes) (partSize : Nat) (w : Objects)
    (parts : Nat)
    (rest : List Nat) (w' : Objects) : Prop where
  distinct : rest.Nodup
  open_ : ∀ index ∈ rest, w' (partObject base index) = w (partObject base index)
  turned : ∀ index < parts, index ∉ rest → w' (partObject base index) =
    some (settled base source data partSize w index)
  others : ∀ path, ¬IsPart base parts path → w' path = w path

theorem uploadParts_done (reads : source.Reads data)
    (runs : Runs Tears (each (List.range (source.partCount partSize))
      (uploadPart base source partSize)) w (done ()) w') :
    (∀ index < source.partCount partSize, w' (partObject base index) =
      some (settled base source data partSize w index)) ∧
      ∀ path, ¬IsPart base (source.partCount partSize) path → w' path = w path := by
  have start : Turns base source data partSize w (source.partCount partSize)
      (List.range (source.partCount partSize)) w :=
    ⟨List.nodup_range,fun _ _ => rfl,fun index below absent =>
      (absent (List.mem_range.mpr below)).elim,fun _ _ => rfl⟩
  have left := (runs_each (Turns base source data partSize w (source.partCount partSize))
      (fun _ => True) _ start
    ?_ (fun _ _ _ _ _ _ _ _ => trivial) (fun _ _ => trivial) runs).2 rfl
  · exact ⟨fun index below => left.turned index below (by simp),left.others⟩
  · rintro index rest middle next present turns part
    obtain ⟨fresh,distinct⟩ := List.nodup_cons.mp turns.distinct
    have below := List.mem_range.mp present
    have here := turns.open_ index List.mem_cons_self
    have same : ∀ other ≠ index, partObject base other ≠ partObject base index :=
      fun other apart equal => apart (partObject_inj equal)
    have result : next (partObject base index) = some (settled base source data partSize w index) ∧
        ∀ path, path ≠ partObject base index → next path = middle path := by
      rcases uploadPart_cases reads (inside_of_lt reads below) part
        with ⟨rfl,trusted⟩ | ⟨mistrusted,⟨unfinished,-⟩ | rfl⟩
      · exact ⟨here.trans (settled_trusted ((trusted_same here).mp (trusted rfl))),fun _ _ => rfl⟩
      · exact (unfinished rfl).elim
      · rw [trusted_same here] at mistrusted
        exact ⟨by rw [Function.update_self,settled_mistrusted mistrusted],fun path apart =>
          Function.update_of_ne apart _ _⟩
    refine ⟨distinct,fun other later => ?_,fun other under done_ => ?_,fun path outside => ?_⟩
    · have apart : other ≠ index := fun equal => fresh (equal ▸ later)
      rw [result.2 _ (same other apart),turns.open_ other (List.mem_cons_of_mem _ later)]
    · by_cases equal : other = index
      · exact equal ▸ result.1
      · rw [result.2 _ (same other equal)]
        exact turns.turned other under (by simp [equal,done_])
    · rw [result.2 _ fun equal => outside ⟨index,below,equal⟩]
      exact turns.others path outside

theorem uploadResumable_done {codec : StateCodec} (reads : source.Reads data)
    (runs : Runs Tears (uploadResumable codec base source partSize) w (done upload) w') :
    (∀ index < source.partCount (max partSize 1),
        w' (partObject base index) = some (settled base source data (max partSize 1) w index)) ∧
      w' (stateObject base) = some
        (codec.toVec ⟨max partSize 1,source.len,source.partCount (max partSize 1),true⟩) ∧
      ∀ path, path ≠ stateObject base → ¬IsPart base (source.partCount (max partSize 1)) path →
        w' path = w path := by
  obtain ⟨_,middle,parts,rest⟩ := runs_bind_done runs
  obtain ⟨_,last,marker,ended⟩ := runs_bind_done rest
  obtain ⟨-,rfl⟩ := runs_done ended
  obtain ⟨held,others⟩ := uploadParts_done reads parts
  obtain rfl := put_done (store_done.mp marker)
  refine ⟨fun index below => ?_,Function.update_self ..,fun path apart outside => ?_⟩
  · rw [Function.update_of_ne (stateObject_apart base index).symm]
    exact held index below
  · rw [Function.update_of_ne apart]
    exact others path outside

theorem bytesPartSource_readPart (data : Bytes) (offset len : Nat) :
    (bytesPartSource data).readPart offset len = .ok ((data.drop offset).take len) := by
  have cut : (data.take (min (min offset data.length + len) data.length)).drop
      (min offset data.length) = (data.drop offset).take len := by
    by_cases inside : offset ≤ data.length
    · rw [Nat.min_eq_left inside,List.drop_take,List.take_eq_take_iff,List.length_drop]
      omega
    · have nothing : data.drop offset = [] := List.drop_of_length_le (by omega)
      simp [nothing,Nat.min_eq_right (Nat.le_of_not_le inside)]
  exact congrArg Except.ok cut

theorem bytesPartSource_reads (data : Bytes) : (bytesPartSource data).Reads data := by
  refine ⟨rfl,fun offset len bytes inside read _ => ?_⟩
  rw [bytesPartSource_readPart] at read
  exact (Except.ok.inj read).symm

theorem filePartSource_reads (data : Bytes) : (filePartSource data.length data).Reads data := by
  refine ⟨rfl,fun offset len bytes inside read _ => ?_⟩
  have wanted : min (data.length - offset) len = len := by omega
  simp only [filePartSource,wanted,if_pos inside] at read
  exact (Except.ok.inj read).symm

theorem uploadPart_served
    (read : source.readPart (index * partSize) (source.partLen partSize index) = .ok bytes)
    (whole : bytes.length = source.partLen partSize index) (w : Objects) :
    ∃ w', Runs Served (uploadPart base source partSize index) w (done ()) w' := by
  have asked : Runs Served (store (.head (partObject base index))) w
      (done ((w (partObject base index)).map List.length)) w :=
    store_done.mpr (.read (.head (partObject base index)) w trivial)
  by_cases trusted : (w (partObject base index)).map List.length = some (source.partLen partSize index)
  · refine ⟨w,runs_then asked ?_⟩
    rw [if_pos trusted]
    exact .here _ _
  · refine ⟨Function.update w (partObject base index) (some bytes),runs_then asked ?_⟩
    rw [if_neg trusted,read]
    simp only [lift,done_bind,ne_eq,whole,not_true,if_false]
    exact store_done.mpr (.putStream _ _ _)

theorem uploadResumable_served (codec : StateCodec) (base : String) (data : Bytes) (partSize : Nat)
    (w : Objects) :
    ∃ upload w', Runs Served (uploadResumable codec base (bytesPartSource data) partSize) w
      (done upload) w' := by
  have turns : ∃ middle, Runs Served (each (List.range ((bytesPartSource data).partCount (max partSize 1)))
      (uploadPart base (bytesPartSource data) (max partSize 1))) w (done ()) middle := by
    refine each_ends _ w fun index _ => uploadPart_served (bytesPartSource_readPart data _ _) ?_
    simp only [List.length_take,List.length_drop,PartSource.partLen,bytesPartSource]
    omega
  obtain ⟨middle,parts⟩ := turns
  exact ⟨_,_,runs_then parts (runs_then (store_done.mpr (.putStream _ _ _)) (.here _ _))⟩

theorem served_tears {p q : Transfer α} (runs : Runs Served p w q w') : Runs Tears p w q w' :=
  runs_mono (fun _ _ _ _ served => .serves (.served served)) runs

end Part
end ArangoDataTools.Resumable
