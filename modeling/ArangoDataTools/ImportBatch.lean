import Mathlib.Data.List.Infix
import Mathlib.Data.List.Nodup
import ArangoDataTools.Manifest

namespace ArangoDataTools

structure Batch where
  body : Bytes
  documents : Nat
  index : Nat
  deriving DecidableEq, Repr

def Batch.byteLen (batch : Batch) : Nat := batch.body.length

structure BatchConfig where
  maxBytes : Nat := 4 * 1024 * 1024
  maxDocs : Nat := 100000
  deriving DecidableEq, Repr

def newline : UInt8 := 10

-- The loop variables of `into_batches`: the body under construction, the number
-- of documents in it and the index of the last batch yielded.
structure Batcher where
  body : Bytes := []
  count : Nat := 0
  index : Nat := 0
  deriving DecidableEq, Repr

namespace Batcher

def batch (b : Batcher) : Batch := {body := b.body,documents := b.count,index := b.index + 1}
def flushed (b : Batcher) : Batcher := {index := b.index + 1}
def add (b : Batcher) (line : Bytes) : Batcher :=
  {b with body := b.body ++ line ++ [newline],count := b.count + 1}

def take (config : BatchConfig) (b : Batcher) (line : Bytes) : List Batch × Batcher :=
  let (early,room) := if b.count > 0 ∧ b.body.length + line.length + 1 > config.maxBytes
    then ([b.batch],b.flushed) else ([],b)
  let filled := room.add line
  if filled.count ≥ config.maxDocs then (early ++ [filled.batch],filled.flushed) else (early,filled)

end Batcher

variable {δ : Type}

-- The stream yields the batches of the list, then the error if there is one: a
-- failed document ends it and what was accumulated is not yielded.
def intoBatchesFrom (toVec : δ → Except Error Bytes) (config : BatchConfig) :
    Batcher → List (Except Error δ) → List Batch × Option Error
  | b,[] => (if b.count > 0 then [b.batch] else [],none)
  | _,.error err :: _ => ([],some err)
  | b,.ok document :: rest => match toVec document with
    | .error err => ([],some err)
    | .ok line =>
      let (yielded,next) := b.take config line
      let (more,ending) := intoBatchesFrom toVec config next rest
      (yielded ++ more,ending)

def intoBatches (toVec : δ → Except Error Bytes) (documents : List (Except Error δ)) (config : BatchConfig) :
    List Batch × Option Error := intoBatchesFrom toVec config {} documents

namespace Batcher

theorem take_cases (config : BatchConfig) (b : Batcher) (line : Bytes) :
    (b.take config line = ([],b.add line) ∧ (b.add line).count < config.maxDocs ∧
      (b.count = 0 ∨ b.body.length + line.length + 1 ≤ config.maxBytes)) ∨
    (b.take config line = ([(b.add line).batch],(b.add line).flushed) ∧ config.maxDocs ≤ (b.add line).count ∧
      (b.count = 0 ∨ b.body.length + line.length + 1 ≤ config.maxBytes)) ∨
    (b.take config line = ([b.batch],b.flushed.add line) ∧ 0 < b.count ∧
      config.maxBytes < b.body.length + line.length + 1 ∧ 1 < config.maxDocs) ∨
    (b.take config line = ([b.batch,(b.flushed.add line).batch],(b.flushed.add line).flushed) ∧ 0 < b.count ∧
      config.maxBytes < b.body.length + line.length + 1 ∧ config.maxDocs ≤ 1) := by
  by_cases full : b.count > 0 ∧ b.body.length + line.length + 1 > config.maxBytes
  · have alone : (b.flushed.add line).count = 1 := rfl
    by_cases many : (b.flushed.add line).count ≥ config.maxDocs
    · exact .inr
        (.inr (.inr ⟨by simp only [take,if_pos full,if_pos many,List.singleton_append],full.1,full.2,by omega⟩))
    · exact .inr (.inr (.inl ⟨by simp only [take,if_pos full,if_neg many],full.1,full.2,by omega⟩))
  · have room : b.count = 0 ∨ b.body.length + line.length + 1 ≤ config.maxBytes := by omega
    by_cases many : (b.add line).count ≥ config.maxDocs
    · exact .inr (.inl ⟨by simp only [take,if_neg full,if_pos many,List.nil_append],many,room⟩)
    · exact .inl ⟨by simp only [take,if_neg full,if_neg many],by omega,room⟩

theorem take_indices (config : BatchConfig) (b : Batcher) (line : Bytes) :
    (b.take config line).1.map Batch.index = List.range' (b.index + 1) (b.take config line).1.length ∧
      (b.take config line).2.index = b.index + (b.take config line).1.length := by
  rcases take_cases config b line with ⟨taken,-⟩ | ⟨taken,-⟩ | ⟨taken,-⟩ | ⟨taken,-⟩ <;>
    simp [taken,batch,add,flushed,List.range'_succ]

end Batcher

theorem intoBatchesFrom_indices (toVec : δ → Except Error Bytes) (config : BatchConfig) (b : Batcher)
    (documents : List (Except Error δ)) :
    (intoBatchesFrom toVec config b documents).1.map Batch.index =
      List.range' (b.index + 1) (intoBatchesFrom toVec config b documents).1.length := by
  induction documents generalizing b with
  | nil => by_cases some_ : b.count > 0 <;> simp [intoBatchesFrom,some_,Batcher.batch]
  | cons item rest ih => cases item with
    | error err => simp [intoBatchesFrom]
    | ok document => cases vec : toVec document with
      | error err => simp [intoBatchesFrom,vec]
      | ok line =>
        obtain ⟨numbered,advanced⟩ := b.take_indices config line
        have later := ih (b.take config line).2
        simp only [intoBatchesFrom,vec,List.map_append,List.length_append,numbered,later,advanced]
        have from_ : b.index + (b.take config line).1.length + 1 =
            b.index + 1 + 1 * (b.take config line).1.length := by omega
        rw [from_,List.range'_append]

theorem intoBatches_indices (toVec : δ → Except Error Bytes) (documents : List (Except Error δ))
    (config : BatchConfig) :
    (intoBatches toVec documents config).1.map Batch.index =
      List.range' 1 (intoBatches toVec documents config).1.length :=
  intoBatchesFrom_indices toVec config {} documents

theorem intoBatches_nodup (toVec : δ → Except Error Bytes) (documents : List (Except Error δ))
    (config : BatchConfig) :
    ((intoBatches toVec documents config).1.map Batch.index).Nodup := by
  rw [intoBatches_indices]
  exact List.nodup_range'

section Content
variable (line : δ → Bytes)

def jsonl (documents : List δ) : Bytes := documents.flatMap fun document => line document ++ [newline]

@[simp] theorem jsonl_nil : jsonl line [] = [] := rfl
theorem jsonl_append (first second : List δ) : jsonl line (first ++ second) = jsonl line first ++
    jsonl line second := by
  simp [jsonl]

-- `Carries batches documents`: the batches hold the documents, each one in one
-- batch, in order, and no batch is empty.
inductive Carries : List Batch → List δ → Prop where
  | nil : Carries [] []
  | cons {batch : Batch} {chunk : List δ} {batches : List Batch} {documents : List δ} :
      batch.body = jsonl line chunk → batch.documents = chunk.length → chunk ≠ [] →
      Carries batches documents → Carries (batch :: batches) (chunk ++ documents)

-- The batcher holds the documents of `held`.
def Batcher.Holds (b : Batcher) (held : List δ) : Prop := b.body = jsonl line held ∧ b.count = held.length

variable {line}

theorem holds_add {b : Batcher} (holds : b.Holds line held) (document : δ) :
    (b.add (line document)).Holds line (held ++ [document]) := by
  obtain ⟨body,count⟩ := holds
  constructor
  · simp [Batcher.add,body,jsonl]
  · simp [Batcher.add,count]

theorem holds_flushed (line : δ → Bytes) (b : Batcher) : b.flushed.Holds line [] := ⟨rfl,rfl⟩

theorem carries_flush {b : Batcher} {rest : List Batch} (holds : b.Holds line held) (some_ : 0 < b.count)
    (more : Carries line rest documents) : Carries line (b.batch :: rest) (held ++ documents) := by
  obtain ⟨body,count⟩ := holds
  refine .cons body count ?_ more
  rintro rfl
  simp [count] at some_

theorem intoBatchesFrom_carries (config : BatchConfig) (documents : List δ) {b : Batcher}
    (holds : b.Holds line held) :
    Carries line (intoBatchesFrom (fun document => .ok (line document)) config b
      (documents.map .ok)).1 (held ++ documents) ∧
      (intoBatchesFrom (fun document => .ok (line document)) config b (documents.map .ok)).2 = none := by
  induction documents generalizing b held with
  | nil =>
    refine ⟨?_,rfl⟩
    by_cases some_ : 0 < b.count
    · simpa [intoBatchesFrom,some_] using carries_flush holds some_ .nil
    · have none_ : held = [] := List.length_eq_zero_iff.mp (by have := holds.2; omega)
      simpa [intoBatchesFrom,some_,none_] using Carries.nil
  | cons document rest ih =>
    have added := holds_add holds document
    have alone := holds_add (holds_flushed line b) document
    rcases b.take_cases config (line document) with ⟨taken,-⟩ | ⟨taken,-⟩ | ⟨taken,some_,-⟩ | ⟨taken,some_,-⟩
    · simpa [intoBatchesFrom,taken] using ih added
    · obtain ⟨more,ended⟩ := ih (holds_flushed line (b.add (line document)))
      have carried := carries_flush added (Nat.succ_pos _) more
      simp only [List.append_assoc,List.singleton_append,List.nil_append] at carried
      exact ⟨by simpa [intoBatchesFrom,taken] using carried,by simpa [intoBatchesFrom,taken] using ended⟩
    · obtain ⟨more,ended⟩ := ih alone
      have carried := carries_flush holds some_ more
      exact ⟨by simpa [intoBatchesFrom,taken] using carried,by simpa [intoBatchesFrom,taken] using ended⟩
    · obtain ⟨more,ended⟩ := ih (holds_flushed line (b.flushed.add (line document)))
      have carried := carries_flush holds some_ (carries_flush alone (Nat.succ_pos _) more)
      simp only [List.nil_append,List.singleton_append] at carried
      exact ⟨by simpa [intoBatchesFrom,taken] using carried,by simpa [intoBatchesFrom,taken] using ended⟩

theorem intoBatches_carries (config : BatchConfig) (documents : List δ) :
    Carries line (intoBatches (fun document => .ok (line document)) (documents.map .ok) config).1 documents ∧
      (intoBatches (fun document => .ok (line document)) (documents.map .ok) config).2 = none :=
  @intoBatchesFrom_carries _ line [] config documents {} ⟨rfl,rfl⟩

theorem carries_empty (carries : Carries line [] documents) : documents = [] := by
  cases carries with
  | nil => rfl

theorem carries_single (carries : Carries line [batch] documents) : batch.body = jsonl line documents := by
  cases carries with
  | cons body _ _ rest =>
    obtain rfl := carries_empty rest
    simpa using body

theorem carries_mem (carries : Carries line batches documents) (present : batch ∈ batches) :
    ∃ chunk, batch.body = jsonl line chunk ∧ chunk <:+: documents := by
  induction carries with
  | nil => cases present
  | @cons first chunk batches documents body _ _ _ ih =>
    rcases List.mem_cons.mp present with rfl | later
    · exact ⟨chunk,body,(List.prefix_append _ _).isInfix⟩
    · obtain ⟨other,content,part⟩ := ih later
      exact ⟨other,content,part.trans (List.suffix_append _ _).isInfix⟩

theorem carries_covers (carries : Carries line batches documents) {document : δ}
    (inside : document ∈ documents) :
    ∃ batch ∈ batches, ∃ chunk, batch.body = jsonl line chunk ∧ chunk <:+: documents ∧ document ∈ chunk := by
  induction carries with
  | nil => cases inside
  | @cons first chunk batches documents body _ _ _ ih =>
    rcases List.mem_append.mp inside with here | later
    · exact ⟨first,List.mem_cons_self,chunk,body,(List.prefix_append _ _).isInfix,here⟩
    · obtain ⟨other,present,part,content,within,held⟩ := ih later
      exact ⟨other,List.mem_cons_of_mem _ present,part,content,
        within.trans (List.suffix_append _ _).isInfix,held⟩

theorem carries_misses (carries : Carries line batches documents) (distinct : documents.Nodup)
    (present : batch ∈ batches)
    (several : 2 ≤ batches.length) :
    ∃ chunk, batch.body = jsonl line chunk ∧ chunk <:+: documents ∧ ∃ document ∈ documents,
    document ∉ chunk := by
  cases carries with
  | nil => cases present
  | @cons first chunk batches documents body _ some_ more =>
    obtain ⟨-,-,apart⟩ := List.nodup_append.mp distinct
    rcases List.mem_cons.mp present with rfl | later
    · cases more with
      | nil => simp at several
      | @cons _ next _ _ _ _ other _ =>
        obtain ⟨document,inside⟩ := List.exists_mem_of_ne_nil next other
        refine ⟨chunk,body,(List.prefix_append _ _).isInfix,document,by simp [inside],fun both => ?_⟩
        exact apart document both document (by simp [inside]) rfl
    · obtain ⟨other,content,part⟩ := carries_mem more later
      obtain ⟨document,inside⟩ := List.exists_mem_of_ne_nil chunk some_
      refine ⟨other,content,part.trans (List.suffix_append _ _).isInfix,document,by simp [inside],
        fun both => ?_⟩
      exact apart document inside document (part.subset both) rfl

-- The documents fit into one batch: a batch always takes a first document.
def Fits (line : δ → Bytes) (config : BatchConfig) (documents : List δ) : Prop :=
  documents.length ≤ 1 ∨ documents.length ≤ config.maxDocs ∧ (jsonl line documents).length ≤ config.maxBytes

instance (config : BatchConfig) (documents : List δ) : Decidable (Fits line config documents) :=
  inferInstanceAs (Decidable (_ ∨ _))

def Open (line : δ → Bytes) (config : BatchConfig) (held : List δ) : Prop :=
  (held = [] ∨ held.length < config.maxDocs) ∧ (held.length ≤ 1 ∨ (jsonl line held).length ≤ config.maxBytes)

theorem intoBatchesFrom_empty_iff (config : BatchConfig) (documents : List δ) {b : Batcher}
    (holds : b.Holds line held) :
    (intoBatchesFrom (fun document => .ok (line document)) config b (documents.map .ok)).1 = [] ↔
    held ++ documents = [] := by
  obtain ⟨carries,-⟩ := intoBatchesFrom_carries config documents holds
  constructor
  · intro none_
    rw [none_] at carries
    exact carries_empty carries
  · intro nothing
    rw [nothing] at carries
    generalize (intoBatchesFrom (fun document => .ok (line document)) config b
      (documents.map .ok)).1 = yielded at carries
    generalize none_ : ([] : List δ) = nothing at carries
    cases carries with
    | nil => rfl
    | cons _ _ some_ _ => simp [some_] at none_

theorem intoBatchesFrom_single_iff (config : BatchConfig) (documents : List δ) {b : Batcher}
    (holds : b.Holds line held)
    (open_ : Open line config held) :
    (intoBatchesFrom (fun document => .ok (line document)) config b (documents.map .ok)).1.length ≤ 1 ↔
      Fits line config (held ++ documents) := by
  induction documents generalizing b held with
  | nil =>
    obtain ⟨few,small⟩ := open_
    have one : (intoBatchesFrom (fun document => .ok (line document)) config b
        (([] : List δ).map .ok)).1.length ≤ 1 := by
      by_cases some_ : 0 < b.count <;> simp [intoBatchesFrom,some_]
    refine ⟨fun _ => ?_,fun _ => one⟩
    rcases few with rfl | few
    · exact .inl (by simp)
    · rcases small with single | small
      · exact .inl (by simpa using single)
      · exact .inr ⟨by simpa using few.le,by simpa using small⟩
  | cons document rest ih =>
    have added := holds_add holds document
    have alone := holds_add (holds_flushed line b) document
    obtain ⟨body,count⟩ := holds
    have longer : (jsonl line (held ++ [document])).length = b.body.length + (line document).length + 1 := by
      simp [jsonl,body]; omega
    have longest : (jsonl line (held ++ document :: rest)).length =
        b.body.length + (line document).length + 1 + (jsonl line rest).length := by
      rw [List.append_cons,jsonl_append,List.length_append,longer]
    have size : (held ++ document :: rest).length = b.count + 1 + rest.length := by
      simp only [List.length_append,List.length_cons,count]; omega
    rcases b.take_cases config (line document) with ⟨taken,few,room⟩ | ⟨taken,many,room⟩ | ⟨taken,
      some_,full,-⟩ | ⟨taken,some_,full,-⟩
    · have still : Open line config (held ++ [document]) := by
        refine ⟨.inr (by simpa [Batcher.add,count] using few),?_⟩
        rcases room with first | room
        · exact .inl (by simp only [List.length_append,List.length_singleton]; omega)
        · exact .inr (by omega)
      simpa [intoBatchesFrom,taken] using ih added still
    · have ended := intoBatchesFrom_empty_iff config rest (holds_flushed line (b.add (line document)))
      simp only [Batcher.add] at many
      simp only [List.map_cons,intoBatchesFrom,taken,List.singleton_append,List.length_cons]
      constructor
      · intro one
        obtain rfl : rest = [] := ended.mp (List.length_eq_zero_iff.mp (by omega))
        rcases open_.1 with rfl | few
        · exact .inl (by simp)
        · rcases room with first | room
          · exact .inl (by simp only [size,List.length_nil]; omega)
          · exact .inr
              ⟨by simp only [size,List.length_nil]; omega,by simp only [longest,jsonl_nil,List.length_nil]; omega⟩
      · intro fits
        obtain rfl : rest = [] := by
          refine List.length_eq_zero_iff.mp ?_
          rcases fits with single | ⟨fits,-⟩ <;> omega
        simp [intoBatchesFrom,Batcher.flushed]
    · have unfit : ¬Fits line config (held ++ document :: rest) := by
        rintro (single | ⟨-,small⟩) <;> omega
      have another := (intoBatchesFrom_empty_iff config rest alone).not.mpr (by simp)
      have more := List.length_pos_of_ne_nil another
      simp only [List.map_cons,intoBatchesFrom,taken,List.singleton_append,List.length_cons,unfit,iff_false]
      omega
    · have unfit : ¬Fits line config (held ++ document :: rest) := by
        rintro (single | ⟨-,small⟩) <;> omega
      simp [intoBatchesFrom,taken,unfit]

theorem intoBatches_single_iff (config : BatchConfig) (documents : List δ) :
    (intoBatches (fun document => .ok (line document)) (documents.map .ok) config).1.length ≤ 1 ↔
    Fits line config documents :=
  @intoBatchesFrom_single_iff _ line [] config documents {} ⟨rfl,rfl⟩ ⟨.inl rfl,.inl (Nat.zero_le _)⟩

end Content
end ArangoDataTools
