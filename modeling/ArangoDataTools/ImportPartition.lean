import Mathlib.Data.List.Chain
import Mathlib.Data.List.Forall2
import ArangoDataTools.ImportBatch

namespace ArangoDataTools

variable {δ : Type} {line : δ → Bytes} {config : BatchConfig} {documents held : List δ} {batches : List Batch}
  {chunks : List (List δ)} {b : Batcher}

structure Packs (line : δ → Bytes) (config : BatchConfig) (batch : Batch) (chunk : List δ) : Prop where
  body : batch.body = jsonl line chunk
  documents : batch.documents = chunk.length
  some_ : 1 ≤ chunk.length
  few : chunk.length ≤ max 1 config.maxDocs
  small : batch.byteLen ≤ config.maxBytes ∨ chunk.length = 1

def Full (line : δ → Bytes) (config : BatchConfig) (chunk next : List δ) : Prop :=
  chunk.length < config.maxDocs → ∀ document ∈ next.head?,
    config.maxBytes < (jsonl line chunk).length + (line document).length + 1

def Batcher.takes (line : δ → Bytes) (config : BatchConfig) : Batcher → List δ → List Batch × Batcher
  | b,[] => ([],b)
  | b,document :: rest =>
    let (yielded,next) := b.take config (line document)
    let (more,last) := next.takes line config rest
    (yielded ++ more,last)

theorem takes_append (b : Batcher) (documents more : List δ) : b.takes line config (documents ++ more) =
    ((b.takes line config documents).1 ++ ((b.takes line config documents).2.takes line config more).1,
      ((b.takes line config documents).2.takes line config more).2) := by
  induction documents generalizing b with
  | nil => rfl
  | cons document rest ih => simp only [List.cons_append,Batcher.takes,ih,List.append_assoc]

theorem intoBatchesFrom_takes (config : BatchConfig) (b : Batcher) (documents : List δ)
    (rest : List (Except Error δ)) :
    intoBatchesFrom (fun document => .ok (line document)) config b (documents.map .ok ++ rest) =
      ((b.takes line config documents).1 ++
        (intoBatchesFrom (fun document => .ok (line document)) config (b.takes line config documents).2 rest).1,
      (intoBatchesFrom (fun document => .ok (line document)) config
        (b.takes line config documents).2 rest).2) := by
  induction documents generalizing b with
  | nil => rfl
  | cons document more ih =>
    simp only [List.map_cons,List.cons_append,intoBatchesFrom,Batcher.takes,ih,List.append_assoc]

-- What the loop has done after some documents: the batches yielded, the documents
-- each of them covers, and the documents held back.
structure Divided (line : δ → Bytes) (config : BatchConfig) (documents : List δ)
    (batches : List Batch) (chunks : List (List δ))
    (held : List δ) (b : Batcher) : Prop where
  covers : chunks.flatten ++ held = documents
  packs : List.Forall₂ (Packs line config) batches chunks
  indices : batches.map Batch.index = List.range' 1 batches.length
  index : b.index = batches.length
  holds : b.Holds line held
  open_ : Open line config held
  full : (chunks ++ [held]).IsChain (Full line config)
  settled : held = [] → ∀ chunk ∈ chunks.getLast?, config.maxDocs ≤ chunk.length

theorem divided_start : Divided line config [] [] [] [] {} :=
  ⟨rfl,.nil,rfl,rfl,⟨rfl,rfl⟩,⟨.inl rfl,.inl (Nat.zero_le _)⟩,by simp,by simp⟩

theorem indices_snoc (indices : batches.map Batch.index = List.range' 1 batches.length)
    (index : b.index = batches.length) :
    (batches ++ [b.batch]).map Batch.index = List.range' 1 (batches ++ [b.batch]).length := by
  simp [indices,Batcher.batch,index,List.range'_concat,Nat.add_comm]

theorem packs_batch (holds : b.Holds line held) (some_ : 1 ≤ held.length)
    (few : held.length ≤ max 1 config.maxDocs)
    (small : held.length ≤ 1 ∨ (jsonl line held).length ≤ config.maxBytes) :
    Packs line config b.batch held := by
  refine ⟨holds.1,holds.2,some_,few,?_⟩
  rcases small with single | small
  · exact .inr (by omega)
  · refine .inl ?_
    rw [Batch.byteLen,Batcher.batch,holds.1]
    exact small

theorem divided_add (divided : Divided line config documents batches chunks held b) (document : δ)
    (room : b.count = 0 ∨ b.body.length + (line document).length + 1 ≤ config.maxBytes) :
    (held ++ [document]).length ≤ 1 ∨ (jsonl line (held ++ [document])).length ≤ config.maxBytes := by
  obtain ⟨body,count⟩ := divided.holds
  have longer : (jsonl line (held ++ [document])).length = b.body.length + (line document).length + 1 := by
    simp [jsonl,body]
    omega
  rcases room with first | room
  · exact .inl (by simp only [List.length_append,List.length_singleton]; omega)
  · exact .inr (by omega)

theorem chain_last {chunks : List (List δ)} {held more : List δ}
    (full : (chunks ++ [held]).IsChain (Full line config))
    (settled : held = [] → ∀ chunk ∈ chunks.getLast?, config.maxDocs ≤ chunk.length) :
    (chunks ++ [held ++ more]).IsChain (Full line config) := by
  rw [List.isChain_append] at full ⊢
  refine ⟨full.1,List.isChain_singleton _,fun chunk last next first => ?_⟩
  obtain rfl : held ++ more = next := by simpa using first
  intro few document begins
  cases held with
  | nil =>
    have whole := settled rfl chunk last
    omega
  | cons head rest => exact full.2.2 chunk last (head :: rest) (by simp) few document begins

theorem chain_snoc {chunks : List (List δ)} {held next : List δ}
    (full : (chunks ++ [held]).IsChain (Full line config))
    (link : Full line config held next) : (chunks ++ [held] ++ [next]).IsChain (Full line config) := by
  rw [List.isChain_append]
  refine ⟨full,List.isChain_singleton _,fun chunk last other first => ?_⟩
  obtain rfl : held = chunk := by simpa using last
  obtain rfl : next = other := by simpa using first
  exact link

theorem open_few (open_ : Open line config held) : held.length ≤ max 1 config.maxDocs := by
  rcases open_.1 with rfl | few
  · exact Nat.zero_le _
  · omega

theorem open_more (open_ : Open line config held) (document : δ) :
    (held ++ [document]).length ≤ max 1 config.maxDocs := by
  rw [List.length_append,List.length_singleton]
  rcases open_.1 with rfl | few
  · exact Nat.le_max_left _ _
  · omega

theorem full_nothing (chunk : List δ) : Full line config chunk [] := fun _ document absurd_ => by
  simp at absurd_

theorem packs_snoc {batch : Batch} (packs : List.Forall₂ (Packs line config) batches chunks)
    (last : Packs line config batch held) :
    List.Forall₂ (Packs line config) (batches ++ [batch]) (chunks ++ [held]) :=
    List.rel_append packs (.cons last .nil)

theorem divided_take (divided : Divided line config documents batches chunks held b) (document : δ) :
    ∃ chunks' held', Divided line config (documents ++ [document])
      (batches ++ (b.take config (line document)).1) chunks' held'
      (b.take config (line document)).2 := by
  obtain ⟨covers,packs,indices,index,holds,open_,full,settled⟩ := id divided
  have added := holds_add holds document
  have alone := holds_add (holds_flushed line b) document
  have next : (batches ++ [b.batch]).length = batches.length + 1 := by
    rw [List.length_append,List.length_singleton]
  have flushed : b.flushed.index = (batches ++ [b.batch]).length := by
    rw [next,← index]
    rfl
  have numbered := indices_snoc indices index
  rcases b.take_cases config (line document) with ⟨taken,few,room⟩ | ⟨taken,many,room⟩ | ⟨taken,
    some_,beyond,more⟩ | ⟨taken,some_,beyond,less⟩
  · rw [taken]
    refine ⟨chunks,held ++ [document],
      ?_,by simpa using packs,by simpa using indices,by simpa [Batcher.add] using index,added,⟨.inr ?_,?_⟩,
      chain_last full settled,fun absurd_ => absurd absurd_ (by simp)⟩
    · rw [← List.append_assoc,covers]
    · rw [← added.2]
      exact few
    · exact divided_add divided document room
  · rw [taken]
    have packed : Packs line config (b.add (line document)).batch (held ++ [document]) :=
      packs_batch added (by simp) (open_more open_ document) (divided_add divided document room)
    have place : (b.add (line document)).index = batches.length := index
    refine ⟨chunks ++ [held ++ [document]],[],?_,packs_snoc packs packed,indices_snoc indices place,
      ?_,holds_flushed line _,
      ⟨.inl rfl,.inl (Nat.zero_le _)⟩,chain_snoc (chain_last full settled) (full_nothing _),
      fun _ chunk last => ?_⟩
    · rw [List.flatten_append,List.flatten_singleton,List.append_nil,← List.append_assoc,covers]
    · rw [List.length_append,List.length_singleton,← place]
      rfl
    · obtain rfl : held ++ [document] = chunk := by simpa using last
      rw [← added.2]
      exact many
  · rw [taken]
    have packed : Packs line config b.batch held :=
      packs_batch holds (by rw [← holds.2]; exact some_) (open_few open_) open_.2
    refine ⟨chunks ++ [held],[document],?_,packs_snoc packs packed,numbered,flushed,alone,
      ⟨.inr more,.inl (Nat.le_refl 1)⟩,
      chain_snoc full ?_,fun absurd_ => absurd absurd_ (by simp)⟩
    · rw [List.flatten_append,List.flatten_singleton,covers]
    · intro _ other begins
      obtain rfl : document = other := by simpa using begins
      rw [← holds.1]
      exact beyond
  · rw [taken]
    have packed : Packs line config b.batch held :=
      packs_batch holds (by rw [← holds.2]; exact some_) (open_few open_) open_.2
    have single : Packs line config (b.flushed.add (line document)).batch [document] :=
      packs_batch alone (Nat.le_refl 1) (Nat.le_max_left _ _) (.inl (Nat.le_refl 1))
    have place : (b.flushed.add (line document)).index = (batches ++ [b.batch]).length := flushed
    have two : batches ++ [b.batch,(b.flushed.add (line document)).batch] =
        batches ++ [b.batch] ++ [(b.flushed.add (line document)).batch] := by simp
    rw [two]
    refine ⟨chunks ++ [held] ++ [[document]],[],?_,packs_snoc (packs_snoc packs packed) single,
      indices_snoc numbered place,?_,
      holds_flushed line _,⟨.inl rfl,.inl (Nat.zero_le _)⟩,
      chain_snoc (chain_snoc full ?_) (full_nothing _),fun _ chunk last => ?_⟩
    · simp only [List.flatten_append,List.flatten_singleton,List.append_nil,covers]
    · rw [List.length_append,List.length_singleton,← place]
      rfl
    · intro _ other begins
      obtain rfl : document = other := by simpa using begins
      rw [← holds.1]
      exact beyond
    · obtain rfl : [document] = chunk := by simpa using last
      exact less

theorem divided_takes (documents : List δ) : ∃ chunks held,
    Divided line config documents (Batcher.takes line config {} documents).1 chunks held
      (Batcher.takes line config {} documents).2 := by
  induction documents using List.reverseRecOn with
  | nil => exact ⟨[],[],divided_start⟩
  | append_singleton documents document ih =>
    obtain ⟨chunks,held,divided⟩ := ih
    have one : ∀ b : Batcher, b.takes line config [document] = b.take config (line document) :=
      fun b => by simp [Batcher.takes]
    rw [takes_append,one]
    exact divided_take divided document

-- The batches of a list of documents, one after the other, and the error that ends it.
structure Partitioned (line : δ → Bytes) (config : BatchConfig) (documents : List δ)
    (err : Option Error) (batches : List Batch)
    (chunks : List (List δ)) : Prop where
  packs : List.Forall₂ (Packs line config) batches chunks
  indices : batches.map Batch.index = List.range' 1 batches.length
  covers : chunks.flatten <+: documents
  whole : err = none → chunks.flatten = documents
  full : chunks.IsChain (Full line config)

theorem chain_init {chunks : List (List δ)} (full : (chunks ++ [held]).IsChain (Full line config)) :
    chunks.IsChain (Full line config) := by
  rw [List.isChain_append] at full
  exact full.1

theorem divided_ends (divided : Divided line config documents batches chunks held b) (err : Option Error) :
    ∃ chunks', Partitioned line config documents err
      (batches ++ (intoBatchesFrom (fun document => .ok (line document)) config b
        (err.toList.map .error)).1) chunks' := by
  obtain ⟨covers,packs,indices,index,holds,open_,full,settled⟩ := divided
  have started : chunks.flatten <+: documents := ⟨held,covers⟩
  cases err with
  | some err =>
    refine ⟨chunks,?_⟩
    rw [show (intoBatchesFrom (fun document => .ok (line document)) config b
      ((some err).toList.map .error)).1 = [] from rfl,List.append_nil]
    exact ⟨packs,indices,started,fun absurd_ => (Option.some_ne_none err absurd_).elim,chain_init full⟩
  | none =>
    have ends : (intoBatchesFrom (fun document => .ok (line document)) config b
        ((none : Option Error).toList.map .error)).1 =
        if b.count > 0 then [b.batch] else [] := rfl
    rw [ends]
    by_cases some_ : b.count > 0
    · rw [if_pos some_]
      have packed : Packs line config b.batch held :=
        packs_batch holds (by rw [← holds.2]; exact some_) (open_few open_) open_.2
      have whole : (chunks ++ [held]).flatten = documents := by
        rw [List.flatten_append,List.flatten_singleton,covers]
      exact ⟨chunks ++ [held],packs_snoc packs packed,indices_snoc indices index,
        whole ▸ List.prefix_rfl,fun _ => whole,full⟩
    · rw [if_neg some_,List.append_nil]
      obtain rfl : held = [] := List.length_eq_zero_iff.mp (by rw [← holds.2]; omega)
      rw [List.append_nil] at covers
      exact ⟨chunks,packs,indices,started,fun _ => covers,chain_init full⟩

theorem jsonl_lines (clean : ∀ document, newline ∉ line document) (documents : List δ) :
    (jsonl line documents).count newline = documents.length := by
  induction documents with
  | nil => rfl
  | cons document rest ih =>
    have first : jsonl line (document :: rest) = line document ++ [newline] ++ jsonl line rest := rfl
    rw [first,List.count_append,List.count_append,List.count_eq_zero_of_not_mem (clean document),ih,
      List.length_cons]
    simp only [List.count_singleton_self]
    omega

theorem packs_lines (clean : ∀ document, newline ∉ line document) {chunks : List (List δ)}
    (packs : List.Forall₂ (Packs line config) batches chunks) : ∀ batch ∈ batches,
    batch.body.count newline = batch.documents := by
  induction packs with
  | nil => exact fun batch absurd_ => by cases absurd_
  | cons packed _ ih =>
    intro batch present
    rcases List.mem_cons.mp present with rfl | later
    · rw [packed.body,packed.documents,jsonl_lines clean]
    · exact ih batch later

theorem ends_short (b : Batcher) (err : Option Error) :
    (intoBatchesFrom (fun document => .ok (line document)) config b (err.toList.map .error)).1.length ≤ 1 := by
  cases err with
  | some err => exact Nat.zero_le 1
  | none => by_cases some_ : b.count > 0 <;> simp [intoBatchesFrom,some_]

theorem dropLast_early {β : Type} (early late : List β) (short : late.length ≤ 1) :
    (early ++ late).dropLast <+: early := by
  rw [List.dropLast_eq_take,List.take_append_of_le_length (by rw [List.length_append]; omega)]
  exact List.take_prefix _ _

-- The batches are a partition of the documents that is kept when the list goes on.
theorem batches_partition (line : δ → Bytes) (config : BatchConfig) (documents : List δ) (err : Option Error)
    (rest : List (Except Error δ)) :
    let batched := intoBatches (fun document => .ok (line document))
        (documents.map .ok ++ err.toList.map .error) config
    batched.2 = err ∧ (∃ chunks, Partitioned line config documents err batched.1 chunks) ∧
    ((∀ document, newline ∉ line document) → ∀ batch ∈ batched.1, batch.body.count newline = batch.documents) ∧
    batched.1.dropLast <+: (intoBatches (fun document => .ok (line document))
      (documents.map .ok ++ rest) config).1 := by
  obtain ⟨chunks,held,divided⟩ := @divided_takes δ line config documents
  intro batched
  have loop := @intoBatchesFrom_takes δ line config {} documents
  have yields : batched = _ := loop (err.toList.map .error)
  obtain ⟨chunks',partitioned⟩ := divided_ends divided err
  refine ⟨?_,⟨chunks',?_⟩,fun clean => ?_,?_⟩
  · rw [yields]
    cases err <;> rfl
  · rw [yields]
    exact partitioned
  · rw [yields]
    exact packs_lines clean partitioned.packs
  · have further : intoBatches (fun document => .ok (line document))
        (documents.map .ok ++ rest) config = _ := loop rest
    rw [yields,further]
    exact (dropLast_early _ _ (ends_short _ err)).trans (List.prefix_append _ _)

-- Two documents under a bound that holds either of them and not both.
def boolLine (document : Bool) : Bytes := asciiBytes (if document then "true" else "false")

theorem two_batches_partition :
    (intoBatches (fun document => .ok (boolLine document)) [.ok true,.ok false]
      {maxBytes := 8}).1.map Batch.documents = [1,1] ∧
    ∀ batch ∈ (intoBatches (fun document => .ok (boolLine document)) [.ok true,.ok false] {maxBytes := 8}).1,
      batch.body.count newline = batch.documents := by
  have clean : ∀ document, newline ∉ boolLine document := by
    intro document
    cases document <;> decide
  exact ⟨rfl,(batches_partition boolLine {maxBytes := 8} [true,false] none []).2.2.1 clean⟩

end ArangoDataTools
