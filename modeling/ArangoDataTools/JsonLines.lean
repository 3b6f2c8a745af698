import Mathlib.Data.List.Forall2
import ArangoDataTools.JsonArray

namespace ArangoDataTools.JsonLines

-- What the calls of the reader below the buffer answer. An empty chunk or the end of the
-- list is `Ok(0)`.
abbrev Reads := List (Except Error (List UInt8))

-- `line` grows up to the delimiter or the end; what is buffered after it is left.
def readUntil (delimiter : UInt8) (reads : Reads) (buffered line : List UInt8) :
    Except Error (List UInt8 × List UInt8 × Reads) :=
  if delimiter ∈ buffered then
    .ok (line ++ (buffered.takeWhile (· ≠ delimiter) ++ [delimiter]),
    (buffered.dropWhile (· ≠ delimiter)).tail,reads)
  else match reads with
    | [] => .ok (line ++ buffered,[],[])
    | .ok [] :: rest => .ok (line ++ buffered,[],rest)
    | .error err :: _ => .error err
    | .ok chunk :: rest => readUntil delimiter rest chunk (line ++ buffered)

def trimAscii (bytes : List UInt8) : List UInt8 :=
  ((bytes.dropWhile isAsciiWhitespace).reverse.dropWhile isAsciiWhitespace).reverse

def pending : Reads → Nat
  | [] => 0
  | .ok chunk :: rest => chunk.length + 1 + pending rest
  | .error _ :: rest => pending rest

section Lines

variable {reads later : Reads} {buffered line kept next : List UInt8} {delimiter : UInt8}

theorem readUntil_within (present : delimiter ∈ buffered) :
    readUntil delimiter reads buffered line =
      .ok (line ++ (buffered.takeWhile (· ≠ delimiter) ++ [delimiter]),
      (buffered.dropWhile (· ≠ delimiter)).tail,reads) := by
  rw [readUntil.eq_def,if_pos present]

theorem readUntil_beyond (absent : delimiter ∉ buffered) (chunk : List UInt8) (nonempty : chunk ≠ []) :
    readUntil delimiter (.ok chunk :: reads) buffered line = readUntil delimiter reads chunk
      (line ++ buffered) := by
  rw [readUntil.eq_def,if_neg absent]
  cases chunk with
  | nil => exact absurd rfl nonempty
  | cons byte bytes => rfl

theorem within_length (present : delimiter ∈ buffered) :
    (buffered.takeWhile (· ≠ delimiter) ++ [delimiter]).length +
      (buffered.dropWhile (· ≠ delimiter)).tail.length = buffered.length := by
  induction buffered with
  | nil => cases present
  | cons byte rest ih =>
    by_cases same : byte = delimiter
    · simp [same]
      omega
    · have inside : delimiter ∈ rest := by simpa [Ne.symm same] using present
      have size := ih inside
      simp [same] at size ⊢
      omega

theorem readUntil_consumes (read : readUntil delimiter reads buffered line = .ok (next,kept,later)) :
    next.length + kept.length + pending later ≤ line.length + buffered.length + pending reads := by
  induction reads generalizing buffered line with
  | nil =>
    by_cases present : delimiter ∈ buffered
    · rw [readUntil_within present] at read
      cases read
      have size := within_length present
      rw [List.length_append]
      omega
    · rw [readUntil.eq_def,if_neg present] at read
      cases read
      simp
  | cons answer reads ih =>
    by_cases present : delimiter ∈ buffered
    · rw [readUntil_within present] at read
      cases read
      have size := within_length present
      rw [List.length_append]
      omega
    · cases answer with
      | error err =>
        rw [readUntil.eq_def,if_neg present] at read
        cases read
      | ok chunk =>
        by_cases empty : chunk = []
        · subst empty
          rw [readUntil.eq_def,if_neg present] at read
          cases read
          simp [pending]
        · rw [readUntil_beyond present chunk empty] at read
          have consumed := ih read
          rw [List.length_append] at consumed
          rw [pending]
          omega

end Lines

def documents (fromSlice : List UInt8 → Except (String × Nat) Value) (lineNo : Nat)
    (buffered : List UInt8) (reads : Reads) :
    List Value × Except Error Unit :=
  match _taken : readUntil 10 reads buffered [] with
  | .error err => ([],.error err)
  | .ok ([],_,_) => ([],.ok ())
  | .ok (byte :: line,buffered,reads) =>
    if trimAscii (byte :: line) = [] then documents fromSlice (lineNo + 1) buffered reads
    else match fromSlice (trimAscii (byte :: line)) with
      | .error (message,column) =>
          ([],.error (.parse ("invalid JSON: " ++ message) (some (lineNo + 1)) (some column)))
      | .ok value =>
        let (values,outcome) := documents fromSlice (lineNo + 1) buffered reads
        (value :: values,outcome)
termination_by buffered.length + pending reads
decreasing_by
  all_goals
    have consumed := readUntil_consumes _taken
    simp only [List.length_cons,List.length_nil] at consumed
    omega

def read (fromSlice : List UInt8 → Except (String × Nat) Value) (reads : Reads) :
    List Value × Except Error Unit :=
  documents fromSlice 0 [] reads

section Reading

variable {fromSlice : List UInt8 → Except (String × Nat) Value} {buffered line body tail rest : List UInt8}
  {chunks lines : List (List UInt8)} {delimiter : UInt8}

theorem cut_within (plain : delimiter ∉ body) (present : delimiter ∈ buffered)
    (whole : buffered ++ rest = body ++ delimiter :: tail) :
    buffered.takeWhile (· ≠ delimiter) = body ∧ (buffered.dropWhile (· ≠ delimiter)).tail ++ rest = tail := by
  have keeps : ∀ byte ∈ body, decide (byte ≠ delimiter) = true := fun byte member =>
    decide_eq_true fun same => plain (same ▸ member)
  rcases List.append_eq_append_iff.mp whole with ⟨more,longer,-⟩ | ⟨more,rfl,ends⟩
  · exact absurd (longer ▸ List.mem_append_left more present) plain
  · cases more with
    | nil => exact absurd (by simpa using present) plain
    | cons byte more =>
      obtain ⟨rfl,rfl⟩ := List.cons.inj ends
      rw [List.takeWhile_append_of_pos keeps,List.dropWhile_append_of_pos keeps]
      simp

theorem cut_beyond (absent : delimiter ∉ buffered) (whole : buffered ++ rest = body ++ delimiter :: tail) :
    ∃ more, body = buffered ++ more ∧ rest = more ++ delimiter :: tail := by
  rcases List.append_eq_append_iff.mp whole with ⟨more,longer,ends⟩ | ⟨more,rfl,ends⟩
  · exact ⟨more,longer,ends⟩
  · cases more with
    | nil => exact ⟨[],by simp,ends.symm⟩
    | cons byte more =>
      obtain ⟨rfl,-⟩ := List.cons.inj ends
      exact absurd (by simp) absent

theorem readUntil_line (nonempty : ∀ chunk ∈ chunks, chunk ≠ []) (plain : delimiter ∉ body)
    (whole : buffered ++ chunks.flatten = body ++ delimiter :: tail) :
    ∃ (kept : List UInt8) (later : List (List UInt8)),
      readUntil delimiter (chunks.map .ok) buffered line =
      .ok (line ++ (body ++ [delimiter]),kept,later.map .ok) ∧
      kept ++ later.flatten = tail ∧ ∀ chunk ∈ later, chunk ≠ [] := by
  induction chunks generalizing buffered line body with
  | nil =>
    have present : delimiter ∈ buffered := by
      rw [List.flatten_nil,List.append_nil] at whole
      simp [whole]
    obtain ⟨front,back⟩ := cut_within plain present whole
    exact ⟨_,[],by rw [List.map_nil,readUntil_within present,front],back,List.forall_mem_nil _⟩
  | cons chunk chunks ih =>
    by_cases present : delimiter ∈ buffered
    · obtain ⟨front,back⟩ := cut_within plain present whole
      exact ⟨_,chunk :: chunks,by rw [readUntil_within present,front],back,nonempty⟩
    · obtain ⟨some_,others⟩ := List.forall_mem_cons.mp nonempty
      obtain ⟨more,rfl,ends⟩ := cut_beyond present whole
      rw [List.flatten_cons] at ends
      obtain ⟨kept,later,read,back,left⟩ :=
        @ih chunk (line ++ buffered) more others (fun inside => plain (List.mem_append_right _ inside)) ends
      refine ⟨kept,later,?_,back,left⟩
      rw [List.map_cons,readUntil_beyond present chunk some_,read]
      simp only [List.append_assoc]

section Values
open JsonText

theorem value_ends {text : List UInt8} (value : Text .value text) : ∃ front last,
    text = front ++ [last] ∧ isSpace last = false := by
  have plain_ends : ∀ {t : List UInt8}, (t ≠ [] ∧ ∀ b ∈ t, isPlain b = true) → ∃ front last,
      t = front ++ [last] ∧ isSpace last = false := by
    rintro t ⟨some_,plain⟩
    have inert := plain (t.getLast some_) (List.getLast_mem some_)
    simp only [isPlain,Bool.and_eq_true,Bool.not_eq_true'] at inert
    exact ⟨t.dropLast,t.getLast some_,(List.dropLast_append_getLast some_).symm,inert.2⟩
  cases value with
  | literal literal => exact plain_ends (literal_plain literal)
  | number number => exact plain_ends (number_plain number)
  | string | noElements | array | noMembers | object => exact ⟨_,_,rfl,by decide⟩

theorem trimAscii_text {text : List UInt8} (value : Text .value text) : trimAscii (text ++ [10]) = text := by
  have dull : ∀ {byte : UInt8}, isSpace byte = false → byte ≠ 12 → isAsciiWhitespace byte = false := by
    intro byte space notFeed
    rw [Bool.eq_false_iff,Ne,ArrayScanner.ascii_space]
    simp [space,notFeed]
  obtain ⟨first,others,begins,space,notFeed,-⟩ := value_begins value rfl
  obtain ⟨front,last,rfl,ending⟩ := value_ends value
  have clean : last ≠ 12 :=
    fun same => text_no_formFeed value (same ▸ List.mem_append_right front (List.mem_singleton_self last))
  have kept : (front ++ [last] ++ [10]).dropWhile isAsciiWhitespace = front ++ [last] ++ [10] := by
    rw [begins,List.cons_append,List.dropWhile_cons_of_neg (by simp [dull space notFeed])]
  have newline : isAsciiWhitespace 10 = true := rfl
  unfold trimAscii
  rw [kept]
  simp [dull ending clean,newline]

end Values

structure LineOf (fromSlice : List UInt8 → Except (String × Nat) Value) (line : List UInt8)
    (value : Value) : Prop where
  single : 10 ∉ line
  trimmed : trimAscii (line ++ [10]) = line
  nonempty : line ≠ []
  parsed : fromSlice line = .ok value

theorem documents_line {value : Value} (text : LineOf fromSlice line value) {reads later : Reads}
    {kept : List UInt8} (lineNo : Nat)
    (taken : readUntil 10 reads buffered [] = .ok (line ++ [10],kept,later)) :
    documents fromSlice lineNo buffered reads =
      (value :: (documents fromSlice (lineNo + 1) kept later).1,
      (documents fromSlice (lineNo + 1) kept later).2) := by
  have trimmed := text.trimmed
  obtain ⟨byte,bytes,some_⟩ := List.exists_cons_of_ne_nil (show line ++ [10] ≠ [] by simp)
  rw [some_] at taken trimmed
  rw [documents]
  split
  · rename_i err refused
    rw [taken] at refused
    cases refused
  · rename_i ended
    rw [taken] at ended
    cases ended
  · rename_i byte' bytes' kept' later' read
    rw [taken] at read
    cases read
    rw [trimmed,if_neg text.nonempty,text.parsed]

theorem documents_lines {values : List Value} (each : List.Forall₂ (LineOf fromSlice) lines values) (lineNo : Nat)
    (nonempty : ∀ chunk ∈ chunks, chunk ≠ []) (whole : buffered ++ chunks.flatten = (lines.map (· ++ [10])).flatten) :
    documents fromSlice lineNo buffered (chunks.map .ok) = (values,.ok ()) := by
  induction each generalizing lineNo buffered chunks with
  | nil =>
    obtain ⟨rfl,empty⟩ := List.append_eq_nil_iff.mp whole
    have none_ : chunks = [] := by
      cases chunks with
      | nil => rfl
      | cons chunk chunks => exact absurd (List.flatten_eq_nil_iff.mp empty chunk List.mem_cons_self) (nonempty chunk List.mem_cons_self)
    subst none_
    rw [documents]
    split
    · rename_i refused
      cases refused
    · rfl
    · rename_i read
      cases read
  | @cons line value lines values first rest ih =>
    rw [List.map_cons,List.flatten_cons,List.append_assoc] at whole
    obtain ⟨kept,later,read,back,left⟩ := @readUntil_line _ [] _ _ _ _ nonempty first.single whole
    rw [List.nil_append] at read
    rw [documents_line first lineNo read,ih (lineNo + 1) left back]

end Reading
end ArangoDataTools.JsonLines
