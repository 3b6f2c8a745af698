import ArangoDataTools.JsonArray

namespace ArangoDataTools.ArrayScanner
open JsonText

variable {scanner next : ArrayScanner} {bytes rest text current : List UInt8}
  {completed : List (List UInt8)} {byte : UInt8}
variable {depth : Int} {escaped : Bool}

def AllSkipped (text : List UInt8) : Prop := ∀ b ∈ text, isAsciiWhitespace b = true

inductive Splits : List (List UInt8) → List UInt8 → Prop where
  | skip {byte : UInt8} {completed : List (List UInt8)} {rest : List UInt8} :
      isAsciiWhitespace byte = true ∨ byte = comma →
      Splits completed rest → Splits completed (byte :: rest)
  | close {rest : List UInt8} : AllSkipped rest → Splits [] (closeBracket :: rest)
  | element {text rest : List UInt8} {completed : List (List UInt8)} : Splits completed rest →
      Splits (text :: completed) (text ++ comma :: rest)
  | last {text rest : List UInt8} : AllSkipped rest → Splits [text] (text ++ closeBracket :: rest)

-- The same from within an element of which `current` was read.
def Remains (current : List UInt8) (completed : List (List UInt8)) (bytes : List UInt8) : Prop :=
  ∃ tail rest, (∃ others, bytes = tail ++ comma :: rest ∧ Splits others rest ∧
    completed = (current ++ tail) :: others) ∨
    (bytes = tail ++ closeBracket :: rest ∧ AllSkipped rest ∧ completed = [current ++ tail])

def Within (current : List UInt8) (scanner : ArrayScanner) : Prop :=
  ∃ depth, scanner = inside depth current ∨ ∃ escaped, scanner = quoted depth escaped current

theorem steps_deterministic {other : ArrayScanner} {more : List (List UInt8)}
    (step : Steps scanner byte completed next)
    (again : Steps scanner byte more other) : completed = more ∧ next = other := by
  have same := step.symm.trans again
  cases same
  exact ⟨rfl,rfl⟩

theorem inside_step (continues : ¬(depth = 0 ∧ (byte = comma ∨ byte = closeBracket)))
    (step : Steps (inside depth current) byte completed next) : completed = [] ∧
    Within (current ++ [byte]) next := by
  by_cases opensString : byte = quote
  · subst opensString
    obtain ⟨rfl,rfl⟩ := steps_deterministic step inside_quote
    exact ⟨rfl,depth,.inr ⟨false,rfl⟩⟩
  by_cases opens : byte = openBrace ∨ byte = openBracket
  · obtain ⟨rfl,rfl⟩ := steps_deterministic step (inside_opens opens.symm)
    exact ⟨rfl,depth + 1,.inl rfl⟩
  have read : ∃ d, Steps (inside depth current) byte [] (inside d (current ++ [byte])) := by
    by_cases closes : byte = closeBrace ∨ byte = closeBracket
    · refine ⟨depth - 1,?_⟩
      simp [Steps,feedByte,feedElement,consumeElementByte,inside,continues,opensString,opens,closes]
    · refine ⟨depth,?_⟩
      simp [Steps,feedByte,feedElement,consumeElementByte,inside,continues,opensString,opens,closes]
  obtain ⟨d,read⟩ := read
  obtain ⟨rfl,rfl⟩ := steps_deterministic step read
  exact ⟨rfl,d,.inl rfl⟩

theorem quoted_step (step : Steps (quoted depth escaped current) byte completed next) :
    completed = [] ∧ Within (current ++ [byte]) next := by
  cases escaped with
  | true =>
    obtain ⟨rfl,rfl⟩ := steps_deterministic step quoted_unescapes
    exact ⟨rfl,depth,.inr ⟨false,rfl⟩⟩
  | false =>
    by_cases escapes : byte = backslash
    · subst escapes
      obtain ⟨rfl,rfl⟩ := steps_deterministic step quoted_escapes
      exact ⟨rfl,depth,.inr ⟨true,rfl⟩⟩
    by_cases closes : byte = quote
    · subst closes
      obtain ⟨rfl,rfl⟩ := steps_deterministic step quoted_closes
      exact ⟨rfl,depth,.inl rfl⟩
    obtain ⟨rfl,rfl⟩ := steps_deterministic step (quoted_keeps ⟨closes,escapes⟩)
    exact ⟨rfl,depth,.inr ⟨false,rfl⟩⟩

theorem within_step (within : Within current scanner) (step : Steps scanner byte completed next) :
    completed = [] ∧ Within (current ++ [byte]) next ∨
    byte = comma ∧ completed = [current] ∧ next = between ∨ byte = closeBracket ∧
    completed = [current] ∧ next = ended := by
  obtain ⟨depth,rfl | ⟨escaped,rfl⟩⟩ := within
  · by_cases ends : depth = 0 ∧ (byte = comma ∨ byte = closeBracket)
    · obtain ⟨rfl,rfl | rfl⟩ := ends
      · exact .inr (.inl ⟨rfl,steps_deterministic step element_ends_comma⟩)
      · exact .inr (.inr ⟨rfl,steps_deterministic step element_ends_bracket⟩)
    · exact .inl (inside_step ends step)
  · exact .inl (quoted_step step)

theorem ended_rest (feeds : Feeds ended bytes completed next) : AllSkipped bytes ∧ completed = [] := by
  induction bytes generalizing completed with
  | nil =>
    cases feeds
    exact ⟨fun _ member => absurd member List.not_mem_nil,rfl⟩
  | cons byte bytes ih =>
    obtain ⟨middle,early,late,step,tail,rfl⟩ := feeds_uncons feeds
    by_cases space : isAsciiWhitespace byte = true
    · obtain ⟨rfl,rfl⟩ := steps_deterministic step (ended_skips space)
      obtain ⟨skipped,rfl⟩ := ih tail
      exact ⟨List.forall_mem_cons.mpr ⟨space,skipped⟩,rfl⟩
    · simp [Steps,feedByte,ended,space] at step

theorem unfinished (within : Within current next) : next.finish ≠ .ok () := by
  obtain ⟨depth,rfl | ⟨escaped,rfl⟩⟩ := within <;> simp [finish,inside,quoted]

theorem between_step (step : Steps between byte completed next) :
    (isAsciiWhitespace byte = true ∨ byte = comma) ∧ completed = [] ∧ next = between ∨
    byte = closeBracket ∧ completed = [] ∧ next = ended ∨ completed = [] ∧ Within [byte] next := by
  by_cases skipped : isAsciiWhitespace byte = true ∨ byte = comma
  · exact .inl ⟨skipped,steps_deterministic step (between_skips skipped)⟩
  · by_cases close : byte = closeBracket
    · subst close
      exact .inr (.inl ⟨rfl,steps_deterministic step between_closes⟩)
    · simp only [not_or,Bool.not_eq_true] at skipped
      have begun := (between_begins skipped.1 skipped.2 close).mp step
      exact .inr (.inr (inside_step (by simp [skipped.2,close]) begun))

theorem feeds_cut (finished : next.finish = .ok ()) (feeds : Feeds scanner bytes completed next) :
    (scanner = between → Splits completed bytes) ∧
    (∀ current, Within current scanner → Remains current completed bytes) := by
  induction bytes generalizing scanner completed with
  | nil =>
    cases feeds
    constructor
    · rintro rfl
      simp [finish,between] at finished
    · exact fun _ within => absurd finished (unfinished within)
  | cons byte bytes ih =>
    obtain ⟨middle,early,late,step,tail,rfl⟩ := feeds_uncons feeds
    obtain ⟨cutBetween,cutWithin⟩ := ih tail
    constructor
    · rintro rfl
      rcases between_step step with ⟨skipped,rfl,rfl⟩ | ⟨rfl,rfl,rfl⟩ | ⟨rfl,within⟩
      · exact .skip skipped (cutBetween rfl)
      · obtain ⟨skipped,rfl⟩ := ended_rest tail
        exact .close skipped
      · obtain ⟨text,rest,⟨others,rfl,splits,rfl⟩ | ⟨rfl,skipped,rfl⟩⟩ := cutWithin [byte] within
        · have cut : Splits ((byte :: text) :: others) (byte :: text ++ comma :: rest) := .element splits
          exact cut
        · have cut : Splits [byte :: text] (byte :: text ++ closeBracket :: rest) := .last skipped
          exact cut
    · intro current within
      rcases within_step within step with ⟨rfl,more⟩ | ⟨rfl,rfl,rfl⟩ | ⟨rfl,rfl,rfl⟩
      · obtain ⟨text,rest,⟨others,rfl,splits,rfl⟩ | ⟨rfl,skipped,rfl⟩⟩ := cutWithin _ more
        · exact ⟨byte :: text,rest,.inl ⟨others,rfl,splits,by simp⟩⟩
        · exact ⟨byte :: text,rest,.inr ⟨rfl,skipped,by simp⟩⟩
      · exact ⟨[],bytes,.inl ⟨late,rfl,cutBetween rfl,by simp⟩⟩
      · obtain ⟨skipped,rfl⟩ := ended_rest tail
        exact ⟨[],bytes,.inr ⟨rfl,skipped,by simp⟩⟩

theorem document_cut (feeds : Feeds {} bytes completed next) (finished : next.finish = .ok ()) :
    ∃ before rest, bytes = before ++ openBracket :: rest ∧ AllSkipped before ∧ Splits completed rest := by
  induction bytes generalizing completed with
  | nil =>
    cases feeds
    cases finished
  | cons byte bytes ih =>
    obtain ⟨middle,early,late,step,tail,rfl⟩ := feeds_uncons feeds
    by_cases space : isAsciiWhitespace byte = true
    · obtain ⟨rfl,rfl⟩ := steps_deterministic step (fresh_skips space)
      obtain ⟨before,rest,rfl,skipped,splits⟩ := ih tail
      exact ⟨byte :: before,rest,rfl,List.forall_mem_cons.mpr ⟨space,skipped⟩,splits⟩
    · by_cases opens : byte = openBracket
      · subst opens
        obtain ⟨rfl,rfl⟩ := steps_deterministic step fresh_opens
        exact ⟨[],bytes,rfl,fun _ member => absurd member List.not_mem_nil,(feeds_cut finished tail).1 rfl⟩
      · simp [Steps,feedByte,space,opens] at step

end ArangoDataTools.ArrayScanner

namespace ArangoDataTools.JsonArray
open JsonText ArrayScanner

section Sound

variable {fromSlice : List UInt8 → Except String Value} {text : List UInt8}
  {completed : List (List UInt8)} {previous : UInt8}

theorem skipped_spaces (skipped : AllSkipped text) (clean : 12 ∉ text) : Spaces text := by
  intro b member
  exact ((ascii_space b).mp (skipped b member)).resolve_right (fun feed => clean (feed ▸ member))

theorem separated_tail (runs : (Position.outside previous).run text = some position)
    (separated : ((Position.outside previous).run (text ++ rest)).isSome = true) :
    (position.run rest).isSome = true := by
  rwa [run_then runs] at separated

theorem parsed_each (parsed : Parsed fromSlice completed values) :
    ∀ element ∈ completed, ∃ value, fromSlice element = .ok value := by
  induction parsed with
  | nil => exact fun _ member => absurd member List.not_mem_nil
  | cons first _ ih => exact List.forall_mem_cons.mpr ⟨⟨_,first⟩,ih⟩

-- Between elements the scan leaves open only where commas stand and which
-- whitespace is skipped.
theorem splits_elements (splits : Splits completed text) (padded : ∀ element ∈ completed,
    Padded element) (clean : 12 ∉ text)
    (previous : UInt8) (early : previous = openBracket ∨ previous = comma)
    (separated : ((Position.outside previous).run text).isSome = true) :
    ∃ inner after, text = inner ++ closeBracket :: after ∧ Spaces after ∧
      (Text .elements inner ∨ previous = openBracket ∧ Spaces inner) := by
  induction splits generalizing previous with
  | skip skipped _ ih =>
    obtain ⟨notFeed,clean⟩ := not_or.mp (List.mem_cons.not.mp clean)
    rcases skipped with space | rfl
    · have blank := ((ascii_space _).mp space).resolve_right (Ne.symm notFeed)
      rw [run_cons (space_stays blank)] at separated
      obtain ⟨inner,after,rfl,trail,body⟩ := ih padded clean previous early separated
      have indent : Spaces [_] := List.forall_mem_singleton.mpr blank
      refine ⟨_ :: inner,after,rfl,trail,?_⟩
      rcases body with elements | ⟨opened,spaces⟩
      · exact .inl (elements_indent elements rfl indent)
      · exact .inr ⟨opened,spaces_append indent spaces⟩
    · rw [Position.run,comma_misplaced early] at separated
      cases separated
  | close skipped =>
    obtain ⟨_,clean⟩ := not_or.mp (List.mem_cons.not.mp clean)
    rcases early with rfl | rfl
    · exact ⟨[],_,rfl,skipped_spaces skipped clean,.inr ⟨rfl,fun _ member => absurd member List.not_mem_nil⟩⟩
    · rw [Position.run,bracket_misplaced] at separated
      cases separated
  | element _ ih =>
    simp only [List.mem_append,List.mem_cons,not_or] at clean
    have whole := padded _ (List.mem_cons_self ..)
    obtain ⟨last,bracket,value,runs⟩ := run_padded whole previous
    have rest := separated_tail runs separated
    rw [run_cons (comma_follows bracket value)] at rest
    obtain ⟨inner,after,rfl,trail,body⟩ :=
      ih (fun element member => padded element (List.mem_cons_of_mem _ member)) clean.2.2
      comma (.inr rfl) rest
    obtain ⟨before,core,behind,lead,text,gap,rfl⟩ := whole
    have more : Text .elements inner := body.resolve_right fun opened => absurd opened.1 (by decide)
    exact ⟨_,after,by simp,trail,.inl (.elements lead text gap more)⟩
  | last skipped =>
    simp only [List.mem_append,List.mem_cons,not_or] at clean
    obtain ⟨before,core,behind,lead,text,gap,rfl⟩ := padded _ (List.mem_cons_self ..)
    exact ⟨_,_,rfl,skipped_spaces skipped clean.2.2,.inl (.element lead text gap)⟩

-- Accepted input is a JSON array except for form feeds taken for whitespace
-- and for commas taken for nothing.
theorem returned_text_iff (rejects : ∀ element value, fromSlice element = .ok value → Padded element)
    (chunks : List (List UInt8)) (nonempty : ∀ chunk ∈ chunks, chunk ≠ [])
    (returns : (read fromSlice (chunks.map .ok)).2 = .ok ()) :
    ArrayDocument chunks.flatten ↔ 12 ∉ chunks.flatten ∧ SeparatorsPlaced chunks.flatten := by
  refine ⟨array_separators,fun ⟨clean,separated⟩ => ?_⟩
  obtain ⟨completed,next,values,feeds,parsed,finished⟩ := stream_returns chunks nonempty returns
  obtain ⟨before,rest,whole,skipped,splits⟩ := document_cut feeds finished
  rw [whole] at clean separated ⊢
  simp only [List.mem_append,List.mem_cons,not_or] at clean
  have lead := skipped_spaces skipped clean.1
  have separated := separated_tail (run_spaces lead colon) separated
  rw [run_cons (open_bracket _)] at separated
  have padded : ∀ element ∈ completed, Padded element := by
    intro element member
    obtain ⟨value,read⟩ := parsed_each parsed element member
    exact rejects element value read
  obtain ⟨inner,after,rfl,trail,body⟩ :=
    splits_elements splits padded clean.2.2 openBracket (.inl rfl) separated
  exact ⟨before,inner,after,lead,body.elim .inr (fun both => .inl both.2),trail,by simp⟩

theorem sample_rejects (element : List UInt8) (value : Value)
    (accepted : sampleSlice element = .ok value) : Padded element := by
  have one : Text .value [49] :=
    .number ⟨[],[49],[],[],rfl,.inl rfl,
      .inr ⟨⟨by simp,List.forall_iff_forall_mem.mp (by decide)⟩,by decide⟩,.inl rfl,.inl rfl⟩
  have bracket : Text .value [34,93,34] := .string (.raw ']' (by decide) (by decide) (by decide) .nil)
  unfold sampleSlice at accepted
  split_ifs at accepted with first second
  · exact ⟨[],[49],_,fun _ member => absurd member List.not_mem_nil,one,first.2,by
      rw [List.nil_append,← first.1,List.take_append_drop]⟩
  · exact ⟨[],[34,93,34],_,fun _ member => absurd member List.not_mem_nil,bracket,second.2,by
      rw [List.nil_append,← second.1,List.take_append_drop]⟩

theorem closed_array_placed : ArrayDocument [91,49,32,93] ↔ (12 : UInt8) ∉ [91,49,32,93] ∧
    SeparatorsPlaced [91,49,32,93] :=
  returned_text_iff sample_rejects [[91,49],[32,93]] (by decide) rfl

-- `[1,,1]`
theorem doubled_comma_accepted :
    (∀ element value, sampleSlice element = .ok value → Padded element) ∧
    (read sampleSlice [.ok [91,49,44,44,49,93]]).2 = .ok () ∧ ¬ArrayDocument [91,49,44,44,49,93] :=
  ⟨sample_rejects,rfl,fun document => absurd (array_separators document).2 (by decide)⟩

end Sound
end ArangoDataTools.JsonArray
