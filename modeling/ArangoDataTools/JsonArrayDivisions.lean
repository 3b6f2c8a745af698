import ArangoDataTools.JsonArray

namespace ArangoDataTools.ArrayScanner

variable {scanner middle next : ArrayScanner} {bytes : List UInt8} {completed : List (List UInt8)}
  {byte : UInt8} {failure : Error}

theorem feedByte_fails (fails : scanner.feedByte byte [] = .error failure) :
    scanner.finished = true ∧ isAsciiWhitespace byte = false ∨ scanner.started = false := by
  unfold feedByte at fails
  split_ifs at fails with finished space started
  · exact .inl ⟨finished,Bool.eq_false_iff.mpr space⟩
  · exact .inr (by simpa using started)

theorem feedByte_refuses (finished : scanner.finished = true) (other : isAsciiWhitespace byte = false) :
    ∃ failure, scanner.feedByte byte [] = .error failure := by
  refine ⟨.parse "trailing data after JSON array" none none,?_⟩
  rw [feedByte,if_pos finished,if_neg (by simp [other])]

theorem consumeElementByte_started (scanner : ArrayScanner) (byte : UInt8) :
    (scanner.consumeElementByte byte).1.started = scanner.started := by
  unfold consumeElementByte
  dsimp only
  split_ifs <;> rfl

theorem feedElement_started (scanner : ArrayScanner) (byte : UInt8) (out : List (List UInt8)) :
    (scanner.feedElement byte out).1.started = scanner.started := by
  rw [← consumeElementByte_started scanner byte]
  unfold feedElement
  simp only
  split <;> rfl

theorem steps_unstarted (step : Steps scanner byte completed next) (unstarted : next.started = false) :
    scanner.started = false ∧ completed = [] := by
  have element : ∀ begun : ArrayScanner, begun.started = true →
      (.ok (begun.feedElement byte []) : Except Error _) ≠ .ok (next,completed) := by
    intro begun started read
    have kept := congrArg (fun reached => reached.1.started) (Except.ok.inj read)
    simp only [feedElement_started,started,unstarted] at kept
    cases kept
  unfold Steps feedByte at step
  split_ifs at step with finished space started blank opens outside skipped closes
  · cases step
    exact ⟨unstarted,rfl⟩
  · cases step
    exact ⟨by simpa using started,rfl⟩
  · cases step
    cases unstarted
  all_goals have begun : scanner.started = true := by simpa using started
  · cases step
    exact absurd unstarted (by simp [begun])
  · cases step
    exact absurd unstarted (by simp [begun])
  · exact absurd step (element scanner.beginElement begun)
  · exact absurd step (element scanner begun)

theorem feeds_unstarted (feeds : Feeds scanner bytes completed next) (unstarted : next.started = false) :
    scanner.started = false ∧ completed = [] := by
  induction bytes generalizing scanner completed with
  | nil =>
    cases feeds
    exact ⟨unstarted,rfl⟩
  | cons byte bytes ih =>
    obtain ⟨middle,early,late,step,tail,rfl⟩ := feeds_uncons feeds
    obtain ⟨before,rfl⟩ := ih tail
    obtain ⟨start,rfl⟩ := steps_unstarted step before
    exact ⟨start,rfl⟩

theorem feeds_or_fails (scanner : ArrayScanner) (bytes : List UInt8) :
    (∃ completed next, Feeds scanner bytes completed next) ∨
    ∃ fed byte rest completed next failure, bytes = fed ++ byte :: rest ∧ Feeds scanner fed completed next ∧
      next.feedByte byte [] = .error failure := by
  induction bytes generalizing scanner with
  | nil => exact .inl ⟨[],scanner,feeds_nil⟩
  | cons byte bytes ih =>
    cases first : scanner.feedByte byte [] with
    | error failure => exact .inr ⟨[],byte,bytes,[],scanner,failure,rfl,feeds_nil,first⟩
    | ok reached =>
      obtain ⟨middle,early⟩ := reached
      rcases ih middle with ⟨late,next,tail⟩ | ⟨fed,other,rest,late,next,failure,rfl,tail,fails⟩
      · exact .inl ⟨early ++ late,next,feeds_cons first tail⟩
      · exact .inr ⟨byte :: fed,other,rest,early ++ late,next,failure,rfl,feeds_cons first tail,fails⟩

theorem feed_fails (feeds : Feeds scanner bytes completed next)
    (fails : next.feedByte byte [] = .error failure) (rest : List UInt8) :
    scanner.feed (bytes ++ byte :: rest) [] = .error failure := by
  rw [feed_append,feeds]
  show next.feed (byte :: rest) completed = _
  rw [feed,feedByte_after,fails]
  rfl

end ArangoDataTools.ArrayScanner

namespace ArangoDataTools.JsonArray
open ArrayScanner

variable {fromSlice : List UInt8 → Except String Value} {scanner next : ArrayScanner}
  {bytes fed rest : List UInt8} {byte : UInt8}
variable {completed more : List (List UInt8)} {values : List Value} {index last : Nat} {failure : Error}

theorem yieldElements_append (fromSlice : List UInt8 → Except String Value) (index : Nat)
    (completed more : List (List UInt8)) :
    (∃ values failure, yieldElements fromSlice index completed = (values,.error failure) ∧
      yieldElements fromSlice index (completed ++ more) = (values,.error failure)) ∨
    ∃ values last, yieldElements fromSlice index completed = (values,.ok last) ∧
      yieldElements fromSlice index (completed ++ more) =
        (values ++ (yieldElements fromSlice last more).1,(yieldElements fromSlice last more).2) := by
  induction completed generalizing index with
  | nil => exact .inr ⟨[],index,rfl,rfl⟩
  | cons element completed ih =>
    cases first : fromSlice element with
    | error failure => exact .inl ⟨_,_,by rw [yieldElements,first],by rw [List.cons_append,yieldElements,first]⟩
    | ok value =>
      rcases ih (index + 1) with ⟨values,failure,here,whole⟩ | ⟨values,last,here,whole⟩
      · exact .inl ⟨value :: values,failure,by simp only [yieldElements,first,here],
          by simp only [List.cons_append,yieldElements,first,whole]⟩
      · exact .inr ⟨value :: values,last,by simp only [yieldElements,first,here],
          by simp only [List.cons_append,yieldElements,first,whole]⟩

def close (next : ArrayScanner) : List Value × Except Error Nat → List Value × Except Error Unit
  | (values,.error failure) => (values,.error failure)
  | (values,.ok _) => (values,next.finish)

theorem stream_fed (chunks : List (List UInt8)) (nonempty : ∀ chunk ∈ chunks, chunk ≠ [])
    (feeds : Feeds scanner chunks.flatten completed next) (index : Nat) :
    stream fromSlice scanner index (chunks.map .ok) = close next (yieldElements fromSlice index completed) := by
  induction chunks generalizing scanner completed index with
  | nil =>
    cases feeds
    rfl
  | cons chunk chunks ih =>
    obtain ⟨middle,early,late,first,tail,rfl⟩ := feeds_split feeds
    obtain ⟨head,chunk,rfl⟩ := List.exists_cons_of_ne_nil (nonempty chunk (by simp))
    have later := ih (fun c member => nonempty c (List.mem_cons_of_mem _ member)) tail
    rw [Feeds] at first
    rcases yieldElements_append fromSlice index early late
      with ⟨values,failure,here,whole⟩ | ⟨values,last,here,whole⟩
    · simp only [List.map_cons,stream,first,here,whole,close]
    · simp only [List.map_cons,stream,first,here,whole,later]
      rcases yieldElements fromSlice last late with ⟨others,_ | _⟩ <;> rfl

theorem stream_refused (chunks : List (List UInt8)) (nonempty : ∀ chunk ∈ chunks, chunk ≠ [])
    (division : chunks.flatten = fed ++ byte :: rest) (feeds : Feeds scanner fed completed next)
    (fails : next.feedByte byte [] = .error failure) (index : Nat) :
    (stream fromSlice scanner index (chunks.map .ok)).1 <+: (yieldElements fromSlice index completed).1 ∧
      ∃ reported, (stream fromSlice scanner index (chunks.map .ok)).2 = .error reported := by
  induction chunks generalizing scanner fed completed index with
  | nil => simp at division
  | cons chunk chunks ih =>
    obtain ⟨head,chunk,rfl⟩ := List.exists_cons_of_ne_nil (nonempty chunk (by simp))
    rw [List.flatten_cons] at division
    have fits : (∃ left, fed = head :: chunk ++ left ∧ chunks.flatten = left ++ byte :: rest) ∨
        ∃ right, head :: chunk = fed ++ byte :: right := by
      rcases List.append_eq_append_iff.mp division with ⟨left,within,later⟩ | ⟨right,beyond,later⟩
      · exact .inl ⟨left,within,later⟩
      · cases right with
        | nil => exact .inl ⟨[],by simpa using beyond.symm,by simpa using later.symm⟩
        | cons other right =>
          obtain ⟨rfl,-⟩ := List.cons.inj later
          exact .inr ⟨right,beyond⟩
    rcases fits with ⟨left,rfl,later⟩ | ⟨right,beyond⟩
    · obtain ⟨middle,early,late,first,tail,rfl⟩ := feeds_split feeds
      have onwards := ih (fun c member => nonempty c (List.mem_cons_of_mem _ member)) later tail
      rw [Feeds] at first
      rcases yieldElements_append fromSlice index early late
        with ⟨values,failure,here,whole⟩ | ⟨values,last,here,whole⟩
      · simp only [List.map_cons,stream,first,here,whole]
        exact ⟨List.prefix_rfl,failure,rfl⟩
      · simp only [List.map_cons,stream,first,here,whole]
        obtain ⟨begins,reported,ended⟩ := onwards last
        exact ⟨(List.prefix_append_right_inj values).mpr begins,reported,ended⟩
    · have stops := feed_fails feeds fails right
      rw [← beyond] at stops
      simp only [List.map_cons,stream,stops]
      exact ⟨List.nil_prefix,failure,rfl⟩

def Division (bytes : List UInt8) (chunks : List (List UInt8)) : Prop := chunks.flatten = bytes ∧
    ∀ chunk ∈ chunks, chunk ≠ []

-- The same documents, and an error in both or in neither.
def Alike (first second : List Value × Except Error Unit) : Prop :=
  first.1 = second.1 ∧ (first.2.isOk = second.2.isOk)

-- Something other than whitespace follows the array, whose first element is valid.
def TrailingData (fromSlice : List UInt8 → Except String Value) (bytes : List UInt8) : Prop :=
  ∃ array byte rest element completed next value, bytes = array ++ byte :: rest ∧
    Feeds {} array (element :: completed) next ∧
    next.finished = true ∧ isAsciiWhitespace byte = false ∧ fromSlice element = .ok value

theorem silent_elements (silent : ¬∃ element more value,
    completed = element :: more ∧ fromSlice element = .ok value) (index : Nat) :
    (yieldElements fromSlice index completed).1 = [] := by
  cases completed with
  | nil => rfl
  | cons element more => cases first : fromSlice element with
    | error failure => simp only [yieldElements,first]
    | ok value => exact absurd ⟨element,more,value,rfl,first⟩ silent

theorem read_refused (feeds : Feeds {} fed completed next)
    (fails : next.feedByte byte [] = .error failure) (started : fed ≠ []) :
    (read fromSlice ([fed ++ byte :: rest].map .ok)).1 = [] := by
  have stops := feed_fails feeds fails rest
  obtain ⟨head,tail,rfl⟩ := List.exists_cons_of_ne_nil started
  rw [List.cons_append] at stops
  simp only [read,List.map_cons,List.cons_append,stream,stops]

theorem read_further {element : List UInt8} {value : Value}
    (feeds : Feeds {} fed (element :: more) next) (started : fed ≠ [])
    (parsed : fromSlice element = .ok value) :
    (read fromSlice ([fed,byte :: rest].map .ok)).1 =
    value :: (read fromSlice ([fed,byte :: rest].map .ok)).1.tail := by
  obtain ⟨head,tail,rfl⟩ := List.exists_cons_of_ne_nil started
  rw [Feeds] at feeds
  rw [read,List.map_cons,stream,feeds]
  · simp only [yieldElements,parsed]
    rcases yieldElements fromSlice (0 + 1) more with ⟨values,_ | _⟩ <;> rfl
  · simp

-- The documents completed ahead of the refused byte are lost when one read holds them
-- and that byte.
theorem divisions_alike_iff (fromSlice : List UInt8 → Except String Value) (bytes : List UInt8) :
    (∀ first second, Division bytes first → Division bytes second →
      Alike (read fromSlice (first.map .ok)) (read fromSlice (second.map .ok))) ↔
      ¬TrailingData fromSlice bytes := by
  constructor
  · rintro alike ⟨array,byte,rest,element,completed,next,value,rfl,feeds,finished,other,parsed⟩
    have started : array ≠ [] := by
      rintro rfl
      cases feeds
    obtain ⟨failure,fails⟩ := feedByte_refuses finished other
    have one : Division (array ++ byte :: rest) [array ++ byte :: rest] := ⟨by simp,by simp⟩
    have two : Division (array ++ byte :: rest) [array,byte :: rest] := ⟨by simp,by simp [started]⟩
    have same := (alike _ _ one two).1
    rw [read_refused feeds fails started,read_further feeds started parsed] at same
    cases same
  · intro clean first second ⟨division,some_⟩ ⟨again,others⟩
    rcases feeds_or_fails {} bytes with ⟨completed,next,feeds⟩ | ⟨fed,byte,rest,completed,next,
      failure,rfl,feeds,fails⟩
    · have one : stream fromSlice {} 0 (first.map .ok) = _ := stream_fed first some_ (division ▸ feeds) 0
      have two : stream fromSlice {} 0 (second.map .ok) = _ := stream_fed second others (again ▸ feeds) 0
      rw [read,read,one,two]
      exact ⟨rfl,rfl⟩
    · have silent : ¬∃ element more value, completed = element :: more ∧ fromSlice element = .ok value := by
        rintro ⟨element,more,value,rfl,parsed⟩
        rcases feedByte_fails fails with ⟨finished,other⟩ | unstarted
        · exact clean ⟨fed,byte,rest,element,more,next,value,rfl,feeds,finished,other,parsed⟩
        · exact absurd (feeds_unstarted feeds unstarted).2 (by simp)
      have outcome : ∀ chunks : List (List UInt8), (∀ chunk ∈ chunks, chunk ≠ []) →
          chunks.flatten = fed ++ byte :: rest →
          (read fromSlice (chunks.map .ok)).1 = [] ∧ (read fromSlice (chunks.map .ok)).2.isOk = false := by
        intro chunks nonempty division
        have begins : (stream fromSlice {} 0 (chunks.map .ok)).1 <+: _ :=
          (stream_refused chunks nonempty division feeds fails 0).1
        have ended : ∃ reported, (stream fromSlice {} 0 (chunks.map .ok)).2 = .error reported :=
          (stream_refused chunks nonempty division feeds fails 0).2
        obtain ⟨reported,ended⟩ := ended
        rw [silent_elements silent] at begins
        exact ⟨List.prefix_nil.mp begins,by rw [read,ended]; rfl⟩
      obtain ⟨none_,failed⟩ := outcome first some_ division
      obtain ⟨nothing,refused⟩ := outcome second others again
      exact ⟨none_.trans nothing.symm,failed.trans refused.symm⟩

-- `[1] x` in one read, and with the array and the rest in one read each.
theorem lost_before_trailing_data :
    Division [91,49,93,32,120] [[91,49,93,32,120]] ∧ Division [91,49,93,32,120] [[91,49,93],[32,120]] ∧
    (read sampleSlice ([[91,49,93,32,120]].map .ok)).1 = [] ∧
    (read sampleSlice ([[91,49,93],[32,120]].map .ok)).1 = [.nat 1] ∧
    ¬Alike (read sampleSlice ([[91,49,93,32,120]].map .ok))
      (read sampleSlice ([[91,49,93],[32,120]].map .ok)) :=
  ⟨⟨rfl,by decide⟩,⟨rfl,by decide⟩,rfl,rfl,fun alike => by cases alike.1⟩

end ArangoDataTools.JsonArray
