import ArangoDataTools.TurtleCanonical

namespace ArangoDataTools.Turtle
open TextScan TextReader

variable {text left right : List Char} {items : List Item} {s : Env} {fuel depth : Nat}

section Layout

-- Where the parser sees where each token ends, the gaps do not matter.
theorem layout_irrelevant (clear : clearDocument items = true) (declared : (expandDocument items).isSome = true)
    (first : Laid (documentTokens items) left) (second : Laid (documentTokens items) right) :
    ∃ triples, parseTurtle left = .ok triples ∧ parseTurtle right = .ok triples := by
  obtain ⟨facts,expanded⟩ := Option.isSome_iff_exists.mp declared
  have left_parsed := parse_laid laid_sound (clear_readable clear) first
  have right_parsed := parse_laid laid_sound (clear_readable clear) second
  rw [expanded] at left_parsed right_parsed
  exact ⟨_,left_parsed,right_parsed⟩

theorem reference_node : (Tree.iri (.reference ['s'])).isNode = true := rfl

def touchingDocument : List Item :=
  [.statement (.iri (.reference ['s'])) reference_node
    (.entry (.iri (.reference ['p'])) (.one (.label ['o'])) 0)]

theorem spelled_reference (c : Char) (free : Free '>' c) :
    TokenText (.iri (.reference [c])) ['<',c,'>'] := .iri (.reference (.raw free .nil))

theorem space_gap : Gap [' '] := .space rfl .nil

-- `<s> <p> _:o .` and `<s><p> _:o#` with a comment to the end of the line.
theorem commented_layout : ∃ triples, parseTurtle "<s> <p> _:o .".toList = .ok triples ∧
    parseTurtle "<s><p> _:o#;\n.".toList = .ok triples := by
  have s := spelled_reference 's' ⟨by decide,by decide⟩
  have p := spelled_reference 'p' ⟨by decide,by decide⟩
  have o : TokenText (.label ['o']) ['_',':','o'] :=
    .label (by decide) (List.forall_iff_forall_mem.mp (by decide))
  have point : TokenText (.mark '.') ['.'] := .mark (by decide)
  have spaced : Laid (documentTokens touchingDocument) "<s> <p> _:o .".toList :=
    .cons .nil s trivial (.cons space_gap p trivial
      (.cons space_gap o (stops_cons rfl) (.cons space_gap point trivial (.nil .nil))))
  have comment : Gap "#;\n".toList := .comment (show '\n' ∉ [';'] by decide) .nil
  have commented : Laid (documentTokens touchingDocument) "<s><p> _:o#;\n.".toList :=
    .cons .nil s trivial (.cons .nil p trivial
      (.cons space_gap o (stops_cons rfl) (.cons comment point trivial (.nil .nil))))
  exact layout_irrelevant (by decide) (by decide) spaced commented

theorem fails_expect (c : Char) : Fails (expect c) [] s := fails_after reads_end (fails_failAt _)

theorem fails_unfinished {subject : Tree .object} {entries : Tree .entries}
    (node : subject.isNode = true) (subject_clear : subjectClear subject = true)
    (clear : entries.clear = true) (laid : Laid (subject.tokens ++ entries.tokens) text)
      (visible : Visible text) (scope : Scope)
    (enough : 4 * (subject.tokens ++ entries.tokens).length < fuel) :
      Fails (statement fuel) text scope.env := by
  rw [List.length_append] at enough
  rw [statement]
  have subject_read : Yields (Turtle.subject fuel) text scope.env _ _ :=
    yields_subject laid_sound subject node (subject_readable subject_clear) laid visible (by omega)
  cases subject_found : expandSubject subject scope with
  | none =>
    rw [subject_found] at subject_read
    exact fails_bind subject_read
  | some found =>
    obtain ⟨vertex,later⟩ := found
    rw [subject_found] at subject_read
    obtain ⟨rest,inside,read⟩ := subject_read
    rw [← List.append_nil entries.tokens] at inside
    obtain ⟨after,gap,_,standing⟩ := reads_treeGap entries later.env inside
    refine fails_after read (fails_after gap ?_)
    have entries_read := tree_parsed laid_sound entries vertex later fuel [] after
        (tree_readable clear) (.inl rfl) standing (by omega)
    cases entries_found : expand entries vertex later with
    | none =>
      rw [entries_found] at entries_read
      exact fails_bind entries_read
    | some last =>
      rw [entries_found] at entries_read
      obtain ⟨rest,ended,read⟩ := entries_read
      exact fails_after read (fails_after (reads_lastGap ended) (fails_expect '.'))

-- The label of `_:o.` is `o.`.
theorem touching_rejected : Spread (documentTokens touchingDocument) "<s> <p> _:o .".toList ∧
    Spread (documentTokens touchingDocument) "<s> <p> _:o.".toList ∧
    ¬∃ triples, parseTurtle "<s> <p> _:o .".toList = .ok triples ∧
    parseTurtle "<s> <p> _:o.".toList = .ok triples := by
  have s := spelled_reference 's' ⟨by decide,by decide⟩
  have p := spelled_reference 'p' ⟨by decide,by decide⟩
  have o : TokenText (.label ['o']) ['_',':','o'] :=
    .label (by decide) (List.forall_iff_forall_mem.mp (by decide))
  have dotted : TokenText (.label ['o','.']) ['_',':','o','.'] :=
    .label (by decide) (List.forall_iff_forall_mem.mp (by decide))
  have point : TokenText (.mark '.') ['.'] := .mark (by decide)
  have spaced : Spread (documentTokens touchingDocument) "<s> <p> _:o .".toList :=
    .cons .nil s trivial (.cons space_gap p trivial
      (.cons space_gap o trivial (.cons space_gap point trivial (.nil .nil))))
  have touching : Spread (documentTokens touchingDocument) "<s> <p> _:o.".toList :=
    .cons .nil s trivial (.cons space_gap p trivial
      (.cons space_gap o trivial (.cons .nil point trivial (.nil .nil))))
  refine ⟨spaced,touching,?_⟩
  rintro ⟨triples,_,parsed⟩
  have unfinished : Laid ((Tree.iri (.reference ['s'])).tokens ++
      (Tree.entry (.iri (.reference ['p'])) (.one (.label ['o','.'])) 0).tokens)
      "<s> <p> _:o.".toList := .cons .nil s trivial
        (.cons space_gap p trivial (.cons space_gap dotted stops_nil (.nil .nil)))
  have read : Yields (document 52 13) "<s> <p> _:o.".toList (Scope.env {}) none (fun _ => True) := by
    refine yields_document (reads_skipWs .nil (visible_cons ⟨rfl,by decide⟩)) rfl (fails_bind ?_)
    exact fails_unfinished rfl rfl rfl unfinished (visible_cons ⟨rfl,by decide⟩) {} (by decide)
  obtain ⟨failure,failed⟩ := read []
  have failed : document (4 * "<s> <p> _:o.".toList.length + 4) ("<s> <p> _:o.".toList.length + 1)
      ⟨[],"<s> <p> _:o.".toList,{}⟩ = .error failure := failed
  rw [parseTurtle,failed] at parsed
  cases parsed

end Layout
end ArangoDataTools.Turtle
