import ArangoDataTools.TurtleParsing

namespace ArangoDataTools.Turtle
open TextScan TextReader

variable {text rest word label keyword : List Char} {more : List Token} {fuel depth : Nat}
  {scope : Scope} {c : Char}
variable {ends : Token → List Char → List Char → Prop}

section Subjects

theorem yields_subjectNode {s : Env} {ρ : Type} {found : Option ρ} {view : ρ → Node × Env}
    {closes : List Char → Prop}
    (visible : isWhitespace c = false ∧ c ≠ '#') (marks : c ≠ '[' ∧ c ≠ '(')
      (node : Yields iriOrBlank (c :: text) s (found.map view) closes) :
    Yields (subject fuel) (c :: text) s (found.map view) closes := by
  rw [subject]
  refine yields_after (skipWs_visible (visible_cons visible)) (yields_after reads_peek ?_)
  rw [List.head?_cons]
  split
  · rename_i same
    exact absurd (Option.some.inj same) marks.1
  · rename_i same
    exact absurd (Option.some.inj same) marks.2
  · exact node

theorem expandSubject_iri (form : IriForm) (scope : Scope) :
    expandSubject (.iri form) scope = (scope.resolve form).map fun iri => (.iri iri,scope) := by
  simp only [expandSubject,expand]
  cases scope.resolve form <;> rfl

theorem expandSubject_properties (entries : Tree .entries) (scope : Scope) :
    expandSubject (.properties entries) scope =
    (expand entries scope.allocate.1 scope.allocate.2).map fun later => (scope.allocate.1,later) := by
  simp only [expandSubject,expand]
  cases expand entries scope.allocate.1 scope.allocate.2 <;> rfl

theorem expandSubject_collection (items : Tree .items) (scope : Scope) :
    expandSubject (.collection items) scope =
    (expand items scope).map fun (values,later) =>
    (later.allocate.1,later.allocate.2.cells later.allocate.1 values) := by
  simp only [expandSubject,expand]
  cases expand items scope <;> rfl

theorem yields_subject (sound : Sound ends) (tree : Tree .object) (node : tree.isNode = true)
    (readable : subjectReadable scope.labels tree = true)
      (laid : Placed ends (tree.tokens ++ more) text) (visible : Visible text)
        (enough : 4 * tree.tokens.length < fuel) :
    Yields (subject fuel) text scope.env ((expandSubject tree scope).map fun (vertex,later) =>
      (vertex.node codeLabel,later.env))
      (Placed ends more) := by
  cases tree with
  | iri form =>
    obtain ⟨word,rest,rfl,text_of,ended,tail⟩ := laid_token laid visible
    cases text_of with
    | iri text_of =>
      have read : Yields iriOrBlank (word ++ rest) scope.env _ (Placed ends more) :=
        yields_weaken (yields_iriOrBlank (readable_plain readable) text_of
          (sound _ _ _ (.iri text_of) ended)) fun _ same => same ▸ tail
      rw [expandSubject_iri,Option.map_map]
      obtain ⟨c,x,rfl,rfl | starts⟩ := iriText_begins text_of
      · exact yields_subjectNode ⟨rfl,by decide⟩ (by decide) read
      · exact yields_subjectNode (visible c rfl)
          ⟨nameStart_ne starts (by decide),nameStart_ne starts (by decide)⟩ read
  | label name =>
    obtain ⟨word,rest,rfl,text_of,ended,tail⟩ := laid_token laid visible
    have read : Reads iriOrBlank (word ++ rest) scope.env _ rest _ :=
      reads_labelNode text_of (sound _ _ _ text_of ended)
    cases text_of with
    | label nonempty all =>
      rw [subject]
      exact yields_reads tail (reads_bind (skipWs_visible (visible_cons ⟨rfl,by decide⟩))
        (reads_bind reads_peek read))
  | literal form => cases node
  | anonymous =>
    obtain ⟨rest,rfl,_⟩ := laid_mark laid visible
    have enough : 8 < fuel := enough
    obtain ⟨fuel,rfl⟩ := Nat.exists_eq_succ_of_ne_zero (show fuel ≠ 0 by omega)
    obtain ⟨last,ended,read⟩ := reads_anonymous fuel scope laid visible
    rw [subject]
    exact yields_reads ended (reads_bind (skipWs_visible visible) (reads_bind reads_peek read))
  | properties entries =>
    simp only [Tree.tokens,List.length_append,List.length_cons,List.append_assoc,List.cons_append]
      at laid enough
    obtain ⟨rest,rfl,_⟩ := laid_mark laid visible
    rw [subject,expandSubject_properties,Option.map_map]
    refine yields_after (skipWs_visible visible) (yields_after reads_peek ?_)
    exact yields_properties (tree_parsed sound entries) readable laid visible (by omega)
  | empty =>
    obtain ⟨rest,rfl,_⟩ := laid_mark laid visible
    have enough : 8 < fuel := enough
    obtain ⟨fuel,rfl⟩ := Nat.exists_eq_add_of_le (show 2 ≤ fuel by omega)
    rw [Nat.add_comm 2 fuel]
    obtain ⟨last,ended,read⟩ := reads_empty fuel scope laid visible
    rw [subject]
    exact yields_reads ended (reads_bind (skipWs_visible visible) (reads_bind reads_peek read))
  | collection items =>
    simp only [Tree.tokens,List.length_append,List.length_cons,List.append_assoc,List.cons_append]
      at laid enough
    obtain ⟨rest,rfl,_⟩ := laid_mark laid visible
    rw [subject,expandSubject_collection,Option.map_map]
    refine yields_after (skipWs_visible visible) (yields_after reads_peek ?_)
    exact yields_collection (tree_parsed sound items) readable laid visible (by omega)

theorem yields_statement (sound : Sound ends) (scope : Scope) (tree : Tree .object)
    (node : tree.isNode = true) (entries : Tree .entries)
    (readable : (Item.statement tree node entries).readable scope.labels = true)
      (laid : Placed ends ((Item.statement tree node entries).tokens ++ more) text)
    (visible : Visible text) (enough : 4 * (Item.statement tree node entries).tokens.length < fuel) :
    Yields (statement fuel) text scope.env
      ((expandItem (.statement tree node entries) scope).map fun later => ((),later.env))
      (Placed ends more) := by
  simp only [Item.tokens,List.length_append,List.length_cons,List.append_assoc,List.cons_append,
    List.nil_append] at laid enough
  simp only [Item.readable,Bool.and_eq_true] at readable
  simp only [expandItem,Option.map_bind]
  rw [statement]
  refine yields_bind (yields_subject sound tree node readable.1 laid visible (by omega)) ?_
  rintro ⟨vertex,later⟩ rest found inside
  have readable_entries := later_readable (subject_declares found) readable.2
  obtain ⟨after,reads,_,standing⟩ := reads_treeGap entries later.env inside
  refine yields_after reads ?_
  refine yields_close (tree_parsed sound entries _ _ _ _ _ readable_entries
    (.inr ⟨'.',more,rfl,.inl rfl⟩) standing (by omega))
    fun last rest ended => ?_
  obtain ⟨rest,gap,_,_,closed⟩ := reads_markGap (s := last.env) ended
  exact ⟨rest,closed,reads_bind gap (reads_expect '.')⟩

end Subjects

section Directives

variable {raw : List Char} {s : Env}

theorem reads_bindingTokens (scope : Scope)
    (laid : Placed ends (.binder label :: .iri (.reference raw) :: more) text) (visible : Visible text) :
    ∃ rest, Placed ends more rest ∧
    Reads readPrefixBinding text scope.env (String.ofList label,scope.reference raw) rest scope.env := by
  obtain ⟨word,rest,rfl,text_of,_,inside⟩ := laid_token laid visible
  cases text_of with
  | binder form =>
    cases inside with
    | @cons _ _ gap word rest whole text_of _ tail =>
      cases text_of with
      | iri text_of =>
        cases text_of with
        | @reference _ body spells =>
          refine ⟨rest,tail,?_⟩
          have shape : label ++ [':'] ++ (gap ++ ('<' :: body ++ ['>'] ++ rest)) =
              label ++ ':' :: (gap ++ ('<' :: body ++ '>' :: rest)) := by
            simp
          rw [shape,← resolveIri_reference]
          exact reads_prefixBinding form whole spells

theorem reads_referenceToken (scope : Scope)
    (laid : Placed ends (.iri (.reference raw) :: more) text) (visible : Visible text) :
    ∃ rest, Placed ends more rest ∧ Reads readIriRef text scope.env (scope.reference raw) rest scope.env := by
  obtain ⟨word,rest,rfl,text_of,_,tail⟩ := laid_token laid visible
  cases text_of with
  | iri text_of =>
    cases text_of with
    | @reference _ body spells =>
      refine ⟨rest,tail,?_⟩
      have shape : '<' :: body ++ ['>'] ++ rest = '<' :: body ++ '>' :: rest := by simp
      rw [shape,← resolveIri_reference]
      exact reads_iriRef spells

theorem reads_directiveWord (sound : Sound ends) (letters : ∀ c ∈ word, isAsciiAlphabetic c = true)
    (laid : Placed ends (.directive word :: more) text) (visible : Visible text) :
    ∃ rest tail, text = '@' :: tail ∧ Placed ends more rest ∧ Reads readBareWord tail s word rest s := by
  obtain ⟨_,rest,rfl,text_of,ended,tail⟩ := laid_token laid visible
  have stops := sound _ _ _ text_of ended
  cases text_of
  exact ⟨rest,word ++ rest,rfl,tail,reads_word letters stops⟩

theorem reads_boundDirective (sound : Sound ends) (scope : Scope)
    (laid : Placed ends ((Item.binding .turtle label raw).tokens ++ more) text) (visible : Visible text) :
    ∃ later rest, expandItem (.binding .turtle label raw) scope = some later ∧ Placed ends more rest ∧
      Reads directive text scope.env () rest later.env := by
  obtain ⟨rest,tail,rfl,inside,word⟩ :=
    reads_directiveWord (s := scope.env) sound prefixWord_letters laid visible
  obtain ⟨after,gap,shown,standing⟩ :=
    reads_gap (s := scope.env) (show (Token.binder label).Proper from trivial) inside
  obtain ⟨rest,closing,binding⟩ := reads_bindingTokens scope standing shown
  obtain ⟨last,gap_last,_,_,ended⟩ :=
    reads_markGap (s := (scope.env.bind (String.ofList label) (scope.reference raw))) closing
  refine ⟨_,last,rfl,ended,reads_bind (reads_expect '@') (reads_bind word ?_)⟩
  dsimp only
  rw [if_pos (show prefixWord = ['p','r','e','f','i','x'] from rfl)]
  exact reads_bind gap (reads_bind binding
    (reads_bind (reads_update _) (reads_bind gap_last (reads_expect '.'))))

theorem reads_baseDirective (sound : Sound ends) (scope : Scope)
    (laid : Placed ends ((Item.base .turtle raw).tokens ++ more) text) (visible : Visible text) :
    ∃ later rest, expandItem (.base .turtle raw) scope = some later ∧ Placed ends more rest ∧
      Reads directive text scope.env () rest later.env := by
  obtain ⟨rest,tail,rfl,inside,word⟩ := reads_directiveWord (s := scope.env) sound baseWord_letters laid visible
  obtain ⟨after,gap,shown,standing⟩ :=
    reads_gap (s := scope.env) (show (Token.iri (.reference raw)).Proper from trivial) inside
  obtain ⟨rest,closing,reference⟩ := reads_referenceToken scope standing shown
  obtain ⟨last,gap_last,_,_,ended⟩ :=
    reads_markGap (s := { scope.env with base := some (scope.reference raw) }) closing
  refine ⟨_,last,rfl,ended,reads_bind (reads_expect '@') (reads_bind word ?_)⟩
  dsimp only
  rw [if_neg (by decide),if_pos (show baseWord = ['b','a','s','e'] from rfl)]
  exact reads_bind gap (reads_bind reference
    (reads_bind (reads_update _) (reads_bind gap_last (reads_expect '.'))))

theorem keyword_matches (same : word.map toAsciiLowercase = keyword)
    (boundary : isTokenBoundary rest.head? = true) :
    matchesKeywordCi keyword (word ++ rest) = true := by
  have length : keyword.length = word.length := by rw [← same,List.length_map]
  have next : (word ++ rest)[word.length]? = rest.head? := by
    rw [List.getElem?_append_right (Nat.le_refl _),Nat.sub_self,List.head?_eq_getElem?]
  simp only [matchesKeywordCi,length,List.take_left,next,same,boundary,decide_true,Bool.and_self]

theorem reads_keyword (sound : Sound ends) (letters : ∀ c ∈ keyword, isAsciiAlphabetic c = true)
    (nonempty : keyword ≠ [])
    (laid : Placed ends (.keyword keyword :: more) text) (visible : Visible text) :
    ∃ word rest, word.map toAsciiLowercase = keyword ∧ matchesKeywordCi keyword text = true ∧
    text.head? ≠ some '@' ∧ Placed ends more rest ∧
      Reads readBareWord text s word rest s := by
  obtain ⟨word,rest,rfl,text_of,ended,tail⟩ := laid_token laid visible
  have boundary : isTokenBoundary rest.head? = true := sound _ _ _ text_of ended
  cases text_of with
  | keyword same =>
    have all := keyword_letters same letters
    refine ⟨word,rest,same,keyword_matches same boundary,?_,tail,reads_word all (boundary_stops boundary)⟩
    cases word with
    | nil => exact absurd same.symm nonempty
    | cons c word =>
      intro at_sign
      cases at_sign
      exact absurd (all '@' (by simp)) (by decide)

theorem reads_boundKeyword (sound : Sound ends) (scope : Scope)
    (laid : Placed ends ((Item.binding .sparql label raw).tokens ++ more) text) (visible : Visible text) :
    ∃ later rest, expandItem (.binding .sparql label raw) scope = some later ∧
    matchesKeywordCi prefixWord text = true ∧
      text.head? ≠ some '@' ∧ Placed ends more rest ∧
      Reads sparqlDirective text scope.env () rest later.env := by
  obtain ⟨word,rest,same,found,other,inside,read⟩ :=
    reads_keyword (s := scope.env) sound prefixWord_letters (by decide) laid visible
  obtain ⟨after,gap,shown,standing⟩ :=
    reads_gap (s := scope.env) (show (Token.binder label).Proper from trivial) inside
  obtain ⟨last,ended,binding⟩ := reads_bindingTokens scope standing shown
  refine ⟨_,last,rfl,found,other,ended,reads_bind read (reads_bind gap ?_)⟩
  rw [if_pos (show word.map toAsciiLowercase = ['p','r','e','f','i','x'] from same)]
  exact reads_bind binding (reads_update _)

theorem reads_baseKeyword (sound : Sound ends) (scope : Scope)
    (laid : Placed ends ((Item.base .sparql raw).tokens ++ more) text) (visible : Visible text) :
    ∃ later rest, expandItem (.base .sparql raw) scope = some later ∧ matchesKeywordCi baseWord text = true ∧
      text.head? ≠ some '@' ∧ Placed ends more rest ∧
      Reads sparqlDirective text scope.env () rest later.env := by
  obtain ⟨word,rest,same,found,other,inside,read⟩ :=
    reads_keyword (s := scope.env) sound baseWord_letters (by decide) laid visible
  obtain ⟨after,gap,shown,standing⟩ :=
    reads_gap (s := scope.env) (show (Token.iri (.reference raw)).Proper from trivial) inside
  obtain ⟨last,ended,reference⟩ := reads_referenceToken scope standing shown
  refine ⟨_,last,rfl,found,other,ended,reads_bind read (reads_bind gap ?_)⟩
  have unprefixed : word.map toAsciiLowercase ≠ ['p','r','e','f','i','x'] := by
    rw [same]
    decide
  rw [if_neg unprefixed,if_pos (show word.map toAsciiLowercase = ['b','a','s','e'] from same)]
  exact reads_bind reference (reads_update _)

end Directives

section Documents

theorem reads_documentEnd (laid : Placed ends [] text) (s : Env) :
    Reads (document depth (fuel + 1)) text s () [] s := by
  rw [document]
  exact reads_bind (reads_lastGap laid) (reads_bind reads_ahead reads_pure)

theorem yields_document {s : Env} {after : List Char} {found : Option (Unit × Env)}
    {closes : List Char → Prop} {item : Parse Unit}
    (gap : Reads skipWs text s () (c :: after) s)
    (dispatch : item = if c = '@' then directive
      else if matchesKeywordCi ['p','r','e','f','i','x'] (c :: after) ||
        matchesKeywordCi ['b','a','s','e'] (c :: after) then sparqlDirective
      else statement depth)
    (yields : Yields (item >>= fun _ => document depth fuel) (c :: after) s found closes) :
    Yields (document depth (fuel + 1)) text s found closes := by
  rw [document]
  refine yields_after gap (yields_after reads_ahead ?_)
  subst dispatch
  dsimp only [List.head?_cons]
  split
  · rename_i at_sign
    rwa [if_pos at_sign] at yields
  · rename_i no_at_sign
    rw [if_neg no_at_sign] at yields
    split
    · rename_i found
      rwa [if_pos found] at yields
    · rename_i none
      rwa [if_neg none] at yields

theorem statement_dispatch {labels : List String} (tree : Tree .object) (node : tree.isNode = true)
    (readable : subjectReadable labels tree = true) (laid : Placed ends (tree.tokens ++ more) text)
      (visible : Visible text) :
    ∃ c tail, text = c :: tail ∧ c ≠ '@' ∧ matchesKeywordCi prefixWord text = false ∧
      matchesKeywordCi baseWord text = false := by
  have marked : ∀ {c tokens}, Placed ends (.mark c :: tokens) text → c = '[' ∨ c = '(' →
      ∃ c tail, text = c :: tail ∧ c ≠ '@' ∧ matchesKeywordCi prefixWord text = false ∧
      matchesKeywordCi baseWord text = false := by
    intro c tokens laid kind
    obtain ⟨rest,rfl,_⟩ := laid_mark laid visible
    refine ⟨c,rest,rfl,?_⟩
    rcases kind with rfl | rfl <;> exact ⟨by decide,rfl,rfl⟩
  cases tree with
  | iri form =>
    obtain ⟨word,rest,rfl,text_of,_,_⟩ := laid_token laid visible
    cases text_of with
    | iri text_of =>
      rcases readable_begins text_of readable with ⟨tail,rfl⟩ | ⟨label,tail,rfl,label_form,clear⟩
      · exact ⟨_,_,rfl,by decide,rfl,rfl⟩
      · have prefixed := opens_false rfl label_form prefixWord (tail ++ rest) clear (by simp) (by decide)
        have based := opens_false rfl label_form baseWord (tail ++ rest) clear (by simp) (by decide)
        obtain ⟨c,more,begins,starts⟩ := name_start label_form (tail ++ rest)
        rw [label_shape]
        refine ⟨c,more,begins,nameStart_ne starts (by decide),?_,?_⟩
        · simpa [matchesKeywordCi] using fun same boundary => prefixed ⟨same,boundary⟩
        · simpa [matchesKeywordCi] using fun same boundary => based ⟨same,boundary⟩
  | label name =>
    obtain ⟨word,rest,rfl,text_of,_,_⟩ := laid_token laid visible
    cases text_of
    exact ⟨_,_,rfl,by decide,rfl,rfl⟩
  | literal form => cases node
  | anonymous => exact marked laid (.inl rfl)
  | properties entries => exact marked laid (.inl rfl)
  | empty => exact marked laid (.inr rfl)
  | collection items => exact marked laid (.inr rfl)

theorem item_proper (item : Item) : ∀ token ∈ item.tokens, token.Proper := by
  have marks : ∀ {c}, (Token.mark c).Proper := trivial
  cases item with
  | binding style label iri =>
    cases style with
    | turtle => simp [Item.tokens,Token.Proper]
    | sparql => simpa [Item.tokens,Token.Proper]
        using (⟨by decide,prefixWord_letters⟩ : prefixWord ≠ [] ∧ ∀ c ∈ prefixWord, isAsciiAlphabetic c = true)
  | base style iri =>
    cases style with
    | turtle => simp [Item.tokens,Token.Proper]
    | sparql => simpa [Item.tokens,Token.Proper]
        using (⟨by decide,baseWord_letters⟩ : baseWord ≠ [] ∧ ∀ c ∈ baseWord, isAsciiAlphabetic c = true)
  | statement subject node entries =>
    simp only [Item.tokens,List.forall_mem_append]
    exact ⟨⟨tokens_proper subject,tokens_proper entries⟩,by simp [marks]⟩
  | bare entries =>
    simp only [Item.tokens,List.cons_append,List.forall_mem_cons,List.forall_mem_append]
    exact ⟨marks,tokens_proper entries,marks,marks,List.forall_mem_nil _⟩

theorem item_begins (item : Item) : ∃ token tail, item.tokens = token :: tail := by
  cases item with
  | binding style label iri => cases style <;> exact ⟨_,_,rfl⟩
  | base style iri => cases style <;> exact ⟨_,_,rfl⟩
  | statement subject node entries =>
    obtain ⟨token,tail,shape,_⟩ := tokens_begin subject
    exact ⟨token,_,by rw [Item.tokens,shape,List.cons_append,List.cons_append]⟩
  | bare entries => exact ⟨_,_,rfl⟩

theorem reads_itemGap (item : Item) (s : Env) (laid : Placed ends (item.tokens ++ more) text) :
    ∃ c after, Reads skipWs text s () (c :: after) s ∧ Visible (c :: after) ∧
    Placed ends (item.tokens ++ more) (c :: after) := by
  obtain ⟨token,tail,shape⟩ := item_begins item
  have proper : token.Proper := item_proper item token (by simp [shape])
  rw [shape,List.cons_append] at laid ⊢
  obtain ⟨after,reads,visible,standing⟩ := reads_gap (s := s) proper laid
  obtain ⟨word,rest,rfl,text_of,_,_⟩ := laid_token standing visible
  obtain ⟨c,x,rfl,_⟩ := token_begins proper text_of
  exact ⟨c,x ++ rest,reads,visible,standing⟩

theorem yields_itemDocument (sound : Sound ends) {found : Scope → Option (Unit × Env)}
    {closes : List Char → Prop} (item : Item)
    (readable : item.readable scope.labels = true) (laid : Placed ends (item.tokens ++ more) text)
      (enough : 4 * item.tokens.length < depth)
    (second : ∀ later rest, expandItem item scope = some later → Placed ends more rest →
      Yields (document depth fuel) rest later.env (found later) closes) :
    Yields (document depth (fuel + 1)) text scope.env ((expandItem item scope).bind found) closes := by
  obtain ⟨c,after,gap,visible,standing⟩ := reads_itemGap item scope.env laid
  cases item with
  | binding style label iri =>
    cases style with
    | turtle =>
      obtain ⟨rest,tail,at_sign,_⟩ :=
        reads_directiveWord (s := scope.env) sound prefixWord_letters standing visible
      obtain ⟨later,rest,expanded,ended,read⟩ := reads_boundDirective sound scope standing visible
      rw [expanded]
      refine yields_document gap ?_ (yields_after read (second later rest expanded ended))
      rw [if_pos (List.cons.inj at_sign).1]
    | sparql =>
      obtain ⟨later,rest,expanded,found,other,ended,read⟩ := reads_boundKeyword sound scope standing visible
      have found : matchesKeywordCi ['p','r','e','f','i','x'] (c :: after) = true := found
      rw [expanded]
      refine yields_document gap ?_ (yields_after read (second later rest expanded ended))
      rw [if_neg (fun same => other (congrArg some same)),found,Bool.true_or,if_pos rfl]
  | base style iri =>
    cases style with
    | turtle =>
      obtain ⟨rest,tail,at_sign,_⟩ :=
        reads_directiveWord (s := scope.env) sound baseWord_letters standing visible
      obtain ⟨later,rest,expanded,ended,read⟩ := reads_baseDirective sound scope standing visible
      rw [expanded]
      refine yields_document gap ?_ (yields_after read (second later rest expanded ended))
      rw [if_pos (List.cons.inj at_sign).1]
    | sparql =>
      obtain ⟨later,rest,expanded,found,other,ended,read⟩ := reads_baseKeyword sound scope standing visible
      have found : matchesKeywordCi ['b','a','s','e'] (c :: after) = true := found
      rw [expanded]
      refine yields_document gap ?_ (yields_after read (second later rest expanded ended))
      rw [if_neg (fun same => other (congrArg some same)),found,Bool.or_true,if_pos rfl]
  | statement tree node entries =>
    have subject_readable : subjectReadable scope.labels tree = true := (Bool.and_eq_true _ _ ▸ readable).1
    have whole := yields_statement sound scope tree node entries readable standing visible enough
    simp only [Item.tokens,List.append_assoc] at standing
    obtain ⟨d,x,begins,other,unprefixed,unbased⟩ :=
      statement_dispatch tree node subject_readable standing visible
    obtain rfl : c = d := (List.cons.inj begins).1
    have unprefixed : matchesKeywordCi ['p','r','e','f','i','x'] (c :: after) = false := unprefixed
    have unbased : matchesKeywordCi ['b','a','s','e'] (c :: after) = false := unbased
    refine yields_document gap ?_ (yields_bind whole fun later rest expanded ended =>
      second later rest expanded ended)
    rw [if_neg other,unprefixed,unbased,Bool.or_false,if_neg Bool.false_ne_true]
  | bare entries =>
    -- Only where an entry uses an unknown prefix: the parser goes no further than that.
    simp only [Item.readable,Bool.and_eq_true,Bool.not_eq_true'] at readable
    simp only [Item.tokens,List.length_cons,List.length_append,List.append_assoc,List.cons_append]
      at standing enough
    obtain ⟨tail,shape,_⟩ := laid_mark standing visible
    obtain ⟨rfl,rfl⟩ := List.cons.inj shape
    have undeclared : expand entries scope.allocate.1 scope.allocate.2 = none := by
      cases found : expand entries scope.allocate.1 scope.allocate.2 with
      | none => rfl
      | some later =>
        have declared : entries.declared scope.labels = true := (expand_declares entries _ _ _ found).1
        rw [readable.2] at declared
        cases declared
    have read := @yields_properties _ (.mark '.' :: more) depth scope _ entries
        (tree_parsed sound entries) readable.1 standing visible (by omega)
    rw [undeclared] at read
    have subject_fails : Fails (subject depth) ('[' :: after) scope.env := by
      rw [subject]
      exact fails_after (skipWs_visible visible) (fails_after reads_peek read)
    rw [expandItem,undeclared]
    refine yields_document gap rfl (fails_bind ?_)
    rw [statement]
    exact fails_bind subject_fails

theorem yields_items (sound : Sound ends) (items : List Item) (scope : Scope)
    (readable : readableFrom scope.labels items = true) (fuel : Nat)
    (laid : Placed ends (documentTokens items) text) (room : items.length < fuel)
      (enough : 4 * (documentTokens items).length < depth) :
    Yields (document depth fuel) text scope.env
      ((expandItems items scope).map fun later => ((),later.env)) (fun _ => True) := by
  induction items generalizing scope fuel text with
  | nil =>
    obtain ⟨fuel,rfl⟩ := Nat.exists_eq_succ_of_ne_zero (Nat.ne_of_gt room)
    exact yields_reads trivial (reads_documentEnd laid scope.env)
  | cons item items ih =>
    obtain ⟨fuel,rfl⟩ := Nat.exists_eq_succ_of_ne_zero (Nat.ne_of_gt (Nat.zero_lt_of_lt room))
    simp only [readableFrom,Bool.and_eq_true] at readable
    simp only [documentTokens,List.flatMap_cons,List.length_append] at laid enough
    simp only [expandItems,Option.map_bind]
    refine yields_itemDocument sound item readable.1 laid (by omega) fun later rest found tail => ?_
    obtain ⟨declared,kept⟩ := item_declares found
    have others : readableFrom later.labels items = true := by
      simpa only [declared,← kept,Bool.not_true,Bool.false_or] using readable.2
    exact ih later others fuel tail (Nat.lt_of_succ_lt_succ room) (by simp only [documentTokens]; omega)

theorem document_proper (items : List Item) : ∀ token ∈ documentTokens items, token.Proper := by
  intro token member
  obtain ⟨item,_,member⟩ := List.mem_flatMap.mp member
  exact item_proper item token member

theorem items_length (items : List Item) : items.length ≤ (documentTokens items).length := by
  induction items with
  | nil => exact Nat.zero_le _
  | cons item items ih =>
    obtain ⟨token,tail,shape⟩ := item_begins item
    simp only [documentTokens,List.flatMap_cons,List.length_append,List.length_cons,shape] at ih ⊢
    omega

theorem parse_laid {items : List Item} (sound : Sound ends)
    (readable : readableDocument items = true) (laid : Placed ends (documentTokens items) text) :
    match expandDocument items with
    | some facts => parseTurtle text = .ok (facts.map (Fact.triple codeLabel))
    | none => ∃ failure, parseTurtle text = .error failure := by
  have tokens := laid_length (document_proper items) laid
  have count := items_length items
  have read : Yields (document (4 * text.length + 4) (text.length + 1)) text (Scope.env {}) _ _ :=
    yields_items sound items {} readable (text.length + 1) laid (by omega) (by omega)
  have start : Scope.env {} = {} := rfl
  rw [start] at read
  unfold expandDocument parseTurtle
  cases found : expandItems items {} with
  | none =>
    rw [found] at read
    obtain ⟨failure,failed⟩ := read []
    rw [failed]
    exact ⟨failure,rfl⟩
  | some later =>
    rw [found] at read
    obtain ⟨rest,_,reads⟩ := read
    obtain ⟨passed,reached⟩ := reads []
    rw [reached]
    rfl

end Documents
end ArangoDataTools.Turtle
