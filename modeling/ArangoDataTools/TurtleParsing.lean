import ArangoDataTools.TurtleTerms

namespace ArangoDataTools.Turtle
open TextScan TextReader

attribute [local simp] Tree.tokens expand object blankNodePropertyList collection collectionItems
  predicateObjectList objectList

variable {text rest : List Char} {more : List Token} {fuel : Nat} {scope : Scope} {k : Kind} {c : Char}
variable {ends : Token → List Char → List Char → Prop}

section Tokens

theorem tokens_proper (tree : Tree k) : ∀ token ∈ tree.tokens, token.Proper := by
  induction tree with
  | entry verb objects closing ih =>
    have first : verb.token.Proper := by cases verb <;> trivial
    simp only [Tree.tokens,List.cons_append,List.forall_mem_cons,List.forall_mem_append]
    exact ⟨first,ih,fun token member => by rw [List.eq_of_mem_replicate member]; trivial⟩
  | entries verb objects extra rest ih ih_rest =>
    have first : verb.token.Proper := by cases verb <;> trivial
    simp only [Tree.tokens,List.cons_append,List.forall_mem_cons,List.forall_mem_append]
    exact ⟨first,⟨ih,trivial,fun token member => by rw [List.eq_of_mem_replicate member]; trivial⟩,ih_rest⟩
  | properties inner ih | collection inner ih =>
    simp only [Tree.tokens,List.cons_append,List.forall_mem_cons,List.forall_mem_append]
    exact ⟨trivial,ih,trivial,List.forall_mem_nil _⟩
  | more object rest ih ih_rest =>
    simp only [Tree.tokens,List.forall_mem_cons,List.forall_mem_append]
    exact ⟨ih,trivial,ih_rest⟩
  | item object rest ih ih_rest => exact List.forall_mem_append.mpr ⟨ih,ih_rest⟩
  | one object ih | last object ih => exact ih
  | _ => simp [Tree.tokens,Token.Proper]

def Begins : Kind → Token → Prop
  | .entries,token => ∃ verb : Verb, token = verb.token
  | _,token => token.Proper ∧ ∀ c, token = .mark c → c = '[' ∨ c = '('

theorem begins_proper {token : Token} (begins : Begins k token) : token.Proper := by
  cases k with
  | entries =>
    obtain ⟨verb,rfl⟩ := begins
    cases verb <;> trivial
  | _ => exact begins.1

theorem tokens_begin (tree : Tree k) : ∃ token tail, tree.tokens = token :: tail ∧ Begins k token := by
  induction tree with
  | iri | label | literal => exact ⟨_,_,rfl,trivial,fun _ same => nomatch same⟩
  | anonymous | empty | properties | collection => exact ⟨_,_,rfl,trivial,fun c same => by cases same; decide⟩
  | entry verb | entries verb => exact ⟨_,_,rfl,verb,rfl⟩
  | one object ih | last object ih => exact ih
  | more object rest ih | item object rest ih =>
    obtain ⟨token,tail,shape,begins⟩ := ih
    exact ⟨token,_,by rw [Tree.tokens,shape,List.cons_append],begins⟩

theorem reads_treeGap (tree : Tree k) (s : Env) (laid : Placed ends (tree.tokens ++ more) text) :
    ∃ after, Reads skipWs text s () after s ∧ Visible after ∧ Placed ends (tree.tokens ++ more) after := by
  obtain ⟨token,tail,shape,begins⟩ := tokens_begin tree
  rw [shape,List.cons_append] at laid ⊢
  exact reads_gap (begins_proper begins) laid

theorem verb_begins {verb : Verb} {word : List Char} (text_of : TokenText verb.token word) :
    ∃ c tail, word = c :: tail ∧ (c = 'a' ∨ c = '<' ∨ NameStart c) := by
  cases verb with
  | a =>
    cases text_of
    exact ⟨'a',[],rfl,.inl rfl⟩
  | iri form =>
    cases text_of with
    | iri text_of =>
      obtain ⟨c,tail,shape,starts⟩ := iriText_begins text_of
      exact ⟨c,tail,shape,.inr starts⟩

theorem entries_open (tree : Tree .entries) (laid : Placed ends (tree.tokens ++ more) text)
    (visible : Visible text) :
    ∃ c tail, text = c :: tail ∧ c ≠ '.' ∧ c ≠ ']' := by
  obtain ⟨_,tail,shape,verb,rfl⟩ := tokens_begin tree
  rw [shape,List.cons_append] at laid
  obtain ⟨word,rest,rfl,text_of,_,_⟩ := laid_token laid visible
  obtain ⟨c,x,rfl,rfl | rfl | starts⟩ := verb_begins text_of
  · exact ⟨'a',_,rfl,by decide⟩
  · exact ⟨'<',_,rfl,by decide⟩
  · exact ⟨c,_,rfl,nameStart_ne starts (by decide),nameStart_ne starts (by decide)⟩

theorem closing_token {token : Token} {tail : List Char} (proper : token.Proper)
    (text_of : TokenText token (')' :: tail)) :
    token = .mark ')' := by
  have no_name : ¬NameStart ')' := fun starts => nameStart_ne starts (by decide) rfl
  generalize shape : ')' :: tail = word at text_of
  cases text_of with
  | mark _ =>
    cases shape
    rfl
  | a => cases shape
  | iri text_of =>
    obtain ⟨c,x,begins,rfl | starts⟩ := iriText_begins text_of
    · cases shape.trans begins
    · cases shape.trans begins
      exact absurd starts no_name
  | label _ _ => cases shape
  | literal text_of =>
    obtain ⟨c,x,begins,kind⟩ := literalText_begins text_of
    cases shape.trans begins
    rcases kind with quote | number | letter
    · exact absurd quote (by unfold IsQuote; decide)
    · exact absurd number (by unfold NumberStart; decide)
    · cases letter
  | directive => cases shape
  | keyword same =>
    subst shape
    exact absurd (keyword_letters same proper.2 ')' (by simp)) (by decide)
  | binder form =>
    rename_i label
    obtain ⟨c,x,begins,starts⟩ := name_start form []
    cases shape.trans begins
    exact absurd starts no_name

theorem items_open (tree : Tree .items) (laid : Placed ends (tree.tokens ++ more) text)
    (visible : Visible text) :
    ∃ c tail, text = c :: tail ∧ c ≠ ')' := by
  obtain ⟨token,tail,shape,proper,marks⟩ := tokens_begin tree
  rw [shape,List.cons_append] at laid
  obtain ⟨word,rest,rfl,text_of,_,_⟩ := laid_token laid visible
  obtain ⟨c,x,rfl,_⟩ := token_begins proper text_of
  refine ⟨c,_,rfl,?_⟩
  rintro rfl
  exact absurd (marks ')' (closing_token proper text_of)) (by decide)

end Tokens

section Lists

theorem reads_chain (values : List Value) (cell : Vertex) (scope : Scope) :
    Reads (chain (cell.node codeLabel) (values.map fun value => (value.object codeLabel).term)) text
      scope.env () text
      (scope.cells cell values).env := by
  induction values generalizing cell scope with
  | nil => exact reads_pure
  | cons value values ih =>
    have first : Reads _ text _ _ _ _ := reads_pushTriple scope cell rdfFirst value
    cases values with
    | nil => exact reads_bind first (reads_pushTriple _ cell rdfRest (.vertex (.iri rdfNil)))
    | cons second values =>
      refine reads_bind first (reads_bind (reads_freshBlank _) ?_)
      exact reads_bind (reads_pushTriple _ cell rdfRest
        (.vertex (scope.assert cell rdfFirst value).allocate.1)) (ih _ _)

theorem items_nonempty (tree : Tree .items) {values : List Value} {later : Scope}
    (found : expand tree scope = some (values,later)) :
    values ≠ [] := by
  cases tree with
  | last object =>
    obtain ⟨_,_,same⟩ := Option.map_eq_some_iff.mp found
    cases same
    exact List.cons_ne_nil _ _
  | item object rest =>
    obtain ⟨_,_,found⟩ := Option.bind_eq_some_iff.mp found
    obtain ⟨_,_,same⟩ := Option.map_eq_some_iff.mp found
    cases same
    exact List.cons_ne_nil _ _

end Lists

section Trees

def Followed : Kind → List Token → Prop
  | .object,_ => True
  | .objects,more => more = [] ∨ ∃ c rest, more = .mark c :: rest ∧ (c = '.' ∨ c = ']' ∨ c = ';')
  | .entries,more => more = [] ∨ ∃ c rest, more = .mark c :: rest ∧ (c = '.' ∨ c = ']')
  | .items,more => ∃ rest, more = .mark ')' :: rest

def Sound (ends : Token → List Char → List Char → Prop) : Prop :=
  ∀ token word rest, TokenText token word → ends token word rest → Ends token word rest

theorem laid_sound : Sound Ends := fun _ _ _ _ ended => ended

def Parsed (ends : Token → List Char → List Char → Prop) : {k : Kind} → Tree k → Prop
  | .object,tree => ∀ scope fuel more text, tree.readable scope.labels = true →
      Placed ends (tree.tokens ++ more) text →
    4 * tree.tokens.length < fuel →
    Yields (object fuel) text scope.env
      ((expand tree scope).map fun (value,later) => (value.object codeLabel,later.env)) (Placed ends more)
  | .objects,tree => ∀ vertex predicate scope fuel more text, tree.readable scope.labels = true →
      Followed .objects more →
    Placed ends (tree.tokens ++ more) text → 4 * tree.tokens.length + 1 < fuel →
    Yields (objectList fuel (vertex.node codeLabel) predicate) text scope.env
      ((expand tree vertex predicate scope).map fun later => ((),later.env)) (Placed ends more)
  | .entries,tree => ∀ vertex scope fuel more text, tree.readable scope.labels = true → Followed .entries more →
    Placed ends (tree.tokens ++ more) text → 4 * tree.tokens.length < fuel →
    Yields (predicateObjectList fuel (vertex.node codeLabel)) text scope.env
      ((expand tree vertex scope).map fun later => ((),later.env)) (Placed ends more)
  | .items,tree => ∀ scope fuel more text, tree.readable scope.labels = true →
    Placed ends (tree.tokens ++ .mark ')' :: more) text → 4 * tree.tokens.length + 1 < fuel →
    Yields (collectionItems fuel) text scope.env
      ((expand tree scope).map fun (values,later) =>
      (values.map fun value => (value.object codeLabel).term,later.env)) (Placed ends more)

theorem yields_properties {entries : Tree .entries} (parsed : Parsed ends entries)
    (readable : entries.readable scope.labels = true)
    (laid : Placed ends (.mark '[' :: entries.tokens ++ .mark ']' :: more) text)
      (visible : Visible text) (enough : 4 * entries.tokens.length + 1 < fuel) :
    Yields (blankNodePropertyList fuel) text scope.env
      ((expand entries scope.allocate.1 scope.allocate.2).map fun later =>
      (scope.allocate.1.node codeLabel,later.env)) (Placed ends more) := by
  obtain ⟨fuel,rfl⟩ := Nat.exists_eq_succ_of_ne_zero (Nat.ne_of_gt (Nat.zero_lt_of_lt enough))
  obtain ⟨rest,rfl,inside⟩ := laid_mark laid visible
  rw [blankNodePropertyList]
  refine yields_after (reads_expect '[') (yields_after (reads_freshBlank scope) ?_)
  obtain ⟨after,reads,shown,standing⟩ := reads_treeGap entries scope.allocate.2.env inside
  obtain ⟨c,tail,rfl,_,other⟩ := entries_open entries standing shown
  refine yields_after reads (yields_after reads_peek ?_)
  rw [List.head?_cons,if_neg (fun same => other (Option.some.inj same))]
  refine yields_close (parsed _ _ _ _ _ readable (.inr ⟨']',more,rfl,.inr rfl⟩) standing (by omega))
    fun later rest ended => ?_
  obtain ⟨rest,reads,_,_,after_mark⟩ := reads_markGap (s := later.env) ended
  exact ⟨rest,after_mark,reads_bind reads (reads_bind (reads_expect ']') reads_pure)⟩

theorem reads_anonymous (fuel : Nat) (scope : Scope)
    (laid : Placed ends (.mark '[' :: .mark ']' :: more) text) (visible : Visible text) :
    ∃ rest, Placed ends more rest ∧ Reads (blankNodePropertyList (fuel + 1)) text scope.env
      (scope.allocate.1.node codeLabel) rest scope.allocate.2.env := by
  obtain ⟨rest,rfl,inside⟩ := laid_mark laid visible
  obtain ⟨rest,reads,_,_,closed⟩ := reads_markGap (s := scope.allocate.2.env) inside
  rw [blankNodePropertyList]
  refine ⟨rest,closed,reads_bind (reads_expect '[')
    (reads_bind (reads_freshBlank scope) (reads_bind reads (reads_bind reads_peek ?_)))⟩
  rw [if_pos List.head?_cons]
  exact reads_bind reads_step reads_pure

theorem reads_itemsEnd {s : Env} (laid : Placed ends (.mark ')' :: more) text) :
    ∃ rest, Placed ends more rest ∧ Reads (collectionItems (fuel + 1)) text s [] rest s := by
  obtain ⟨rest,reads,_,_,closed⟩ := reads_markGap (s := s) laid
  rw [collectionItems]
  exact ⟨rest,closed,reads_bind reads (reads_bind reads_peek (reads_bind reads_step reads_pure))⟩

theorem reads_empty (fuel : Nat) (scope : Scope)
    (laid : Placed ends (.mark '(' :: .mark ')' :: more) text) (visible : Visible text) :
    ∃ rest, Placed ends more rest ∧
    Reads (collection (fuel + 2)) text scope.env (.iri rdfNil) rest scope.env := by
  obtain ⟨inner,rfl,inside⟩ := laid_mark laid visible
  obtain ⟨rest,closed,items⟩ := reads_itemsEnd (s := scope.env) inside
  rw [collection]
  refine ⟨rest,closed,reads_bind (reads_expect '(') (reads_bind items ?_)⟩
  rw [if_pos rfl]
  exact reads_pure

theorem yields_collection {items : Tree .items} (parsed : Parsed ends items)
    (readable : items.readable scope.labels = true)
    (laid : Placed ends (.mark '(' :: items.tokens ++ .mark ')' :: more) text)
      (visible : Visible text) (enough : 4 * items.tokens.length + 2 < fuel) :
    Yields (collection fuel) text scope.env ((expand items scope).map fun (values,later) =>
      (later.allocate.1.node codeLabel,(later.allocate.2.cells later.allocate.1 values).env))
        (Placed ends more) := by
  obtain ⟨fuel,rfl⟩ := Nat.exists_eq_succ_of_ne_zero (Nat.ne_of_gt (Nat.zero_lt_of_lt enough))
  obtain ⟨rest,rfl,inside⟩ := laid_mark laid visible
  rw [collection]
  refine yields_after (reads_expect '(') ?_
  have read := parsed scope fuel more rest readable inside (by omega)
  cases found : expand items scope with
  | none =>
    rw [found] at read
    exact fails_bind read
  | some reached =>
    obtain ⟨values,later⟩ := reached
    rw [found] at read
    obtain ⟨rest,ended,read⟩ := read
    refine ⟨rest,ended,reads_bind read ?_⟩
    rw [if_neg (by simpa using items_nonempty items found)]
    exact reads_bind (reads_freshBlank later)
      (reads_bind (reads_chain values later.allocate.1 later.allocate.2) reads_pure)

theorem reads_followed {s : Env} {kind : Char → Prop} (followed : more = [] ∨ ∃ c tokens,
    more = .mark c :: tokens ∧ kind c) (laid : Placed ends more text) :
    ∃ rest, Reads skipWs text s () rest s ∧ Placed ends more rest ∧
    (rest.head? = none ∨ ∃ c, rest.head? = some c ∧ kind c) := by
  rcases followed with rfl | ⟨c,tokens,rfl,marks⟩
  · exact ⟨[],reads_lastGap laid,.nil .nil,.inl rfl⟩
  · obtain ⟨rest,gap,_,marked,_⟩ := reads_markGap (s := s) laid
    exact ⟨c :: rest,gap,marked,.inr ⟨c,rfl,marks⟩⟩

theorem followed_ne {rest : List Char} {kind : Char → Prop} (head : rest.head? = none ∨ ∃ c,
    rest.head? = some c ∧ kind c) (other : ¬kind c) :
    rest.head? ≠ some c := by
  rcases head with none | ⟨d,found,marks⟩
  · rw [none]
    exact nofun
  · rw [found]
    intro same
    exact other (Option.some.inj same ▸ marks)

theorem parsed_one {object : Tree .object} (parsed : Parsed ends object) : Parsed ends (.one object) := by
  intro vertex predicate scope fuel more text readable followed laid enough
  obtain ⟨fuel,rfl⟩ := Nat.exists_eq_succ_of_ne_zero (Nat.ne_of_gt (Nat.zero_lt_of_lt enough))
  have enough : 4 * object.tokens.length + 1 < fuel + 1 := enough
  rw [objectList]
  simp only [expand,Option.map_map]
  obtain ⟨after,reads,_,standing⟩ := reads_treeGap object scope.env laid
  refine yields_after reads (yields_close (parsed scope fuel _ after readable standing (by omega))
    fun (value,later) rest ended => ?_)
  obtain ⟨rest,gap,marked,head⟩ :=
    reads_followed (s := (later.assert vertex predicate value).env) followed ended
  refine ⟨rest,marked,reads_bind (reads_pushTriple later vertex predicate value)
    (reads_bind gap (reads_bind reads_peek ?_))⟩
  rw [if_neg (followed_ne head (by decide))]
  exact reads_pure

theorem later_readable {later : Scope} {j k : Kind} {tree : Tree j} {next : Tree k}
    (declares : tree.declared scope.labels = true ∧ later.labels = scope.labels)
    (readable : (!tree.declared scope.labels || next.readable scope.labels) = true) :
    next.readable later.labels = true := by
  rw [declares.2]
  rwa [declares.1,Bool.not_true,Bool.false_or] at readable

theorem parsed_more {object : Tree .object} {objects : Tree .objects} (parsed : Parsed ends object)
    (parsed_rest : Parsed ends objects) :
    Parsed ends (.more object objects) := by
  intro vertex predicate scope fuel more text readable followed laid enough
  obtain ⟨fuel,rfl⟩ := Nat.exists_eq_succ_of_ne_zero (Nat.ne_of_gt (Nat.zero_lt_of_lt enough))
  simp only [Tree.tokens,List.length_append,List.length_cons,List.append_assoc,List.cons_append] at laid enough
  simp only [Tree.readable,Bool.and_eq_true] at readable
  rw [objectList]
  simp only [expand,Option.map_bind]
  obtain ⟨after,reads,_,standing⟩ := reads_treeGap object scope.env laid
  refine yields_after reads (yields_bind (parsed scope fuel _ after readable.1 standing (by omega)) ?_)
  rintro ⟨value,later⟩ rest found ended
  have readable_rest := later_readable (expand_declares object _ _ _ found) readable.2
  obtain ⟨rest,gap,_,_,tail⟩ := reads_markGap (s := (later.assert vertex predicate value).env) ended
  refine yields_after (reads_pushTriple later vertex predicate value)
    (yields_after gap (yields_after reads_peek ?_))
  rw [List.head?_cons,if_pos rfl]
  exact yields_after reads_step
    (parsed_rest vertex predicate _ fuel more rest readable_rest followed tail (by omega))

theorem yields_entry {verb : Verb} {tokens : List Token} {ρ : Type} {found : String → Option ρ}
    {view : ρ → Unit × Env}
    {next : String → Parse Unit} {closes : List Char → Prop} (sound : Sound ends)
      (readable : verb.readable scope.labels = true)
    (laid : Placed ends (verb.token :: tokens) text)
    (second : ∀ predicate rest, scope.verb verb = some predicate → Placed ends tokens rest →
      Yields (next predicate) rest scope.env ((found predicate).map view) closes) :
    Yields (skipWs >>= fun _ => Turtle.verb >>= next) text scope.env
      (((scope.verb verb).bind found).map view) closes := by
  have proper : verb.token.Proper := by cases verb <;> trivial
  obtain ⟨after,reads,visible,standing⟩ := reads_gap (s := scope.env) proper laid
  obtain ⟨word,rest,rfl,text_of,ended,tail⟩ := laid_token standing visible
  rw [Option.map_bind]
  refine yields_after reads (yields_bind (yields_verb readable text_of (sound _ _ _ text_of ended)) ?_)
  intro predicate reached found same
  subst same
  exact second predicate reached found tail

theorem closing_followed (closing : Nat) (followed : Followed .entries more) :
    Followed .objects (List.replicate closing (.mark ';') ++ more) := by
  cases closing with
  | zero => exact followed.imp_right fun ⟨c,tokens,shape,ends⟩ => ⟨c,tokens,shape,ends.imp_right .inl⟩
  | succ closing => exact .inr ⟨';',_,rfl,.inr (.inr rfl)⟩

theorem parsed_entry {verb : Verb} {objects : Tree .objects} {closing : Nat} (sound : Sound ends)
    (parsed : Parsed ends objects) :
    Parsed ends (.entry verb objects closing) := by
  intro vertex scope fuel more text readable followed laid enough
  obtain ⟨fuel,rfl⟩ := Nat.exists_eq_succ_of_ne_zero (Nat.ne_of_gt (Nat.zero_lt_of_lt enough))
  simp only [Tree.tokens,List.length_append,List.length_cons,List.append_assoc,List.cons_append] at laid enough
  simp only [Tree.readable,Bool.and_eq_true] at readable
  rw [predicateObjectList]
  refine yields_entry sound readable.1 laid fun predicate rest resolved tail => ?_
  obtain ⟨readable_objects,few⟩ : objects.readable scope.labels = true ∧
      (!objects.declared scope.labels || decide (closing ≤ 1)) = true := by
    simpa only [verb_declared resolved,Bool.not_true,Bool.false_or,Bool.and_eq_true] using readable.2
  have read := parsed vertex predicate scope fuel _ rest readable_objects
      (closing_followed closing followed) tail (by omega)
  cases found : expand objects vertex predicate scope with
  | none =>
    rw [found] at read
    exact fails_bind read
  | some later =>
    rw [found] at read
    obtain ⟨rest,ended,read⟩ := read
    have few : closing ≤ 1 := by
      simpa only [(expand_declares objects _ _ _ _ found).1,Bool.not_true,Bool.false_or,
        decide_eq_true_eq] using few
    obtain rfl | rfl := Nat.le_one_iff_eq_zero_or_eq_one.mp few
    · obtain ⟨rest,gap,marked,head⟩ := reads_followed (s := later.env) followed ended
      refine ⟨rest,marked,reads_bind read (reads_bind gap (reads_bind reads_peek ?_))⟩
      rw [if_neg (followed_ne head (by decide))]
      exact reads_pure
    · obtain ⟨rest,gap,_,_,marked⟩ := reads_markGap (s := later.env) ended
      obtain ⟨last,gap_last,closes,head⟩ := reads_followed (s := later.env) followed marked
      refine ⟨last,closes,reads_bind read (reads_bind gap (reads_bind reads_peek ?_))⟩
      rw [List.head?_cons,if_pos rfl]
      refine reads_bind reads_step (reads_bind gap_last (reads_bind reads_peek ?_))
      rcases head with none | ⟨c,found,rfl | rfl⟩
      · rw [none]
        exact reads_pure
      · rw [found]
        exact reads_pure
      · rw [found]
        exact reads_pure

theorem parsed_entries {verb : Verb} {objects : Tree .objects} {extra : Nat}
    {entries : Tree .entries} (sound : Sound ends)
    (parsed : Parsed ends objects) (parsed_rest : Parsed ends entries) :
    Parsed ends (.entries verb objects extra entries) := by
  intro vertex scope fuel more text readable followed laid enough
  obtain ⟨fuel,rfl⟩ := Nat.exists_eq_succ_of_ne_zero (Nat.ne_of_gt (Nat.zero_lt_of_lt enough))
  simp only [Tree.tokens,List.length_append,List.length_cons,List.append_assoc,List.cons_append] at laid enough
  simp only [Tree.readable,Bool.and_eq_true] at readable
  rw [predicateObjectList]
  refine yields_entry sound readable.1 laid fun predicate rest resolved tail => ?_
  obtain ⟨readable_objects,readable_rest⟩ : objects.readable scope.labels = true ∧
      (!objects.declared scope.labels || decide (extra = 0) && entries.readable scope.labels) = true := by
    simpa only [verb_declared resolved,Bool.not_true,Bool.false_or,Bool.and_eq_true] using readable.2
  have separated : Followed .objects
      (.mark ';' :: (List.replicate extra (.mark ';') ++ (entries.tokens ++ more))) :=
    .inr ⟨';',_,rfl,.inr (.inr rfl)⟩
  rw [Option.map_bind]
  refine yields_bind (parsed vertex predicate scope fuel _ rest readable_objects separated tail
    (by omega)) fun later rest found ended => ?_
  obtain ⟨declared,kept⟩ := expand_declares objects _ _ _ _ found
  rw [declared,← kept,Bool.not_true,Bool.false_or,Bool.and_eq_true] at readable_rest
  obtain rfl := of_decide_eq_true readable_rest.1
  obtain ⟨rest,gap,_,_,inside⟩ := reads_markGap (s := later.env) ended
  refine yields_after gap (yields_after reads_peek ?_)
  rw [List.head?_cons,if_pos rfl]
  obtain ⟨after,gap_after,visible,standing⟩ := reads_treeGap entries later.env inside
  obtain ⟨c,x,rfl,dot,bracket⟩ := entries_open entries standing visible
  refine yields_after reads_step (yields_after gap_after (yields_after reads_peek ?_))
  rw [List.head?_cons]
  split
  · rename_i same
    exact absurd (Option.some.inj same) dot
  · rename_i same
    exact absurd (Option.some.inj same) bracket
  · rename_i none
    cases none
  · exact parsed_rest vertex later fuel more _ readable_rest.2 followed standing (by omega)

theorem yields_item {s : Env} {found : Option (List RdfTerm × Env)} {closes : List Char → Prop}
    (tree : Tree .items)
    (laid : Placed ends (tree.tokens ++ more) text)
      (second : ∀ after, Placed ends (tree.tokens ++ more) after → Yields (object fuel >>= fun item =>
      collectionItems fuel >>= fun rest => pure (item.term :: rest)) after s found closes) :
    Yields (collectionItems (fuel + 1)) text s found closes := by
  obtain ⟨after,reads,visible,standing⟩ := reads_treeGap tree s laid
  obtain ⟨c,x,rfl,other⟩ := items_open tree standing visible
  rw [collectionItems]
  refine yields_after reads (yields_after reads_peek ?_)
  rw [List.head?_cons]
  split
  · rename_i same
    exact absurd (Option.some.inj same) other
  · rename_i none
    cases none
  · exact second _ standing

theorem parsed_last {object : Tree .object} (parsed : Parsed ends object) : Parsed ends (.last object) := by
  intro scope fuel more text readable laid enough
  obtain ⟨fuel,rfl⟩ := Nat.exists_eq_succ_of_ne_zero (Nat.ne_of_gt (Nat.zero_lt_of_lt enough))
  have enough : 4 * object.tokens.length + 1 < fuel + 1 := enough
  obtain ⟨fuel,rfl⟩ := Nat.exists_eq_succ_of_ne_zero (show fuel ≠ 0 by omega)
  refine yields_item (.last object) laid fun after standing => ?_
  simp only [expand,Option.map_map]
  refine yields_close (parsed scope _ _ after readable standing (by omega)) fun (value,later) rest ended => ?_
  obtain ⟨rest,closed,items⟩ := reads_itemsEnd (s := later.env) ended
  exact ⟨rest,closed,reads_bind items reads_pure⟩

theorem parsed_item {object : Tree .object} {items : Tree .items} (parsed : Parsed ends object)
    (parsed_rest : Parsed ends items) :
    Parsed ends (.item object items) := by
  intro scope fuel more text readable laid enough
  obtain ⟨fuel,rfl⟩ := Nat.exists_eq_succ_of_ne_zero (Nat.ne_of_gt (Nat.zero_lt_of_lt enough))
  have nonempty : 0 < object.tokens.length := by
    obtain ⟨token,tail,shape,_⟩ := tokens_begin object
    rw [shape]
    exact Nat.succ_pos _
  refine yields_item (.item object items) laid fun after standing => ?_
  simp only [Tree.tokens,List.length_append,List.append_assoc] at standing enough
  simp only [expand,Option.map_bind]
  simp only [Tree.readable,Bool.and_eq_true] at readable
  refine yields_bind (parsed scope fuel _ after readable.1 standing (by omega)) ?_
  rintro ⟨value,later⟩ rest found ended
  have readable_rest := later_readable (expand_declares object _ _ _ found) readable.2
  rw [Function.comp_apply,Option.map_map]
  exact yields_finish (parsed_rest later fuel more rest readable_rest ended (by omega))
    fun (values,last) rest => reads_pure

theorem parsed_properties {entries : Tree .entries} (parsed : Parsed ends entries) :
    Parsed ends (.properties entries) := by
  intro scope fuel more text readable laid enough
  obtain ⟨fuel,rfl⟩ := Nat.exists_eq_succ_of_ne_zero (Nat.ne_of_gt (Nat.zero_lt_of_lt enough))
  simp only [Tree.tokens,List.length_append,List.length_cons,List.append_assoc,List.cons_append] at laid enough
  obtain ⟨rest,reads,visible,standing,_⟩ := reads_markGap (s := scope.env) laid
  rw [object]
  refine yields_after reads (yields_after reads_ahead ?_)
  simp only [expand,Option.map_map]
  exact yields_map Object.node (yields_properties parsed readable standing visible (by omega))

theorem parsed_collection {items : Tree .items} (parsed : Parsed ends items) :
    Parsed ends (.collection items) := by
  intro scope fuel more text readable laid enough
  obtain ⟨fuel,rfl⟩ := Nat.exists_eq_succ_of_ne_zero (Nat.ne_of_gt (Nat.zero_lt_of_lt enough))
  simp only [Tree.tokens,List.length_append,List.length_cons,List.append_assoc,List.cons_append] at laid enough
  obtain ⟨rest,reads,visible,standing,_⟩ := reads_markGap (s := scope.env) laid
  rw [object]
  refine yields_after reads (yields_after reads_ahead ?_)
  simp only [expand,Option.map_map]
  exact yields_map Object.node (yields_collection parsed readable standing visible (by omega))

theorem parsed_leaf {token : Token} {tree : Tree .object} (sound : Sound ends)
    (shape : tree.tokens = [token]) (proper : token.Proper)
    (read : ∀ scope fuel word rest, tree.readable scope.labels = true → TokenText token word →
    Ends token word rest →
      Yields (object (fuel + 1)) (word ++ rest) scope.env
        ((expand tree scope).map fun (value,later) => (value.object codeLabel,later.env))
          (· = rest)) : Parsed ends tree := by
  intro scope fuel more text readable laid enough
  obtain ⟨fuel,rfl⟩ := Nat.exists_eq_succ_of_ne_zero (Nat.ne_of_gt (Nat.zero_lt_of_lt enough))
  rw [shape] at laid
  obtain ⟨after,reads,visible,standing⟩ := reads_gap (s := scope.env) proper laid
  obtain ⟨word,rest,rfl,text_of,ended,tail⟩ := laid_token standing visible
  have found : Yields _ _ _ _ (Placed ends more) :=
    yields_weaken (read scope fuel word rest readable text_of (sound _ _ _ text_of ended))
      fun _ same => same ▸ tail
  rw [object] at found ⊢
  exact yields_gap reads visible found

theorem parsed_anonymous : Parsed ends .anonymous := by
  intro scope fuel more text readable laid enough
  obtain ⟨fuel,rfl⟩ := Nat.exists_eq_succ_of_ne_zero (Nat.ne_of_gt (Nat.zero_lt_of_lt enough))
  have enough : 8 < fuel + 1 := enough
  obtain ⟨fuel,rfl⟩ := Nat.exists_eq_succ_of_ne_zero (show fuel ≠ 0 by omega)
  obtain ⟨rest,reads,visible,standing,_⟩ := reads_markGap (s := scope.env) laid
  obtain ⟨last,ended,read⟩ := reads_anonymous fuel scope standing visible
  rw [object]
  exact yields_reads ended (reads_bind reads (reads_bind reads_ahead (reads_bind read reads_pure)))

theorem parsed_empty : Parsed ends .empty := by
  intro scope fuel more text readable laid enough
  have enough : 8 < fuel := enough
  obtain ⟨fuel,rfl⟩ := Nat.exists_eq_add_of_le (show 3 ≤ fuel by omega)
  rw [Nat.add_comm 3 fuel]
  obtain ⟨rest,reads,visible,standing,_⟩ := reads_markGap (s := scope.env) laid
  obtain ⟨last,ended,read⟩ := reads_empty fuel scope standing visible
  rw [object]
  exact yields_reads ended (reads_bind reads (reads_bind reads_ahead (reads_bind read reads_pure)))

theorem tree_parsed (sound : Sound ends) (tree : Tree k) : Parsed ends tree := by
  induction tree with
  | iri form =>
    refine parsed_leaf sound rfl trivial fun scope fuel word rest readable text_of ended => ?_
    cases text_of with
    | iri text_of =>
      simp only [expand,Option.map_map]
      exact yields_iriObject readable text_of ended
  | label name =>
    exact parsed_leaf sound rfl trivial fun scope fuel word rest _ text_of ended =>
      yields_reads rfl (reads_labelObject text_of ended)
  | literal form =>
    refine parsed_leaf sound rfl trivial fun scope fuel word rest readable text_of ended => ?_
    cases text_of with
    | literal text_of =>
      simp only [expand,Option.map_map]
      exact yields_literalObject readable text_of ended
  | anonymous => exact parsed_anonymous
  | properties entries ih => exact parsed_properties ih
  | empty => exact parsed_empty
  | collection items ih => exact parsed_collection ih
  | one object ih => exact parsed_one ih
  | more object rest ih ih_rest => exact parsed_more ih ih_rest
  | entry verb objects closing ih => exact parsed_entry sound ih
  | entries verb objects extra rest ih ih_rest => exact parsed_entries sound ih ih_rest
  | last object ih => exact parsed_last ih
  | item object rest ih ih_rest => exact parsed_item ih ih_rest

end Trees
end ArangoDataTools.Turtle
