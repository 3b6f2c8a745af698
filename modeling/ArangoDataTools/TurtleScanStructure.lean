import ArangoDataTools.TurtleScan
import ArangoDataTools.TurtleTerms

namespace ArangoDataTools.TurtleScan
open TextScan CheckedScan Turtle

section Structure

def freshBlank : Scanner Node := do
  update fun env => { env with blankCounter := env.blankCounter + 1 }
  return .blank s!"_bnl{(← current).blankCounter}"

def verb : Scanner String := do
  skipWs
  let pos ← here
  if (← peek) = some 'a' ∧ (← tokenBoundary (pos + 1)) then do
    bump 1
    return rdfType
  else
    match ← iriOrBlank with
    | .iri iri => return iri
    | .blank _ => fail "a predicate must be an IRI, not a blank node"

def pushTriple (subject : Node) (predicate : String) (object : RdfTerm) : Scanner Unit :=
  update (·.push { subject := subject.intoResource, predicate, object, graph := none })

def chain (cell : Node) : List RdfTerm → Scanner Unit
  | [] => return ()
  | item :: rest => do
    pushTriple cell rdfFirst item
    match rest with
    | [] => pushTriple cell rdfRest (.iri rdfNil)
    | rest => do
      let next ← freshBlank
      pushTriple cell rdfRest next.intoTerm
      chain next rest

def plainObject (first : Option Char) : Scanner Object := do
  match first with
  | some '"' | some '\'' => return .literal (← stringLiteral)
  | some c =>
    if c = '+' ∨ c = '-' ∨ c = '.' ∨ isAsciiDigit c then return .literal (← numericLiteral)
    else if c = 't' ∨ c = 'f' then do
      if ← peekBoolean then return .literal (← booleanLiteral) else return .node (← iriOrBlank)
    else return .node (← iriOrBlank)
  | none => return .node (← iriOrBlank)

-- A round of the loop of a collection whose bracket is at `entry`.
def itemRound (entry : Nat) (object : Scanner Object) (items : List RdfTerm) :
    Scanner (Turn (List RdfTerm) (List RdfTerm)) := do
  skipWs
  match ← peek with
  | some ')' => do
    bump 1
    return .leave items
  | none => fail "unterminated collection"
  | some _ => do
    let item ← deeper entry object
    return .again (items ++ [item.term])

def entryEnd : Scanner (Turn Unit Unit) := do
  skipWs
  if (← peek) = some ';' then do
    bump 1
    skipWs
    match ← peek with
    | some '.' | some ']' | none => return .leave ()
    | some _ => return .again ()
  else return .leave ()

def entryRound (objectList : String → Scanner Unit) (_ : Unit) : Scanner (Turn Unit Unit) := do
  skipWs
  let predicate ← verb
  objectList predicate
  entryEnd

def objectEnd : Scanner (Turn Unit Unit) := do
  skipWs
  if (← peek) = some ',' then do
    bump 1
    return .again ()
  else return .leave ()

def objectRound (subject : Node) (predicate : String) (object : Scanner Object) (_ : Unit) :
    Scanner (Turn Unit Unit) := do
  skipWs
  let item ← object
  pushTriple subject predicate item.term
  objectEnd

-- `depth` is how many calls more the stack has room for. The calls below a bracket are to start after it.
mutual

def object : Nat → Scanner Object
  | 0 => halt .overflow
  | depth + 1 => do
    skipWs
    match ← peek with
    | some '[' => return .node (← blankNodePropertyList depth)
    | some '(' => return .node (← collection depth)
    | first => plainObject first

def blankNodePropertyList : Nat → Scanner Node
  | 0 => halt .overflow
  | depth + 1 => do
    let entry ← here
    expect '['
    let node ← freshBlank
    skipWs
    if (← peek) = some ']' then do
      bump 1
      return node
    else do
      deeper entry (predicateObjectList depth node)
      skipWs
      expect ']'
      return node

def collection : Nat → Scanner Node
  | 0 => halt .overflow
  | depth + 1 => do
    let entry ← here
    expect '('
    let items ← loop (itemRound entry (object depth)) []
    if items = [] then return .iri rdfNil
    else do
      let head ← freshBlank
      chain head items
      return head

def predicateObjectList : Nat → Node → Scanner Unit
  | 0, _ => halt .overflow
  | depth + 1, subject => loop (entryRound (objectList depth subject)) ()

def objectList : Nat → Node → String → Scanner Unit
  | 0, _, _ => halt .overflow
  | depth + 1, subject, predicate => loop (objectRound subject predicate (object depth)) ()

end

def subject (depth : Nat) : Scanner Node := do
  skipWs
  match ← peek with
  | some '[' => blankNodePropertyList depth
  | some '(' => collection depth
  | _ => iriOrBlank

def statement (depth : Nat) : Scanner Unit := do
  let node ← subject depth
  skipWs
  predicateObjectList depth node
  skipWs
  expect '.'

def directive : Scanner Unit := do
  expect '@'
  let word ← readBareWord
  if word = ['p','r','e','f','i','x'] then do
    skipWs
    let (name,iri) ← readPrefixBinding
    update (·.bind name iri)
  else if word = ['b','a','s','e'] then do
    skipWs
    let iri ← readIriRef
    update fun env => { env with base := some iri }
  else fail s!"unknown directive '@{String.ofList word}'"
  skipWs
  expect '.'

def sparqlDirective : Scanner Unit := do
  let word ← readBareWord
  skipWs
  if word.map toAsciiLowercase = ['p','r','e','f','i','x'] then do
    let (name,iri) ← readPrefixBinding
    update (·.bind name iri)
  else if word.map toAsciiLowercase = ['b','a','s','e'] then do
    let iri ← readIriRef
    update fun env => { env with base := some iri }
  else halt (.panic "guarded by matches_keyword_ci")

def sparqlKeyword : Scanner Bool := do
  if ← matchesKeywordCi ['p','r','e','f','i','x'] then return true else matchesKeywordCi ['b','a','s','e']

def documentRound (statement : Scanner Unit) (_ : Unit) : Scanner (Turn Unit (List RdfTriple)) := do
  skipWs
  match ← peek with
  | none => return .leave (← current).triples
  | some c => do
    if c = '@' then directive
    else if ← sparqlKeyword then sparqlDirective
    else statement
    return .again ()

def document (depth : Nat) : Scanner (List RdfTriple) := loop (documentRound (statement depth)) ()

-- On a stack with room for `frames` calls of the five that nest.
def parseTurtle (frames : Nat) (input : List Char) : Except (Stop Error) (List RdfTriple) :=
  (document frames ⟨input,0,{}⟩).map (·.1)

end Structure

section Structured

variable {s : Parser}

theorem safe_freshBlank (within : s.pos ≤ s.chars.length) : Safe freshBlank s fun _ t => t.pos = s.pos := by
  unfold freshBlank
  rw [safe_update,safe_current]
  exact safe_pure.mpr ⟨within,rfl⟩

theorem safe_verb (within : s.pos ≤ s.chars.length) : Safe verb s fun _ t => s.pos < t.pos := by
  unfold verb
  refine safe_bind (safe_skipWs within) fun _ t _ inside gap => ?_
  rw [safe_here,safe_peek]
  refine safe_bind (safe_tokenBoundary inside) fun ends u _ _ reads => ?_
  obtain ⟨rfl,-⟩ := reads
  split_ifs with letter
  · rw [safe_bump]
    exact safe_pure.mpr ⟨present letter.1,Nat.lt_succ_of_le gap⟩
  · refine safe_bind (safe_iriOrBlank inside) fun node v _ within_ further => ?_
    cases node with
    | iri name => exact safe_pure.mpr ⟨within_,Nat.lt_of_le_of_lt gap further⟩
    | blank label => trivial

theorem safe_pushTriple {node : Node} {predicate : String} {item : RdfTerm} (within : s.pos ≤ s.chars.length) :
    Safe (pushTriple node predicate item) s fun _ t => t.pos = s.pos := safe_updated.mpr ⟨within,rfl⟩

theorem safe_chain {cell : Node} {items : List RdfTerm} (within : s.pos ≤ s.chars.length) :
    Safe (chain cell items) s fun _ t => t.pos = s.pos := by
  induction items generalizing s cell with
  | nil => exact safe_pure.mpr ⟨within,rfl⟩
  | cons item rest ih =>
    unfold chain
    refine safe_bind (safe_pushTriple within) fun _ t _ inside first => ?_
    cases rest with
    | nil => exact safe_mono (safe_pushTriple inside) fun _ u _ _ last => last.trans first
    | cons next rest =>
      refine safe_bind (safe_freshBlank inside) fun cell u _ inside' fresh => ?_
      refine safe_bind (safe_pushTriple inside') fun _ v _ inside'' linked => ?_
      exact safe_mono (ih inside'') fun _ w _ _ cells => by omega

-- From a position where the depth allows four calls for each character left, and `spare`
-- more, a call takes characters.
def Onward (spare depth : Nat) (call : Scanner α) : Prop :=
  ∀ s : Parser, s.pos ≤ s.chars.length → 4 * (s.chars.length - s.pos) + spare ≤ depth →
    Safe call s fun _ t => s.pos < t.pos

-- The calls at a bracket start with a character present.
def Bracketed (depth : Nat) (call : Scanner Node) : Prop :=
  ∀ s : Parser, s.pos < s.chars.length → 4 * (s.chars.length - s.pos) ≤ depth →
    Safe call s fun _ t => s.pos < t.pos

theorem safe_plainObject {first : Option Char} (within : s.pos ≤ s.chars.length)
    (found : s.chars[s.pos]? = first) :
    Safe (plainObject first) s fun _ t => s.pos < t.pos := by
  have node : Safe (do return Object.node (← iriOrBlank) : Scanner Object) s fun _ u => s.pos < u.pos :=
    safe_bind (safe_iriOrBlank within) fun _ u _ within_ further => safe_pure.mpr ⟨within_,further⟩
  unfold plainObject
  split
  · exact safe_bind (safe_stringLiteral ⟨_,found⟩) fun _ u _ within_ further => safe_pure.mpr ⟨within_,further⟩
  · exact safe_bind (safe_stringLiteral ⟨_,found⟩) fun _ u _ within_ further => safe_pure.mpr ⟨within_,further⟩
  · split_ifs
    · exact safe_bind (safe_numericLiteral within) fun _ u _ within_ further => safe_pure.mpr ⟨within_,further⟩
    · refine safe_bind (safe_peekBoolean within) fun found u _ _ same => ?_
      cases same
      split_ifs
      · exact safe_bind (safe_booleanLiteral within) fun _ u _ within_ further =>
          safe_pure.mpr ⟨within_,further⟩
      · exact node
    · exact node
  · exact node

theorem safe_object {depth : Nat} (lists : Bracketed depth (blankNodePropertyList depth))
    (collections : Bracketed depth (collection depth)) : Onward 1 (depth + 1) (object (depth + 1)) := by
  intro s within enough
  unfold object
  refine safe_bind (safe_skipWs within) fun _ t chars inside gap => ?_
  have shorter : 4 * (t.chars.length - t.pos) ≤ depth := by rw [chars]; omega
  rw [safe_peek]
  split
  · rename_i found
    exact safe_bind (lists t (present found) shorter) fun _ u _ within_ further =>
      safe_pure.mpr ⟨within_,Nat.lt_of_le_of_lt gap further⟩
  · rename_i found
    exact safe_bind (collections t (present found) shorter) fun _ u _ within_ further =>
      safe_pure.mpr ⟨within_,Nat.lt_of_le_of_lt gap further⟩
  · exact safe_mono (safe_plainObject inside rfl) fun _ u _ _ further => Nat.lt_of_le_of_lt gap further

theorem safe_blankNodePropertyList {depth : Nat}
    (lists : ∀ node, Onward 3 depth (predicateObjectList depth node)) :
    Bracketed (depth + 1) (blankNodePropertyList (depth + 1)) := by
  intro s begun enough
  unfold blankNodePropertyList
  rw [safe_here]
  refine safe_bind safe_expect fun _ t chars inside opened => ?_
  refine safe_bind (safe_freshBlank inside) fun node u chars' inside' fresh => ?_
  refine safe_bind (safe_skipWs inside') fun _ v chars'' inside'' gap => ?_
  rw [safe_peek]
  split_ifs with closed
  · rw [safe_bump]
    exact safe_pure.mpr ⟨present closed,by show s.pos < v.pos + 1; omega⟩
  · have same := congrArg List.length (chars''.trans (chars'.trans chars))
    have moved : s.pos < v.pos := by omega
    refine safe_bind (safe_deeper moved (lists node v inside'' (by omega))) fun _ w _ within listed => ?_
    refine safe_bind (safe_skipWs within) fun _ x _ _ after => ?_
    exact safe_bind safe_expect fun _ y _ within' last => safe_pure.mpr ⟨within',by omega⟩

theorem safe_itemRound {depth entry : Nat} (objects : Onward 1 depth (object depth))
    (within : s.pos ≤ s.chars.length) (moved : entry < s.pos)
    (enough : 4 * (s.chars.length - s.pos) + 1 ≤ depth) {items : List RdfTerm} :
    Safe (itemRound entry (object depth) items) s fun turn t =>
      match turn with
      | .again _ => s.pos < t.pos
      | .leave _ => s.pos ≤ t.pos := by
  unfold itemRound
  refine safe_bind (safe_skipWs within) fun _ u chars inside gap => ?_
  rw [safe_peek]
  split
  · rename_i found
    rw [safe_bump]
    exact safe_pure.mpr ⟨present found,by show s.pos ≤ u.pos + 1; omega⟩
  · trivial
  · have same := congrArg List.length chars
    refine safe_bind (safe_deeper (by omega) (objects u inside (by omega))) fun item v _ within' further => ?_
    exact safe_pure.mpr ⟨within',by show s.pos < v.pos; omega⟩

theorem safe_items {depth entry : Nat} (objects : Onward 1 depth (object depth))
    (within : s.pos ≤ s.chars.length) (moved : entry < s.pos)
    (enough : 4 * (s.chars.length - s.pos) + 1 ≤ depth) {items : List RdfTerm} :
    Safe (loop (itemRound entry (object depth)) items) s fun _ t => s.pos ≤ t.pos := by
  refine safe_loop (fun _ _ => True) within trivial fun items t chars from_ inside _ => ?_
  have same := congrArg List.length chars
  refine safe_mono (safe_itemRound objects inside (by omega) (by omega)) fun turn u _ _ moved => ?_
  cases turn with
  | again => exact ⟨moved,trivial⟩
  | leave => exact from_.trans moved

theorem safe_collection {depth : Nat} (objects : Onward 1 depth (object depth)) :
    Bracketed (depth + 1) (collection (depth + 1)) := by
  intro s begun enough
  unfold collection
  rw [safe_here]
  refine safe_bind safe_expect fun _ t chars inside opened => ?_
  have same := congrArg List.length chars
  refine safe_bind (safe_items objects inside opened (by omega)) fun items u _ inside' read => ?_
  split_ifs
  · exact safe_pure.mpr ⟨inside',by omega⟩
  · refine safe_bind (safe_freshBlank inside') fun head v _ inside'' fresh => ?_
    exact safe_bind (safe_chain inside'') fun _ w _ within cells => safe_pure.mpr ⟨within,by omega⟩

theorem safe_entryEnd (within : s.pos ≤ s.chars.length) : Safe entryEnd s fun _ t => s.pos ≤ t.pos := by
  unfold entryEnd
  refine safe_bind (safe_skipWs within) fun _ x _ inside gap => ?_
  rw [safe_peek]
  split_ifs with more
  · rw [safe_bump]
    have taken : x.pos + 1 ≤ x.chars.length := present more
    refine safe_bind (safe_skipWs taken) fun _ y _ ended left => ?_
    have onward : x.pos + 1 ≤ y.pos := left
    rw [safe_peek]
    split
    · exact safe_pure.mpr ⟨ended,by omega⟩
    · exact safe_pure.mpr ⟨ended,by omega⟩
    · exact safe_pure.mpr ⟨ended,by omega⟩
    · exact safe_pure.mpr ⟨ended,by omega⟩
  · exact safe_pure.mpr ⟨inside,gap⟩

theorem safe_entryRound {depth : Nat} {node : Node}
    (lists : ∀ predicate, Onward 2 depth (objectList depth node predicate))
    (within : s.pos ≤ s.chars.length) (enough : 4 * (s.chars.length - s.pos) + 2 ≤ depth) :
    Safe (entryRound (objectList depth node) ()) s fun _ t => s.pos < t.pos := by
  unfold entryRound
  refine safe_bind (safe_skipWs within) fun _ u chars' inside' gap => ?_
  refine safe_bind (safe_verb inside') fun predicate v chars'' inside'' named => ?_
  have same := congrArg List.length (chars''.trans chars')
  refine safe_bind (lists predicate v inside'' (by omega)) fun _ w _ within' listed => ?_
  exact safe_mono (safe_entryEnd within') fun _ x _ _ after => by omega

theorem safe_predicateObjectList {depth : Nat}
    (lists : ∀ node predicate, Onward 2 depth (objectList depth node predicate)) (node : Node) :
    Onward 3 (depth + 1) (predicateObjectList (depth + 1) node) := by
  intro s within enough
  unfold predicateObjectList
  refine safe_loop (fun _ _ => True) within trivial fun _ t chars from_ inside _ => ?_
  have same := congrArg List.length chars
  refine safe_mono (safe_entryRound (lists node) inside (by omega)) fun turn u _ _ moved => ?_
  cases turn with
  | again => exact ⟨moved,trivial⟩
  | leave => exact Nat.lt_of_le_of_lt from_ moved

theorem safe_objectEnd (within : s.pos ≤ s.chars.length) : Safe objectEnd s fun _ t => s.pos ≤ t.pos := by
  unfold objectEnd
  refine safe_bind (safe_skipWs within) fun _ x _ inside gap => ?_
  rw [safe_peek]
  split_ifs with more
  · rw [safe_bump]
    exact safe_pure.mpr ⟨present more,Nat.le_succ_of_le gap⟩
  · exact safe_pure.mpr ⟨inside,gap⟩

theorem safe_objectRound {depth : Nat} {node : Node} {predicate : String}
    (objects : Onward 1 depth (object depth))
    (within : s.pos ≤ s.chars.length) (enough : 4 * (s.chars.length - s.pos) + 1 ≤ depth) :
    Safe (objectRound node predicate (object depth) ()) s fun _ t => s.pos < t.pos := by
  unfold objectRound
  refine safe_bind (safe_skipWs within) fun _ u chars inside gap => ?_
  have same := congrArg List.length chars
  refine safe_bind (objects u inside (by omega)) fun item v _ inside' read => ?_
  refine safe_bind (safe_pushTriple inside') fun _ w _ within' pushed => ?_
  exact safe_mono (safe_objectEnd within') fun _ x _ _ after => by omega

theorem safe_objectList {depth : Nat} (objects : Onward 1 depth (object depth)) (node : Node)
    (predicate : String) :
    Onward 2 (depth + 1) (objectList (depth + 1) node predicate) := by
  intro s within enough
  unfold objectList
  refine safe_loop (fun _ _ => True) within trivial fun _ t chars from_ inside _ => ?_
  have same := congrArg List.length chars
  refine safe_mono (safe_objectRound objects inside (by omega)) fun turn u _ _ moved => ?_
  cases turn with
  | again => exact ⟨moved,trivial⟩
  | leave => exact Nat.lt_of_le_of_lt from_ moved

theorem nested_safe (depth : Nat) : Onward 1 depth (object depth) ∧
    Bracketed depth (blankNodePropertyList depth) ∧
    Bracketed depth (collection depth) ∧ (∀ node, Onward 3 depth (predicateObjectList depth node)) ∧
    ∀ node predicate, Onward 2 depth (objectList depth node predicate) := by
  induction depth with
  | zero =>
    refine ⟨?_,?_,?_,fun _ => ?_,fun _ _ => ?_⟩ <;> intro s within enough <;> omega
  | succ depth ih =>
    obtain ⟨objects,lists,collections,predicates,many⟩ := ih
    exact ⟨safe_object lists collections,safe_blankNodePropertyList predicates,safe_collection objects,
      safe_predicateObjectList many,safe_objectList objects⟩

theorem safe_subject {depth : Nat} (within : s.pos ≤ s.chars.length)
    (enough : 4 * (s.chars.length - s.pos) + 3 ≤ depth) :
    Safe (subject depth) s fun _ t => s.pos < t.pos := by
  obtain ⟨-,lists,collections,-⟩ := nested_safe depth
  unfold subject
  refine safe_bind (safe_skipWs within) fun _ t chars inside gap => ?_
  have same := congrArg List.length chars
  rw [safe_peek]
  split
  · rename_i found
    exact safe_mono (lists t (present found) (by omega)) fun _ u _ _ further => Nat.lt_of_le_of_lt gap further
  · rename_i found
    exact safe_mono (collections t (present found) (by omega)) fun _ u _ _ further =>
      Nat.lt_of_le_of_lt gap further
  · exact safe_mono (safe_iriOrBlank inside) fun _ u _ _ further => Nat.lt_of_le_of_lt gap further

theorem safe_statement {depth : Nat} : Onward 3 depth (statement depth) := by
  intro s within enough
  obtain ⟨-,-,-,predicates,-⟩ := nested_safe depth
  unfold statement
  refine safe_bind (safe_subject within enough) fun node t chars inside named => ?_
  refine safe_bind (safe_skipWs inside) fun _ u chars' inside' gap => ?_
  have same := congrArg List.length (chars'.trans chars)
  refine safe_bind (predicates node u inside' (by omega)) fun _ v _ inside'' listed => ?_
  refine safe_bind (safe_skipWs inside'') fun _ w _ _ after => ?_
  exact safe_mono safe_expect fun _ x _ _ last => by omega

theorem safe_directive : Safe directive s fun _ t => s.pos < t.pos := by
  unfold directive
  refine safe_bind safe_expect fun _ t _ inside begun => ?_
  refine safe_bind (safe_readBareWord inside) fun word u _ inside' read => ?_
  have named : s.pos < u.pos := by omega
  have ended : ∀ v : Parser, s.pos < v.pos → v.pos ≤ v.chars.length →
      Safe (do skipWs; expect '.' : Scanner Unit) v fun _ w => s.pos < w.pos := fun v further within =>
    safe_bind (safe_skipWs within) fun _ w _ _ gap => safe_mono safe_expect fun _ x _ _ last => by omega
  by_cases binding : word = ['p','r','e','f','i','x']
  · simp only [if_pos binding]
    refine safe_bind (safe_skipWs inside') fun _ v _ within gap => ?_
    refine safe_bind (safe_readPrefixBinding within) fun bound w _ within' further => ?_
    rw [safe_update]
    exact ended _ (by show s.pos < w.pos; omega) within'
  · by_cases rebase : word = ['b','a','s','e']
    · simp only [if_neg binding,if_pos rebase]
      refine safe_bind (safe_skipWs inside') fun _ v _ _ gap => ?_
      refine safe_bind safe_readIriRef fun iri w _ within further => ?_
      rw [safe_update]
      exact ended _ (by show s.pos < w.pos; omega) within
    · simp only [if_neg binding,if_neg rebase]
      trivial

theorem keyword_word {keyword : List Char} (letters : ∀ c ∈ keyword, isAsciiAlphabetic c = true)
    (same : ((s.chars.drop s.pos).take keyword.length).map toAsciiLowercase = keyword)
    (boundary : isTokenBoundary s.chars[s.pos + keyword.length]? = true) :
    (ahead isAsciiAlphabetic s.chars s.pos).map toAsciiLowercase = keyword := by
  have rest : isTokenBoundary ((s.chars.drop s.pos).drop keyword.length).head? = true := by
    rwa [List.drop_drop,List.head?_drop]
  have word := takeWhile_word (keyword_letters same letters) (boundary_stops rest)
  rw [List.take_append_drop] at word
  rw [ahead,word,same]

-- What `sparqlDirective` is guarded by.
def AtKeyword (s : Parser) : Prop :=
  (ahead isAsciiAlphabetic s.chars s.pos).map toAsciiLowercase = prefixWord ∨
  (ahead isAsciiAlphabetic s.chars s.pos).map toAsciiLowercase = baseWord

theorem safe_sparqlKeyword (within : s.pos ≤ s.chars.length) :
    Safe sparqlKeyword s fun found t => t = s ∧ (found = true → AtKeyword s) := by
  unfold sparqlKeyword
  refine safe_bind (safe_matchesKeywordCi within) fun found t _ _ reads => ?_
  obtain ⟨rfl,named⟩ := reads
  split_ifs with first
  · obtain ⟨same,boundary⟩ := named first
    exact safe_pure.mpr ⟨within,rfl,fun _ => .inl (keyword_word prefixWord_letters same boundary)⟩
  · refine safe_mono (safe_matchesKeywordCi within) fun second u _ _ reads => ⟨reads.1,fun yes => ?_⟩
    obtain ⟨same,boundary⟩ := reads.2 yes
    exact .inr (keyword_word baseWord_letters same boundary)

theorem safe_sparqlDirective (within : s.pos ≤ s.chars.length) (guarded : AtKeyword s) :
    Safe sparqlDirective s fun _ t => s.pos < t.pos := by
  unfold sparqlDirective
  refine safe_bind (safe_readBareWord within) fun word t _ inside read => ?_
  obtain ⟨rfl,pos⟩ := read
  refine safe_bind (safe_skipWs inside) fun _ u _ inside' gap => ?_
  by_cases binding : (ahead isAsciiAlphabetic s.chars s.pos).map toAsciiLowercase = ['p','r','e','f','i','x']
  · simp only [if_pos binding]
    refine safe_bind (safe_readPrefixBinding inside') fun bound v _ within' further => ?_
    exact safe_updated.mpr ⟨within',by show s.pos < v.pos; omega⟩
  · have rebase : (ahead isAsciiAlphabetic s.chars s.pos).map toAsciiLowercase =
        ['b','a','s','e'] := guarded.resolve_left binding
    simp only [if_neg binding,if_pos rebase]
    refine safe_bind safe_readIriRef fun iri v _ within' further => ?_
    exact safe_updated.mpr ⟨within',by show s.pos < v.pos; omega⟩

theorem safe_documentRound {depth : Nat} (within : s.pos ≤ s.chars.length)
    (enough : 4 * (s.chars.length - s.pos) + 3 ≤ depth) :
    Safe (documentRound (statement depth) ()) s fun turn t =>
      match turn with
      | .again _ => s.pos < t.pos
      | .leave _ => True := by
  unfold documentRound
  refine safe_bind (safe_skipWs within) fun _ u chars inside gap => ?_
  have same := congrArg List.length chars
  rw [safe_peek]
  cases found : u.chars[u.pos]? with
  | none =>
    simp only [safe_current]
    exact safe_pure.mpr ⟨inside,trivial⟩
  | some c =>
    by_cases declared : c = '@'
    · simp only [if_pos declared]
      exact safe_bind safe_directive fun _ w _ within' further =>
        safe_pure.mpr ⟨within',Nat.lt_of_le_of_lt gap further⟩
    · simp only [if_neg declared]
      refine safe_bind (safe_sparqlKeyword inside) fun keyword v _ _ reads => ?_
      obtain ⟨rfl,guarded⟩ := reads
      split_ifs with named
      · refine safe_bind (safe_sparqlDirective inside (guarded named)) fun _ w _ within' further => ?_
        exact safe_pure.mpr ⟨within',Nat.lt_of_le_of_lt gap further⟩
      · refine safe_bind (safe_statement _ inside (by omega)) fun _ w _ within' further => ?_
        exact safe_pure.mpr ⟨within',Nat.lt_of_le_of_lt gap further⟩

theorem safe_document {depth : Nat} (within : s.pos ≤ s.chars.length)
    (enough : 4 * (s.chars.length - s.pos) + 3 ≤ depth) :
    Safe (document depth) s fun _ _ => True := by
  refine safe_loop (fun _ _ => True) within trivial fun _ t chars from_ inside _ => ?_
  have same := congrArg List.length chars
  refine safe_mono (safe_documentRound inside (by omega)) fun turn u _ _ moved => ?_
  cases turn with
  | again => exact ⟨moved,trivial⟩
  | leave => trivial

end Structured
end ArangoDataTools.TurtleScan
