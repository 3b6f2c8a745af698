import ArangoDataTools.RdfModel
import ArangoDataTools.RdfReading

namespace ArangoDataTools.Rdf

variable {digest : Bytes → Vector UInt8 32} {options options' : RdfOptions}

-- The tuple an edge's key is made of.
structure Statement where
  fromId : String
  predicate : String
  toId : String
  graph : Option String
  deriving DecidableEq, Repr

def Statement.input (s : Statement) : Bytes := edgeInput s.fromId s.predicate s.toId s.graph

def statementOf (digest : Bytes → Vector UInt8 32) (options : RdfOptions) (triple : RdfTriple) : Statement :=
  {fromId := (options.resourcePlacement digest triple.subject).id,predicate := triple.predicate
   toId := (termPlacement digest options triple.object).id,graph := options.edgeGraph triple.graph}

section Separators

variable {α : Type} {mark : α} {one two rest rest' : List α}

theorem split_mark (same : one ++ mark :: rest = two ++ mark :: rest') :
    (one = two ∧ rest = rest') ∨ (∃ middle, two = one ++ mark :: middle ∧ rest = middle ++ mark :: rest') ∨
      ∃ middle, one = two ++ mark :: middle ∧ rest' = middle ++ mark :: rest := by
  rcases List.append_eq_append_iff.mp same with ⟨gap,longer,left⟩ | ⟨gap,longer,left⟩
  · cases gap with
    | nil =>
      simp only [List.nil_append,List.cons.injEq,true_and] at left
      exact .inl ⟨by simpa using longer.symm,left⟩
    | cons c middle =>
      simp only [List.cons_append,List.cons.injEq] at left
      obtain ⟨rfl,left⟩ := left
      exact .inr (.inl ⟨middle,longer,left⟩)
  · cases gap with
    | nil =>
      simp only [List.nil_append,List.cons.injEq,true_and] at left
      exact .inl ⟨by simpa using longer,left.symm⟩
    | cons c middle =>
      simp only [List.cons_append,List.cons.injEq] at left
      obtain ⟨rfl,left⟩ := left
      exact .inr (.inr ⟨middle,longer,left⟩)

theorem split_first (clear : mark ∉ one) (clear' : mark ∉ two)
    (same : one ++ mark :: rest = two ++ mark :: rest') :
    one = two ∧ rest = rest' := by
  rcases split_mark same with equal | ⟨middle,rfl,-⟩ | ⟨middle,rfl,-⟩
  · exact equal
  · simp at clear'
  · simp at clear

theorem domain_apart {domain domain' first first' : String} {parts parts' : List String}
    (plain : '\x00' ∉ domain.toList)
    (plain' : '\x00' ∉ domain'.toList)
      (same : hashInput domain (first :: parts) = hashInput domain' (first' :: parts')) :
    domain = domain' := by
  have texts := hashInput_inj.mp same
  simp only [joined,List.flatMap_cons,List.cons_append] at texts
  exact String.toList_inj.mp (split_first plain plain' texts).1

end Separators

section Terms

def suffixText (datatype language : Option String) : List Char :=
  (datatype.getD "").toList ++ '\x00' :: (language.getD "").toList

-- The second literal reads like the first one: a missing datatype or language is
-- an empty one, or a zero character of one part stands where the next part begins.
inductive Blurs : RdfTerm → RdfTerm → Prop where
  | absent : datatype.getD "" = datatype'.getD "" → language.getD "" = language'.getD "" →
      Blurs (.literal value datatype language) (.literal value datatype' language')
  | value : value'.toList = value.toList ++ '\x00' :: middle →
      suffixText datatype language = middle ++ '\x00' :: suffixText datatype' language' →
      Blurs (.literal value datatype language) (.literal value' datatype' language')
  | datatype : (datatype'.getD "").toList = (datatype.getD "").toList ++ '\x00' :: middle →
      (language.getD "").toList = middle ++ '\x00' :: (language'.getD "").toList →
      Blurs (.literal value datatype language) (.literal value datatype' language')

def Merged (x y : RdfTerm) : Prop := Blurs x y ∨ Blurs y x

theorem literalInput_iff {value value' : String} {datatype datatype' language language' : Option String} :
    literalInput value datatype language = literalInput value' datatype' language' ↔
      value.toList ++ '\x00' :: suffixText datatype language = value'.toList ++
        '\x00' :: suffixText datatype' language' := by
  rw [literalInput,literalInput,hashInput_same]
  simp [joined,suffixText]

theorem blurs_input {x y : RdfTerm} (blurs : Blurs x y) : termInput options x = termInput options y := by
  cases blurs with
  | absent sameDatatype sameLanguage =>
      exact literalInput_iff.mpr (by rw [suffixText,suffixText,sameDatatype,sameLanguage])
  | value longer left => exact literalInput_iff.mpr (by rw [longer,left,List.append_assoc,List.cons_append])
  | datatype longer left =>
    refine literalInput_iff.mpr ?_
    rw [suffixText,suffixText,longer,left,List.append_assoc,List.cons_append]

theorem literals_merged {value value' : String} {datatype datatype' language language' : Option String}
    (same : literalInput value datatype language = literalInput value' datatype' language') :
    Merged (.literal value datatype language) (.literal value' datatype' language') := by
  rcases split_mark (literalInput_iff.mp same) with ⟨values,rest⟩ | ⟨middle,longer,left⟩ | ⟨middle,longer,left⟩
  · obtain rfl := String.toList_inj.mp values
    rcases split_mark rest with ⟨datatypes,languages⟩ | ⟨middle,longer,left⟩ | ⟨middle,longer,left⟩
    · exact .inl (.absent (String.toList_inj.mp datatypes) (String.toList_inj.mp languages))
    · exact .inl (.datatype longer left)
    · exact .inr (.datatype longer left)
  · exact .inl (.value longer left)
  · exact .inr (.value longer left)

theorem resourceInput_inj {scope : Option String} {one two : RdfResource}
    (same : resourceInput scope one = resourceInput scope two) : one = two := by
  cases one with
  | iri iri => cases two with
    | iri other =>
      have texts := hashInput_same.mp same
      simp only [joined,List.flatMap_cons,List.flatMap_nil,List.append_nil,List.cons.injEq,true_and] at texts
      rw [String.toList_inj.mp texts]
    | blankNode label => cases scope <;> exact absurd (domain_apart (by decide) (by decide) same) (by decide)
  | blankNode label => cases two with
    | iri iri => cases scope <;> exact absurd (domain_apart (by decide) (by decide) same) (by decide)
    | blankNode other =>
      have labels : label.toList = other.toList := by
        cases scope with
        | none =>
          have texts := hashInput_same.mp same
          simpa [joined] using texts
        | some scope =>
          have texts := hashInput_same.mp same
          simpa [joined] using texts
      rw [String.toList_inj.mp labels]

theorem literal_resource {scope : Option String} {value : String}
    {datatype language : Option String} {resource : RdfResource} :
    literalInput value datatype language ≠ resourceInput scope resource := by
  intro same
  cases resource with
  | iri iri => exact absurd (domain_apart (by decide) (by decide) same) (by decide)
  | blankNode label => cases scope <;> exact absurd (domain_apart (by decide) (by decide) same) (by decide)

theorem termInput_resource (resource : RdfResource) :
    termInput options (resourceTerm resource) = resourceInput options.blankNodeScope resource := by
  cases resource <;> rfl

theorem term_kinds (x : RdfTerm) : (∃ resource, x = resourceTerm resource) ∨
    ∃ value datatype language, x = .literal value datatype language := by
  cases x with
  | iri iri => exact .inl ⟨.iri iri,rfl⟩
  | blankNode label => exact .inl ⟨.blankNode label,rfl⟩
  | literal value datatype language => exact .inr ⟨value,datatype,language,rfl⟩

theorem termInput_iff {x y : RdfTerm} (apart : x ≠ y) : termInput options x = termInput options y ↔
    Merged x y := by
  refine ⟨fun same => ?_,fun merged => merged.elim blurs_input fun blurs => (blurs_input blurs).symm⟩
  rcases term_kinds x with ⟨one,rfl⟩ | ⟨value,datatype,language,rfl⟩
  · rcases term_kinds y with ⟨two,rfl⟩ | ⟨value,datatype,language,rfl⟩
    · rw [termInput_resource,termInput_resource] at same
      exact absurd (congrArg resourceTerm (resourceInput_inj same)) apart
    · rw [termInput_resource] at same
      exact absurd same.symm literal_resource
  · rcases term_kinds y with ⟨two,rfl⟩ | ⟨value',datatype',language',rfl⟩
    · rw [termInput_resource] at same
      exact absurd same literal_resource
    · exact literals_merged same

end Terms

section Statements

def kindSuffix : GraphModel → RdfTerm → String
  | .pgt,_ => ""
  | .rpt,.iri _ => "_URIRef"
  | .rpt,.blankNode _ => "_BNode"
  | .rpt,.literal _ _ _ => "_Literal"

theorem kindSuffix_slash (model : GraphModel) (term : RdfTerm) : '/' ∉ (kindSuffix model term).toList := by
  cases model <;> cases term <;> simp [kindSuffix]

theorem placement_collection (term : RdfTerm) :
    (termPlacement digest options term).collection = options.vertexCollection ++
      kindSuffix options.graphModel term := by
  cases model : options.graphModel <;> cases term <;>
    simp [termPlacement,RdfOptions.resourcePlacement,RdfOptions.literalPlacement,kindSuffix,model]

theorem placement_key (term : RdfTerm) : (termPlacement digest options term).key =
    hashKey digest (termInput options term) := by
  cases term <;> rfl

theorem placement_id (term : RdfTerm) : (termPlacement digest options term).id.toList =
    options.vertexCollection.toList ++
    ((kindSuffix options.graphModel term).toList ++
      '/' :: (hashKey digest (termInput options term)).toList) := by
  simp [Placement.id,placement_collection,placement_key]

structure SameBase (options options' : RdfOptions) : Prop where
  collection : options.vertexCollection = options'.vertexCollection
  model : options.graphModel = options'.graphModel

theorem sameBase_refl (options : RdfOptions) : SameBase options options := ⟨rfl,rfl⟩

theorem id_split (base : SameBase options options') {x y : RdfTerm} {more more' : List Char}
    (same : (termPlacement digest options x).id.toList ++ more =
    (termPlacement digest options' y).id.toList ++ more') :
    ((termPlacement digest options x).id = (termPlacement digest options' y).id ∧
      (termPlacement digest options x).key = (termPlacement digest options' y).key) ∧ more = more' := by
  simp only [placement_id,base.collection,base.model,List.append_assoc,List.append_right_inj,
    List.cons_append] at same
  obtain ⟨kinds,keys⟩ := split_first (kindSuffix_slash _ _) (kindSuffix_slash _ _) same
  obtain ⟨keys,rest⟩ := List.append_inj keys (by rw [hashKey_length,hashKey_length])
  refine ⟨⟨String.toList_inj.mp ?_,?_⟩,rest⟩
  · rw [placement_id,placement_id,base.collection,base.model,kinds,keys]
  · rw [placement_key,placement_key,String.toList_inj.mp keys]

def graphText : Option String → List Char
  | some graph => '\x00' :: graph.toList
  | none => []

theorem graphText_inj {one two : Option String} (same : graphText one = graphText two) : one = two := by
  cases one <;> cases two <;> simp_all [graphText,String.toList_inj]

-- The predicate of the second statement contains a zero character, and what follows
-- it reads like the object and the graph of the first one.
def Overruns (a b : Statement) : Prop :=
  a.fromId = b.fromId ∧ ∃ middle, b.predicate.toList = a.predicate.toList ++ '\x00' :: middle ∧
    a.toId.toList ++ graphText a.graph = middle ++ '\x00' :: (b.toId.toList ++ graphText b.graph)

def Blended (a b : Statement) : Prop := Overruns a b ∨ Overruns b a

theorem statementInput_iff (a b : Statement) : a.input = b.input ↔
    a.fromId.toList ++ '\x00' :: (a.predicate.toList ++ '\x00' :: (a.toId.toList ++ graphText a.graph)) =
      b.fromId.toList ++ '\x00' :: (b.predicate.toList ++ '\x00' :: (b.toId.toList ++ graphText b.graph)) := by
  have texts : ∀ s : Statement, s.input = ("rdf:edge".toList ++ '\x00' ::
      (s.fromId.toList ++ '\x00' ::
        (s.predicate.toList ++ '\x00' :: (s.toId.toList ++ graphText s.graph)))).flatMap
        String.utf8EncodeChar := by
    intro s
    cases graph : s.graph <;> simp [Statement.input,edgeInput,graph,hashInput_joined,joined,graphText]
  rw [texts,texts]
  constructor
  · intro same
    have equal := encode_inj same
    rw [List.append_right_inj] at equal
    simpa using equal
  · intro same
    rw [same]

theorem statement_from (options : RdfOptions) (triple : RdfTriple) :
    (statementOf digest options triple).fromId =
    (termPlacement digest options (resourceTerm triple.subject)).id := by
  unfold statementOf
  cases triple.subject <;> rfl

theorem statement_iff (base : SameBase options options') {a b : RdfTriple}
    (apart : statementOf digest options a ≠ statementOf digest options' b) :
    (statementOf digest options a).input = (statementOf digest options' b).input ↔
      Blended (statementOf digest options a) (statementOf digest options' b) := by
  have overruns : ∀ {a b : Statement}, Overruns a b → a.input = b.input := by
    rintro a b ⟨sources,middle,longer,left⟩
    rw [statementInput_iff,sources,longer,left]
    simp
  refine ⟨fun same => ?_,fun blended => blended.elim overruns fun blurs => (overruns blurs).symm⟩
  have texts := (statementInput_iff _ _).mp same
  have sources : (statementOf digest options a).fromId = (statementOf digest options' b).fromId := by
    rw [statement_from,statement_from] at texts
    rw [statement_from,statement_from]
    exact (id_split base texts).1.1
  rw [sources,List.append_right_inj,List.cons.injEq] at texts
  rcases split_mark texts.2 with ⟨predicates,rest⟩ | ⟨middle,longer,left⟩ | ⟨middle,longer,left⟩
  · refine absurd ?_ apart
    obtain ⟨⟨targets,-⟩,graphs⟩ := id_split base rest
    have graphs := graphText_inj graphs
    have predicates := String.toList_inj.mp predicates
    unfold statementOf
    rw [Statement.mk.injEq]
    exact ⟨sources,predicates,targets,graphs⟩
  · exact .inl ⟨sources,middle,longer,left⟩
  · exact .inr ⟨sources.symm,middle,longer,left⟩

end Statements

def CollisionFree (digest : Bytes → Vector UInt8 32) (one two : Bytes) : Prop :=
  digest one = digest two → one = two

theorem hashKey_iff {one two : Bytes} (free : CollisionFree digest one two) : hashKey digest one =
    hashKey digest two ↔ one = two :=
  ⟨fun same => free (hashKey_digest same),fun same => congrArg _ same⟩

-- Distinct terms and distinct statements are hashed from different bytes, but for
-- literals that blur and predicates with a zero character that overrun.
theorem keys_identify_unless_merged (digest : Bytes → Vector UInt8 32) (options : RdfOptions) :
    (∀ x y : RdfTerm, x ≠ y → (termInput options x ≠ termInput options y ↔ ¬ Merged x y) ∧
      (CollisionFree digest (termInput options x) (termInput options y) →
        ((termPlacement digest options x).key ≠ (termPlacement digest options y).key ↔ ¬ Merged x y))) ∧
    ∀ a b : RdfTriple, statementOf digest options a ≠ statementOf digest options b →
      ((statementOf digest options a).input ≠ (statementOf digest options b).input ↔
        ¬ Blended (statementOf digest options a) (statementOf digest options b)) ∧
      (CollisionFree digest (statementOf digest options a).input (statementOf digest options b).input →
        (hashKey digest (statementOf digest options a).input ≠ hashKey digest
          (statementOf digest options b).input ↔
          ¬ Blended (statementOf digest options a) (statementOf digest options b))) := by
  refine ⟨fun x y apart => ⟨(termInput_iff apart).not,fun free => ?_⟩,fun a b apart =>
    ⟨(statement_iff (sameBase_refl options) apart).not,fun free => ?_⟩⟩
  · rw [placement_key,placement_key,Ne,hashKey_iff free]
    exact (termInput_iff apart).not
  · rw [Ne,hashKey_iff free]
    exact (statement_iff (sameBase_refl options) apart).not

def plainOptions : RdfOptions := {vertexCollection := "nodes",edgeCollection := "links"}

theorem distinct_iris_apart : termInput plainOptions (.iri "a") ≠ termInput plainOptions (.iri "b") := by
  have apart := ((keys_identify_unless_merged (fun _ => Vector.replicate 32 0) plainOptions).1
      (.iri "a") (.iri "b") (by decide)).1
  exact apart.mpr fun merged => by rcases merged with blurs | blurs <;> cases blurs

-- `<s> <p> "a" .`, and the same with an empty datatype.
def plainLine : List Char := ['<','s','>',' ','<','p','>',' ','"','a','"',' ','.']
def typedLine : List Char := ['<','s','>',' ','<','p','>',' ','"','a','"','^','^','<','>',' ','.']

theorem empty_datatype_shares_key : ∃ first second : RdfTriple,
    RdfReading.readRdfTriples (plainLine ++ '\n' :: typedLine) .nTriples = ([first,second],none) ∧
    first.object ≠ second.object ∧
      ∀ options, termInput options first.object = termInput options second.object :=
  ⟨⟨.iri "s","p",.literal "a" none none,none⟩,⟨.iri "s","p",.literal "a" (some "") none,none⟩,
    rfl,by decide,fun _ => rfl⟩

end ArangoDataTools.Rdf
