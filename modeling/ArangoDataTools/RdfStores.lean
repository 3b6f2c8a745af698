import ArangoDataTools.RdfFold

namespace ArangoDataTools.Rdf

variable {digest : Bytes → Vector UInt8 32} {options : RdfOptions} {triples more : List RdfTriple}
  {triple : RdfTriple}

def terms (triples : List RdfTriple) : List RdfTerm := triples.flatMap fun triple =>
    [resourceTerm triple.subject,triple.object]

def statementKey (digest : Bytes → Vector UInt8 32) (options : RdfOptions) (triple : RdfTriple) : String :=
  hashKey digest (statementOf digest options triple).input

-- Distinct terms and distinct statements of the list have distinct keys.
structure KeysApart (digest : Bytes → Vector UInt8 32) (options : RdfOptions)
    (triples : List RdfTriple) : Prop where
  terms : ∀ x ∈ terms triples, ∀ y ∈ terms triples, (termPlacement digest options x).key =
    (termPlacement digest options y).key → x = y
  statements : ∀ a ∈ triples, ∀ b ∈ triples, statementKey digest options a = statementKey digest options b →
    statementOf digest options a = statementOf digest options b

section Sets

theorem subject_mem (inside : triple ∈ triples) : resourceTerm triple.subject ∈ terms triples :=
  List.mem_flatMap.mpr ⟨triple,inside,by simp⟩

theorem object_mem (inside : triple ∈ triples) : triple.object ∈ terms triples :=
  List.mem_flatMap.mpr ⟨triple,inside,by simp⟩

theorem vertexWrites_term {write : DocWrite} (inside : write ∈ triples.flatMap (vertexWrites digest options)) :
    ∃ x ∈ terms triples, write = termWrite digest options x := by
  obtain ⟨triple,inside,held⟩ := List.mem_flatMap.mp inside
  rcases List.mem_cons.mp held with same | held
  · exact ⟨_,subject_mem inside,same⟩
  · split at held
    · exact ⟨_,object_mem inside,List.mem_singleton.mp held⟩
    · cases held

theorem vertexWrites_consistent (apart : KeysApart digest options triples) :
    FirstWrite.Consistent (triples.flatMap (vertexWrites digest options)) := by
  intro one held two held' same
  obtain ⟨x,inside,rfl⟩ := vertexWrites_term held
  obtain ⟨y,inside',rfl⟩ := vertexWrites_term held'
  obtain rfl := apart.terms x inside y inside' (congrArg Prod.snd same)
  rfl

theorem edge_document (triple : RdfTriple) : (builtEdge digest options triple).document =
    .object ([("_from",.string (statementOf digest options triple).fromId),
    ("_key",.string (statementKey digest options triple)),
      ("_to",.string (statementOf digest options triple).toId)] ++
      ((statementOf digest options triple).graph.toList.map fun graph => ("graph",.string graph)) ++
      [("predicate",.string (statementOf digest options triple).predicate)]) := by
  simp only [builtEdge,subject_placement]
  rfl

theorem edgeWrites_consistent (apart : KeysApart digest options triples) :
    FirstWrite.Consistent ((linked options triples).map (edgeWrite digest options)) := by
  intro one held two held' same
  obtain ⟨a,inside,rfl⟩ := List.mem_map.mp held
  obtain ⟨b,inside',rfl⟩ := List.mem_map.mp held'
  have statements := apart.statements a (List.mem_of_mem_filter inside) b
      (List.mem_of_mem_filter inside') (congrArg Prod.snd same)
  have keys : statementKey digest options a = statementKey digest options b := congrArg Prod.snd same
  simp only [edgeWrite,edge_document,statements,keys]

theorem linked_same (same : ∀ triple, triple ∈ triples ↔ triple ∈ more) (triple : RdfTriple) :
    triple ∈ linked options triples ↔ triple ∈ linked options more := by
  rw [linked,linked,List.mem_filter,List.mem_filter,same]

theorem seen_vertices (plain : ¬ Attaching options) (seen : triple ∈ triples) :
    (foldTriple digest triple options (foldTriples digest options triples).vertices).1 =
    (foldTriples digest options triples).vertices := by
  rw [foldTriple_vertices plain,foldTriples_vertices plain]
  exact FirstWrite.puts_written fun write held =>
    FirstWrite.written_puts (List.mem_flatMap.mpr ⟨triple,seen,held⟩)

theorem seen_buffer {edge : BuiltEdge} {vertices : DocStore} (seen : triple ∈ triples)
    (emitted : (foldTriple digest triple options vertices).2 = some edge) :
    bufferDoc (bufferDocs (foldTriples digest options triples).edges) edge.collection edge.document =
      bufferDocs (foldTriples digest options triples).edges := by
  rw [foldTriple_edge,edgeOf] at emitted
  split at emitted
  · next link =>
    obtain rfl := Option.some.inj emitted
    have inside : triple ∈ linked options triples := List.mem_filter.mpr ⟨seen,decide_eq_true link⟩
    have written : FirstWrite.Written (bufferDocs (foldTriples digest options triples).edges)
        (edgeWrite digest options triple) := by
      rw [bufferDocs_writes]
      exact FirstWrite.written_puts (List.mem_map_of_mem inside)
    obtain ⟨first,found⟩ := written
    rw [bufferDoc_built]
    exact FirstWrite.put_present found
  · cases emitted

-- What the fold leaves behind depends on which statements there are, not on their
-- order or how often they are repeated.
theorem fold_by_statements (digest : Bytes → Vector UInt8 32) (options : RdfOptions)
    (triples more : List RdfTriple)
    (plain : options.graphModel = .rpt ∨ options.literalPolicy = .noLiterals ∨
    options.literalPolicy = .materialize)
    (apart : KeysApart digest options triples) (same : ∀ triple, triple ∈ triples ↔ triple ∈ more) :
    (foldTriples digest options triples).vertices = (foldTriples digest options more).vertices ∧
    (∀ edge, edge ∈ (foldTriples digest options triples).edges ↔
    edge ∈ (foldTriples digest options more).edges) ∧
    bufferDocs (foldTriples digest options triples).edges = bufferDocs (foldTriples digest options more).edges ∧
    ∀ triple ∈ triples,
      (foldTriple digest triple options (foldTriples digest options triples).vertices).1 =
      (foldTriples digest options triples).vertices ∧
      ∀ edge, (foldTriple digest triple options (foldTriples digest options triples).vertices).2 = some edge →
        bufferDoc (bufferDocs (foldTriples digest options triples).edges) edge.collection edge.document =
          bufferDocs (foldTriples digest options triples).edges := by
  have plain : ¬ Attaching options := by
    rintro ⟨model,policy⟩
    simp [model,policy] at plain
  refine ⟨?_,?_,?_,fun triple seen => ⟨seen_vertices plain seen,fun edge emitted => seen_buffer seen emitted⟩⟩
  · rw [foldTriples_vertices plain,foldTriples_vertices plain]
    refine FirstWrite.puts_same (vertexWrites_consistent apart) fun write => ?_
    simp only [List.mem_flatMap,same]
  · intro edge
    simp only [mem_edges,same]
  · rw [bufferDocs_writes,bufferDocs_writes]
    refine FirstWrite.puts_same (edgeWrites_consistent apart) fun write => ?_
    simp only [List.mem_map,linked_same same]

end Sets

-- SHA-256 of the texts that `<s> <p> <o> <g> .` and, by type, `<o> <p> <s> <g> .` lead to.
def subjectHash : Vector UInt8 32 :=
  #v[157,249,62,27,108,171,172,56,174,233,154,219,49,180,156,129,85,152,234,246,225,212,60,76,113,
    131,225,18,55,148,81,176]
def objectHash : Vector UInt8 32 :=
  #v[239,110,126,20,72,48,152,5,246,30,30,22,3,102,78,31,211,8,65,241,127,31,7,185,111,197,170,158,
    82,37,233,200]
def plainHash : Vector UInt8 32 :=
  #v[215,13,121,4,93,96,108,236,186,207,133,238,226,179,99,252,48,161,52,23,54,186,229,72,201,94,
    251,56,46,69,152,39]
def forthHash : Vector UInt8 32 :=
  #v[104,235,250,236,170,5,169,181,217,221,49,161,169,84,212,68,192,101,44,171,109,103,98,103,52,6,
    120,240,24,98,220,124]
def backHash : Vector UInt8 32 :=
  #v[195,84,15,161,142,33,126,221,145,246,104,59,116,136,183,133,1,241,191,116,84,220,237,170,120,
    212,106,129,198,144,130,58]

def plainInput : Bytes :=
  edgeInput ("nodes/" ++ hex subjectHash.toList) "p" ("nodes/" ++ hex objectHash.toList) none

def typedInput (source target : Vector UInt8 32) : Bytes :=
  edgeInput ("nodes_URIRef/" ++ hex source.toList) "p" ("nodes_URIRef/" ++ hex target.toList) (some "g")

def sampleDigest (input : Bytes) : Vector UInt8 32 :=
  if input = resourceInput none (.iri "s") then subjectHash
  else if input = resourceInput none (.iri "o") then objectHash
  else if input = plainInput then plainHash
  else if input = typedInput subjectHash objectHash then forthHash
  else if input = typedInput objectHash subjectHash then backHash
  else Vector.replicate 32 0

def sampleTriple : RdfTriple := ⟨.iri "s","p",.iri "o",some "g"⟩

theorem sample_nodes : sampleDigest (resourceInput none (.iri "s")) = subjectHash ∧
    sampleDigest (resourceInput none (.iri "o")) = objectHash := by
  have inputs : resourceInput none (.iri "o") ≠ resourceInput none (.iri "s") :=
    fun same => absurd (resourceInput_inj same) (by decide)
  exact ⟨if_pos rfl,(if_neg inputs).trans (if_pos rfl)⟩

theorem sample_terms {x y : RdfTerm} (inside : x ∈ [.iri "s",.iri "o"]) (inside' : y ∈ [.iri "s",.iri "o"])
    (same : hashKey sampleDigest (termInput plainOptions x) =
    hashKey sampleDigest (termInput plainOptions y)) : x = y := by
  have digests : sampleDigest (resourceInput none (.iri "o")) ≠ sampleDigest
      (resourceInput none (.iri "s")) := by
    rw [sample_nodes.1,sample_nodes.2]
    decide
  rcases List.mem_pair.mp inside with rfl | rfl <;> rcases List.mem_pair.mp inside' with rfl | rfl
  · rfl
  · exact absurd (hashKey_digest same).symm digests
  · exact absurd (hashKey_digest same) digests
  · rfl

theorem sample_apart (model : GraphModel) (mode : NamedGraphMode) :
    KeysApart sampleDigest {plainOptions with graphModel := model,namedGraph := mode} [sampleTriple] := by
  refine ⟨fun x inside y inside' same => sample_terms inside inside' ?_,fun a inside b inside' _ => ?_⟩
  · simp only [placement_key] at same
    have plain : ∀ term, termInput {plainOptions with graphModel := model,namedGraph := mode} term =
        termInput plainOptions term := by
      intro term
      cases term <;> rfl
    rwa [plain,plain] at same
  · rw [List.mem_singleton.mp inside,List.mem_singleton.mp inside']

theorem repeated_statement_folded_once :
    (foldTriples sampleDigest plainOptions [sampleTriple]).vertices =
      (foldTriples sampleDigest plainOptions [sampleTriple,sampleTriple]).vertices :=
  (fold_by_statements sampleDigest plainOptions [sampleTriple] [sampleTriple,sampleTriple]
    (by decide) (sample_apart .pgt .ignore)
    (by simp)).1

section Decoding

def splitId (id : String) : Option (String × String) :=
  match id.toList.reverse.dropWhile (· ≠ '/') with
  | [] => none
  | _ :: collection => some
      (String.ofList collection.reverse,String.ofList (id.toList.reverse.takeWhile (· ≠ '/')).reverse)

def textAt (document : Value) (name : String) : Option String := (document.get name).bind Value.asStr

def decodeVertex (vertex : Value) : Option RdfTerm := match textAt vertex "iri",
    textAt vertex "literal",textAt vertex "label" with
  | some iri,_,_ => some (.iri iri)
  | none,some value,_ => some (.literal value (textAt vertex "datatype") (textAt vertex "language"))
  | none,none,some label => some (.blankNode label)
  | none,none,none => none

def decodeEnd (vertices : DocStore) (id : String) : Option RdfTerm := do
  let (collection,key) ← splitId id
  let vertex ← vertices.find collection key
  decodeVertex vertex

def decodeEdge (vertices : DocStore) (document : Value) : Option RdfTriple := do
  let source ← decodeEnd vertices (← textAt document "_from")
  let subject ← objectAsResource source
  let predicate ← textAt document "predicate"
  let object ← decodeEnd vertices (← textAt document "_to")
  some {subject,predicate,object,graph := textAt document "graph"}

theorem up_to_mark {mark : Char} {front back : List Char} (free : mark ∉ front) :
    (front ++ mark :: back).takeWhile (· ≠ mark) = front ∧
    (front ++ mark :: back).dropWhile (· ≠ mark) = mark :: back := by
  have kept : ∀ c ∈ front, decide (c ≠ mark) = true := fun c inside => decide_eq_true fun same =>
      free (same ▸ inside)
  rw [List.takeWhile_append_of_pos kept,List.dropWhile_append_of_pos kept]
  simp

theorem splitId_id {placement : Placement} (plain : '/' ∉ placement.key.toList) :
    splitId placement.id = some (placement.collection,placement.key) := by
  have turned : placement.id.toList.reverse = placement.key.toList.reverse ++
      '/' :: placement.collection.toList.reverse := by
    simp [Placement.id]
  have free : '/' ∉ placement.key.toList.reverse := by simpa using plain
  obtain ⟨key,collection⟩ := @up_to_mark '/' _ placement.collection.toList.reverse free
  simp only [splitId,turned,key,collection,List.reverse_reverse,String.ofList_toList]

theorem decodeVertex_term (term : RdfTerm) : decodeVertex (termVertex digest options term) = some term := by
  cases term with
  | iri iri => simp [decodeVertex,textAt,termVertex,RdfOptions.resourceVertex]
  | blankNode label => cases scope : options.blankNodeScope <;>
      simp [decodeVertex,textAt,termVertex,RdfOptions.resourceVertex,scope]
  | literal value datatype language => cases datatype <;> cases language <;>
      simp [decodeVertex,textAt,termVertex,literalVertex]

theorem decodeEnd_term {vertices : DocStore} {term : RdfTerm}
    (found : vertices.find (termPlacement digest options term).collection
    (termPlacement digest options term).key = some (termVertex digest options term)) :
    decodeEnd vertices (termPlacement digest options term).id = some term := by
  have plain : '/' ∉ (termPlacement digest options term).key.toList := by
    rw [placement_key]
    exact hashKey_slash _
  simp only [decodeEnd,splitId_id plain,Option.bind_eq_bind,Option.bind_some,found,decodeVertex_term]

theorem resource_back (resource : RdfResource) : objectAsResource (resourceTerm resource) = some resource := by
  cases resource <;> rfl

theorem decodeEdge_built {vertices : DocStore} (tracked : options.namedGraph ≠ .ignore)
    (found : ∀ term ∈ [resourceTerm triple.subject,triple.object],
    vertices.find (termPlacement digest options term).collection
      (termPlacement digest options term).key = some (termVertex digest options term)) :
    decodeEdge vertices (builtEdge digest options triple).document = some triple := by
  have subject := decodeEnd_term (found (resourceTerm triple.subject) (by simp))
  have object := decodeEnd_term (found triple.object (by simp))
  have graph : options.edgeGraph triple.graph = triple.graph := by
    unfold RdfOptions.edgeGraph
    split
    · next ignored => exact absurd ignored tracked
    · rfl
    · rfl
  rw [builtEdge,graph]
  clear graph
  obtain ⟨resource,predicate,object,graph⟩ := triple
  cases graph <;> simp_all [decodeEdge,edgeDocument,textAt,resource_back]

end Decoding

-- Under the topology model every statement is read back from the vertices and the
-- edges, and nothing else is.
theorem topology_lossless (digest : Bytes → Vector UInt8 32) (options : RdfOptions) (triples : List RdfTriple)
    (topology : options.graphModel = .rpt) (tracked : options.namedGraph ≠ .ignore)
      (apart : KeysApart digest options triples) :
    let folded := foldTriples digest options triples
    (∀ edge ∈ folded.edges, ∃! triple, triple ∈ triples ∧ decodeEdge folded.vertices edge.document =
      some triple) ∧
    (∀ triple ∈ triples, ∃ edge ∈ folded.edges, decodeEdge folded.vertices edge.document = some triple) ∧
    ∀ triple, triple ∈ triples ↔ ∃ collection key document,
      (bufferDocs folded.edges).find collection key = some document ∧
      decodeEdge folded.vertices document = some triple := by
  intro folded
  have plain : ¬ Attaching options := fun attaching => nomatch topology.symm.trans attaching.1
  have links : ∀ triple : RdfTriple, Linked options triple.object := by
    intro triple
    unfold Linked
    split
    · exact .inl topology
    · trivial
  have decoded : ∀ triple ∈ triples,
      decodeEdge folded.vertices (builtEdge digest options triple).document = some triple := by
    intro triple inside
    refine decodeEdge_built tracked fun term held => ?_
    have written : termWrite digest options term ∈ triples.flatMap (vertexWrites digest options) := by
      refine List.mem_flatMap.mpr ⟨triple,inside,?_⟩
      rw [vertexWrites,if_pos (links triple)]
      rcases List.mem_cons.mp held with rfl | held
      · exact List.mem_cons_self
      · obtain rfl := List.mem_singleton.mp held
        exact List.mem_cons_of_mem _ List.mem_cons_self
    have stores : folded.vertices =
        FirstWrite.puts ∅ (triples.flatMap (vertexWrites digest options)) := foldTriples_vertices plain triples
    rw [stores]
    exact (FirstWrite.find_puts_iff (vertexWrites_consistent apart)).mpr written
  refine ⟨fun edge emitted => ?_,fun triple inside => ?_,fun triple => ⟨fun inside => ?_,?_⟩⟩
  · obtain ⟨triple,inside,-,rfl⟩ := mem_edges.mp emitted
    exact ⟨triple,⟨inside,decoded triple inside⟩,fun other read =>
      Option.some.inj (read.2.symm.trans (decoded triple inside))⟩
  · exact ⟨_,mem_edges.mpr ⟨triple,inside,links triple,rfl⟩,decoded triple inside⟩
  · have held : edgeWrite digest options triple ∈ (linked options triples).map (edgeWrite digest options) :=
      List.mem_map_of_mem (List.mem_filter.mpr ⟨inside,decide_eq_true (links triple)⟩)
    refine ⟨(builtEdge digest options triple).collection,statementKey digest options triple,_,?_,
      decoded triple inside⟩
    rw [bufferDocs_writes]
    exact (FirstWrite.find_puts_iff (edgeWrites_consistent apart)).mpr held
  · rintro ⟨collection,key,document,found,read⟩
    rw [bufferDocs_writes] at found
    obtain ⟨other,inside,same⟩ :=
      List.mem_map.mp ((FirstWrite.find_puts_iff (edgeWrites_consistent apart)).mp found)
    have inside := List.mem_of_mem_filter inside
    have document : (builtEdge digest options other).document = document := congrArg Prod.snd same
    rw [← document,decoded other inside] at read
    rwa [← Option.some.inj read]

section Pair

def backTriple : RdfTriple := ⟨.iri "o","p",.iri "s",some "g"⟩
def pairTriples : List RdfTriple := [sampleTriple,backTriple]
def topologyOptions : RdfOptions := {plainOptions with graphModel := .rpt,namedGraph := .property}

theorem pair_terms {x : RdfTerm} (inside : x ∈ terms pairTriples) : x ∈ [.iri "s",.iri "o"] := by
  simp only [terms,pairTriples,sampleTriple,backTriple,resourceTerm,List.flatMap_cons,
    List.flatMap_nil,List.append_nil,
    List.cons_append,List.nil_append,List.mem_cons,List.not_mem_nil,or_false] at inside ⊢
  tauto

theorem pair_hashes : sampleDigest (typedInput subjectHash objectHash) = forthHash ∧
    sampleDigest (typedInput objectHash subjectHash) = backHash := by
  have node : ∀ source target iri, typedInput source target ≠ resourceInput none (.iri iri) :=
    fun source target iri same =>
    absurd (domain_apart (by decide) (by decide) same) (by decide)
  have plain : ∀ source target, typedInput source target ≠ plainInput := by
    intro source target same
    have lengths := congrArg List.length (hashInput_same.mp same)
    simp [joined,hex_length] at lengths
  have turned : typedInput objectHash subjectHash ≠ typedInput subjectHash objectHash := by
    intro same
    have texts := hashInput_same.mp same
    simp only [joined,List.flatMap_cons,List.cons_append,List.cons.injEq,true_and] at texts
    have ids := (List.append_inj texts (by simp [hex_length])).1
    simp only [String.toList_append,List.append_right_inj,String.toList_inj] at ids
    exact absurd (Vector.toList_inj.mp (hex_inj ids)) (by decide)
  refine ⟨?_,?_⟩
  · rw [sampleDigest,if_neg (node _ _ _),if_neg (node _ _ _),if_neg (plain _ _),if_pos rfl]
  · rw [sampleDigest,if_neg (node _ _ _),if_neg (node _ _ _),if_neg (plain _ _),if_neg turned,if_pos rfl]

theorem pair_inputs : (statementOf sampleDigest topologyOptions sampleTriple).input =
    typedInput subjectHash objectHash ∧
    (statementOf sampleDigest topologyOptions backTriple).input = typedInput objectHash subjectHash := by
  have subject : topologyOptions.resourceKey sampleDigest (.iri "s") = hex subjectHash.toList :=
    congrArg (fun bytes : Vector UInt8 32 => hex bytes.toList) sample_nodes.1
  have object : topologyOptions.resourceKey sampleDigest (.iri "o") = hex objectHash.toList :=
    congrArg (fun bytes : Vector UInt8 32 => hex bytes.toList) sample_nodes.2
  constructor <;>
    simp only [Statement.input,statementOf,sampleTriple,backTriple,termPlacement,
      RdfOptions.resourcePlacement,Placement.id,subject,object] <;>
    rfl

theorem pair_apart : KeysApart sampleDigest topologyOptions pairTriples where
  terms x inside y inside' same := by
    simp only [placement_key] at same
    exact sample_terms (pair_terms inside) (pair_terms inside') same
  statements a inside b inside' same := by
    have hashes := hashKey_digest same
    rcases List.mem_pair.mp inside with rfl | rfl <;> rcases List.mem_pair.mp inside' with rfl | rfl
    · rfl
    · rw [pair_inputs.1,pair_inputs.2,pair_hashes.1,pair_hashes.2] at hashes
      exact absurd hashes (by decide)
    · rw [pair_inputs.1,pair_inputs.2,pair_hashes.1,pair_hashes.2] at hashes
      exact absurd hashes (by decide)
    · rfl

theorem pair_decoded :
    (∃ edge ∈ (foldTriples sampleDigest topologyOptions pairTriples).edges,
      decodeEdge (foldTriples sampleDigest topologyOptions pairTriples).vertices edge.document =
        some sampleTriple) ∧
    ∃ edge ∈ (foldTriples sampleDigest topologyOptions pairTriples).edges,
      decodeEdge (foldTriples sampleDigest topologyOptions pairTriples).vertices edge.document =
        some backTriple := by
  have decoded := (topology_lossless sampleDigest topologyOptions pairTriples rfl (by decide) pair_apart).2.1
  exact ⟨decoded _ List.mem_cons_self,decoded _ (List.mem_cons_of_mem _ List.mem_cons_self)⟩

end Pair

end ArangoDataTools.Rdf
