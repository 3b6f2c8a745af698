import ArangoDataTools.RdfAccounts
import ArangoDataTools.RdfKeys

namespace ArangoDataTools.Rdf

variable {digest : Bytes → Vector UInt8 32} {options : RdfOptions} {vertices : DocStore}
  {triple : RdfTriple} {edge : BuiltEdge}

def Endpoint (options : RdfOptions) (vertices : DocStore) (id : Option Value) : Prop := ∃ collection key vertex,
  id = some (.string (collection ++ "/" ++ key)) ∧ collection ∈ options.vertexCollections ∧
    vertices.find collection key = some vertex ∧ vertex.get "_key" = some (.string key)

theorem placement_listed (term : RdfTerm) :
    (termPlacement digest options term).collection ∈ options.vertexCollections := by
  cases model : options.graphModel <;> cases term <;>
    simp [termPlacement,RdfOptions.resourcePlacement,RdfOptions.literalPlacement,
      RdfOptions.vertexCollections,model]

theorem edge_ends (source target : Placement) (predicate : String) (graph : Option String) :
    (edgeDocument digest source target predicate graph).get "_from" = some (.string source.id) ∧
      (edgeDocument digest source target predicate graph).get "_to" = some (.string target.id) := by
  constructor <;> cases graph <;> simp [edgeDocument]

theorem term_endpoint (keyed : Keyed vertices) (term : RdfTerm)
    (present : ∃ vertex, vertices.find (termPlacement digest options term).collection
      (termPlacement digest options term).key = some vertex) :
    Endpoint options vertices (some (.string (termPlacement digest options term).id)) := by
  obtain ⟨vertex,found⟩ := present
  exact ⟨_,_,vertex,rfl,placement_listed term,found,(keyed _ _ _ found).key⟩

theorem foldTriple_endpoints (keyed : Keyed vertices)
    (built : (foldTriple digest triple options vertices).2 = some edge) :
    Endpoint options (foldTriple digest triple options vertices).1 (edge.document.get "_from") ∧
    Endpoint options (foldTriple digest triple options vertices).1 (edge.document.get "_to") ∧
    (edge.collection = options.edgeCollection ∨
      ∃ graph, triple.graph = some graph ∧ edge.collection = options.edgeCollection ++ "_" ++
        graphSlug digest graph) := by
  have after := @foldTriple_keyed digest _ keyed triple options
  rcases foldTriple_cases digest triple options vertices with ⟨-,same⟩ | ⟨-,-,same⟩ | ⟨_,_,_,-,-,-,same⟩
  · rw [same] at built after ⊢
    obtain rfl := Option.some.inj built
    obtain ⟨source,target⟩ := @edge_ends digest (termPlacement digest options (resourceTerm triple.subject))
      (termPlacement digest options triple.object) triple.predicate (options.edgeGraph triple.graph)
    refine ⟨?_,?_,?_⟩
    · rw [builtEdge,source]
      exact term_endpoint after _ (stored_kept ⟨_,FirstWrite.find_put_self⟩ _)
    · rw [builtEdge,target]
      exact term_endpoint after _ ⟨_,FirstWrite.find_put_self⟩
    · unfold builtEdge RdfOptions.edgeCollectionFor
      split
      · next graph _ named => exact .inr ⟨graph,named,rfl⟩
      · exact .inl rfl
  · rw [same] at built
    cases built
  · rw [same] at built
    cases built

theorem endpoint_kept {id : Option Value} (triples : List RdfTriple) (triple : RdfTriple)
    (endpoint : Endpoint options (foldTriples digest options triples).vertices id) :
    Endpoint options (foldTriples digest options (triples ++ [triple])).vertices id := by
  obtain ⟨collection,key,vertex,named,listed,found,-⟩ := endpoint
  obtain ⟨later,still⟩ := foldTriples_kept ⟨vertex,found⟩ [triple]
  exact ⟨collection,key,later,named,listed,still,(foldTriples_keyed _ _ _ _ still).key⟩

theorem edges_endpoints (triples : List RdfTriple)
    (emitted : edge ∈ (foldTriples digest options triples).edges) :
    Endpoint options (foldTriples digest options triples).vertices (edge.document.get "_from") ∧
    Endpoint options (foldTriples digest options triples).vertices (edge.document.get "_to") := by
  induction triples using List.reverseRecOn with
  | nil => cases emitted
  | append_singleton triples triple ih =>
    obtain ⟨source,inside,linked,rfl⟩ := mem_edges.mp emitted
    rcases List.mem_append.mp inside with earlier | last
    · obtain ⟨first,second⟩ := ih (mem_edges.mpr ⟨source,earlier,linked,rfl⟩)
      exact ⟨endpoint_kept triples triple first,endpoint_kept triples triple second⟩
    · obtain rfl := List.mem_singleton.mp last
      have built : (foldTriple digest source options
          (foldTriples digest options triples).vertices).2 = some (builtEdge digest options source) := by
        rw [foldTriple_edge,edgeOf,if_pos linked]
      obtain ⟨first,second,-⟩ := foldTriple_endpoints (foldTriples_keyed triples) built
      rw [foldTriples_step]
      exact ⟨first,second⟩

structure Endless (vertex : Value) : Prop where
  from_ : vertex.get "_from" = none
  to_ : vertex.get "_to" = none

theorem termWrite_endless (term : RdfTerm) : Endless (termWrite digest options term).2 := by
  cases term with
  | iri iri => exact ⟨rfl,rfl⟩
  | blankNode label => cases scope : options.blankNodeScope <;> constructor <;>
      simp [termWrite,termVertex,RdfOptions.resourceVertex,scope]
  | literal value datatype language => cases datatype <;> cases language <;> exact ⟨rfl,rfl⟩

theorem foldTriples_endless (triples : List RdfTriple) : Every (fun _ vertex => Endless vertex)
    (foldTriples digest options triples).vertices :=
  foldTriples_every (P:=fun _ vertex => Endless vertex) (fun _ vertex predicate value endless =>
    ⟨(setProperty_get (by decide) predicate value vertex).trans endless.from_,
      (setProperty_get (by decide) predicate value vertex).trans endless.to_⟩) termWrite_endless triples

end ArangoDataTools.Rdf
