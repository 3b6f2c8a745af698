import ArangoDataTools.FirstWrite
import ArangoDataTools.RdfKeys

namespace ArangoDataTools.Rdf

-- `BTreeMap<String, BTreeMap<String, Value>>`
abbrev DocStore : Type := @FirstWrite String String Value String.instOrd String.instOrd

structure BuiltEdge where
  collection : String
  document : Value

def storeVertex (vertices : DocStore) (placement : Placement) (vertex : Value) : DocStore :=
  vertices.put placement.collection placement.key vertex

def bufferDoc (store : DocStore) (collection : String) (document : Value) : DocStore :=
  store.put collection (((document.get "_key").bind Value.asStr).getD "") document

-- A literal is `unreachable!`.
def objectAsResource : RdfTerm → Option RdfResource
  | .iri iri => some (.iri iri)
  | .blankNode label => some (.blankNode label)
  | .literal _ _ _ => none

-- `Map::insert`
def insertEntry (name : String) (value : Value) : List (String × Value) → List (String × Value)
  | [] => [(name,value)]
  | (held,old) :: rest => match @compare String String.instOrd name held with
    | .lt => (name,value) :: (held,old) :: rest
    | .eq => (name,value) :: rest
    | .gt => (held,old) :: insertEntry name value rest

def setProperty (predicate value : String) : Value → Value
  | .object entries => match (Value.lookup "properties" entries).getD (.object []) with
    | .object properties => .object
        (insertEntry "properties" (.object (insertEntry predicate (.string value) properties)) entries)
    | _ => .object entries
  | vertex => vertex

def addProperty (vertices : DocStore) (subject : Placement) (predicate value : String) : DocStore :=
  vertices.modify subject.collection subject.key (setProperty predicate value)

section Fold
variable (digest : Bytes → Vector UInt8 32)

def foldTriple (triple : RdfTriple) (options : RdfOptions) (vertices : DocStore) :
    DocStore × Option BuiltEdge :=
  let subject := options.resourcePlacement digest triple.subject
  let vertices := storeVertex vertices subject (options.resourceVertex digest triple.subject)
  let graph := options.edgeGraph triple.graph
  let collection := options.edgeCollectionFor digest triple.graph
  let buildEdge := fun source target =>
      {collection,document := edgeDocument digest source target triple.predicate graph}
  match triple.object with
  | .literal value datatype language =>
    if options.graphModel = .pgt ∧ options.literalPolicy = .noLiterals then (vertices,none)
    else if options.graphModel = .pgt ∧ options.literalPolicy = .vertexProperty then
      (addProperty vertices subject triple.predicate value,none)
    else
      let literal := options.literalPlacement digest value datatype language
      (storeVertex vertices literal (literalVertex digest value datatype language),
      some (buildEdge subject literal))
  | term => match objectAsResource term with
    | some object =>
      let objectPlacement := options.resourcePlacement digest object
      (storeVertex vertices objectPlacement (options.resourceVertex digest object),
        some (buildEdge subject objectPlacement))
    | none => (vertices,none)

-- The loop over the statements: the vertices so far, and the edges in the order they are emitted.
structure Folded where
  vertices : DocStore := ∅
  edges : List BuiltEdge := []

def Folded.take (options : RdfOptions) (folded : Folded) (triple : RdfTriple) : Folded :=
  let (vertices,edge) := foldTriple digest triple options folded.vertices
  {vertices,edges := folded.edges ++ edge.toList}

def foldTriples (options : RdfOptions) (triples : List RdfTriple) : Folded :=
  triples.foldl (Folded.take digest options) {}

def bufferDocs (edges : List BuiltEdge) : DocStore :=
  edges.foldl (fun store edge => bufferDoc store edge.collection edge.document) ∅

end Fold

variable {digest : Bytes → Vector UInt8 32} {options : RdfOptions} {vertices : DocStore} {triple : RdfTriple}
  {triples more : List RdfTriple}

abbrev DocWrite : Type := FirstWrite.Write String String Value

def termWrite (digest : Bytes → Vector UInt8 32) (options : RdfOptions) (term : RdfTerm) : DocWrite :=
  let placement := termPlacement digest options term
  ((placement.collection,placement.key),termVertex digest options term)

def Linked (options : RdfOptions) (object : RdfTerm) : Prop := match object with
  | .literal _ _ _ => options.graphModel = .rpt ∨ options.literalPolicy = .materialize
  | _ => True

instance : Decidable (Linked options object) := by
  unfold Linked
  split <;> infer_instance

-- Literals become properties of their subjects.
def Attaching (options : RdfOptions) : Prop := options.graphModel = .pgt ∧
    options.literalPolicy = .vertexProperty

def builtEdge (digest : Bytes → Vector UInt8 32) (options : RdfOptions) (triple : RdfTriple) : BuiltEdge :=
  {collection := options.edgeCollectionFor digest triple.graph
   document := edgeDocument digest (termPlacement digest options (resourceTerm triple.subject))
     (termPlacement digest options triple.object) triple.predicate (options.edgeGraph triple.graph)}

def stored (vertices : DocStore) (write : DocWrite) : DocStore := vertices.put write.1.1 write.1.2 write.2

theorem subject_placement (resource : RdfResource) :
    termPlacement digest options (resourceTerm resource) = options.resourcePlacement digest resource := by
  cases resource <;> rfl

theorem subject_vertex (resource : RdfResource) :
    termVertex digest options (resourceTerm resource) = options.resourceVertex digest resource := by
  cases resource <;> rfl

theorem subject_stored (vertices : DocStore) (resource : RdfResource) :
    storeVertex vertices (options.resourcePlacement digest resource) (options.resourceVertex digest resource) =
      stored vertices (termWrite digest options (resourceTerm resource)) := by
  cases resource <;> rfl

theorem foldTriple_cases (digest : Bytes → Vector UInt8 32) (triple : RdfTriple)
    (options : RdfOptions) (vertices : DocStore) :
    (Linked options triple.object ∧ foldTriple digest triple options vertices =
      (stored (stored vertices (termWrite digest options (resourceTerm triple.subject)))
        (termWrite digest options triple.object),
        some (builtEdge digest options triple))) ∨
    (¬ Linked options triple.object ∧ ¬ Attaching options ∧ foldTriple digest triple options vertices =
      (stored vertices (termWrite digest options (resourceTerm triple.subject)),none)) ∨
    ∃ value datatype language, triple.object = .literal value datatype language ∧
      ¬ Linked options triple.object ∧
      Attaching options ∧ foldTriple digest triple options vertices =
      (addProperty (stored vertices (termWrite digest options (resourceTerm triple.subject)))
        (options.resourcePlacement digest triple.subject) triple.predicate value,none) := by
  cases object : triple.object with
  | iri iri =>
    refine .inl ⟨trivial,?_⟩
    simp only [foldTriple,object,objectAsResource,subject_stored,builtEdge,subject_placement]
    rfl
  | blankNode label =>
    refine .inl ⟨trivial,?_⟩
    simp only [foldTriple,object,objectAsResource,subject_stored,builtEdge,subject_placement]
    rfl
  | literal value datatype language =>
    by_cases dropped : options.graphModel = .pgt ∧ options.literalPolicy = .noLiterals
    · refine .inr (.inl ⟨?_,?_,?_⟩)
      · simp [Linked,dropped]
      · simp [Attaching,dropped]
      · simp only [foldTriple,object,subject_stored,if_pos dropped]
    · by_cases attached : options.graphModel = .pgt ∧ options.literalPolicy = .vertexProperty
      · refine .inr (.inr ⟨value,datatype,language,rfl,?_,attached,?_⟩)
        · simp [Linked,attached]
        · simp only [foldTriple,object,subject_stored,if_neg dropped,if_pos attached]
      · refine .inl ⟨?_,?_⟩
        · cases model : options.graphModel <;> cases policy : options.literalPolicy <;> simp_all [Linked]
        · simp only [foldTriple,object,subject_stored,if_neg dropped,if_neg attached,builtEdge,
            subject_placement]
          rfl

section Run

def vertexWrites (digest : Bytes → Vector UInt8 32) (options : RdfOptions) (triple : RdfTriple) :
    List DocWrite :=
  termWrite digest options (resourceTerm triple.subject) ::
    if Linked options triple.object then [termWrite digest options triple.object] else []

def edgeOf (digest : Bytes → Vector UInt8 32) (options : RdfOptions) (triple : RdfTriple) : Option BuiltEdge :=
  if Linked options triple.object then some (builtEdge digest options triple) else none

theorem foldTriple_edge (digest : Bytes → Vector UInt8 32) (triple : RdfTriple)
    (options : RdfOptions) (vertices : DocStore) :
    (foldTriple digest triple options vertices).2 = edgeOf digest options triple := by
  rcases foldTriple_cases digest triple options vertices
    with ⟨linked,same⟩ | ⟨apart,-,same⟩ | ⟨value,_,_,-,apart,-,same⟩
  · rw [same,edgeOf,if_pos linked]
  · rw [same,edgeOf,if_neg apart]
  · rw [same,edgeOf,if_neg apart]

theorem foldTriple_vertices (plain : ¬ Attaching options) (triple : RdfTriple) (vertices : DocStore) :
    (foldTriple digest triple options vertices).1 = vertices.puts (vertexWrites digest options triple) := by
  rcases foldTriple_cases digest triple options vertices
    with ⟨linked,same⟩ | ⟨apart,-,same⟩ | ⟨_,_,_,-,-,attaching,-⟩
  · rw [same,vertexWrites,if_pos linked]
    rfl
  · rw [same,vertexWrites,if_neg apart]
    rfl
  · exact absurd attaching plain

theorem foldTriples_append (triples more : List RdfTriple) : foldTriples digest options (triples ++ more) =
    more.foldl (Folded.take digest options) (foldTriples digest options triples) := List.foldl_append

theorem foldTriples_step (triples : List RdfTriple) (triple : RdfTriple) :
    foldTriples digest options (triples ++ [triple]) =
    (foldTriples digest options triples).take digest options triple := foldTriples_append triples [triple]

theorem foldTriples_edges (triples : List RdfTriple) :
    (foldTriples digest options triples).edges = triples.filterMap (edgeOf digest options) := by
  induction triples using List.reverseRecOn with
  | nil => rfl
  | append_singleton triples triple ih =>
    rw [foldTriples_step,List.filterMap_append,← ih]
    simp only [Folded.take,foldTriple_edge,List.append_cancel_left_eq]
    cases edge : edgeOf digest options triple with
    | none => simp [edge]
    | some made => simp [edge]

theorem foldTriples_vertices (plain : ¬ Attaching options) (triples : List RdfTriple) :
    (foldTriples digest options triples).vertices =
    FirstWrite.puts ∅ (triples.flatMap (vertexWrites digest options)) := by
  induction triples using List.reverseRecOn with
  | nil => rfl
  | append_singleton triples triple ih =>
    rw [foldTriples_step,List.flatMap_append,FirstWrite.puts_append,← ih]
    simp only [Folded.take,foldTriple_vertices plain,List.flatMap_cons,List.flatMap_nil,List.append_nil]

theorem mem_edges {edge : BuiltEdge} : edge ∈ (foldTriples digest options triples).edges ↔
    ∃ triple ∈ triples, Linked options triple.object ∧ edge = builtEdge digest options triple := by
  rw [foldTriples_edges,List.mem_filterMap]
  refine exists_congr fun triple => and_congr_right fun _ => ?_
  unfold edgeOf
  split
  · next linked => simp [linked,eq_comm]
  · next apart => simp [apart]

end Run

section Documents

theorem edge_key (source target : Placement) (predicate : String) (graph : Option String) :
    ((edgeDocument digest source target predicate graph).get "_key").bind Value.asStr =
      some (edgeKey digest source.id predicate target.id graph) := by
  simp [edgeDocument]

-- The write `buffer_doc` makes for a statement.
def edgeWrite (digest : Bytes → Vector UInt8 32) (options : RdfOptions) (triple : RdfTriple) : DocWrite :=
  (((builtEdge digest options triple).collection,hashKey digest (statementOf digest options triple).input),
    (builtEdge digest options triple).document)

theorem bufferDoc_built (store : DocStore) (triple : RdfTriple) :
    bufferDoc store (builtEdge digest options triple).collection (builtEdge digest options triple).document =
      stored store (edgeWrite digest options triple) := by
  have key : hashKey digest (statementOf digest options triple).input = edgeKey digest
      (termPlacement digest options (resourceTerm triple.subject)).id triple.predicate
        (termPlacement digest options triple.object).id
      (options.edgeGraph triple.graph) := by rw [subject_placement]; rfl
  simp only [bufferDoc,builtEdge,edge_key,Option.getD_some,edgeWrite,stored,key]

def linked (options : RdfOptions) (triples : List RdfTriple) : List RdfTriple :=
  triples.filter fun triple => Linked options triple.object

theorem edges_linked (triples : List RdfTriple) :
    (foldTriples digest options triples).edges = (linked options triples).map (builtEdge digest options) := by
  rw [foldTriples_edges,linked,← List.filterMap_eq_map,List.filterMap_filter]
  refine List.filterMap_congr fun triple _ => ?_
  simp only [edgeOf,decide_eq_true_eq,Function.comp]

theorem bufferDocs_writes (triples : List RdfTriple) : bufferDocs (foldTriples digest options triples).edges =
    FirstWrite.puts ∅ ((linked options triples).map (edgeWrite digest options)) := by
  rw [edges_linked,bufferDocs,FirstWrite.puts,List.foldl_map,List.foldl_map]
  simp only [bufferDoc_built,stored]

end Documents

section Every
variable {P : String → Value → Prop}

def Every (P : String → Value → Prop) (vertices : DocStore) : Prop :=
  ∀ collection key vertex, vertices.find collection key = some vertex → P key vertex

theorem every_empty : Every P ∅ := by
  intro collection key vertex found
  rw [FirstWrite.find_empty] at found
  cases found

theorem stored_every {write : DocWrite} (every : Every P vertices) (fits : P write.1.2 write.2) :
    Every P (stored vertices write) := by
  intro collection key vertex found
  have put : (vertices.puts [write]).find collection key = some vertex := found
  rcases FirstWrite.find_puts_from put with before | made
  · exact every _ _ _ before
  · have made := List.mem_singleton.mp made
    rw [← made] at fits
    exact fits

variable (set : ∀ key vertex predicate value, P key vertex → P key (setProperty predicate value vertex))
include set

theorem addProperty_every (every : Every P vertices) (subject : Placement) (predicate value : String) :
    Every P (addProperty vertices subject predicate value) := by
  intro collection key vertex found
  by_cases same : subject.collection = collection ∧ subject.key = key
  · obtain ⟨rfl,rfl⟩ := same
    rw [addProperty,FirstWrite.find_modify_self] at found
    obtain ⟨old,before,rfl⟩ := Option.map_eq_some_iff.mp found
    exact set _ _ predicate value (every _ _ _ before)
  · rw [addProperty,FirstWrite.find_modify_other same] at found
    exact every _ _ _ found

variable (written : ∀ term, P (termWrite digest options term).1.2 (termWrite digest options term).2)
include written

theorem foldTriple_every (every : Every P vertices) (triple : RdfTriple) :
    Every P (foldTriple digest triple options vertices).1 := by
  rcases foldTriple_cases digest triple options vertices with ⟨-,same⟩ | ⟨-,-,same⟩ | ⟨value,_,_,-,-,-,same⟩
  · rw [same]
    exact stored_every (stored_every every (written _)) (written _)
  · rw [same]
    exact stored_every every (written _)
  · rw [same]
    exact addProperty_every set (stored_every every (written _)) _ _ _

theorem foldTriples_every (triples : List RdfTriple) :
    Every P (foldTriples digest options triples).vertices := by
  induction triples using List.reverseRecOn with
  | nil => exact every_empty
  | append_singleton triples triple ih =>
    rw [foldTriples_step]
    exact foldTriple_every set written ih triple

end Every

section Keyed

structure Vertex (key : String) (vertex : Value) : Prop where
  key : vertex.get "_key" = some (.string key)
  properties : ∃ entries properties, vertex = .object entries ∧
    (Value.lookup "properties" entries).getD (.object []) = .object properties

def Keyed (vertices : DocStore) : Prop :=
  ∀ collection key vertex, vertices.find collection key = some vertex → Vertex key vertex

theorem termWrite_vertex (term : RdfTerm) : Vertex (termWrite digest options term).1.2
    (termWrite digest options term).2 := by
  cases term with
  | iri iri => exact ⟨rfl,_,[],rfl,rfl⟩
  | blankNode label => cases scope : options.blankNodeScope <;>
      exact ⟨rfl,_,[],rfl,by simp [scope]⟩
  | literal value datatype language => cases datatype <;> cases language <;> exact ⟨rfl,_,[],rfl,by simp⟩

theorem stored_keyed (keyed : Keyed vertices) (term : RdfTerm) :
    Keyed (stored vertices (termWrite digest options term)) :=
  stored_every keyed (termWrite_vertex term)

theorem lookup_insertEntry (name other : String) (value : Value) (entries : List (String × Value)) :
    Value.lookup name (insertEntry other value entries) = if name = other then some value
      else Value.lookup name entries := by
  induction entries with
  | nil => simp [insertEntry,eq_comm]
  | cons entry rest ih =>
    obtain ⟨held,old⟩ := entry
    unfold insertEntry
    cases order : @compare String String.instOrd other held with
    | lt => simp [eq_comm]
    | eq =>
      obtain rfl : other = held := Std.LawfulEqOrd.eq_of_compare order
      by_cases same : other = name
      · simp [same]
      · simp [same,Ne.symm same]
    | gt =>
      have apart : other ≠ held := by
        rintro rfl
        rw [Std.ReflOrd.compare_self] at order
        cases order
      by_cases same : held = name
      · subst same
        simp [apart.symm]
      · simp [same,ih]

theorem setProperty_get {name : String} (other : name ≠ "properties") (predicate value : String)
    (vertex : Value) :
    (setProperty predicate value vertex).get name = vertex.get name := by
  cases vertex with
  | object entries =>
    simp only [setProperty]
    split
    · rw [Value.get_object,Value.get_object,lookup_insertEntry,if_neg other]
    · rfl
  | _ => rfl

theorem setProperty_vertex {key : String} {vertex : Value} (fits : Vertex key vertex)
    (predicate value : String) :
    Vertex key (setProperty predicate value vertex) := by
  obtain ⟨keyed,entries,properties,rfl,held⟩ := fits
  have made : setProperty predicate value (.object entries) =
      .object (insertEntry "properties" (.object (insertEntry predicate (.string value) properties))
        entries) := by
    simp only [setProperty,held]
  rw [made]
  refine ⟨?_,_,insertEntry predicate (.string value) properties,rfl,?_⟩
  · rw [Value.get_object,lookup_insertEntry,if_neg (by decide)]
    exact keyed
  · rw [lookup_insertEntry,if_pos rfl]
    rfl

theorem foldTriple_keyed (keyed : Keyed vertices) (triple : RdfTriple) (options : RdfOptions) :
    Keyed (foldTriple digest triple options vertices).1 :=
  foldTriple_every (P:=Vertex) (fun _ _ _ _ fits => setProperty_vertex fits _ _) termWrite_vertex keyed triple

theorem foldTriples_keyed (triples : List RdfTriple) : Keyed (foldTriples digest options triples).vertices :=
  foldTriples_every (P:=Vertex) (fun _ _ _ _ fits => setProperty_vertex fits _ _) termWrite_vertex triples

theorem subject_takes_property (keyed : Keyed vertices) (resource : RdfResource) (predicate value : String) :
    ∃ entries properties, (stored vertices (termWrite digest options (resourceTerm resource))).find
        (options.resourcePlacement digest resource).collection
          (options.resourcePlacement digest resource).key = some (.object entries) ∧
      setProperty predicate value (.object entries) =
        .object (insertEntry "properties"
          (.object (insertEntry predicate (.string value) properties)) entries) := by
  have kept : Keyed (stored vertices (termWrite digest options (resourceTerm resource))) := stored_keyed keyed _
  have found := @FirstWrite.find_put_self _ _ _ _ _ _ _ vertices
      (options.resourcePlacement digest resource).collection
    (options.resourcePlacement digest resource).key (termVertex digest options (resourceTerm resource)) _ _
  rw [← subject_placement] at found ⊢
  obtain ⟨-,entries,properties,same,held⟩ := kept _ _ _ found
  refine ⟨entries,properties,?_,by simp only [setProperty,held]⟩
  rw [← same]
  exact found

end Keyed

section Lasting

theorem stored_kept {collection key : String}
    (present : ∃ vertex, vertices.find collection key = some vertex) (write : DocWrite) :
    ∃ vertex, (stored vertices write).find collection key = some vertex := by
  obtain ⟨vertex,found⟩ := present
  exact ⟨vertex,FirstWrite.find_put_kept found _ _ _⟩

theorem addProperty_kept {collection key : String}
    (present : ∃ vertex, vertices.find collection key = some vertex)
    (subject : Placement) (predicate value : String) :
    ∃ vertex, (addProperty vertices subject predicate value).find collection key = some vertex := by
  obtain ⟨vertex,found⟩ := present
  by_cases same : subject.collection = collection ∧ subject.key = key
  · obtain ⟨rfl,rfl⟩ := same
    exact ⟨_,by rw [addProperty,FirstWrite.find_modify_self,found]; rfl⟩
  · exact ⟨vertex,by rw [addProperty,FirstWrite.find_modify_other same,found]⟩

theorem foldTriple_kept {collection key : String}
    (present : ∃ vertex, vertices.find collection key = some vertex)
    (triple : RdfTriple) (options : RdfOptions) :
    ∃ vertex, (foldTriple digest triple options vertices).1.find collection key = some vertex := by
  rcases foldTriple_cases digest triple options vertices with ⟨-,same⟩ | ⟨-,-,same⟩ | ⟨value,_,_,-,-,-,same⟩
  · rw [same]
    exact stored_kept (stored_kept present _) _
  · rw [same]
    exact stored_kept present _
  · rw [same]
    exact addProperty_kept (stored_kept present _) _ _ _

theorem foldTriples_kept {collection key : String}
    (present : ∃ vertex, (foldTriples digest options triples).vertices.find collection key =
    some vertex) (more : List RdfTriple) :
    ∃ vertex, (foldTriples digest options (triples ++ more)).vertices.find collection key = some vertex := by
  induction more using List.reverseRecOn with
  | nil => rwa [List.append_nil]
  | append_singleton more triple ih =>
    rw [← List.append_assoc,foldTriples_step]
    exact foldTriple_kept ih triple options

end Lasting

end ArangoDataTools.Rdf
