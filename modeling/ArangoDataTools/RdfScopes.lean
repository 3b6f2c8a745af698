import ArangoDataTools.RdfStores
import ArangoDataTools.RdfRendering

namespace ArangoDataTools.Rdf
open RdfLines

variable {digest : Bytes → Vector UInt8 32} {options : RdfOptions} {scope scope' : String}
  {quads quads' : List Quad} {q q' : Quad}

def withScope (options : RdfOptions) (scope : String) : RdfOptions :=
  {options with blankNodeScope := some scope}

def resources (quad : Quad) : List RdfResource := quad.subject :: (objectAsResource quad.object).toList

def edgesFrom (options : RdfOptions) (quads : List Quad) : List Quad :=
  quads.filter fun quad => Linked options quad.object

def Records (options : RdfOptions) (quad : Quad) (graph : RdfResource) : Prop :=
  options.namedGraph ≠ .ignore ∧ quad.graph = some graph

def Shows (options : RdfOptions) (quad : Quad) (label : String) : Prop :=
  .blankNode label ∈ resources quad ∨ Records options quad (.blankNode label)

def graphValue (options : RdfOptions) (quad : Quad) : Option String := options.edgeGraph quad.triple.graph

-- Two imports whose options differ in their scopes never represent blank nodes alike.
structure BlanksApart (digest : Bytes → Vector UInt8 32) (options : RdfOptions)
    (scope scope' : String) (quads quads' : List Quad) :
    Prop where
  vertices : ∀ q ∈ quads, ∀ q' ∈ quads', ∀ x y, .blankNode x ∈ resources q → .blankNode y ∈ resources q' →
    (withScope options scope).resourceKey digest (.blankNode x) ≠
      (withScope options scope').resourceKey digest (.blankNode y)
  edges : ∀ q ∈ edgesFrom options quads, ∀ q' ∈ edgesFrom options quads', ∀ x y, Shows options q x →
    Shows options q' y →
    statementKey digest (withScope options scope) q.triple ≠ statementKey digest
      (withScope options scope') q'.triple
  graphs : ∀ q ∈ edgesFrom options quads, ∀ q' ∈ edgesFrom options quads', ∀ x y,
    Records options q (.blankNode x) →
    Records options q' (.blankNode y) → graphValue options q ≠ graphValue options q'
  iris : ∀ q ∈ edgesFrom options (quads ++ quads'), ∀ q' ∈ edgesFrom options (quads ++ quads'),
    ∀ x iri, Records options q (.blankNode x) →
    Records options q' (.iri iri) → graphValue options q ≠ graphValue options q'
  one : ∀ q ∈ quads, ∀ q' ∈ quads, ∀ r ∈ resources q, ∀ r' ∈ resources q', r = r' →
    ((withScope options scope).resourcePlacement digest r).key =
    ((withScope options scope).resourcePlacement digest r').key

-- No blank graph label is recorded by both imports, none reads like the IRI of a graph,
-- and no predicate overruns.
structure LabelsClear (digest : Bytes → Vector UInt8 32) (options : RdfOptions)
    (scope scope' : String) (quads quads' : List Quad) :
    Prop where
  labels : ∀ q ∈ edgesFrom options quads, ∀ q' ∈ edgesFrom options quads', ∀ x,
    Records options q (.blankNode x) →
    ¬ Records options q' (.blankNode x)
  iris : ∀ q ∈ edgesFrom options (quads ++ quads'), ∀ q' ∈ edgesFrom options (quads ++ quads'), ∀ x,
    Records options q (.blankNode x) →
    ¬ Records options q' (.iri ("_:" ++ x))
  overruns : ∀ q ∈ edgesFrom options quads, ∀ q' ∈ edgesFrom options quads', ∀ x y,
    Shows options q x → Shows options q' y →
    ¬ Blended (statementOf digest (withScope options scope) q.triple)
      (statementOf digest (withScope options scope') q'.triple)

-- What an import hashes to make its keys.
def hashed (digest : Bytes → Vector UInt8 32) (options : RdfOptions) (quads : List Quad) : List Bytes :=
  quads.flatMap fun quad => [termInput options (resourceTerm quad.subject),termInput options quad.object,
    (statementOf digest options quad.triple).input]

section Hashed

theorem hashed_subject (inside : q ∈ quads) :
    termInput options (resourceTerm q.subject) ∈ hashed digest options quads :=
  List.mem_flatMap.mpr ⟨q,inside,by simp⟩

theorem hashed_object (inside : q ∈ quads) : termInput options q.object ∈ hashed digest options quads :=
  List.mem_flatMap.mpr ⟨q,inside,by simp⟩

theorem hashed_statement (inside : q ∈ quads) :
    (statementOf digest options q.triple).input ∈ hashed digest options quads :=
  List.mem_flatMap.mpr ⟨q,inside,by simp⟩

theorem resource_object {term : RdfTerm} {resource : RdfResource}
    (made : objectAsResource term = some resource) :
    term = resourceTerm resource := by
  cases term <;> cases made <;> rfl

theorem hashed_resource (inside : q ∈ quads) {resource : RdfResource} (held : resource ∈ resources q) :
    termInput options (resourceTerm resource) ∈ hashed digest options quads := by
  rcases List.mem_cons.mp held with rfl | held
  · exact hashed_subject inside
  · rw [← resource_object (Option.mem_toList.mp held)]
    exact hashed_object inside

end Hashed

section Scopes

theorem blank_apart (clear : '\x00' ∉ scope.toList) (clear' : '\x00' ∉ scope'.toList)
    (apart : scope ≠ scope') (x : String)
    (term : RdfTerm) : termInput (withScope options scope) (.blankNode x) ≠ termInput
      (withScope options scope') term := by
  intro same
  cases term with
  | iri iri => exact absurd (domain_apart (by decide) (by decide) same) (by decide)
  | literal value datatype language => exact absurd (domain_apart (by decide) (by decide) same) (by decide)
  | blankNode y =>
    have texts := hashInput_same.mp same
    simp only [joined,List.flatMap_cons,List.cons_append,List.cons.injEq,true_and] at texts
    exact apart (String.toList_inj.mp (split_first clear clear' texts).1)

theorem records_value {graph : RdfResource} (records : Records options q graph) :
    graphValue options q = some (graphName graph) := by
  obtain ⟨tracked,label⟩ := records
  unfold graphValue RdfOptions.edgeGraph
  rw [Quad.triple,label]
  split
  · next ignored => exact absurd ignored tracked
  · rfl
  · rfl

theorem blank_name {x y : String} : graphName (.blankNode x) = graphName (.blankNode y) ↔ x = y := by
  rw [graphName,graphName,← String.toList_inj,String.toList_append,String.toList_append,
    List.append_right_inj,String.toList_inj]

theorem edgesFrom_mem (inside : q ∈ edgesFrom options quads) : q ∈ quads := List.mem_of_mem_filter inside

theorem withScope_base (options : RdfOptions) (scope scope' : String) :
    SameBase (withScope options scope) (withScope options scope') :=
  ⟨rfl,rfl⟩

theorem shared_id (clear : '\x00' ∉ scope.toList) (clear' : '\x00' ∉ scope'.toList)
    (apart : scope ≠ scope') {x y : RdfTerm}
    (free : CollisionFree digest (termInput (withScope options scope) x)
      (termInput (withScope options scope') y))
    (same : (termPlacement digest (withScope options scope) x).id =
      (termPlacement digest (withScope options scope') y).id) (label : String) :
    x ≠ .blankNode label := by
  rintro rfl
  have texts := congrArg (fun id : String => id.toList ++ []) same
  have keys := (id_split (withScope_base options scope scope') texts).1.2
  rw [placement_key,placement_key,hashKey_iff free] at keys
  exact blank_apart clear clear' apart label _ keys

theorem resource_shown {label : String} (held : .blankNode label ∈ resources q) :
    resourceTerm q.subject = .blankNode label ∨ q.object = .blankNode label := by
  rcases List.mem_cons.mp held with same | held
  · exact .inl (by rw [← same]; rfl)
  · exact .inr (resource_object (Option.mem_toList.mp held))

theorem shared_statement (clear : '\x00' ∉ scope.toList) (clear' : '\x00' ∉ scope'.toList)
    (apart : scope ≠ scope')
    (free : ∀ one ∈ hashed digest (withScope options scope) quads,
    ∀ two ∈ hashed digest (withScope options scope') quads',
      CollisionFree digest one two) (inside : q ∈ quads) (inside' : q' ∈ quads')
    (same : statementOf digest (withScope options scope) q.triple =
      statementOf digest (withScope options scope') q'.triple)
    {label : String} (shows : Shows options q label) : Records options q (.blankNode label) := by
  refine shows.resolve_left fun held => ?_
  have sources := congrArg Statement.fromId same
  have targets := congrArg Statement.toId same
  rw [statement_from,statement_from] at sources
  rcases resource_shown held with subject | object
  · exact shared_id clear clear' apart (free _ (hashed_subject inside) _ (hashed_subject inside'))
      sources label subject
  · exact shared_id clear clear' apart (free _ (hashed_object inside) _ (hashed_object inside'))
      targets label object

end Scopes
section Apart

variable (clear : '\x00' ∉ scope.toList) (clear' : '\x00' ∉ scope'.toList) (apart : scope ≠ scope')
  (free : ∀ one ∈ hashed digest (withScope options scope) quads,
    ∀ two ∈ hashed digest (withScope options scope') quads',
    CollisionFree digest one two)

include clear clear' apart free in
theorem vertices_apart (inside : q ∈ quads) (inside' : q' ∈ quads') {x y : String}
    (held : .blankNode x ∈ resources q)
    (held' : .blankNode y ∈ resources q') :
    (withScope options scope).resourceKey digest (.blankNode x) ≠
      (withScope options scope').resourceKey digest (.blankNode y) := by
  intro same
  have inputs := (hashKey_iff (free _ (hashed_resource inside held) _ (hashed_resource inside' held'))).mp same
  exact blank_apart clear clear' apart x (.blankNode y) inputs

include clear clear' apart free in
theorem edges_apart (labels : LabelsClear digest options scope scope' quads quads')
    (inside : q ∈ edgesFrom options quads)
    (inside' : q' ∈ edgesFrom options quads') {x y : String} (shows : Shows options q x)
      (shows' : Shows options q' y) :
    statementKey digest (withScope options scope) q.triple ≠ statementKey digest
      (withScope options scope') q'.triple := by
  intro same
  have held := edgesFrom_mem inside
  have held' := edgesFrom_mem inside'
  have inputs := (hashKey_iff (free _ (hashed_statement held) _ (hashed_statement held'))).mp same
  by_cases equal : statementOf digest (withScope options scope) q.triple =
    statementOf digest (withScope options scope') q'.triple
  · have back : ∀ one ∈ hashed digest (withScope options scope') quads',
        ∀ two ∈ hashed digest (withScope options scope) quads,
        CollisionFree digest one two := fun one member two member' digests =>
        (free two member' one member digests.symm).symm
    have first := shared_statement clear clear' apart free held held' equal shows
    have second := shared_statement clear' clear apart.symm back held' held equal.symm shows'
    have values : graphValue options q = graphValue options q' := congrArg Statement.graph equal
    rw [records_value first,records_value second,Option.some.injEq,blank_name] at values
    exact labels.labels q inside q' inside' x first (values ▸ second)
  · exact labels.overruns q inside q' inside' x y shows shows'
      ((statement_iff (withScope_base options scope scope') equal).mp inputs)

-- Two imports keep their blank nodes apart exactly when the labels of their graphs do.
theorem blanks_apart_iff (digest : Bytes → Vector UInt8 32) (options : RdfOptions)
    (scope scope' : String) (quads quads' : List Quad)
    (clear : '\x00' ∉ scope.toList) (clear' : '\x00' ∉ scope'.toList) (apart : scope ≠ scope')
    (free : ∀ one ∈ hashed digest (withScope options scope) quads,
    ∀ two ∈ hashed digest (withScope options scope') quads',
      CollisionFree digest one two) :
    BlanksApart digest options scope scope' quads quads' ↔
      LabelsClear digest options scope scope' quads quads' := by
  constructor
  · intro kept
    refine ⟨fun q inside q' inside' x records records' => ?_,fun q inside q' inside' x records records' => ?_,
      fun q inside q' inside' x y shows shows' blended => ?_⟩
    · exact kept.graphs q inside q' inside' x x records records'
        (by rw [records_value records,records_value records'])
    · exact kept.iris q inside q' inside' x _ records records'
        (by rw [records_value records,records_value records']; rfl)
    · refine kept.edges q inside q' inside' x y shows shows' (congrArg (hashKey digest) ?_)
      by_cases equal : statementOf digest (withScope options scope) q.triple =
        statementOf digest (withScope options scope') q'.triple
      · rw [equal]
      · exact (statement_iff (withScope_base options scope scope') equal).mpr blended
  · intro labels
    refine ⟨fun q inside q' inside' x y held held' =>
      vertices_apart clear clear' apart free inside inside' held held',
      fun q inside q' inside' x y shows shows' =>
        edges_apart clear clear' apart free labels inside inside' shows shows',
      fun q inside q' inside' x y records records' same => ?_,
        fun q inside q' inside' x iri records records' same => ?_,
      fun q inside q' inside' r held r' held' same => by rw [same]⟩
    · rw [records_value records,records_value records',Option.some.injEq,blank_name] at same
      exact labels.labels q inside q' inside' x records (same ▸ records')
    · rw [records_value records,records_value records',Option.some.injEq] at same
      exact labels.iris q inside q' inside' x records
        (show Records options q' (.iri (graphName (.blankNode x))) from same ▸ records')

end Apart

-- SHA-256 of the texts that `_:x <p> _:x .` leads to in the scopes `a` and `b`.
def loopQuad : Quad := ⟨.blankNode "x","p",.blankNode "x",none⟩
def firstNode : Vector UInt8 32 :=
  #v[190,122,84,128,9,111,6,225,55,163,168,38,177,111,10,202,153,3,10,126,250,15,209,146,208,11,106,
    62,131,132,247,167]
def secondNode : Vector UInt8 32 :=
  #v[5,62,72,110,240,144,1,53,164,38,113,88,170,50,200,15,16,25,71,178,20,220,163,49,17,198,120,90,7,186,136,59]
def firstEdge : Vector UInt8 32 :=
  #v[124,234,164,191,111,28,112,8,87,212,211,60,161,78,40,155,182,234,136,35,81,8,21,111,55,218,102,
    129,97,141,249,39]
def secondEdge : Vector UInt8 32 :=
  #v[16,181,196,9,237,187,21,231,61,239,207,218,216,63,172,136,108,217,83,72,237,51,151,21,46,4,175,
    63,73,179,124,204]

def loopInput (node : Vector UInt8 32) : Bytes :=
  edgeInput ("nodes/" ++ hex node.toList) "p" ("nodes/" ++ hex node.toList) none

def loopDigest (input : Bytes) : Vector UInt8 32 :=
  if input = resourceInput (some "a") (.blankNode "x") then firstNode
  else if input = resourceInput (some "b") (.blankNode "x") then secondNode
  else if input = loopInput firstNode then firstEdge
  else if input = loopInput secondNode then secondEdge
  else Vector.replicate 32 0

theorem loop_nodes : loopDigest (resourceInput (some "a") (.blankNode "x")) = firstNode ∧
    loopDigest (resourceInput (some "b") (.blankNode "x")) = secondNode := by
  have scopes : termInput (withScope plainOptions "b") (.blankNode "x") ≠ termInput
      (withScope plainOptions "a") (.blankNode "x") :=
    blank_apart (by decide) (by decide) (by decide) "x" _
  exact ⟨if_pos rfl,(if_neg scopes).trans (if_pos rfl)⟩

theorem loop_edges : loopDigest (loopInput firstNode) = firstEdge ∧
    loopDigest (loopInput secondNode) = secondEdge := by
  have node : ∀ edge scope, loopInput edge ≠ resourceInput (some scope) (.blankNode "x") :=
    fun edge scope same =>
    absurd (domain_apart (by decide) (by decide) same) (by decide)
  have edges : loopInput secondNode ≠ loopInput firstNode := by
    intro same
    have texts := hashInput_same.mp same
    simp only [joined,List.flatMap_cons,List.cons_append,List.cons.injEq,true_and] at texts
    have ids := (List.append_inj texts (by simp [hex_length])).1
    simp only [String.toList_append,List.append_right_inj,String.toList_inj] at ids
    exact absurd (Vector.toList_inj.mp (hex_inj ids)) (by decide)
  refine ⟨?_,?_⟩
  · rw [loopDigest,if_neg (node _ _),if_neg (node _ _),if_pos rfl]
  · rw [loopDigest,if_neg (node _ _),if_neg (node _ _),if_neg edges,if_pos rfl]

theorem loop_input {scope : String} {node : Vector UInt8 32}
    (known : loopDigest (resourceInput (some scope) (.blankNode "x")) = node) :
    (statementOf loopDigest (withScope plainOptions scope) loopQuad.triple).input = loopInput node := by
  have key : (withScope plainOptions scope).resourceKey loopDigest (.blankNode "x") = hex node.toList :=
    congrArg (fun bytes : Vector UInt8 32 => hex bytes.toList) known
  simp only [Statement.input,statementOf,Quad.triple,loopQuad,termPlacement,
    RdfOptions.resourcePlacement,Placement.id,key]
  rfl

theorem loop_hashed {scope : String} {node : Vector UInt8 32}
    (known : loopDigest (resourceInput (some scope) (.blankNode "x")) = node)
    {input : Bytes} (inside : input ∈ hashed loopDigest (withScope plainOptions scope) [loopQuad]) :
    input = resourceInput (some scope) (.blankNode "x") ∨ input = loopInput node := by
  rw [← loop_input known]
  simp only [hashed,List.flatMap_cons,List.flatMap_nil,List.append_nil,List.mem_cons,
    List.not_mem_nil,or_false] at inside
  rcases inside with same | same | same
  · exact .inl same
  · exact .inl same
  · exact .inr same

theorem loop_kept_apart : BlanksApart loopDigest plainOptions "a" "b" [loopQuad] [loopQuad] := by
  refine (blanks_apart_iff loopDigest plainOptions "a" "b" [loopQuad] [loopQuad] (by decide)
    (by decide) (by decide) ?_).mpr
    ⟨fun _ _ _ _ _ records => absurd rfl records.1,fun _ _ _ _ _ records => absurd rfl records.1,?_⟩
  · intro one member two member' same
    rcases loop_hashed loop_nodes.1 member with rfl | rfl <;>
      rcases loop_hashed loop_nodes.2 member' with rfl | rfl
    · rw [loop_nodes.1,loop_nodes.2] at same
      exact absurd same (by decide)
    · rw [loop_nodes.1,loop_edges.2] at same
      exact absurd same (by decide)
    · rw [loop_edges.1,loop_nodes.2] at same
      exact absurd same (by decide)
    · rw [loop_edges.1,loop_edges.2] at same
      exact absurd same (by decide)
  · intro q inside q' inside' x y _ _ blended
    obtain rfl := List.mem_singleton.mp (edgesFrom_mem inside)
    obtain rfl := List.mem_singleton.mp (edgesFrom_mem inside')
    rcases blended with ⟨-,middle,longer,-⟩ | ⟨-,middle,longer,-⟩
    · simp [statementOf,Quad.triple,loopQuad] at longer
    · simp [statementOf,Quad.triple,loopQuad] at longer

-- `<s> <p> <o> _:g .` in two sources, and `<s> <p> <o> <_:g> .`
def graphLine : List Char := ['<','s','>',' ','<','p','>',' ','<','o','>',' ','_',':','g',' ','.']
def iriLine : List Char := ['<','s','>',' ','<','p','>',' ','<','o','>',' ','<','_',':','g','>',' ','.']
def graphQuad (graph : RdfResource) : Quad := ⟨.iri "s","p",.iri "o",some graph⟩

theorem graph_label_shared :
    RdfReading.readRdfTriples graphLine .nQuads = ([(graphQuad (.blankNode "g")).triple],none) ∧
    RdfReading.readRdfTriples iriLine .nQuads = ([(graphQuad (.iri "_:g")).triple],none) ∧
    ∀ digest, ¬ BlanksApart digest {plainOptions with namedGraph := .property} "a" "b"
      [graphQuad (.blankNode "g")]
        [graphQuad (.blankNode "g")] ∧
      ¬ BlanksApart digest {plainOptions with namedGraph := .property} "a" "b"
        [graphQuad (.blankNode "g")] [graphQuad (.iri "_:g")] := by
  have blank : Records {plainOptions with namedGraph := .property} (graphQuad (.blankNode "g"))
      (.blankNode "g") := ⟨by decide,rfl⟩
  refine ⟨rfl,rfl,fun digest => ⟨fun kept => ?_,fun kept => ?_⟩⟩
  · exact kept.graphs _ List.mem_cons_self _ List.mem_cons_self "g" "g" blank blank rfl
  · exact kept.iris (graphQuad (.blankNode "g")) List.mem_cons_self (graphQuad (.iri "_:g"))
      (List.mem_cons_of_mem _ List.mem_cons_self)
      "g" "_:g" blank ⟨by decide,rfl⟩ rfl

end ArangoDataTools.Rdf
