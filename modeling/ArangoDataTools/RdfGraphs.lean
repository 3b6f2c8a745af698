import ArangoDataTools.RdfModel

namespace ArangoDataTools.Rdf

variable {digest : Bytes → Vector UInt8 32} {options : RdfOptions} {one two : String}

-- What the slug keeps of a label, and of its hash.
def graphStem (graph : String) : List Char :=
  (graph.toList.map fun c => if TextScan.isAsciiAlphanumeric c then c else '_').take 48

def graphTag (digest : Bytes → Vector UInt8 32) (graph : String) : Bytes :=
  (digest (graphInput graph)).toList.take 4

theorem hex_take (bytes : Bytes) (count : Nat) : (hex bytes).toList.take (2 * count) =
    (hex (bytes.take count)).toList := by
  rw [hex_toList,hex_toList]
  induction bytes generalizing count with
  | nil => simp
  | cons byte rest ih =>
    cases count with
    | zero => simp
    | succ count =>
      rw [List.flatMap_cons,List.take_succ_cons,List.flatMap_cons,← ih]
      exact rfl

theorem graphSlug_toList (digest : Bytes → Vector UInt8 32) (graph : String) :
    (graphSlug digest graph).toList = graphStem graph ++ '_' :: (hex (graphTag digest graph)).toList := by
  have tag : (hashKey digest (graphInput graph)).toList.take 8 =
      (hex (graphTag digest graph)).toList := hex_take _ 4
  simp only [graphSlug,String.toList_append,String.toList_ofList,tag]
  rw [List.append_assoc]
  rfl

theorem graphTag_length (digest : Bytes → Vector UInt8 32) (graph : String) :
    (hex (graphTag digest graph)).toList.length = 8 := by
  rw [hex_length,graphTag,List.length_take,Vector.length_toList]
  rfl

theorem graphSlug_same : graphSlug digest one = graphSlug digest two ↔
    graphStem one = graphStem two ∧ graphTag digest one = graphTag digest two := by
  constructor
  · intro same
    have texts := congrArg String.toList same
    rw [graphSlug_toList,graphSlug_toList] at texts
    obtain ⟨stems,tags⟩ := List.append_inj' texts
        (by rw [List.length_cons,List.length_cons,graphTag_length,graphTag_length])
    exact ⟨stems,hex_inj (String.toList_inj.mp (List.cons.inj tags).2)⟩
  · intro ⟨stems,tags⟩
    refine String.toList_inj.mp ?_
    rw [graphSlug_toList,graphSlug_toList,stems,tags]

theorem graph_beside_base (routed : options.namedGraph = .collection) (graph : String) :
    options.edgeCollectionFor digest (some graph) ≠ options.edgeCollection := by
  intro same
  have lengths := congrArg (fun name => name.toList.length) same
  simp only [RdfOptions.edgeCollectionFor,routed,String.toList_append,List.length_append,
    graphSlug_toList,List.length_cons] at lengths
  omega

theorem collection_same (routed : options.namedGraph = .collection) :
    options.edgeCollectionFor digest (some one) =
    options.edgeCollectionFor digest (some two) ↔ graphSlug digest one = graphSlug digest two := by
  simp only [RdfOptions.edgeCollectionFor,routed]
  exact String.append_right_inj _

theorem graphs_apart_iff (digest : Bytes → Vector UInt8 32) (options : RdfOptions)
    (routed : options.namedGraph = .collection)
    (one two : String) :
    (options.edgeCollectionFor digest (some one) ≠ options.edgeCollectionFor digest (some two) ∧
      options.edgeCollectionFor digest (some one) ≠ options.edgeCollection ∧
      options.edgeCollectionFor digest (some two) ≠ options.edgeCollection) ↔
    graphStem one ≠ graphStem two ∨ graphTag digest one ≠ graphTag digest two := by
  rw [ne_eq,collection_same routed,graphSlug_same,not_and_or]
  exact and_iff_left ⟨graph_beside_base routed one,graph_beside_base routed two⟩

def archiveGraph : String := "http://data.example.org/graphs/archive/collections/15638"
def otherArchiveGraph : String := "http://data.example.org/graphs/archive/collections/57439"

def archiveDigest (input : Bytes) : Vector UInt8 32 :=
  if input = graphInput archiveGraph then
    #v[131,248,186,126,17,35,243,221,126,136,69,71,84,115,59,218,156,140,162,88,128,130,43,108,113,
    147,250,170,24,13,188,211]
  else if input = graphInput otherArchiveGraph then
    #v[131,248,186,126,167,120,53,147,178,242,197,185,139,246,136,164,197,185,243,218,205,150,173,
    116,2,58,57,41,224,130,28,9]
  else Vector.replicate 32 0

def routedOptions : RdfOptions :=
  {vertexCollection := "nodes",edgeCollection := "links",namedGraph := .collection}

theorem short_label_apart : routedOptions.edgeCollectionFor archiveDigest (some "http://g/1") ≠
    routedOptions.edgeCollectionFor archiveDigest (some "http://g/2") :=
  ((graphs_apart_iff archiveDigest routedOptions rfl "http://g/1" "http://g/2").mpr (.inl (by decide))).1

theorem archive_graphs_share : ¬∀ (digest : Bytes → Vector UInt8 32) (options : RdfOptions) (one two : String),
    options.namedGraph = .collection → one ≠ two → digest (graphInput one) ≠ digest (graphInput two) →
      options.edgeCollectionFor digest (some one) ≠ options.edgeCollectionFor digest (some two) := by
  intro always
  have inputs : graphInput otherArchiveGraph ≠ graphInput archiveGraph := by decide
  have first : archiveDigest (graphInput archiveGraph) = _ := if_pos rfl
  have second : archiveDigest (graphInput otherArchiveGraph) = _ := (if_neg inputs).trans (if_pos rfl)
  refine always archiveDigest routedOptions archiveGraph otherArchiveGraph rfl (by decide) ?_ ?_
  · rw [first,second]
    decide
  · refine (collection_same rfl).mpr (graphSlug_same.mpr ⟨by decide,?_⟩)
    rw [graphTag,graphTag,first,second]
    rfl

end ArangoDataTools.Rdf
