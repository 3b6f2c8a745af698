import ArangoDataTools.RdfDatabase
import ArangoDataTools.SharedWorld

namespace ArangoDataTools.Rdf

section Writes
variable {digest : Bytes → Vector UInt8 32} {options : RdfOptions} {triples more : List RdfTriple}

def statementWrites (digest : Bytes → Vector UInt8 32) (options : RdfOptions)
    (triples : List RdfTriple) : List DocWrite :=
  triples.flatMap (vertexWrites digest options) ++ (linked options triples).map (edgeWrite digest options)

-- No term shares its key with a statement either.
structure AllApart (digest : Bytes → Vector UInt8 32) (options : RdfOptions) (triples : List RdfTriple) : Prop
    extends KeysApart digest options triples where
  kinds : ∀ x ∈ Rdf.terms triples, ∀ triple ∈ triples,
    (termPlacement digest options x).key ≠ statementKey digest options triple

theorem terms_subset (within : more ⊆ triples) : Rdf.terms more ⊆ Rdf.terms triples := by
  intro x inside
  obtain ⟨triple,read,held⟩ := List.mem_flatMap.mp inside
  exact List.mem_flatMap.mpr ⟨triple,within read,held⟩

theorem keysApart_subset (within : more ⊆ triples) (apart : KeysApart digest options triples) :
    KeysApart digest options more where
  terms x inside y inside' := apart.terms x (terms_subset within inside) y (terms_subset within inside')
  statements a inside b inside' := apart.statements a (within inside) b (within inside')

theorem statementWrites_consistent (apart : AllApart digest options triples) :
    FirstWrite.Consistent (statementWrites digest options triples) := by
  have mixed : ∀ one ∈ triples.flatMap (vertexWrites digest options),
      ∀ two ∈ (linked options triples).map (edgeWrite digest options),
      one.1 ≠ two.1 := by
    intro one held two held' same
    obtain ⟨x,inside,rfl⟩ := vertexWrites_term held
    obtain ⟨triple,inside',rfl⟩ := List.mem_map.mp held'
    exact apart.kinds x inside triple (List.mem_of_mem_filter inside') (congrArg Prod.snd same)
  intro one held two held' same
  rcases List.mem_append.mp held with vertex | edge <;> rcases List.mem_append.mp held' with vertex' | edge'
  · exact vertexWrites_consistent apart.toKeysApart one vertex two vertex' same
  · exact absurd same (mixed one vertex two edge')
  · exact absurd same.symm (mixed two vertex' one edge)
  · exact edgeWrites_consistent apart.toKeysApart one edge two edge' same

theorem statementWrites_subset (within : more ⊆ triples) :
    statementWrites digest options more ⊆ statementWrites digest options triples := by
  intro write held
  rcases List.mem_append.mp held with vertex | edge
  · obtain ⟨triple,inside,made⟩ := List.mem_flatMap.mp vertex
    exact List.mem_append_left _ (List.mem_flatMap.mpr ⟨triple,within inside,made⟩)
  · obtain ⟨triple,inside,made⟩ := List.mem_map.mp edge
    obtain ⟨read,link⟩ := List.mem_filter.mp inside
    exact List.mem_append_right _ (List.mem_map.mpr ⟨triple,List.mem_filter.mpr ⟨within read,link⟩,made⟩)

theorem statementWrites_one {write : DocWrite} (held : write ∈ statementWrites digest options triples) :
    ∃ triple ∈ triples, write ∈ statementWrites digest options [triple] := by
  rcases List.mem_append.mp held with vertex | edge
  · obtain ⟨triple,inside,made⟩ := List.mem_flatMap.mp vertex
    exact ⟨triple,inside,List.mem_append_left _ (List.mem_flatMap.mpr ⟨triple,List.mem_singleton_self _,made⟩)⟩
  · obtain ⟨triple,inside,made⟩ := List.mem_map.mp edge
    obtain ⟨read,link⟩ := List.mem_filter.mp inside
    exact ⟨triple,read,List.mem_append_right _
      (List.mem_map.mpr ⟨triple,List.mem_filter.mpr ⟨List.mem_singleton_self _,link⟩,made⟩)⟩

theorem linked_topology (topology : options.graphModel = .rpt) (object : RdfTerm) : Linked options object := by
  cases object <;> simp [Linked,topology]

theorem statementWrites_keyed {write : DocWrite} (held : write ∈ statementWrites digest options triples) :
    write.2.get "_key" = some (.string write.1.2) := by
  rcases List.mem_append.mp held with vertex | edge
  · obtain ⟨x,-,rfl⟩ := vertexWrites_term vertex
    exact (termWrite_vertex x).key
  · obtain ⟨triple,-,rfl⟩ := List.mem_map.mp edge
    simp only [edgeWrite,edge_document]
    cases (statementOf digest options triple).graph <;> rfl

def readEnd (documents : String → String → Option Value) (id : String) : Option RdfTerm := do
  let (collection,key) ← splitId id
  let vertex ← documents collection key
  decodeVertex vertex

def readStatement (documents : String → String → Option Value) (document : Value) : Option RdfTriple := do
  let source ← readEnd documents (← textAt document "_from")
  let subject ← objectAsResource source
  let predicate ← textAt document "predicate"
  let object ← readEnd documents (← textAt document "_to")
  some {subject,predicate,object,graph := textAt document "graph"}

section Reading
variable (topology : options.graphModel = .rpt) (tracked : options.namedGraph ≠ .ignore)
  (apart : AllApart digest options triples)
include topology tracked apart

theorem statement_found {triple : RdfTriple} (read : triple ∈ triples) :
    readStatement (FirstWrite.find (FirstWrite.puts ∅ (statementWrites digest options triples)))
      (builtEdge digest options triple).document =
      some triple := by
  refine @decodeEdge_built digest options triple
    (FirstWrite.puts ∅ (statementWrites digest options triples)) tracked fun term inside => ?_
  refine (FirstWrite.find_puts_iff (statementWrites_consistent apart)).mpr
    (List.mem_append_left _ (List.mem_flatMap.mpr ⟨triple,read,?_⟩))
  rw [vertexWrites,if_pos (linked_topology topology _)]
  rcases List.mem_pair.mp inside with rfl | rfl
  · exact List.mem_cons_self
  · exact List.mem_cons_of_mem _ (List.mem_singleton_self _)

theorem read_back (triple : RdfTriple) :
    let documents := FirstWrite.find (FirstWrite.puts ∅ (statementWrites digest options triples))
    triple ∈ triples ↔ ∃ place key value, documents place key = some value ∧
    readStatement documents value = some triple := by
  intro documents
  constructor
  · intro read
    have link : triple ∈ linked options triples :=
      List.mem_filter.mpr ⟨read,decide_eq_true (linked_topology topology _)⟩
    have found := (FirstWrite.find_puts_iff (statementWrites_consistent apart)).mpr
      (List.mem_append_right _ (List.mem_map_of_mem (f:=edgeWrite digest options) link))
    exact ⟨_,_,_,found,statement_found topology tracked apart read⟩
  · rintro ⟨place,key,value,found,told⟩
    rcases List.mem_append.mp
      ((FirstWrite.find_puts_iff (statementWrites_consistent apart)).mp found) with vertex | edge
    · obtain ⟨x,-,same⟩ := vertexWrites_term vertex
      obtain rfl : value = _ := congrArg Prod.snd same
      have none_ : textAt (termWrite digest options x).2 "_from" = none := by
        rw [textAt,(termWrite_endless x).from_]; rfl
      rw [readStatement,none_] at told
      cases told
    · obtain ⟨source,inside,same⟩ := List.mem_map.mp edge
      obtain rfl : _ = value := congrArg Prod.snd same
      have read : source ∈ triples := List.mem_of_mem_filter inside
      have own := statement_found topology tracked apart read
      obtain rfl : source = triple := Option.some.inj (own.symm.trans told)
      exact read

end Reading
end Writes
end ArangoDataTools.Rdf

namespace ArangoDataTools.ImportRdf
open Interaction Interaction.Program ImportPipeline Rdf

variable {W : Type}

-- One of several imports: it has some of the statements, and its own batches and workers.
structure Share where
  triples : List RdfTriple
  parseError : Option Error := none
  batch : BatchConfig := {}
  concurrency : ConcurrencyConfig

def RdfImport.share (imp : RdfImport W) (share : Share) : RdfImport W :=
  {imp with triples := share.triples,parseError := share.parseError,batch := share.batch,concurrency := share.concurrency}

-- The document that the statements have for a place.
def RdfImport.imported (imp : RdfImport W) (place key : String) : Option Value :=
  FirstWrite.find (FirstWrite.puts ∅ (statementWrites imp.digest imp.options imp.triples)) place key

-- It has returned, and the server has rejected nothing.
def Clean {imp : RdfImport W} (s : ImportState imp) : Prop :=
  (∃ result, s.main = .finished (.ok result)) ∧ ∀ load ∈ s.loads, ∀ answer ∈ load.answers, answer.2.errors = 0

section Shares
variable {imp : RdfImport W} {document : W → String → String → Option Value}
  {decode : Bytes → List Value} {place key : String}
  {value : Value}

def RdfImport.Writes (imp : RdfImport W) (place key : String) (value : Value) : Prop :=
  ((place,key),value) ∈ statementWrites imp.digest imp.options imp.triples

theorem edge_collection (triple : RdfTriple) (single : ¬ imp.routed) :
    (builtEdge imp.digest imp.options triple).collection = imp.options.edgeCollection := by
  unfold builtEdge RdfOptions.edgeCollectionFor
  split
  · next _ routed _ => exact absurd routed single
  · rfl

theorem store_writes {writes : List DocWrite} {job : Job} {kind : CollectionKind}
    (keyed : ∀ write ∈ writes, write.2.get "_key" = some (.string write.1.2))
    (member : job ∈ jobsOf kind (FirstWrite.puts ∅ writes)) (inside : value ∈ job.documents)
      (named : value.get "_key" = some (.string key)) :
    ((job.collection,key),value) ∈ writes := by
  obtain ⟨name,found⟩ := jobsOf_found member inside
  have written := (FirstWrite.find_puts_from found).resolve_left (by simp [FirstWrite.find_empty])
  have same : name = key := Value.string.inj (Option.some.inj ((keyed _ written).symm.trans named))
  exact same ▸ written

theorem brings_written (plain : ¬ Attaching imp.options) (brings : imp.Brings place key value) :
    imp.Writes place key value := by
  obtain ⟨job,carried,rfl,inside,named⟩ := brings
  rcases carried with ⟨single,rfl⟩ | ⟨done_,begins,member⟩
  · obtain ⟨edge,emitted,rfl⟩ := List.mem_map.mp inside
    obtain ⟨triple,read,link,rfl⟩ := mem_edges.mp emitted
    have write : edgeWrite imp.digest imp.options triple ∈ statementWrites imp.digest imp.options imp.triples :=
      List.mem_append_right _ (List.mem_map_of_mem (List.mem_filter.mpr ⟨read,decide_eq_true link⟩))
    have same : (edgeWrite imp.digest imp.options triple).1.2 = key :=
      Value.string.inj (Option.some.inj ((statementWrites_keyed write).symm.trans named))
    have whole : edgeWrite imp.digest imp.options triple =
        ((imp.edges.collection,key),(builtEdge imp.digest imp.options triple).document) :=
      Prod.ext (Prod.ext (edge_collection triple single) same) rfl
    rwa [whole] at write
  · have keyed : ∀ write ∈ statementWrites imp.digest imp.options done_,
        write.2.get "_key" = some (.string write.1.2) :=
      fun _ => statementWrites_keyed
    refine statementWrites_subset begins.subset ?_
    rcases List.mem_append.mp member with vertices | edges
    · rw [foldTriples_vertices plain] at vertices
      exact List.mem_append_left _
        (store_writes (fun write held => keyed write (List.mem_append_left _ held)) vertices inside named)
    · by_cases routed : imp.routed
      · rw [if_pos routed,bufferDocs_writes] at edges
        exact List.mem_append_right _
          (store_writes (fun write held => keyed write (List.mem_append_right _ held)) edges inside named)
      · rw [if_neg routed] at edges
        cases edges

theorem writes_listed (plain : ¬ Attaching imp.options) (apart : KeysApart imp.digest imp.options imp.triples)
    (written : imp.Writes place key value) :
    ∃ job ∈ imp.jobs (foldTriples imp.digest imp.options imp.triples) ++
      (if imp.routed then [] else [imp.edges]),
      job.collection = place ∧ value ∈ job.documents := by
  rcases List.mem_append.mp written with vertex | edge
  · have found := (FirstWrite.find_puts_iff (vertexWrites_consistent apart)).mpr vertex
    rw [← foldTriples_vertices plain] at found
    obtain ⟨job,member,same,inside⟩ := jobsOf_holds .document found
    exact ⟨job,List.mem_append_left _ (List.mem_append_left _ member),same,inside⟩
  · by_cases routed : imp.routed
    · have found := (FirstWrite.find_puts_iff (edgeWrites_consistent apart)).mpr edge
      rw [← bufferDocs_writes] at found
      obtain ⟨job,member,same,inside⟩ := jobsOf_holds .edge found
      refine ⟨job,List.mem_append_left _ (List.mem_append_right _ ?_),same,inside⟩
      rwa [if_pos routed]
    · obtain ⟨triple,read,same⟩ := List.mem_map.mp edge
      obtain ⟨place_,rfl⟩ := Prod.ext_iff.mp same
      refine ⟨imp.edges,List.mem_append_right _ (by rw [if_neg routed]; exact List.mem_singleton_self _),?_,?_⟩
      · exact (edge_collection triple routed).symm.trans (congrArg Prod.fst place_)
      · rw [RdfImport.edges,edges_linked,List.map_map]
        exact List.mem_map_of_mem read

theorem clean_stored {s : ImportState imp} (plain : ¬ Attaching imp.options)
    (apart : KeysApart imp.digest imp.options imp.triples)
    (serves : Serves imp document decode) (holds : Holds s) (stands : Stands document decode s)
      (clean : Clean s)
    (written : imp.Writes place key value) : ∃ held, document s.world place key = some held := by
  obtain ⟨⟨result,finished⟩,accepted⟩ := clean
  obtain ⟨⟨folds,-⟩,jobs,-,imported⟩ := (holds_concluded finished).mp holds
  obtain ⟨job,listed,rfl,inside⟩ := writes_listed plain apart written
  rw [← folds,← jobs] at listed
  obtain ⟨load,present,rfl⟩ := List.mem_map.mp listed
  obtain ⟨summary,was⟩ := imported load present
  exact load_stored serves stands present was (accepted load present) inside (statementWrites_keyed written)

end Shares

section Worlds
variable {imp : RdfImport W} {s : ImportState imp} {w : W}

theorem holds_world (holds : Holds s) : Holds {s with world := w} := by
  have blank : Blank s → Blank {s with world := w} := fun blank => ⟨blank.loads,blank.vertices,blank.edges⟩
  have ledger : ∀ {left}, Ledger s left → Ledger {s with world := w} left :=
    fun ledger => ⟨ledger.parsed,ledger.jobs,ledger.vertices,ledger.edges,ledger.imported⟩
  obtain ⟨main,at_⟩ : ∃ main, s.main = main := ⟨_,rfl⟩
  have now : ({s with world := w} : ImportState imp).main = main := at_
  cases main with
  | ensuring rest =>
    obtain ⟨none_,started⟩ := (holds_ensuring at_).mp holds
    exact (holds_ensuring now).mpr ⟨blank none_,started⟩
  | reading rest =>
    obtain ⟨none_,chosen,progress,open_⟩ := (holds_reading at_).mp holds
    exact (holds_reading now).mpr ⟨blank none_,chosen,progress,open_same open_ rfl⟩
  | winding err => exact holds_winding now
  | loading jobs =>
    obtain ⟨chosen,kept⟩ := (holds_loading at_).mp holds
    exact (holds_loading now).mpr ⟨chosen,ledger kept⟩
  | opening job jobs =>
    obtain ⟨chosen,kept⟩ := (holds_opening at_).mp holds
    exact (holds_opening now).mpr ⟨chosen,ledger kept⟩
  | importing job jobs loader =>
    obtain ⟨⟨chosen,kept⟩,loading⟩ := (holds_importing at_).mp holds
    exact (holds_importing now).mpr ⟨⟨chosen,ledger kept⟩,loading⟩
  | finished result =>
    cases result with
    | error err => exact holds_failed now
    | ok summary =>
      obtain ⟨parsed,jobs,summed,imported⟩ := (holds_concluded at_).mp holds
      exact (holds_concluded now).mpr ⟨parsed,jobs,summed,imported⟩

end Worlds

section Together
variable {ι : Type} [DecidableEq ι] {imp : RdfImport W} {shares : ι → Share}
  {document : W → String → String → Option Value}
  {decode : Bytes → List Value} {start : W}

-- Imports that use one server, each with a share of the statements.
def together (imp : RdfImport W) (shares : ι → Share) :
    SharedWorld (fun i => ImportState (imp.share (shares i))) W where
  world _ s := s.world
  enter _ s w := {s with world := w}
  moves i := Step (imp.share (shares i))

abbrev Several (imp : RdfImport W) (shares : ι → Share) : Type :=
  SharedWorld.Together (fun i => ImportState (imp.share (shares i))) W

def begun (imp : RdfImport W) (shares : ι → Share) (start : W) : Several imp shares :=
  ⟨fun i => (imp.share (shares i)).begin start,start⟩

omit [DecidableEq ι] in
theorem together_lawful : SharedWorld.Lawful (together imp shares) :=
  ⟨fun _ _ _ => rfl,fun _ _ => rfl,fun _ _ _ _ => rfl⟩

structure Sound (document : W → String → String → Option Value) (decode : Bytes → List Value)
    {imp : RdfImport W} (s : ImportState imp) :
    Prop where
  task : TaskSound s
  holds : Holds s
  stands : Stands document decode s

omit [DecidableEq ι] in
theorem together_guaranteed (plain : ¬ Attaching imp.options) (shared : ∀ i, (shares i).triples ⊆ imp.triples)
    (serves : ∀ i, Serves (imp.share (shares i)) document decode) :
    SharedWorld.Guaranteed (together imp shares) (fun _ s => Sound document decode s)
      (Grew imp.Writes document) where
  step i s s' sound moved := by
    obtain ⟨stands,grew⟩ := step_stands (serves i) sound.task sound.holds sound.stands moved
    refine ⟨⟨step_sound sound.task moved,step_holds sound.task sound.holds moved,stands⟩,
      grew_mono (fun place key value brings => ?_) grew⟩
    have written := @brings_written _ (imp.share (shares i)) _ _ _ plain brings
    exact statementWrites_subset (shared i) written
  stable i s w sound grew := ⟨sound_same sound.task rfl,holds_world sound.holds,stands_grown sound.stands grew⟩

variable {t t' : Several imp shares}

theorem grew_run {brings : String → String → Value → Prop} {w w' : W}
    (changes : Relation.ReflTransGen (Grew brings document) w w') :
    Grew brings document w w' := by
  induction changes with
  | refl => exact grew_refl
  | tail _ grew ih => exact grew_trans ih grew

omit [DecidableEq ι] in
theorem begun_sound (i : ι) :
    Sound document decode ((begun imp shares start).state (together imp shares) i) := by
  obtain ⟨task,holds⟩ := @reachable_holds _ (imp.share (shares i)) _ ⟨start,.refl⟩
  exact ⟨task,holds,begin_stands start⟩

theorem together_run (plain : ¬ Attaching imp.options) (shared : ∀ i, (shares i).triples ⊆ imp.triples)
    (serves : ∀ i, Serves (imp.share (shares i)) document decode)
      (before : ∀ i, Sound document decode (t.state (together imp shares) i))
    (path : SharedWorld.Path (together imp shares) t t') :
    (∀ i, Sound document decode (t'.state (together imp shares) i)) ∧
      Grew imp.Writes document t.world t'.world := by
  obtain ⟨sound,changes⟩ :=
    SharedWorld.guaranteed_run together_lawful (together_guaranteed plain shared serves) before path
  exact ⟨sound,grew_run changes⟩

section Endings
variable (plain : ¬ Attaching imp.options) (apart : AllApart imp.digest imp.options imp.triples)
  (shared : ∀ i, (shares i).triples ⊆ imp.triples) (serves : ∀ i, Serves (imp.share (shares i)) document decode)
  (path : SharedWorld.Path (together imp shares) (begun imp shares start) t)
  (every : ∀ triple ∈ imp.triples, ∃ i, triple ∈ (shares i).triples ∧ Clean (t.states i))
include plain apart shared serves path every

theorem together_stored {place key : String} {value : Value} (written : imp.Writes place key value) :
    ∃ held, document t.world place key = some held := by
  obtain ⟨sound,-⟩ := together_run plain shared serves begun_sound path
  obtain ⟨triple,read,made⟩ := statementWrites_one written
  obtain ⟨i,inside,clean⟩ := every triple read
  have mine : (imp.share (shares i)).Writes place key value :=
    statementWrites_subset (List.cons_subset.mpr ⟨inside,List.nil_subset _⟩) made
  have own := keysApart_subset (shared i) apart.toKeysApart
  exact @clean_stored _ (imp.share (shares i)) _ _ _ _ _ _ plain own (serves i) (sound i).holds
    (sound i).stands clean mine

theorem together_documents (place key : String) :
    document t.world place key = (document start place key).or (imp.imported place key) := by
  obtain ⟨-,grew⟩ := together_run plain shared serves begun_sound path
  cases before : document start place key with
  | some value => exact grew.kept _ _ _ before
  | none =>
    have made : ∀ {value}, document t.world place key = some value → imp.Writes place key value :=
      fun held => (grew.made _ _ _ held).resolve_left fun old => Option.some_ne_none _ (old.symm.trans before)
    refine Option.ext fun value => ?_
    rw [Option.none_or,RdfImport.imported,FirstWrite.find_puts_iff (statementWrites_consistent apart)]
    refine ⟨made,fun written => ?_⟩
    obtain ⟨held,found⟩ := together_stored plain apart shared serves path every written
    have same : held = value := statementWrites_consistent apart _ (made found) _ written rfl
    rwa [← same]

theorem together_lasts (later : SharedWorld.Path (together imp shares) t t') : document t'.world =
    document t.world := by
  obtain ⟨sound,-⟩ := together_run plain shared serves begun_sound path
  obtain ⟨-,more⟩ := together_run plain shared serves sound later
  funext place key
  refine Option.ext fun value => ⟨fun held => ?_,more.kept _ _ _⟩
  rcases more.made _ _ _ held with same | written
  · exact same
  · obtain ⟨first,found⟩ := together_stored plain apart shared serves path every written
    have same : first = value := Option.some.inj ((more.kept _ _ _ found).symm.trans held)
    rwa [same] at found

end Endings

theorem not_attaching
    (plain : imp.options.graphModel = .rpt ∨ imp.options.literalPolicy = .noLiterals ∨
    imp.options.literalPolicy = .materialize) :
    ¬ Attaching imp.options := by
  rintro ⟨model,policy⟩
  simp [model,policy] at plain

-- However the imports of the statements are interleaved, and however many of them are cut short: once every
-- statement is in an import that came back clean, the database is what it was and the documents of the statements,
-- and nothing that the imports still do changes it.
theorem imports_converge
    (plain : imp.options.graphModel = .rpt ∨ imp.options.literalPolicy = .noLiterals ∨
    imp.options.literalPolicy = .materialize)
    (apart : AllApart imp.digest imp.options imp.triples) (shared : ∀ i, (shares i).triples ⊆ imp.triples)
    (serves : ∀ i, Serves (imp.share (shares i)) document decode)
    (path : SharedWorld.Path (together imp shares) (begun imp shares start) t)
    (every : ∀ triple ∈ imp.triples, ∃ i, triple ∈ (shares i).triples ∧ Clean (t.states i)) :
    (∀ place key, document t.world place key = (document start place key).or (imp.imported place key)) ∧
    ∀ t', SharedWorld.Path (together imp shares) t t' → document t'.world = document t.world :=
  ⟨together_documents (not_attaching plain) apart shared serves path every,
    fun _ later => together_lasts (not_attaching plain) apart shared serves path every later⟩

-- Then, on an empty database, the statements are read back from it: each of them, and no other.
theorem statements_read_back (topology : imp.options.graphModel = .rpt)
    (tracked : imp.options.namedGraph ≠ .ignore)
    (apart : AllApart imp.digest imp.options imp.triples) (shared : ∀ i, (shares i).triples ⊆ imp.triples)
    (serves : ∀ i, Serves (imp.share (shares i)) document decode)
      (empty : ∀ place key, document start place key = none)
    (path : SharedWorld.Path (together imp shares) (begun imp shares start) t)
    (every : ∀ triple ∈ imp.triples, ∃ i, triple ∈ (shares i).triples ∧ Clean (t.states i))
      (triple : RdfTriple) :
    triple ∈ imp.triples ↔ ∃ place key value, document t.world place key = some value ∧
      readStatement (document t.world) value = some triple := by
  have held : document t.world = imp.imported := by
    funext place key
    rw [together_documents (not_attaching (.inl topology)) apart shared serves path every,empty,Option.none_or]
  rw [held]
  exact read_back topology tracked apart triple

end Together

section Pair

theorem pair_all_apart : AllApart sampleDigest topologyOptions pairTriples where
  toKeysApart := pair_apart
  kinds x inside triple inside' same := by
    rw [placement_key] at same
    have hashes : sampleDigest (termInput topologyOptions x) =
        sampleDigest (statementOf sampleDigest topologyOptions triple).input :=
      hashKey_digest same
    have node : sampleDigest (termInput topologyOptions x) ∈ [subjectHash,objectHash] := by
      rcases List.mem_pair.mp (pair_terms inside) with rfl | rfl
      · exact sample_nodes.1 ▸ List.mem_cons_self
      · exact sample_nodes.2 ▸ List.mem_cons_of_mem _ List.mem_cons_self
    have statement : sampleDigest (statementOf sampleDigest topologyOptions triple).input ∈
        [forthHash,backHash] := by
      rcases List.mem_pair.mp inside' with rfl | rfl
      · rw [pair_inputs.1,pair_hashes.1]
        exact List.mem_cons_self
      · rw [pair_inputs.2,pair_hashes.2]
        exact List.mem_cons_of_mem _ List.mem_cons_self
    have apart : ([subjectHash,objectHash] ++ [forthHash,backHash]).Nodup := by decide
    exact (List.nodup_append.mp apart).2.2 _ node _ statement hashes

def pairShares : Bool → Share := fun _ => {triples := pairTriples,concurrency := pairImport.concurrency}

theorem pairs_finish : ∃ t, SharedWorld.Path (together pairImport pairShares)
    (begun pairImport pairShares fun _ _ => none) t ∧
    Clean (t.states true) := by
  obtain ⟨s,summary,path,finished,accepted⟩ := pair_finishes
  have lawful : SharedWorld.Lawful (together pairImport pairShares) := together_lawful
  have run := SharedWorld.alone (i:=true) lawful (begun pairImport pairShares fun _ _ => none) path
  have opening : (begun pairImport pairShares fun _ _ => none).moved
      (together pairImport pairShares) true (pairImport.begin fun _ _ => none) =
      begun pairImport pairShares fun _ _ => none := by
    simp only [SharedWorld.Together.moved]
    exact congrArg (SharedWorld.Together.mk · _) (Function.update_eq_self true _)
  rw [opening] at run
  exact ⟨_,run,⟨summary,finished⟩,accepted⟩

theorem pairs_serve (i : Bool) : Serves (pairImport.share (pairShares i)) id pairDecode := pair_serves

theorem pairs_converge : ∃ t, SharedWorld.Path (together pairImport pairShares)
    (begun pairImport pairShares fun _ _ => none) t ∧
    ∀ place key, t.world place key = pairImport.imported place key := by
  obtain ⟨t,path,clean⟩ := pairs_finish
  refine ⟨t,path,(imports_converge (.inl rfl) pair_all_apart (fun _ _ read => read) pairs_serve path
    fun triple read => ?_).1⟩
  exact ⟨true,read,clean⟩

theorem pairs_read_back : ∃ t, SharedWorld.Path (together pairImport pairShares)
    (begun pairImport pairShares fun _ _ => none) t ∧
    ∀ triple ∈ pairTriples, ∃ place key value, t.world place key = some value ∧
    readStatement t.world value = some triple := by
  obtain ⟨t,path,clean⟩ := pairs_finish
  refine ⟨t,path,fun triple read =>
    (statements_read_back rfl (by decide) pair_all_apart (fun _ _ read => read) pairs_serve
    (fun _ _ => rfl) path (fun triple read => ?_) triple).mp read⟩
  exact ⟨true,read,clean⟩

end Pair
end ArangoDataTools.ImportRdf
