import ArangoDataTools.ImportPartition
import ArangoDataTools.RdfCounts
import ArangoDataTools.RdfEndpoints
import ArangoDataTools.RdfStores
import ArangoDataTools.Segments

namespace ArangoDataTools.ImportRdf
open Interaction Interaction.Program ImportPipeline Rdf

variable {W : Type}

def RdfImport.Carried (imp : RdfImport W) (job : Job) : Prop :=
  (¬ imp.routed ∧ job = imp.edges) ∨ ∃ done_, done_ <+: imp.triples ∧
    job ∈ imp.jobs (foldTriples imp.digest imp.options done_)

def RdfImport.Brings (imp : RdfImport W) (place key : String) (value : Value) : Prop :=
  ∃ job, imp.Carried job ∧ job.collection = place ∧ value ∈ job.documents ∧
    value.get "_key" = some (.string key)

-- What is known of the server. It reads the documents of a body as they were written, keeps
-- what it has, and has every document of a request that it counts no error for, under its key.
structure Serves (imp : RdfImport W) (document : W → String → String → Option Value)
    (decode : Bytes → List Value) : Prop where
  decodes {job : Job} {chunk : List Value} : imp.Carried job → chunk <:+: job.documents →
    decode (jsonl imp.line chunk) = chunk
  ensures : imp.answers (.ensureCollection name kind) w answer w' → document w' = document w
  keeps : imp.answers (.importDocuments {collection,onDuplicate := .ignore} body) w answer w' →
    document w place key = some value → document w' place key = some value
  adds : imp.answers (.importDocuments {collection,onDuplicate := .ignore} body) w answer w' →
    document w' place key = some value → document w place key = some value ∨
      place = collection ∧ value ∈ decode body ∧ value.get "_key" = some (.string key)
  stores : imp.answers (.importDocuments {collection,onDuplicate := .ignore} body) w
    (.ok result) w' → result.errors = 0 →
    value ∈ decode body → value.get "_key" = some (.string key) → ∃ held, document w' collection key = some held

-- Both ends of every edge are there.
def EndpointsStored (document : W → String → String → Option Value) (w : W) : Prop := ∀ place name value,
  document w place name = some value → ∀ field ∈ ["_from","_to"], ∀ id, value.get field = some (.string id) →
    ∃ collection key vertex, id = collection ++ "/" ++ key ∧ document w collection key = some vertex

def EndsStored (document : W → String → String → Option Value) (w : W) (value : Value) : Prop :=
  ∀ field ∈ ["_from","_to"], ∀ id, value.get field = some (.string id) →
    ∃ collection key vertex, id = collection ++ "/" ++ key ∧ document w collection key = some vertex

section Worlds
variable {imp : RdfImport W} {job : Job} {w w' : W} {document : W → String → String → Option Value}
  {decode : Bytes → List Value}

def Landed (document : W → String → String → Option Value) (decode : Bytes → List Value)
    (collection : String) (w : W)
    (batch : Batch) (result : ImportResult) : Prop :=
  result.errors = 0 → ∀ value ∈ decode batch.body, ∀ key, value.get "_key" = some (.string key) →
    ∃ held, document w collection key = some held

structure Grew (brings : String → String → Value → Prop)
    (document : W → String → String → Option Value) (w w' : W) : Prop where
  kept : ∀ place key value, document w place key = some value → document w' place key = some value
  made : ∀ place key value, document w' place key = some value → document w place key = some value ∨
    brings place key value

variable {brings brings' : String → String → Value → Prop}

theorem grew_refl : Grew brings document w w := ⟨fun _ _ _ held => held,fun _ _ _ held => .inl held⟩

theorem grew_trans {w'' : W} (first : Grew brings document w w')
    (second : Grew brings document w' w'') : Grew brings document w w'' :=
  ⟨fun _ _ _ held => second.kept _ _ _ (first.kept _ _ _ held),fun _ _ _ held =>
    (second.made _ _ _ held).elim (first.made _ _ _) .inr⟩

theorem grew_mono (more : ∀ place key value, brings place key value → brings' place key value)
    (grew : Grew brings document w w') :
    Grew brings' document w w' :=
  ⟨grew.kept,fun _ _ _ held => (grew.made _ _ _ held).imp_right (more _ _ _)⟩

theorem landed_grew {collection : String} {batch : Batch} {result : ImportResult}
    (grew : Grew brings document w w')
    (landed : Landed document decode collection w batch result) :
    Landed document decode collection w' batch result := by
  intro clean value present key keyed
  obtain ⟨held,found⟩ := landed clean value present key keyed
  exact ⟨held,grew.kept _ _ _ found⟩

theorem ensured_grew {name : String} {kind : CollectionKind} {answer : Except Error Unit}
    (serves : Serves imp document decode)
    (answered : imp.answers (.ensureCollection name kind) w answer w') : Grew imp.Brings document w w' := by
  have same := serves.ensures answered
  exact ⟨fun _ _ _ held => by rwa [same],fun _ _ _ held => .inl (by rwa [same] at held)⟩

theorem batch_documents (serves : Serves imp document decode) (carried : imp.Carried job) {batch : Batch}
    (present : batch ∈ (imp.load job).batches) : ∃ chunk, decode batch.body = chunk ∧
    chunk <:+: job.documents := by
  obtain ⟨chunk,body,part⟩ :=
    carries_mem (loads_carries (⟨rfl,rfl,rfl⟩ : Loads (imp.load job) imp.line job.documents)) present
  exact ⟨chunk,by rw [body,serves.decodes carried part],part⟩

theorem sent_grew (serves : Serves imp document decode) (carried : imp.Carried job) {batch : Batch}
    {answer : Except Error ImportResult} (present : batch ∈ (imp.load job).batches)
    (answered : imp.answers (.importDocuments {collection := job.collection,onDuplicate := .ignore}
      batch.body) w answer w') :
    Grew imp.Brings document w w' := by
  refine ⟨fun _ _ _ held => serves.keeps answered held,fun place key value held =>
    (serves.adds answered held).imp_right ?_⟩
  rintro ⟨rfl,inside,keyed⟩
  obtain ⟨chunk,decoded,part⟩ := batch_documents serves carried present
  exact ⟨job,carried,rfl,part.subset (decoded ▸ inside),keyed⟩

theorem single_call (serves : Serves imp document decode) (carried : imp.Carried job) :
    SingleCall (imp.load job) (Landed document decode job.collection) where
  calls batch outcome same := by cases outcome <;> cases same
  lands batch op next w answer w' present same answered := by
    cases same
    cases answer with
    | error err => exact ⟨.error _,rfl,fun result ok => by cases ok⟩
    | ok result =>
      refine ⟨.ok result,rfl,fun other ok => ?_⟩
      cases ok
      exact fun clean value inside key keyed => serves.stores answered clean inside keyed
  lasts sent batch op next w answer w' present same answered result landed := by
    cases same
    exact landed_grew (sent_grew serves carried present answered) landed

end Worlds

def Main.pending {n : Nat} {Summary : Type} : Main n W Summary → List Job
  | .loading jobs => jobs
  | .opening job jobs | .importing job jobs _ => job :: jobs
  | _ => []

section Documents
variable {imp : RdfImport W} {job : Job} {kind : CollectionKind} {store : DocStore} {value : Value}

theorem jobsOf_found (member : job ∈ jobsOf kind store) (inside : value ∈ job.documents) :
    ∃ key, store.find job.collection key = some value := by
  obtain ⟨group,held,rfl⟩ := List.mem_map.mp member
  obtain ⟨entry,held',rfl⟩ := List.mem_map.mp inside
  have found := Std.ExtTreeMap.mem_toList_iff_getElem?_eq_some.mp held
  have found' := Std.ExtTreeMap.mem_toList_iff_getElem?_eq_some.mp held'
  exact ⟨entry.1,by simp [FirstWrite.find,found,found']⟩

theorem jobsOf_holds {collection key : String} (kind : CollectionKind)
    (found : store.find collection key = some value) :
    ∃ job ∈ jobsOf kind store, job.collection = collection ∧ value ∈ job.documents := by
  obtain ⟨entries,group,entry⟩ := Option.bind_eq_some_iff.mp found
  refine ⟨_,List.mem_map.mpr
    ⟨(collection,entries),Std.ExtTreeMap.mem_toList_iff_getElem?_eq_some.mpr group,rfl⟩,rfl,?_⟩
  exact List.mem_map.mpr ⟨(key,value),Std.ExtTreeMap.mem_toList_iff_getElem?_eq_some.mpr entry,rfl⟩

theorem carried_documents (carried : imp.Carried job) (inside : value ∈ job.documents) :
    Endless value ∨ ∃ edge ∈ (foldTriples imp.digest imp.options imp.triples).edges, edge.document = value := by
  rcases carried with ⟨-,rfl⟩ | ⟨done_,⟨rest,whole⟩,member⟩
  · exact .inr (List.mem_map.mp inside)
  · rcases List.mem_append.mp member with vertices | edges
    · obtain ⟨key,found⟩ := jobsOf_found vertices inside
      exact .inl (foldTriples_endless done_ _ _ _ found)
    · by_cases routed : imp.routed
      · rw [if_pos routed] at edges
        obtain ⟨key,found⟩ := jobsOf_found edges inside
        rw [bufferDocs_writes] at found
        obtain ⟨triple,held,same⟩ :=
          List.mem_map.mp ((FirstWrite.find_puts_from found).resolve_left (by simp [FirstWrite.find_empty]))
        obtain ⟨read,linked⟩ := List.mem_filter.mp held
        have later : triple ∈ imp.triples := whole ▸ List.mem_append_left _ read
        exact .inr ⟨_,mem_edges.mpr ⟨triple,later,of_decide_eq_true linked,rfl⟩,congrArg Prod.snd same⟩
      · rw [if_neg routed] at edges
        cases edges

end Documents

section Runs
variable {imp : RdfImport W} {s s' : ImportState imp} {w w' : W} {document : W → String → String → Option Value}
  {decode : Bytes → List Value} {job : Job} {jobs : List Job}

abbrev Lands (imp : RdfImport W) (document : W → String → String → Option Value)
    (decode : Bytes → List Value) (job : Job)
    (loader : Loader imp.concurrency.workers W) (w : W) : Prop :=
  @Landing _ _ _ (imp.load job) (Landed document decode job.collection) loader w

structure Stands (document : W → String → String → Option Value) (decode : Bytes → List Value)
    (s : ImportState imp) : Prop where
  chosen : imp.routed → s.task = none
  jobs : ∀ job ∈ s.main.pending, imp.Carried job
  main : ∀ job jobs loader, s.main = .importing job jobs loader → Lands imp document decode job loader s.world
  running : ∀ loader, s.task = some (.running loader) → Lands imp document decode imp.edges loader s.world
  ended : ∀ result answers, s.task = some (.ended result answers) → ∀ answer ∈ answers,
    Landed document decode imp.edges.collection s.world answer.1 answer.2
  loads : ∀ load ∈ s.loads, imp.Carried load.job ∧ ∀ answer ∈ load.answers,
    Landed document decode load.job.collection s.world answer.1 answer.2

theorem lands_grew {brings : String → String → Value → Prop}
    {loader : Loader imp.concurrency.workers W} (grew : Grew brings document w w')
    (lands : Lands imp document decode job loader w) : Lands imp document decode job loader w' :=
    landing_mono (fun _ _ => landed_grew grew) lands

theorem stands_grown {brings : String → String → Value → Prop} (stands : Stands document decode s)
    (grew : Grew brings document s.world w) :
    Stands document decode {s with world := w} where
  chosen := stands.chosen
  jobs := stands.jobs
  main job jobs loader at_ := lands_grew grew (stands.main job jobs loader at_)
  running loader at_ := lands_grew grew (stands.running loader at_)
  ended result answers at_ answer present := landed_grew grew (stands.ended result answers at_ answer present)
  loads load present := ⟨(stands.loads load present).1,fun answer held =>
    landed_grew grew ((stands.loads load present).2 answer held)⟩

theorem edges_carried {task : EdgeTask imp.concurrency.workers W}
    (chosen : imp.routed → s.task = none) (at_ : s.task = some task) :
    imp.Carried imp.edges :=
  .inl ⟨fun routed => Option.some_ne_none _ (at_.symm.trans (chosen routed)),rfl⟩

theorem loader_lands {loader loader' : Loader imp.concurrency.workers W}
    (serves : Serves imp document decode) (carried : imp.Carried job)
    (loading : Loading imp job loader) (lands : Lands imp document decode job loader w)
    (step : ImportPipeline.Step (imp.load job) (loader.at_ w) loader') :
    Lands imp document decode job loader' loader'.world ∧ Grew imp.Brings document w loader'.world := by
  have inside : ∀ i taken program summary, (loader.at_ w).workers i = ⟨.sending taken program,summary⟩ →
      taken.batch ∈ (imp.load job).batches :=
    fun i taken program summary held =>
      @sending_wanted _ _ _ (imp.load job).blurred loader.blur _ _ _ _ loading held
  obtain ⟨landing,moved⟩ := step_landing (single_call serves carried) inside step ⟨lands.workers,lands.answered⟩
  refine ⟨landing,?_⟩
  rcases moved with same | ⟨batch,present,op,next,answer,sent,answered⟩
  · rw [same]
    exact grew_refl
  · cases sent
    exact sent_grew serves carried present answered

theorem folded_carried {done_ : List RdfTriple} (folds : Folds s done_) (begins : done_ <+: imp.triples) :
    ∀ job ∈ imp.jobs s.folded, imp.Carried job := fun _ member => .inr ⟨done_,begins,folds.1 ▸ member⟩

theorem begin_stands (start : W) : Stands document decode (imp.begin start) :=
  ⟨fun _ => rfl,List.forall_mem_nil _,fun _ _ _ at_ => (by cases at_),fun _ at_ => (by cases at_),
    fun _ _ at_ => (by cases at_),
    List.forall_mem_nil _⟩

theorem step_stands (serves : Serves imp document decode) (sound : TaskSound s) (holds : Holds s)
    (stands : Stands document decode s) (step : Step imp s s') : Stands document decode s' ∧
    Grew imp.Brings document s.world s'.world := by
  cases step with
  | ensure at_ answered | ensureFails at_ answered =>
    have grew := ensured_grew serves answered
    obtain ⟨chosen,-,-,running,ended,loads⟩ := stands_grown stands grew
    exact ⟨⟨chosen,List.forall_mem_nil _,fun _ _ _ now => (by cases now),running,ended,loads⟩,grew⟩
  | openFails at_ _ answered =>
    have grew := ensured_grew serves answered
    obtain ⟨chosen,-,-,running,ended,loads⟩ := stands_grown stands grew
    exact ⟨⟨chosen,List.forall_mem_nil _,fun _ _ _ now => (by cases now),running,ended,loads⟩,grew⟩
  | spawn at_ =>
    obtain ⟨-,-,-,-,-,loads⟩ := stands
    refine ⟨⟨fun routed => if_pos routed,List.forall_mem_nil _,fun _ _ _ now => (by cases now),
      fun loader now => ?_,fun result answers now => ?_,
      loads⟩,grew_refl⟩ <;>
    · dsimp only at now
      split at now <;> cases now
  | start now _ started =>
    obtain ⟨chosen,jobs,main,-,-,loads⟩ := stands
    refine ⟨⟨?_,jobs,main,fun loader at_ => ?_,fun _ _ at_ => (by cases at_),loads⟩,grew_refl⟩
    · exact fun routed => absurd (chosen routed) (by simp [*])
    · cases at_
      obtain ⟨-,-,rfl⟩ := runImportWithCheckpoint_inv started
      exact opening_landing _ _
  | startFails now _ _ =>
    obtain ⟨chosen,jobs,main,-,-,loads⟩ := stands
    refine ⟨⟨?_,jobs,main,fun _ at_ => (by cases at_),fun result answers at_ => ?_,loads⟩,grew_refl⟩
    · exact fun routed => absurd (chosen routed) (by simp [*])
    · cases at_
      exact List.forall_mem_nil _
  | @edge _ loader loader' at_ _ moved =>
    obtain ⟨lands,more⟩ := loader_lands serves (edges_carried stands.chosen at_)
        (sound.running _ at_) (stands.running _ at_) moved
    obtain ⟨chosen,jobs,main,-,-,loads⟩ := stands_grown stands more
    refine ⟨⟨?_,jobs,main,fun loader now => ?_,fun _ _ now => (by cases now),loads⟩,more⟩
    · exact fun routed => absurd ((chosen routed).symm.trans at_) (Option.some_ne_none _).symm
    · cases now
      exact lands
  | edgeEnds at_ returned =>
    have lands := stands.running _ at_
    obtain ⟨chosen,jobs,main,-,-,loads⟩ := stands
    refine ⟨⟨?_,jobs,main,fun _ now => (by cases now),fun result answers now => ?_,loads⟩,grew_refl⟩
    · exact fun routed => absurd ((chosen routed).symm.trans at_) (Option.some_ne_none _).symm
    · cases now
      exact lands.answered
  | read at_ _ =>
    obtain ⟨chosen,-,-,running,ended,loads⟩ := stands
    exact ⟨⟨chosen,List.forall_mem_nil _,fun _ _ _ now => (by cases now),running,ended,loads⟩,grew_refl⟩
  | @breakOff triple _ _ rest _ _ at_ _ _ =>
    obtain ⟨chosen,-,-,running,ended,loads⟩ := stands
    obtain ⟨-,-,⟨done_,whole,folds⟩,-⟩ := (holds_reading at_).mp holds
    have begins : done_ ++ [triple] <+: imp.triples := ⟨rest,by rw [whole,List.append_assoc]; rfl⟩
    exact ⟨⟨chosen,folded_carried (folds_taken folds) begins,fun _ _ _ now => (by cases now),
      running,ended,loads⟩,grew_refl⟩
  | parsed at_ _ =>
    obtain ⟨chosen,-,-,running,ended,loads⟩ := stands
    obtain ⟨-,-,⟨done_,whole,folds⟩,-⟩ := (holds_reading at_).mp holds
    exact ⟨⟨chosen,folded_carried folds ⟨[],whole.symm⟩,fun _ _ _ now => (by cases now),running,
      ended,loads⟩,grew_refl⟩
  | openVertices at_ _ =>
    obtain ⟨chosen,jobs,-,running,ended,loads⟩ := stands
    rw [at_] at jobs
    exact ⟨⟨chosen,jobs,fun _ _ _ now => (by cases now),running,ended,loads⟩,grew_refl⟩
  | openEdges at_ _ answered =>
    have grew := ensured_grew serves answered
    obtain ⟨chosen,jobs,-,running,ended,loads⟩ := stands_grown stands grew
    dsimp only at jobs
    rw [at_] at jobs
    exact ⟨⟨chosen,jobs,fun _ _ _ now => (by cases now),running,ended,loads⟩,grew⟩
  | begin now at_ started =>
    obtain ⟨chosen,jobs,-,running,ended,loads⟩ := stands
    rw [at_] at jobs
    refine ⟨⟨chosen,jobs,fun _ _ _ now => ?_,running,ended,loads⟩,grew_refl⟩
    cases now
    obtain ⟨-,-,rfl⟩ := runImportWithCheckpoint_inv started
    exact opening_landing _ _
  | load at_ moved =>
    obtain ⟨-,loading⟩ := (holds_importing at_).mp holds
    have carried : imp.Carried _ := stands.jobs _ (by rw [at_]; exact List.mem_cons_self)
    obtain ⟨lands,more⟩ := loader_lands serves carried loading (stands.main _ _ _ at_) moved
    obtain ⟨chosen,jobs,-,running,ended,loads⟩ := stands_grown stands more
    dsimp only at jobs
    rw [at_] at jobs
    refine ⟨⟨chosen,jobs,fun _ _ _ now => ?_,running,ended,loads⟩,more⟩
    cases now
    exact lands
  | @loaded _ job jobs _ loader at_ _ =>
    have carried := stands.jobs
    rw [at_] at carried
    obtain ⟨first,others⟩ := List.forall_mem_cons.mp carried
    have lands := stands.main _ _ _ at_
    have loads : ∀ load ∈ s.loads ++ ([⟨job,acknowledged loader.answered⟩] : List Load),
        imp.Carried load.job ∧ ∀ answer ∈ load.answers,
        Landed document decode load.job.collection s.world answer.1 answer.2 :=
      List.forall_mem_append.mpr ⟨stands.loads,List.forall_mem_singleton.mpr ⟨first,lands.answered⟩⟩
    unfold counted
    split <;> exact ⟨⟨stands.chosen,others,fun _ _ _ now => (by cases now),stands.running,
      stands.ended,loads⟩,grew_refl⟩
  | joined at_ ended_ =>
    obtain ⟨chosen,-,-,running,ended,loads⟩ := stands
    refine ⟨⟨chosen,List.forall_mem_nil _,fun _ _ _ now => (by cases now),running,ended,?_⟩,grew_refl⟩
    exact List.forall_mem_append.mpr
      ⟨loads,List.forall_mem_singleton.mpr ⟨edges_carried chosen ended_,ended _ _ ended_⟩⟩
  | parseFails _ _ | wound _ _ | beginFails _ _ _ | loadFails _ _ | joinFails _ _ | complete _ _ =>
    obtain ⟨chosen,-,-,running,ended,loads⟩ := stands
    exact ⟨⟨chosen,List.forall_mem_nil _,fun _ _ _ now => (by cases now),running,ended,loads⟩,grew_refl⟩

theorem path_stands {start : W} (serves : Serves imp document decode)
    (path : Relation.ReflTransGen (Step imp) (imp.begin start) s) :
    Stands document decode s ∧ Grew imp.Brings document start s.world := by
  induction path with
  | refl => exact ⟨begin_stands start,grew_refl⟩
  | tail before moved ih =>
    obtain ⟨sound,holds⟩ := reachable_holds ⟨start,before⟩
    obtain ⟨stands,grew⟩ := step_stands serves sound holds ih.1 moved
    exact ⟨stands,grew_trans ih.2 grew⟩

end Runs

section Endings
variable {imp : RdfImport W} {s : ImportState imp} {document : W → String → String → Option Value}
  {decode : Bytes → List Value}
  {load : Load} {summary : ImportSummary} {start : W}

theorem load_stored (serves : Serves imp document decode) (stands : Stands document decode s)
    (member : load ∈ s.loads)
    (imported : Imported imp load.job summary load.answers) (clean : ∀ answer ∈ load.answers,
    answer.2.errors = 0) {value : Value}
    (inside : value ∈ load.job.documents) {key : String} (keyed : value.get "_key" = some (.string key)) :
    ∃ held, document s.world load.job.collection key = some held := by
  obtain ⟨carried,landed⟩ := stands.loads load member
  obtain ⟨loader,reachable,returned,answered⟩ := imported
  have loads : Loads (imp.load load.job).blurred imp.line load.job.documents := ⟨rfl,rfl,rfl⟩
  obtain ⟨batch,present,chunk,body,part,held⟩ := carries_covers (loads_carries loads) inside
  have every := returned_acknowledged reachable returned
  rw [loads_wanted loads,← answered] at every
  obtain ⟨answer,told,rfl⟩ := List.mem_map.mp (every.mem_iff.mpr present)
  refine landed answer told (clean answer told) value ?_ key keyed
  rw [body,serves.decodes carried part]
  exact held

theorem brought_endsStored (serves : Serves imp document decode)
    (path : Relation.ReflTransGen (Step imp) (imp.begin start) s) {result : RdfImportSummary}
    (finished : s.main = .finished (.ok result))
    (accepted : ∀ load ∈ s.loads, ∀ answer ∈ load.answers, answer.2.errors = 0)
    {place name : String} {value : Value} (found : document s.world place name = some value) :
    document start place name = some value ∨ EndsStored document s.world value := by
  obtain ⟨stands,grew⟩ := path_stands serves path
  obtain ⟨⟨folds,-⟩,jobs,-,imported⟩ := reachable_concluded ⟨start,path⟩ finished
  refine (grew.made _ _ _ found).imp_right ?_
  rintro ⟨job,carried,-,inside,-⟩ field either id named
  have endpoint : Endpoint imp.options (foldTriples imp.digest imp.options imp.triples).vertices
      (some (.string id)) := by
    rcases carried_documents carried inside with ⟨from_,to_⟩ | ⟨edge,emitted,rfl⟩
    · rcases List.mem_pair.mp either with rfl | rfl
      · exact absurd named (by simp [from_])
      · exact absurd named (by simp [to_])
    · obtain ⟨source,target⟩ := edges_endpoints imp.triples emitted
      rcases List.mem_pair.mp either with rfl | rfl
      · rwa [← named]
      · rwa [← named]
  obtain ⟨collection,key,vertex,same,-,there,keyed⟩ := endpoint
  obtain ⟨job,member,rfl,held⟩ := jobsOf_holds .document there
  have listed : job ∈ s.loads.map Load.job := by
    rw [jobs,folds]
    exact List.mem_append_left _ (List.mem_append_left _ member)
  obtain ⟨load,present,rfl⟩ := List.mem_map.mp listed
  obtain ⟨summary,was⟩ := imported load present
  obtain ⟨stored,now⟩ := load_stored serves stands present was (accepted load present) held keyed
  exact ⟨load.job.collection,key,stored,Value.string.inj (Option.some.inj same),now⟩

theorem endpointsStored_kept (serves : Serves imp document decode)
    (path : Relation.ReflTransGen (Step imp) (imp.begin start) s) {result : RdfImportSummary}
    (finished : s.main = .finished (.ok result))
    (accepted : ∀ load ∈ s.loads, ∀ answer ∈ load.answers, answer.2.errors = 0)
    (before : EndpointsStored document start) : EndpointsStored document s.world := by
  intro place name value found
  rcases brought_endsStored serves path finished accepted found with old | ends
  · intro field either id named
    obtain ⟨collection,key,vertex,same,there⟩ := before place name value old field either id named
    exact ⟨collection,key,vertex,same,(path_stands serves path).2.kept _ _ _ there⟩
  · exact ends

-- When an import returns and no document was rejected, both ends of every edge in the database
-- are there, in whatever order the two tasks and their workers have sent them.
theorem edges_never_dangle (serves : Serves imp document decode)
    (path : Relation.ReflTransGen (Step imp) (imp.begin start) s)
    (before : EndpointsStored document start) {result : RdfImportSummary}
      (finished : s.main = .finished (.ok result))
    (accepted : ∀ load ∈ s.loads, ∀ answer ∈ load.answers, answer.2.errors = 0) :
      EndpointsStored document s.world :=
  endpointsStored_kept serves path finished accepted before

-- An edge comes after its ends: they are held when the fold returns it, stay where they are, and
-- are in the database when an import returns that had no document rejected.
theorem ends_precede_edges (imp : RdfImport W) :
    (∀ done_ triple edge,
      (foldTriple imp.digest triple imp.options
        (foldTriples imp.digest imp.options done_).vertices).2 = some edge →
      Endpoint imp.options (foldTriple imp.digest triple imp.options
        (foldTriples imp.digest imp.options done_).vertices).1 (edge.document.get "_from") ∧
      Endpoint imp.options (foldTriple imp.digest triple imp.options
        (foldTriples imp.digest imp.options done_).vertices).1 (edge.document.get "_to") ∧
      (edge.collection = imp.options.edgeCollection ∨ ∃ graph, triple.graph = some graph ∧
        edge.collection = imp.options.edgeCollection ++ "_" ++ graphSlug imp.digest graph)) ∧
    (∀ done_ more collection key vertex,
      (foldTriples imp.digest imp.options done_).vertices.find collection key = some vertex →
      vertex.get "_key" = some (.string key) ∧ ∃ later,
        (foldTriples imp.digest imp.options (done_ ++ more)).vertices.find collection key = some later ∧
        later.get "_key" = some (.string key)) ∧
    ∀ (document : W → String → String → Option Value) (decode : Bytes → List Value),
      Serves imp document decode → ∀ start s result,
      Relation.ReflTransGen (Step imp) (imp.begin start) s → s.main = .finished (.ok result) →
      (∀ load ∈ s.loads, ∀ answer ∈ load.answers, answer.2.errors = 0) →
      (∀ place name value, document s.world place name = some value →
        document start place name = some value ∨ EndsStored document s.world value) ∧
      (EndpointsStored document start → EndpointsStored document s.world) := by
  refine ⟨fun done_ triple edge built => foldTriple_endpoints (foldTriples_keyed done_) built,
    fun done_ more collection key vertex found => ?_,
    fun document decode serves start s result path finished accepted =>
      ⟨fun place name value found => brought_endsStored serves path finished accepted found,
        endpointsStored_kept serves path finished accepted⟩⟩
  obtain ⟨later,still⟩ := foldTriples_kept ⟨vertex,found⟩ more
  exact ⟨(foldTriples_keyed _ _ _ _ found).key,later,still,(foldTriples_keyed _ _ _ _ still).key⟩

end Endings

section Pair

theorem edge_path {imp : RdfImport W} {s : ImportState imp} (parsed : ∀ rest, s.main ≠ .reading rest)
    {loader loader' : Loader imp.concurrency.workers W}
      (path : Relation.ReflTransGen (ImportPipeline.Step (imp.load imp.edges)) loader loader') :
    Relation.ReflTransGen (Step imp) {s with task := some (.running loader),world := loader.world}
      {s with task := some (.running loader'),world := loader'.world} := by
  induction path with
  | refl => exact .refl
  | tail _ moved ih => exact ih.tail (.edge rfl (fun rest at_ => absurd at_ (parsed rest)) moved)

def entryText : String × Value → List Char
  | (name,.string text) => '"' :: name.toList ++ "\":\"".toList ++ text.toList ++ ['"']
  | _ => []

def flatLine : Value → Bytes
  | .object entries => ( '\x7b' :: Segments.join ',' (entries.map entryText) ++ [ '\x7d']).flatMap
      String.utf8EncodeChar
  | _ => []

def subjectVertex : Value := .object [("_key",.string (hex subjectHash.toList)),("iri",.string "s")]
def objectVertex : Value := .object [("_key",.string (hex objectHash.toList)),("iri",.string "o")]

def typedEdge (source target edge : Vector UInt8 32) : Value :=
  .object [("_from",.string ("nodes_URIRef/" ++ hex source.toList)),("_key",.string (hex edge.toList)),
    ("_to",.string ("nodes_URIRef/" ++ hex target.toList)),("graph",.string "g"),("predicate",.string "p")]

def pairDocuments : List Value :=
  [subjectVertex,objectVertex,typedEdge subjectHash objectHash forthHash,
    typedEdge objectHash subjectHash backHash]

def pairDecode (body : Bytes) : List Value :=
  (body.splitOn newline).filterMap fun line => pairDocuments.find? fun document => flatLine document = line

abbrev Shelf := String → String → Option Value

def shelve (collection : String) (shelf : Shelf) (value : Value) : Shelf := fun place name =>
  if place = collection ∧ (value.get "_key").bind Value.asStr = some name then
    (shelf place name).or (some value) else shelf place name

def shelving : (call : Call) → Shelf → call.Answer → Shelf → Prop
  | .ensureCollection _ _,w,answer,w' => answer = .ok () ∧ w' = w
  | .importDocuments options body,w,answer,w' =>
    answer = .ok {created := UInt64.ofNat (pairDecode body).length} ∧
      w' = (pairDecode body).foldl (shelve options.collection) w

def pairImport : RdfImport Shelf :=
  {digest := sampleDigest,options := topologyOptions,triples := pairTriples,parseError := none,
    line := flatLine,batch := {}
   concurrency := {workers := 1,maxInFlightBytes := 8 * 1024 * 1024,adaptive := false},answers := shelving}

theorem shelves_keep (collection : String) (values : List Value) {shelf : Shelf}
    {place name : String} {held : Value}
    (found : shelf place name = some held) : values.foldl (shelve collection) shelf place name = some held := by
  induction values generalizing shelf with
  | nil => exact found
  | cons value rest ih =>
    refine ih ?_
    unfold shelve
    split
    · rw [found,Option.some_or]
    · exact found

theorem asStr_string {value : Value} {text : String} (held : value.asStr = some text) :
    value = .string text := by
  cases value <;> cases held
  rfl

theorem shelves_add (collection : String) (values : List Value) {shelf : Shelf}
    {place name : String} {held : Value}
    (found : values.foldl (shelve collection) shelf place name = some held) :
    shelf place name = some held ∨ place = collection ∧ held ∈ values ∧
    held.get "_key" = some (.string name) := by
  induction values generalizing shelf with
  | nil => exact .inl found
  | cons value rest ih =>
    rcases ih found with here | ⟨same,later,keyed⟩
    · unfold shelve at here
      split at here
      · next there =>
        cases before : shelf place name with
        | some old =>
          rw [before,Option.some_or] at here
          exact .inl here
        | none =>
          rw [before,Option.none_or] at here
          obtain rfl := Option.some.inj here
          obtain ⟨key,held,text⟩ := Option.bind_eq_some_iff.mp there.2
          exact .inr ⟨there.1,List.mem_cons_self,asStr_string text ▸ held⟩
      · exact .inl here
    · exact .inr ⟨same,List.mem_cons_of_mem _ later,keyed⟩

theorem shelves_store (collection : String) (values : List Value) {shelf : Shelf} {value : Value}
    {key : String} (inside : value ∈ values)
    (keyed : value.get "_key" = some (.string key)) : ∃ held,
    values.foldl (shelve collection) shelf collection key = some held := by
  induction values generalizing shelf with
  | nil => cases inside
  | cons first rest ih =>
    rcases List.mem_cons.mp inside with rfl | later
    · have placed : ∃ held, shelve collection shelf value collection key = some held := by
        rw [shelve,keyed,if_pos ⟨rfl,rfl⟩]
        cases shelf collection key with
        | none => exact ⟨value,rfl⟩
        | some old => exact ⟨old,rfl⟩
      obtain ⟨held,found⟩ := placed
      exact ⟨held,shelves_keep collection rest found⟩
    · exact ih later

theorem pair_vertices : termVertex sampleDigest topologyOptions (.iri "s") = subjectVertex ∧
    termVertex sampleDigest topologyOptions (.iri "o") = objectVertex :=
  ⟨congrArg (fun bytes : Vector UInt8 32 =>
    Value.object [("_key",.string (hex bytes.toList)),("iri",.string "s")]) sample_nodes.1,
    congrArg (fun bytes : Vector UInt8 32 =>
      Value.object [("_key",.string (hex bytes.toList)),("iri",.string "o")]) sample_nodes.2⟩

theorem pair_edges : (builtEdge sampleDigest topologyOptions sampleTriple).document =
    typedEdge subjectHash objectHash forthHash ∧
    (builtEdge sampleDigest topologyOptions backTriple).document =
    typedEdge objectHash subjectHash backHash := by
  have subject : topologyOptions.resourceKey sampleDigest (.iri "s") = hex subjectHash.toList :=
    congrArg (fun bytes : Vector UInt8 32 => hex bytes.toList) sample_nodes.1
  have object : topologyOptions.resourceKey sampleDigest (.iri "o") = hex objectHash.toList :=
    congrArg (fun bytes : Vector UInt8 32 => hex bytes.toList) sample_nodes.2
  have forth : statementKey sampleDigest topologyOptions sampleTriple = hex forthHash.toList := by
    rw [statementKey,pair_inputs.1,hashKey,pair_hashes.1]
  have back : statementKey sampleDigest topologyOptions backTriple = hex backHash.toList := by
    rw [statementKey,pair_inputs.2,hashKey,pair_hashes.2]
  constructor
  · rw [edge_document,forth]
    simp only [statementOf,sampleTriple,termPlacement,RdfOptions.resourcePlacement,Placement.id,subject,object]
    rfl
  · rw [edge_document,back]
    simp only [statementOf,backTriple,termPlacement,RdfOptions.resourcePlacement,Placement.id,subject,object]
    rfl

theorem pair_documents {job : Job} (carried : pairImport.Carried job) {value : Value}
    (inside : value ∈ job.documents) :
    value ∈ pairDocuments := by
  have made : (∃ x ∈ Rdf.terms pairTriples, value = termVertex sampleDigest topologyOptions x) ∨
      ∃ triple ∈ pairTriples, value = (builtEdge sampleDigest topologyOptions triple).document := by
    rcases carried with ⟨-,rfl⟩ | ⟨done_,begins,member⟩
    · obtain ⟨edge,emitted,rfl⟩ := List.mem_map.mp inside
      obtain ⟨triple,read,-,rfl⟩ := mem_edges.mp emitted
      exact .inr ⟨triple,read,rfl⟩
    · rcases List.mem_append.mp member with vertices | edges
      · have plain : ¬ Attaching topologyOptions := fun attaching => nomatch attaching.1
        obtain ⟨key,found⟩ := jobsOf_found vertices inside
        have folded : (foldTriples pairImport.digest pairImport.options done_).vertices = _ :=
          foldTriples_vertices plain done_
        rw [folded] at found
        obtain ⟨x,held,same⟩ := vertexWrites_term
            ((FirstWrite.find_puts_from found).resolve_left (by simp [FirstWrite.find_empty]))
        refine .inl ⟨x,?_,congrArg Prod.snd same⟩
        obtain ⟨triple,read,among⟩ := List.mem_flatMap.mp held
        exact List.mem_flatMap.mpr ⟨triple,begins.subset read,among⟩
      · cases edges
  rcases made with ⟨x,held,rfl⟩ | ⟨triple,read,rfl⟩
  · rcases List.mem_pair.mp (pair_terms held) with rfl | rfl
    · exact pair_vertices.1 ▸ List.mem_cons_self
    · exact pair_vertices.2 ▸ List.mem_cons_of_mem _ List.mem_cons_self
  · rcases List.mem_pair.mp read with rfl | rfl
    · rw [pair_edges.1]
      simp [pairDocuments]
    · rw [pair_edges.2]
      simp [pairDocuments]

set_option maxRecDepth 4000 in
theorem pair_lines : ∀ document ∈ pairDocuments, newline ∉ flatLine document :=
  List.forall_iff_forall_mem.mp (by decide)

set_option maxRecDepth 4000 in
theorem pair_lines_apart : (pairDocuments.map flatLine).Nodup := by decide

theorem pair_found {document : Value} (known : document ∈ pairDocuments) :
    (pairDocuments.find? fun other => flatLine other = flatLine document) = some document := by
  cases found : pairDocuments.find? fun other => flatLine other = flatLine document with
  | none => exact absurd (List.find?_eq_none.mp found document known) (by simp)
  | some other =>
    have same : flatLine other = flatLine document := by simpa using List.find?_some found
    rw [List.inj_on_of_nodup_map pair_lines_apart (List.mem_of_find?_eq_some found) known same]

theorem pair_decodes {documents : List Value} (known : ∀ document ∈ documents, document ∈ pairDocuments) :
    pairDecode (jsonl flatLine documents) = documents := by
  induction documents with
  | nil => rfl
  | cons document rest ih =>
    obtain ⟨first,later⟩ := List.forall_mem_cons.mp known
    have line : (flatLine document).splitOn newline = [flatLine document] :=
      List.splitOn_eq_singleton (pair_lines document first)
    have body : jsonl flatLine (document :: rest) = flatLine document ++
        newline :: jsonl flatLine rest := by simp [jsonl]
    rw [body,pairDecode,Segments.split_append,line,List.filterMap_append,← pairDecode,ih later]
    simp [pair_found first]

theorem pair_serves : Serves pairImport id pairDecode where
  decodes carried part := pair_decodes fun _ inside => pair_documents carried (part.subset inside)
  ensures answered := answered.2
  keeps answered found := by
    rw [answered.2]
    exact shelves_keep _ _ found
  adds answered found := by
    rw [answered.2] at found
    exact shelves_add _ _ found
  stores answered _ inside keyed := by
    rw [answered.2]
    exact shelves_store _ _ inside keyed

theorem shelf_accepts (job : Job) (batches : List Batch) (w : Shelf) : ∃ results w',
    Accepted (pairImport.load job) batches w results w' ∧ ∀ answer ∈ results, answer.2.errors = 0 := by
  induction batches generalizing w with
  | nil => exact ⟨_,_,.nil,List.forall_mem_nil _⟩
  | cons batch rest ih =>
    by_cases low : batch.index ≤ (pairImport.load job).resumeFrom
    · obtain ⟨results,w',accepted,clean⟩ := ih w
      exact ⟨results,w',.skip low accepted,clean⟩
    · let result : ImportResult := {created := UInt64.ofNat (pairDecode batch.body).length}
      have sent : Resolves pairImport.answers (RdfImport.send job.collection batch) w (.ok result)
          ((pairDecode batch.body).foldl (shelve job.collection) w) :=
        .call _ _ (.ok result) _ ⟨rfl,rfl⟩ (@Resolves.lift _ _ _ _ (.ok _) _)
      obtain ⟨results,w',accepted,clean⟩ := ih ((pairDecode batch.body).foldl (shelve job.collection) w)
      exact ⟨_,w',.send (Nat.lt_of_not_le low) sent accepted,List.forall_mem_cons.mpr ⟨rfl,clean⟩⟩

theorem pair_loads (job : Job) (w : Shelf) : ∃ (loader : Loader 1 Shelf) (summary : ImportSummary)
    (now : Nat) (opened : Loader 1 Shelf),
    runImportWithCheckpoint (pairImport.load job) w now = .ok opened ∧
    Path (pairImport.load job) opened loader ∧
      loader.returned = some (.ok summary) ∧ ∀ answer ∈ acknowledged loader.answered, answer.2.errors = 0 := by
  have whole : (pairImport.load job).ending = none := by
    have loop := @intoBatchesFrom_takes _ flatLine {} {} job.documents []
    rw [List.append_nil] at loop
    exact congrArg Prod.snd loop
  obtain ⟨results,w',accepted,clean⟩ := shelf_accepts job (pairImport.load job).batches w
  obtain ⟨loader,summary,⟨now,opened,started,path⟩,returned,-,answered,-⟩ :=
    solo_completes rfl (by simp [pairImport,RdfImport.load])
      (fun err => Option.some_ne_none _ ∘ Eq.symm) whole accepted
  refine ⟨loader,summary,now,opened,started,path,returned,fun answer present => ?_⟩
  obtain ⟨told,present,same⟩ := List.mem_map.mp (answered ▸ mem_acknowledged.mp present)
  rw [← Except.ok.inj (congrArg Prod.snd same)]
  exact clean told present

theorem pair_jobs {jobs : List Job} (vertices : ∀ job ∈ jobs, job.kind = .document) (s : ImportState pairImport)
    (clean : ∀ load ∈ s.loads, ∀ answer ∈ load.answers, answer.2.errors = 0) :
    ∃ s', Relation.ReflTransGen (Step pairImport) {s with main := .loading jobs} s' ∧
    s'.main = .loading [] ∧ s'.task = s.task ∧
      ∀ load ∈ s'.loads, ∀ answer ∈ load.answers, answer.2.errors = 0 := by
  induction jobs generalizing s with
  | nil => exact ⟨_,.refl,rfl,rfl,clean⟩
  | cons job jobs ih =>
    obtain ⟨kind,others⟩ := List.forall_mem_cons.mp vertices
    obtain ⟨loader,summary,now,opened,started,path,returned,accepted⟩ := pair_loads job s.world
    have chosen : Step pairImport {s with main := .loading (job :: jobs)}
        {s with main := .opening job jobs} := .openVertices rfl kind
    have begins : Step pairImport {s with main := .opening job jobs}
        {s with main := .importing job jobs opened,world := opened.world} := by
      obtain ⟨-,-,rfl⟩ := runImportWithCheckpoint_inv started
      exact .begin now rfl started
    have loads := @load_path _ _ s job jobs _ _ path
    have loaded : Step pairImport {s with main := .importing job jobs loader,world := loader.world} _ := .loaded rfl returned
    have counts : (counted pairImport {s with main := .importing job jobs loader,world := loader.world} job summary).task = s.task := by
      unfold counted
      split <;> rfl
    obtain ⟨s',later,done_,task,all⟩ := ih others
      {counted pairImport {s with main := .importing job jobs loader,world := loader.world} job summary with
        loads := s.loads ++ [⟨job,acknowledged loader.answered⟩]}
      (List.forall_mem_append.mpr ⟨clean,List.forall_mem_singleton.mpr accepted⟩)
    exact ⟨s',((((Relation.ReflTransGen.single chosen).tail begins).trans loads).tail loaded).trans
      later,done_,task.trans counts,all⟩

theorem pair_finishes : ∃ (s : ImportState pairImport) (summary : RdfImportSummary),
    Relation.ReflTransGen (Step pairImport) (pairImport.begin fun _ _ => none) s ∧
    s.main = .finished (.ok summary) ∧
      ∀ load ∈ s.loads, ∀ answer ∈ load.answers, answer.2.errors = 0 := by
  let begun (main : Main 1 Shelf RdfImportSummary) (task : Option (EdgeTask 1 Shelf)) :
      ImportState pairImport :=
    {main := main,task := task,world := fun _ _ => none}
  let read (main : Main 1 Shelf RdfImportSummary) (task : EdgeTask 1 Shelf) (world : Shelf) :
      ImportState pairImport :=
    {taken pairImport (taken pairImport (begun main (some task)) sampleTriple) backTriple
      with main := main,world := world}
  have ensures : ∀ rest, Relation.ReflTransGen (Step pairImport) (begun (.ensuring rest) none)
      (begun (.ensuring []) none) := by
    intro rest
    induction rest with
    | nil => exact .refl
    | cons _ _ ih => exact .head (.ensure rfl ⟨rfl,rfl⟩) ih
  have spawned : Step pairImport (begun (.ensuring []) none)
      (begun (.reading pairTriples) (some .starting)) := .spawn rfl
  have first : Step pairImport (begun (.reading pairTriples) (some .starting))
      {taken pairImport (begun (.reading pairTriples) (some .starting)) sampleTriple
        with main := .reading [backTriple]} :=
    .read rfl (.inr fun _ _ same => by cases same)
  have second : Step pairImport
      {taken pairImport (begun (.reading pairTriples) (some .starting)) sampleTriple
        with main := .reading [backTriple]}
      (read (.reading []) .starting fun _ _ => none) := .read rfl (.inr fun _ _ same => by cases same)
  let jobs : List Job := pairImport.jobs (read (.reading []) .starting fun _ _ => none).folded
  have parsed : Step pairImport (read (.reading []) .starting fun _ _ => none)
      (read (.loading jobs) .starting fun _ _ => none) :=
    .parsed rfl rfl
  obtain ⟨edges,edgeSummary,now,opened,started,path,returned,edgesClean⟩ :=
    pair_loads pairImport.edges fun _ _ => none
  have starts : Step pairImport (read (.loading jobs) .starting fun _ _ => none)
      (read (.loading jobs) (.running opened) opened.world) := by
    obtain ⟨-,-,rfl⟩ := runImportWithCheckpoint_inv started
    exact .start now rfl started
  have streamed := edge_path (s:=read (.loading jobs) .starting fun _ _ => none)
      (fun rest same => by cases same) path
  let last : ImportState pairImport :=
    read (.loading jobs) (.ended (.ok edgeSummary) (acknowledged edges.answered)) edges.world
  have ends : Step pairImport (read (.loading jobs) (.running edges) edges.world) last := .edgeEnds rfl returned
  have vertices : ∀ job ∈ jobs, job.kind = .document := by
    intro job member
    rcases List.mem_append.mp member with vertices | edges
    · obtain ⟨group,-,rfl⟩ := List.mem_map.mp vertices
      rfl
    · cases edges
  obtain ⟨s,loaded,done_,task,clean⟩ := pair_jobs vertices last (List.forall_mem_nil _)
  have joined : Step pairImport s _ := .joined done_ task
  have opening : Relation.ReflTransGen (Step pairImport) (pairImport.begin fun _ _ => none) _ :=
    ((((ensures _).tail spawned).tail first).tail second).tail parsed
  refine ⟨_,_,((((opening.tail starts).trans streamed).tail ends).trans loaded).tail joined,rfl,?_⟩
  exact List.forall_mem_append.mpr ⟨clean,List.forall_mem_singleton.mpr edgesClean⟩

theorem pair_ends_stored : ∃ (s : ImportState pairImport) (summary : RdfImportSummary),
    s.main = .finished (.ok summary) ∧
    EndpointsStored id s.world := by
  obtain ⟨s,summary,path,finished,clean⟩ := pair_finishes
  exact ⟨s,summary,finished,
    edges_never_dangle pair_serves path (fun _ _ _ found => by cases found) finished clean⟩

theorem pair_ends_first : ∃ (edge : BuiltEdge) (s : ImportState pairImport) (summary : RdfImportSummary),
    (foldTriple pairImport.digest backTriple pairImport.options
      (foldTriples pairImport.digest pairImport.options [sampleTriple]).vertices).2 = some edge ∧
    Endpoint pairImport.options (foldTriple pairImport.digest backTriple pairImport.options
      (foldTriples pairImport.digest pairImport.options [sampleTriple]).vertices).1
      (edge.document.get "_to") ∧
    s.main = .finished (.ok summary) ∧
    ∀ place name value, s.world place name = some value → EndsStored id s.world value := by
  obtain ⟨s,summary,path,finished,clean⟩ := pair_finishes
  obtain ⟨folds,-,loads⟩ := ends_precede_edges pairImport
  have built : (foldTriple pairImport.digest backTriple pairImport.options
      (foldTriples pairImport.digest pairImport.options [sampleTriple]).vertices).2 =
      some (builtEdge pairImport.digest pairImport.options backTriple) := foldTriple_edge ..
  refine ⟨_,s,summary,built,(folds _ _ _ built).2.1,finished,fun place name value found => ?_⟩
  exact ((loads id pairDecode pair_serves _ s summary path finished clean).1 place name value
    found).resolve_left (fun absent => by cases absent)

end Pair
end ArangoDataTools.ImportRdf
