import ArangoDataTools.ImportParty
import ArangoDataTools.RdfFold

namespace ArangoDataTools.ImportRdf
open Interaction Interaction.Program ImportPipeline Rdf

-- The methods of the client that the import uses. What a call does to the server, in all
-- its attempts, is one step of the server's world.
inductive Call where
  | ensureCollection (name : String) (kind : CollectionKind)
  | importDocuments (options : ImportOptions) (body : Bytes)

def Call.Answer : Call → Type
  | ensureCollection _ _ => Except Error Unit
  | importDocuments _ _ => Except Error ImportResult

-- The arguments of `import_rdf`. The reader yields `triples` and ends, with `parseError`
-- if there is one; `line` is `serde_json::to_vec`.
structure RdfImport (W : Type) where
  digest : Bytes → Vector UInt8 32
  options : RdfOptions
  triples : List RdfTriple
  parseError : Option Error
  line : Value → Bytes
  batch : BatchConfig
  concurrency : ConcurrencyConfig
  answers : (call : Call) → W → call.Answer → W → Prop

structure Job where
  collection : String
  kind : CollectionKind
  documents : List Value

abbrev Loader (n : Nat) (W : Type) := ImportPipeline.State n Call Call.Answer W

-- Where the import is: `opening` has the collection, `importing` is inside `run_import`.
inductive Main (n : Nat) (W : Type) (Summary : Type) where
  | ensuring (rest : List (String × CollectionKind))
  | reading (rest : List RdfTriple)
  | winding (err : Error)
  | loading (jobs : List Job)
  | opening (job : Job) (jobs : List Job)
  | importing (job : Job) (jobs : List Job) (loader : Loader n W)
  | finished (result : Except Error Summary)

-- The task that loads the edges while they are parsed. An ended one keeps what the server
-- answered, which the code does not read.
inductive EdgeTask (n : Nat) (W : Type) where
  | starting
  | running (loader : Loader n W)
  | ended (result : Except Error ImportSummary) (answers : List (Batch × ImportResult))

structure RdfImportSummary where
  triplesRead : UInt64
  verticesBuilt : UInt64
  edgesBuilt : UInt64
  verticesCreated : UInt64
  edgesCreated : UInt64
  verticesIgnored : UInt64
  edgesIgnored : UInt64
  deriving DecidableEq, Repr

def accumulate (totals summary : ImportSummary) : ImportSummary :=
  {totals with created := totals.created + summary.created
               ignored := totals.ignored + summary.ignored
               errors := totals.errors + summary.errors
               batches := totals.batches + summary.batches
               bytesSent := totals.bytesSent + summary.bytesSent}

-- A job that was carried out, with the answers to its batches.
structure Load where
  job : Job
  answers : List (Batch × ImportResult)

-- `folded` holds the vertices and the edges built so far. `loads` records what an observer
-- sees and is not read by the code.
structure State (n : Nat) (W : Type) where
  main : Main n W RdfImportSummary
  task : Option (EdgeTask n W) := none
  folded : Folded := {}
  read : UInt64 := 0
  vertexTotals : ImportSummary := {}
  edgeTotals : ImportSummary := {}
  world : W
  loads : List Load := []

def jobsOf (kind : CollectionKind) (store : DocStore) : List Job :=
  store.toList.map fun group => ⟨group.1,kind,group.2.toList.map Prod.snd⟩

def size (store : DocStore) : Nat := (store.toList.map fun group => group.2.size).sum

namespace RdfImport
variable {W : Type} (imp : RdfImport W)

def send (collection : String) (batch : Batch) : Program Call Call.Answer Error ImportResult :=
  .call (.importDocuments {collection,onDuplicate := .ignore} batch.body) fun
    | .ok result => done result
    | .error err => fail (withBatchContext err collection batch.index)

-- `import_into_stream`
def load (job : Job) : ImportRun Call Call.Answer W :=
  {documents := job.documents.map .ok,toVec := fun document => .ok (imp.line document)
   batchConfig := imp.batch,concurrency := imp.concurrency,send := send job.collection,answers := imp.answers}

def edges : Job :=
  ⟨imp.options.edgeCollection,.edge,
    (foldTriples imp.digest imp.options imp.triples).edges.map BuiltEdge.document⟩

def routed : Prop := imp.options.namedGraph = .collection

instance : Decidable imp.routed := inferInstanceAs (Decidable (_ = _))

def jobs (folded : Folded) : List Job :=
  jobsOf .document folded.vertices ++ if imp.routed then jobsOf .edge (bufferDocs folded.edges) else []

def begin (world : W) : State imp.concurrency.workers W :=
  {main := .ensuring ((imp.options.vertexCollections.map fun collection => (collection,.document)) ++
     [(imp.options.edgeCollection,.edge)]),world := world}

end RdfImport

def unread : Producer → Nat
  | .reading rest | .acquiring _ rest | .passing _ rest => (rest.map Batch.documents).sum
  | .closed => 0

section Steps
variable {W : Type} (imp : RdfImport W)

abbrev ImportState (imp : RdfImport W) : Type := State imp.concurrency.workers W

-- While the triples are read the edge task has only the edges sent so far, and the channel
-- is open.
def Fed (s : ImportState imp) (loader loader' : Loader imp.concurrency.workers W) : Prop :=
  ∀ rest, s.main = .reading rest → (loader.producer = .reading [] → loader'.producer ≠ .closed) ∧
    (loader'.producer ≠ .closed → imp.edges.documents.length ≤ s.folded.edges.length + unread loader'.producer)

def summaryOf (s : ImportState imp) (edgeTotals : ImportSummary) : RdfImportSummary :=
  {triplesRead := s.read,verticesBuilt := UInt64.ofNat (size s.folded.vertices)
   edgesBuilt := UInt64.ofNat s.folded.edges.length
   verticesCreated := s.vertexTotals.created,edgesCreated := edgeTotals.created
   verticesIgnored := s.vertexTotals.ignored,edgesIgnored := edgeTotals.ignored}

def taken (s : ImportState imp) (triple : RdfTriple) : ImportState imp :=
  {s with folded := s.folded.take imp.digest imp.options triple,read := s.read + 1}

def counted (s : ImportState imp) (job : Job) (summary : ImportSummary) : ImportState imp := match job.kind with
  | .document => {s with vertexTotals := accumulate s.vertexTotals summary}
  | .edge => {s with edgeTotals := accumulate s.edgeTotals summary}

-- A step of the import or of its edge task. The task goes on when the import has ended.
inductive Step : ImportState imp → ImportState imp → Prop where
  | ensure : s.main = .ensuring ((name,kind) :: rest) →
      imp.answers (.ensureCollection name kind) s.world (.ok ()) world →
      Step s {s with main := .ensuring rest,world := world}
  | ensureFails : s.main = .ensuring ((name,kind) :: rest) →
      imp.answers (.ensureCollection name kind) s.world (.error err) world →
      Step s {s with main := .finished (.error err),world := world}
  | spawn : s.main = .ensuring [] →
      Step s {s with main := .reading imp.triples,task := if imp.routed then none else some .starting}
  | start (now : Nat) : s.task = some .starting →
      runImportWithCheckpoint (imp.load imp.edges) s.world now = .ok loader →
      Step s {s with task := some (.running loader)}
  | startFails (now : Nat) : s.task = some .starting →
      runImportWithCheckpoint (imp.load imp.edges) s.world now = .error err →
      Step s {s with task := some (.ended (.error err) [])}
  | edge : s.task = some (.running loader) → Fed imp s loader loader' →
      ImportPipeline.Step (imp.load imp.edges) (loader.at_ s.world) loader' →
      Step s {s with task := some (.running loader'),world := loader'.world}
  | edgeEnds : s.task = some (.running loader) → loader.returned = some result →
      Step s {s with task := some (.ended result (acknowledged loader.answered))}
  | read : s.main = .reading (triple :: rest) →
      ((foldTriple imp.digest triple imp.options s.folded.vertices).2 = none ∨ ∀ result answers,
      s.task ≠ some (.ended result answers)) →
      Step s {taken imp s triple with main := .reading rest}
  | breakOff : s.main = .reading (triple :: rest) →
      (foldTriple imp.digest triple imp.options s.folded.vertices).2 = some edge →
      s.task = some (.ended result answers) →
      Step s {taken imp s triple with main := .loading (imp.jobs (taken imp s triple).folded)}
  | parsed : s.main = .reading [] → imp.parseError = none → Step s {s with main := .loading (imp.jobs s.folded)}
  | parseFails : s.main = .reading [] → imp.parseError = some err → Step s {s with main := .winding err}
  | wound : s.main = .winding err → (s.task = none ∨ ∃ result answers, s.task = some (.ended result answers)) →
      Step s {s with main := .finished (.error err)}
  | openVertices : s.main = .loading (job :: jobs) → job.kind = .document →
      Step s {s with main := .opening job jobs}
  | openEdges : s.main = .loading (job :: jobs) → job.kind = .edge →
      imp.answers (.ensureCollection job.collection .edge) s.world (.ok ()) world →
      Step s {s with main := .opening job jobs,world := world}
  | openFails : s.main = .loading (job :: jobs) → job.kind = .edge →
      imp.answers (.ensureCollection job.collection .edge) s.world (.error err) world →
      Step s {s with main := .finished (.error err),world := world}
  | begin (now : Nat) : s.main = .opening job jobs →
      runImportWithCheckpoint (imp.load job) s.world now = .ok loader →
      Step s {s with main := .importing job jobs loader}
  | beginFails (now : Nat) : s.main = .opening job jobs →
      runImportWithCheckpoint (imp.load job) s.world now = .error err →
      Step s {s with main := .finished (.error err)}
  | load : s.main = .importing job jobs loader →
      ImportPipeline.Step (imp.load job) (loader.at_ s.world) loader' →
      Step s {s with main := .importing job jobs loader',world := loader'.world}
  | loaded : s.main = .importing job jobs loader → loader.returned = some (.ok summary) →
      Step s {counted imp s job summary with main := .loading jobs,loads := s.loads ++ [⟨job,acknowledged loader.answered⟩]}
  | loadFails : s.main = .importing job jobs loader → loader.returned = some (.error err) →
      Step s {s with main := .finished (.error err)}
  | joined : s.main = .loading [] → s.task = some (.ended (.ok summary) answers) →
      Step s {s with main := .finished (.ok (summaryOf imp s (accumulate s.edgeTotals summary)))
                     loads := s.loads ++ [⟨imp.edges,answers⟩]}
  | joinFails : s.main = .loading [] → s.task = some (.ended (.error err) answers) →
      Step s {s with main := .finished (.error err)}
  | complete : s.main = .loading [] → s.task = none →
      Step s {s with main := .finished (.ok (summaryOf imp s s.edgeTotals))}

def Reachable (s : ImportState imp) : Prop := ∃ world, Relation.ReflTransGen (Step imp) (imp.begin world) s

variable {imp}

theorem reachable_induction {invariant : ImportState imp → Prop}
    (initial : ∀ world, invariant (imp.begin world))
    (step : ∀ s s', invariant s → Step imp s s' → invariant s') {s : ImportState imp}
      (reachable : Reachable imp s) : invariant s := by
  obtain ⟨world,path⟩ := reachable
  induction path with
  | refl => exact initial world
  | tail _ moved ih => exact step _ _ ih moved

end Steps
end ArangoDataTools.ImportRdf
