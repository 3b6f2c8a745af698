import ArangoDataTools.RdfImport

namespace ArangoDataTools.ImportRdf
open Interaction Interaction.Program ImportPipeline Rdf

variable {W : Type} {imp : RdfImport W} {s s' : ImportState imp} {job : Job} {jobs : List Job}
  {summary : ImportSummary}
  {answers : List (Batch × ImportResult)}

section Totals

def total (kind : CollectionKind) (loads : List Load) : ImportSummary :=
  (loads.filter fun load => load.job.kind = kind).foldl
    (fun sum load => accumulate sum (.totals load.answers)) {}

theorem total_other {kind : CollectionKind} {loads : List Load} {load : Load} (other : load.job.kind ≠ kind) :
    total kind (loads ++ [load]) = total kind loads := by
  unfold total
  rw [List.filter_append,List.filter_cons,if_neg (by simpa using other),List.filter_nil,List.append_nil]

theorem total_same {kind : CollectionKind} {loads : List Load} {load : Load} (same : load.job.kind = kind) :
    total kind (loads ++ [load]) = accumulate (total kind loads) (.totals load.answers) := by
  unfold total
  rw [List.filter_append,List.filter_cons,if_pos (by simpa using same),List.filter_nil,List.foldl_append]
  rfl

end Totals

section Invariants

-- `run_import` has returned the summary of the job's documents.
def Imported (imp : RdfImport W) (job : Job) (summary : ImportSummary)
    (answers : List (Batch × ImportResult)) : Prop :=
  ∃ loader : RunState (imp.load job).blurred, ImportPipeline.Reachable (imp.load job).blurred loader ∧
    loader.returned = some (.ok summary) ∧ answers = acknowledged loader.answered

def Loading (imp : RdfImport W) (job : Job) (loader : Loader imp.concurrency.workers W) : Prop :=
  @ImportPipeline.Reachable _ _ _ (imp.load job).blurred loader.blur

structure TaskSound (s : ImportState imp) : Prop where
  running : ∀ loader, s.task = some (.running loader) → Loading imp imp.edges loader
  ended : ∀ summary answers, s.task = some (.ended (.ok summary) answers) →
    Imported imp imp.edges summary answers

structure Open (s : ImportState imp) : Prop where
  running : ∀ loader, s.task = some (.running loader) → @CutShort _ _ _ (imp.load imp.edges) loader
  ended : ∀ summary answers, s.task ≠ some (.ended (.ok summary) answers)

structure Blank (s : ImportState imp) : Prop where
  loads : s.loads = []
  vertices : s.vertexTotals = {}
  edges : s.edgeTotals = {}

def Chosen (s : ImportState imp) : Prop := s.task = none ↔ imp.routed

def Folds (s : ImportState imp) (triples : List RdfTriple) : Prop :=
  s.folded = foldTriples imp.digest imp.options triples ∧ s.read = UInt64.ofNat triples.length

structure Ledger (s : ImportState imp) (left : List Job) : Prop where
  parsed : Folds s imp.triples ∨ ∃ err answers, s.task = some (.ended (.error err) answers)
  jobs : s.loads.map Load.job ++ left = imp.jobs s.folded
  vertices : s.vertexTotals = total .document s.loads
  edges : s.edgeTotals = total .edge s.loads
  imported : ∀ load ∈ s.loads, ∃ summary, Imported imp load.job summary load.answers

structure Concluded (s : ImportState imp) (summary : RdfImportSummary) : Prop where
  parsed : Folds s imp.triples
  jobs : s.loads.map Load.job = imp.jobs s.folded ++ if imp.routed then [] else [imp.edges]
  summary : ∃ vertexTotals edgeTotals, vertexTotals = total .document s.loads ∧
    edgeTotals = total .edge s.loads ∧
    summary = summaryOf imp {s with vertexTotals := vertexTotals} edgeTotals
  imported : ∀ load ∈ s.loads, ∃ summary, Imported imp load.job summary load.answers

def Holds (s : ImportState imp) : Prop := match s.main with
  | .ensuring _ => Blank s ∧ Folds s [] ∧ s.task = none
  | .reading rest => Blank s ∧ Chosen s ∧ (∃ done_, imp.triples = done_ ++ rest ∧ Folds s done_) ∧ Open s
  | .winding _ => True
  | .loading jobs => Chosen s ∧ Ledger s jobs
  | .opening job jobs => Chosen s ∧ Ledger s (job :: jobs)
  | .importing job jobs loader => (Chosen s ∧ Ledger s (job :: jobs)) ∧ Loading imp job loader
  | .finished (.ok summary) => Concluded s summary
  | .finished (.error _) => True

end Invariants

section Loaders

theorem returned_imported {loader : Loader imp.concurrency.workers W} (loading : Loading imp job loader)
    (returned : loader.returned = some (.ok summary)) :
    Imported imp job summary (acknowledged loader.answered) :=
  ⟨loader.blur,loading,returned,rfl⟩

theorem imported_totals (imported : Imported imp job summary answers) : summary = .totals answers := by
  obtain ⟨loader,reachable,returned,rfl⟩ := imported
  exact returned_totals reachable returned

theorem started_loading {loader : Loader imp.concurrency.workers W} {world : W} {now : Nat}
    (started : runImportWithCheckpoint (imp.load job) world now = .ok loader) :
    Loading imp job loader := started_blur started

theorem moved_loading {loader loader' : Loader imp.concurrency.workers W} {world : W}
    (loading : Loading imp job loader)
    (step : ImportPipeline.Step (imp.load job) (loader.at_ world) loader') :
    Loading imp job loader' := moved_blur loading step

theorem started_cut {loader : Loader imp.concurrency.workers W} {world : W} {now : Nat}
    (started : runImportWithCheckpoint (imp.load job) world now = .ok loader) :
    @CutShort _ _ _ (imp.load job) loader := by
  obtain ⟨-,-,rfl⟩ := runImportWithCheckpoint_inv started
  exact nofun

theorem cut_unreturned {loader : Loader imp.concurrency.workers W} (loading : Loading imp job loader)
    (cut : @CutShort _ _ _ (imp.load job) loader) : loader.returned ≠ some (.ok summary) := by
  intro returned
  obtain ⟨-,-,closed,-,none_,-⟩ := returned_settled loading returned
  exact cut closed none_

end Loaders

section Steps

theorem holds_ensuring {rest : List (String × CollectionKind)} (at_ : s.main = .ensuring rest) :
    Holds s ↔ Blank s ∧ Folds s [] ∧ s.task = none := by
  unfold Holds
  rw [at_]

theorem holds_reading {rest : List RdfTriple} (at_ : s.main = .reading rest) :
    Holds s ↔ Blank s ∧ Chosen s ∧ (∃ done_, imp.triples = done_ ++ rest ∧ Folds s done_) ∧ Open s := by
  unfold Holds
  rw [at_]

theorem holds_winding {err : Error} (at_ : s.main = .winding err) : Holds s := by
  unfold Holds
  rw [at_]
  trivial

theorem holds_loading (at_ : s.main = .loading jobs) : Holds s ↔ Chosen s ∧ Ledger s jobs := by
  unfold Holds
  rw [at_]

theorem holds_opening (at_ : s.main = .opening job jobs) : Holds s ↔ Chosen s ∧ Ledger s (job :: jobs) := by
  unfold Holds
  rw [at_]

theorem holds_importing {loader : Loader imp.concurrency.workers W}
    (at_ : s.main = .importing job jobs loader) :
    Holds s ↔ (Chosen s ∧ Ledger s (job :: jobs)) ∧ Loading imp job loader := by
  unfold Holds
  rw [at_]

theorem holds_concluded {summary : RdfImportSummary} (at_ : s.main = .finished (.ok summary)) :
    Holds s ↔ Concluded s summary := by
  unfold Holds
  rw [at_]

theorem holds_failed {err : Error} (at_ : s.main = .finished (.error err)) : Holds s := by
  unfold Holds
  rw [at_]
  trivial

theorem holds_task {task : EdgeTask imp.concurrency.workers W} {world : W} (holds : Holds s)
    (same : s' = {s with task := some task,world := world})
    (before : ∀ result answers, s.task ≠ some (.ended result answers)) (present : s.task ≠ none)
    (open_ : ∀ rest, s.main = .reading rest → Open s → Open s') : Holds s' := by
  have chosen : Chosen s → Chosen s' := by
    intro chosen
    subst same
    exact ⟨fun none_ => absurd none_ (Option.some_ne_none _),fun routed => absurd (chosen.mpr routed) present⟩
  have ledger : ∀ {left}, Ledger s left → Ledger s' left := by
    intro left ledger
    have folds : Folds s imp.triples := ledger.parsed.resolve_right fun ⟨_,_,ended⟩ => before _ _ ended
    subst same
    exact ⟨.inl folds,ledger.jobs,ledger.vertices,ledger.edges,ledger.imported⟩
  obtain ⟨main,at_⟩ : ∃ main, s.main = main := ⟨_,rfl⟩
  have now : s'.main = main := by rw [same,← at_]
  cases main with
  | ensuring rest => exact absurd ((holds_ensuring at_).mp holds).2.2 present
  | reading rest =>
    obtain ⟨blank,choice,progress,opened⟩ := (holds_reading at_).mp holds
    refine (holds_reading now).mpr ⟨?_,chosen choice,?_,open_ rest at_ opened⟩
    · subst same
      exact ⟨blank.loads,blank.vertices,blank.edges⟩
    · subst same
      exact progress
  | winding err => exact holds_winding now
  | loading jobs =>
    obtain ⟨choice,kept⟩ := (holds_loading at_).mp holds
    exact (holds_loading now).mpr ⟨chosen choice,ledger kept⟩
  | opening job jobs =>
    obtain ⟨choice,kept⟩ := (holds_opening at_).mp holds
    exact (holds_opening now).mpr ⟨chosen choice,ledger kept⟩
  | importing job jobs loader =>
    obtain ⟨⟨choice,kept⟩,loading⟩ := (holds_importing at_).mp holds
    exact (holds_importing now).mpr ⟨⟨chosen choice,ledger kept⟩,loading⟩
  | finished result =>
    cases result with
    | error err => exact holds_failed now
    | ok summary =>
      have concluded := (holds_concluded at_).mp holds
      refine (holds_concluded now).mpr ?_
      subst same
      exact ⟨concluded.parsed,concluded.jobs,concluded.summary,concluded.imported⟩

theorem folds_taken {triples : List RdfTriple} {triple : RdfTriple} (folds : Folds s triples) :
    Folds (taken imp s triple) (triples ++ [triple]) := by
  obtain ⟨folded,count⟩ := folds
  refine ⟨?_,?_⟩
  · rw [foldTriples_step,← folded]
    rfl
  · rw [List.length_append,UInt64.ofNat_add,← count]
    rfl

theorem blank_ledger (blank : Blank s) (parsed : Folds s imp.triples ∨ ∃ err answers,
    s.task = some (.ended (.error err) answers)) :
    Ledger {s with main := .loading (imp.jobs s.folded)} (imp.jobs s.folded) where
  parsed := parsed
  jobs := by
    show s.loads.map Load.job ++ _ = _
    rw [blank.loads]
    rfl
  vertices := by
    show s.vertexTotals = total .document s.loads
    rw [blank.loads,blank.vertices]
    rfl
  edges := by
    show s.edgeTotals = total .edge s.loads
    rw [blank.loads,blank.edges]
    rfl
  imported := by
    show ∀ load ∈ s.loads, _
    rw [blank.loads]
    exact nofun

theorem ledger_counted (ledger : Ledger s (job :: jobs)) (imported : Imported imp job summary answers) :
    Ledger {counted imp s job summary with main := .loading jobs,loads := s.loads ++ [⟨job,answers⟩]} jobs := by
  have same := imported_totals imported
  have all : ∀ load ∈ s.loads ++ [⟨job,answers⟩], ∃ summary, Imported imp load.job summary load.answers := by
    intro load member
    rcases List.mem_append.mp member with earlier | last
    · exact ledger.imported load earlier
    · cases List.mem_singleton.mp last
      exact ⟨summary,imported⟩
  have listed : (s.loads ++ ([⟨job,answers⟩] : List Load)).map Load.job ++ jobs = imp.jobs s.folded := by
    rw [List.map_append,List.append_assoc]
    exact ledger.jobs
  cases kind : job.kind with
  | document =>
    have vertices : total .document (s.loads ++ [⟨job,answers⟩]) = accumulate s.vertexTotals summary := by
      rw [total_same kind,← ledger.vertices,same]
    have edges : total .edge (s.loads ++ [⟨job,answers⟩]) = s.edgeTotals := by
      rw [total_other (by simp [kind]),← ledger.edges]
    unfold counted
    simp only [kind]
    exact ⟨ledger.parsed,listed,vertices.symm,edges.symm,all⟩
  | edge =>
    have vertices : total .document (s.loads ++ [⟨job,answers⟩]) = s.vertexTotals := by
      rw [total_other (by simp [kind]),← ledger.vertices]
    have edges : total .edge (s.loads ++ [⟨job,answers⟩]) = accumulate s.edgeTotals summary := by
      rw [total_same kind,← ledger.edges,same]
    unfold counted
    simp only [kind]
    exact ⟨ledger.parsed,listed,vertices.symm,edges.symm,all⟩

theorem sound_same (sound : TaskSound s) (same : s'.task = s.task) : TaskSound s' :=
  ⟨fun loader at_ => sound.running loader (same ▸ at_),fun summary answers at_ =>
    sound.ended summary answers (same ▸ at_)⟩

theorem open_same (open_ : Open s) (same : s'.task = s.task) : Open s' :=
  ⟨fun loader at_ => open_.running loader (same ▸ at_),fun summary answers at_ =>
    open_.ended summary answers (same ▸ at_)⟩

theorem open_fed {loader loader' : Loader imp.concurrency.workers W} {rest : List RdfTriple}
    (reading : s.main = .reading rest)
    (cut : @CutShort _ _ _ (imp.load imp.edges) loader) (fed : Fed imp s loader loader')
    (step : ImportPipeline.Step (imp.load imp.edges) (loader.at_ s.world) loader') :
    @CutShort _ _ _ (imp.load imp.edges) loader' := by
  have open_ := (fed rest reading).1
  rcases step_cut step cut with still | ⟨ending,closed⟩
  · exact still
  · exact absurd closed (open_ ending)

theorem step_sound (sound : TaskSound s) (step : Step imp s s') : TaskSound s' := by
  cases step with
  | spawn _ =>
    refine ⟨fun loader at_ => ?_,fun summary answers at_ => ?_⟩ <;>
    · dsimp only at at_
      split at at_ <;> cases at_
  | start now _ started =>
    refine ⟨fun loader at_ => ?_,fun summary answers at_ => ?_⟩
    · cases at_
      exact started_loading started
    · cases at_
  | startFails now _ _ => exact ⟨fun loader at_ => (by cases at_),fun summary answers at_ => (by cases at_)⟩
  | edge at_ _ moved =>
    refine ⟨fun loader now => ?_,fun summary answers now => ?_⟩
    · cases now
      exact moved_loading (sound.running _ at_) moved
    · cases now
  | edgeEnds at_ returned =>
    refine ⟨fun loader now => ?_,fun summary answers now => ?_⟩
    · cases now
    · cases now
      exact returned_imported (sound.running _ at_) returned
  | loaded _ _ =>
    refine sound_same sound ?_
    unfold counted
    split <;> rfl
  | _ => exact sound_same sound rfl

theorem step_holds (sound : TaskSound s) (holds : Holds s) (step : Step imp s s') : Holds s' := by
  cases step with
  | ensure at_ _ =>
    obtain ⟨blank,folds,none_⟩ := (holds_ensuring at_).mp holds
    exact (holds_ensuring rfl).mpr ⟨⟨blank.loads,blank.vertices,blank.edges⟩,folds,none_⟩
  | spawn at_ =>
    obtain ⟨blank,folds,none_⟩ := (holds_ensuring at_).mp holds
    refine (holds_reading rfl).mpr ⟨⟨blank.loads,blank.vertices,blank.edges⟩,?_,⟨[],rfl,folds⟩,?_⟩
    · unfold Chosen
      by_cases routed : imp.routed <;> simp [routed]
    · refine ⟨fun loader at_ => ?_,fun summary answers at_ => ?_⟩ <;>
      · dsimp only at at_
        split at at_ <;> cases at_
  | start now at_ started =>
    refine holds_task holds rfl (fun result answers => by simp [at_]) (by simp [at_])
      fun rest reading open_ => ?_
    refine ⟨fun loader at_ => ?_,fun summary answers at_ => (by cases at_)⟩
    cases at_
    exact started_cut started
  | startFails now at_ failed =>
    exact holds_task holds rfl (fun result answers => by simp [at_]) (by simp [at_]) fun rest reading open_ =>
      ⟨fun loader at_ => (by cases at_),fun summary answers at_ => (by cases at_)⟩
  | edge at_ fed moved =>
    refine holds_task holds rfl (fun result answers => by simp [at_]) (by simp [at_])
      fun rest reading open_ => ?_
    refine ⟨fun loader now => ?_,fun summary answers now => by cases now⟩
    cases now
    exact open_fed reading (open_.running _ at_) fed moved
  | edgeEnds at_ returned =>
    refine holds_task holds rfl (fun result answers => by simp [at_]) (by simp [at_])
      fun rest reading open_ => ?_
    refine ⟨fun loader now => (by cases now),fun summary answers now => ?_⟩
    cases now
    exact cut_unreturned (sound.running _ at_) (open_.running _ at_) returned
  | read at_ heard =>
    obtain ⟨blank,choice,⟨done_,whole,folds⟩,open_⟩ := (holds_reading at_).mp holds
    refine (holds_reading rfl).mpr ⟨⟨blank.loads,blank.vertices,blank.edges⟩,choice,
      ⟨_,?_,folds_taken folds⟩,open_same open_ rfl⟩
    rw [whole,List.append_assoc]
    rfl
  | @breakOff triple edge _ rest result answers at_ built ended =>
    obtain ⟨blank,choice,-,open_⟩ := (holds_reading at_).mp holds
    cases result with
    | ok summary => exact absurd ended (open_.ended summary answers)
    | error err =>
      have ledger := @blank_ledger _ _ (taken imp s triple) ⟨blank.loads,blank.vertices,blank.edges⟩
          (.inr ⟨err,answers,ended⟩)
      exact (holds_loading rfl).mpr ⟨choice,ledger⟩
  | parsed at_ fine =>
    obtain ⟨blank,choice,⟨done_,whole,folds⟩,-⟩ := (holds_reading at_).mp holds
    rw [List.append_nil] at whole
    exact (holds_loading rfl).mpr ⟨choice,blank_ledger blank (.inl (whole ▸ folds))⟩
  | openVertices at_ _ | openEdges at_ _ _ =>
    obtain ⟨choice,ledger⟩ := (holds_loading at_).mp holds
    exact (holds_opening rfl).mpr ⟨choice,ledger.parsed,ledger.jobs,ledger.vertices,ledger.edges,
      ledger.imported⟩
  | begin now at_ started =>
    obtain ⟨choice,ledger⟩ := (holds_opening at_).mp holds
    exact (holds_importing rfl).mpr
      ⟨⟨choice,ledger.parsed,ledger.jobs,ledger.vertices,ledger.edges,ledger.imported⟩,started_loading started⟩
  | load at_ moved =>
    obtain ⟨⟨choice,ledger⟩,loading⟩ := (holds_importing at_).mp holds
    exact (holds_importing rfl).mpr
      ⟨⟨choice,ledger.parsed,ledger.jobs,ledger.vertices,ledger.edges,ledger.imported⟩,
      moved_loading loading moved⟩
  | loaded at_ returned =>
    obtain ⟨⟨choice,ledger⟩,loading⟩ := (holds_importing at_).mp holds
    refine (holds_loading rfl).mpr ⟨?_,ledger_counted ledger (returned_imported loading returned)⟩
    unfold counted
    split <;> exact choice
  | @joined _ summary answers at_ ended =>
    obtain ⟨choice,ledger⟩ := (holds_loading at_).mp holds
    have imported := sound.ended _ _ ended
    refine (holds_concluded rfl).mpr ⟨?_,?_,⟨_,_,?_,?_,rfl⟩,?_⟩
    · exact ledger.parsed.resolve_right fun ⟨_,_,failed⟩ => by simp [ended] at failed
    · have streamed : ¬ imp.routed := fun routed => by simp [choice.mpr routed] at ended
      rw [if_neg streamed,List.map_append,← ledger.jobs,List.append_nil]
      rfl
    · exact ledger.vertices.trans (total_other (by simp [RdfImport.edges])).symm
    · have added : total .edge (s.loads ++ [⟨imp.edges,answers⟩]) = accumulate (total .edge s.loads)
          (.totals answers) := total_same rfl
      rw [ledger.edges,imported_totals imported]
      exact added.symm
    · intro load member
      rcases List.mem_append.mp member with earlier | last
      · exact ledger.imported load earlier
      · cases List.mem_singleton.mp last
        exact ⟨summary,imported⟩
  | complete at_ none_ =>
    obtain ⟨choice,ledger⟩ := (holds_loading at_).mp holds
    refine (holds_concluded rfl).mpr ⟨?_,?_,⟨_,_,ledger.vertices,ledger.edges,rfl⟩,ledger.imported⟩
    · exact ledger.parsed.resolve_right fun ⟨_,_,failed⟩ => by simp [none_] at failed
    · rw [if_pos (choice.mp none_),← ledger.jobs,List.append_nil,List.append_nil]
  | parseFails at_ _ => exact holds_winding rfl
  | ensureFails _ _ | wound _ _ | openFails _ _ _ | beginFails _ _ _ | loadFails _ _ | joinFails _ _ => exact holds_failed rfl

theorem reachable_holds (reachable : Reachable imp s) : TaskSound s ∧ Holds s := by
  refine @reachable_induction _ _ (fun s => TaskSound s ∧ Holds s) (fun world => ?_)
    (fun s s' kept step => ?_) _ reachable
  · refine ⟨⟨fun loader at_ => (by cases at_),fun summary answers at_ => (by cases at_)⟩,?_⟩
    exact (holds_ensuring rfl).mpr ⟨⟨rfl,rfl,rfl⟩,⟨rfl,rfl⟩,rfl⟩
  · exact ⟨step_sound kept.1 step,step_holds kept.1 kept.2 step⟩

theorem reachable_concluded {summary : RdfImportSummary} (reachable : Reachable imp s)
    (at_ : s.main = .finished (.ok summary)) :
    Concluded s summary := (holds_concluded at_).mp (reachable_holds reachable).2

end Steps
end ArangoDataTools.ImportRdf
