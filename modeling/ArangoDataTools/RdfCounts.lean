import ArangoDataTools.ImportSolo
import ArangoDataTools.RdfAccounts
import ArangoDataTools.RdfStores

namespace ArangoDataTools.ImportRdf
open Interaction Interaction.Program ImportPipeline Rdf

variable {W : Type} {imp : RdfImport W} {s : ImportState imp} {kind : CollectionKind} {loads : List Load}

section Sizes

theorem size_places (store : DocStore) : size store = store.places.length := by
  simp only [size,FirstWrite.places,List.length_flatMap,List.length_map,Std.ExtTreeMap.length_toList]

theorem jobsOf_size (kind : CollectionKind) (store : DocStore) :
    ((jobsOf kind store).map fun job => job.documents.length).sum = size store := by
  simp only [jobsOf,size,List.map_map,Function.comp_def,List.length_map,Std.ExtTreeMap.length_toList]

theorem jobsOf_kind {store : DocStore} {job : Job} (member : job ∈ jobsOf kind store) : job.kind = kind := by
  obtain ⟨group,-,rfl⟩ := List.mem_map.mp member
  rfl

def ofKind (kind : CollectionKind) (jobs : List Job) : List Job := jobs.filter fun job => job.kind = kind

theorem ofKind_same {jobs : List Job} (all : ∀ job ∈ jobs, job.kind = kind) : ofKind kind jobs = jobs :=
  List.filter_eq_self.mpr fun job member => decide_eq_true (all job member)

theorem ofKind_other {other : CollectionKind} {jobs : List Job}
    (all : ∀ job ∈ jobs, job.kind = other) (apart : other ≠ kind) :
    ofKind kind jobs = [] := List.filter_eq_nil_iff.mpr fun job member => by simp [all job member,apart]

theorem ofKind_append (jobs more : List Job) : ofKind kind (jobs ++ more) = ofKind kind jobs ++
    ofKind kind more :=
  List.filter_append _ _

-- Where the edges of the statements go, by collection and key.
def edgePlaces (imp : RdfImport W) : List (String × String) :=
  (linked imp.options imp.triples).map fun triple => (edgeWrite imp.digest imp.options triple).1

def repeated (imp : RdfImport W) : Nat := (edgePlaces imp).length - (edgePlaces imp).dedup.length

theorem buffered_size (folds : s.folded = foldTriples imp.digest imp.options imp.triples) :
    size (bufferDocs s.folded.edges) + repeated imp = s.folded.edges.length := by
  have counted := @FirstWrite.places_puts_length _ _ _ _ _ _ _
      ((linked imp.options imp.triples).map (edgeWrite imp.digest imp.options)) _ _ _
  rw [List.map_map] at counted
  have fewer : (edgePlaces imp).dedup.length ≤ (edgePlaces imp).length := (List.dedup_sublist _).length_le
  rw [folds,size_places,bufferDocs_writes,counted,edges_linked,List.length_map,
    ← List.length_map (f:=fun triple =>
    (edgeWrite imp.digest imp.options triple).1)]
  exact Nat.add_sub_of_le fewer

theorem repeated_none (imp : RdfImport W) : repeated imp = 0 ↔ (edgePlaces imp).Nodup := by
  have fewer := List.dedup_sublist (edgePlaces imp)
  rw [← List.dedup_eq_self]
  constructor
  · intro none_
    exact fewer.eq_of_length (Nat.le_antisymm fewer.length_le (Nat.sub_eq_zero_iff_le.mp none_))
  · intro same
    unfold repeated
    rw [same,Nat.sub_self]

end Sizes

section Sums

theorem accumulated (field : ImportSummary → UInt64)
    (additive : ∀ one two, field (accumulate one two) = field one + field two)
    (loads : List Load) (start : ImportSummary) :
    field (loads.foldl (fun sum load => accumulate sum (.totals load.answers)) start) =
      field start + (loads.map fun load => field (.totals load.answers)).sum := by
  induction loads generalizing start with
  | nil => exact (UInt64.add_zero _).symm
  | cons load rest ih => rw [List.foldl_cons,ih,additive,List.map_cons,List.sum_cons,UInt64.add_assoc]

theorem totalled (field : ImportSummary → UInt64)
    (additive : ∀ one two, field (accumulate one two) = field one + field two)
    (zero : field {} = 0) : field (total kind loads) =
      ((loads.filter fun load => load.job.kind = kind).map fun load => field (.totals load.answers)).sum := by
  unfold total
  rw [accumulated field additive,zero,UInt64.zero_add]

variable {verdicts : List (List (Batch × List Outcome))}

-- What the server did with the documents of every load.
abbrev Judged (loads : List Load) (verdicts : List (List (Batch × List Outcome))) : Prop :=
  List.Forall₂ (fun load verdicts => Told load.answers verdicts) loads verdicts

def rejected (kind : CollectionKind) (loads : List Load)
    (verdicts : List (List (Batch × List Outcome))) : Nat :=
  (((loads.zip verdicts).filter fun load => load.1.job.kind = kind).map fun load => rejections load.2).sum

theorem imported_loads (imp : RdfImport W) (job : Job) :
    Loads (imp.load job).blurred imp.line job.documents := ⟨rfl,rfl,rfl⟩

theorem load_counts {load : Load} {summary : ImportSummary} {told_ : List (Batch × List Outcome)}
    (imported : Imported imp load.job summary load.answers) (told : Told load.answers told_) :
    (ImportSummary.totals load.answers).created + (ImportSummary.totals load.answers).ignored +
      (ImportSummary.totals load.answers).errors = UInt64.ofNat load.job.documents.length := by
  have same := imported_totals imported
  obtain ⟨loader,reachable,returned,answered⟩ := imported
  rw [answered] at told
  rw [← same]
  exact (loads_counts (imported_loads imp load.job) reachable returned told).1

theorem judged_told (judged : Judged loads verdicts) {load : Load} (member : load ∈ loads) :
    ∃ told_, Told load.answers told_ := by
  induction judged with
  | nil => cases member
  | cons told _ ih =>
    rcases List.mem_cons.mp member with rfl | later
    · exact ⟨_,told⟩
    · exact ih later

theorem ofNat_sum (counts : List Nat) : (counts.map UInt64.ofNat).sum = UInt64.ofNat counts.sum := by
  induction counts with
  | nil => rfl
  | cons count rest ih => rw [List.map_cons,List.sum_cons,ih,List.sum_cons,UInt64.ofNat_add]

theorem kind_counts (judged : Judged loads verdicts) (imported : ∀ load ∈ loads, ∃ summary,
    Imported imp load.job summary load.answers) :
    (total kind loads).created + (total kind loads).ignored + (total kind loads).errors =
      UInt64.ofNat ((ofKind kind (loads.map Load.job)).map fun job => job.documents.length).sum := by
  have sums := @totalled kind loads (fun summary => summary.created + summary.ignored + summary.errors)
    (fun one two => by simp only [accumulate]; ac_rfl) rfl
  have each : (loads.filter fun load => load.job.kind = kind).map
      (fun load => (ImportSummary.totals load.answers).created +
      (ImportSummary.totals load.answers).ignored + (ImportSummary.totals load.answers).errors) =
      (loads.filter fun load => load.job.kind = kind).map fun load =>
      UInt64.ofNat load.job.documents.length := by
    refine List.map_congr_left fun load member => ?_
    have inside := List.mem_of_mem_filter member
    obtain ⟨summary,imported⟩ := imported load inside
    obtain ⟨told_,told⟩ := judged_told judged inside
    exact load_counts imported told
  rw [each] at sums
  rw [← ofNat_sum,ofKind,List.filter_map,List.map_map,List.map_map]
  exact sums

theorem kind_errors (judged : Judged loads verdicts) : (total kind loads).errors =
    UInt64.ofNat (rejected kind loads verdicts) := by
  rw [totalled (fun summary => summary.errors) (fun one two => rfl) rfl]
  induction judged with
  | nil => rfl
  | @cons load told_ loads verdicts told _ ih =>
    unfold rejected at ih ⊢
    rw [List.zip_cons_cons,List.filter_cons,List.filter_cons]
    by_cases same : load.job.kind = kind
    · rw [if_pos (decide_eq_true same),if_pos (decide_eq_true same),List.map_cons,List.sum_cons,ih,
        told_errors told.tells,
        List.map_cons,List.sum_cons,UInt64.ofNat_add]
    · rw [if_neg (by simpa using same),if_neg (by simpa using same)]
      exact ih

theorem judged_none (judged : Judged loads verdicts) :
    (∀ kind, rejected kind loads verdicts = 0) ↔ ∀ judged ∈ verdicts, ∀ verdict ∈ judged,
    .rejected ∉ verdict.2 := by
  have listed : (∀ kind, rejected kind loads verdicts = 0) ↔ ∀ load ∈ loads.zip verdicts,
      rejections load.2 = 0 := by
    simp only [rejected,List.sum_eq_zero_iff,List.forall_mem_map,List.mem_filter,decide_eq_true_eq,and_imp]
    exact ⟨fun all load member => all _ load member rfl,fun all _ load member _ => all load member⟩
  have clean : ∀ told_ : List (Batch × List Outcome), rejections told_ = 0 ↔ ∀ verdict ∈ told_,
      .rejected ∉ verdict.2 := by
    intro told_
    rw [rejections,List.sum_eq_zero_iff]
    simp only [List.forall_mem_map,List.count_eq_zero]
  rw [listed]
  clear listed
  induction judged with
  | nil => simp
  | cons told _ ih =>
    rw [List.zip_cons_cons,List.forall_mem_cons,List.forall_mem_cons]
    exact and_congr (clean _) ih

end Sums

section Accounts
variable {summary : RdfImportSummary} {verdicts : List (List (Batch × List Outcome))}

theorem concluded_counts (concluded : Concluded s summary) (judged : Judged s.loads verdicts) :
    summary.verticesCreated + summary.verticesIgnored + UInt64.ofNat
      (rejected .document s.loads verdicts) = summary.verticesBuilt ∧
    summary.edgesCreated + summary.edgesIgnored + UInt64.ofNat (rejected .edge s.loads verdicts) =
      if imp.routed then UInt64.ofNat (size (bufferDocs s.folded.edges)) else summary.edgesBuilt := by
  obtain ⟨⟨folds,-⟩,jobs,⟨vertexTotals,edgeTotals,rfl,rfl,rfl⟩,imported⟩ := concluded
  have documents := @kind_counts _ _ .document _ _ judged imported
  have edges := @kind_counts _ _ .edge _ _ judged imported
  rw [kind_errors judged] at documents edges
  have vertexJobs : ∀ job ∈ jobsOf .document s.folded.vertices, job.kind = .document := fun job => jobsOf_kind
  have edgeJobs : ∀ job ∈ jobsOf .edge (bufferDocs s.folded.edges), job.kind = .edge := fun job => jobsOf_kind
  have built : imp.edges.documents.length = s.folded.edges.length := by rw [folds]; exact List.length_map _
  rw [jobs] at documents edges
  by_cases routed : imp.routed
  · rw [if_pos routed,List.append_nil,RdfImport.jobs,if_pos routed,ofKind_append] at documents edges
    rw [ofKind_same vertexJobs,ofKind_other edgeJobs (by simp),List.append_nil,jobsOf_size] at documents
    rw [ofKind_other vertexJobs (by simp),ofKind_same edgeJobs,List.nil_append,jobsOf_size] at edges
    rw [if_pos routed]
    exact ⟨documents,edges⟩
  · have streamed : ∀ job ∈ [imp.edges], job.kind = .edge := fun job only => by
      cases List.mem_singleton.mp only; rfl
    rw [if_neg routed,RdfImport.jobs,if_neg routed,List.append_nil,ofKind_append] at documents edges
    rw [ofKind_same vertexJobs,ofKind_other streamed (by simp),List.append_nil,jobsOf_size] at documents
    rw [ofKind_other vertexJobs (by simp),ofKind_same streamed,List.nil_append] at edges
    rw [if_neg routed]
    exact ⟨documents,edges.trans (congrArg UInt64.ofNat built)⟩

-- The documents that the counts leave out.
def unaccounted (imp : RdfImport W) (loads : List Load)
    (verdicts : List (List (Batch × List Outcome))) : CollectionKind → Nat
  | .document => rejected .document loads verdicts
  | .edge => rejected .edge loads verdicts + if imp.routed then repeated imp else 0

theorem wrapped_iff {sum : UInt64} {count : Nat} : sum = sum + UInt64.ofNat count ↔ 2 ^ 64 ∣ count := by
  rw [eq_comm,UInt64.add_eq_left,← UInt64.toNat_inj,UInt64.toNat_ofNat']
  exact (Nat.dvd_iff_mod_eq_zero).symm

theorem accounts_sums (concluded : Concluded s summary) (judged : Judged s.loads verdicts) :
    summary.verticesBuilt = summary.verticesCreated + summary.verticesIgnored + UInt64.ofNat
      (unaccounted imp s.loads verdicts .document) ∧
    summary.edgesBuilt = summary.edgesCreated + summary.edgesIgnored + UInt64.ofNat
      (unaccounted imp s.loads verdicts .edge) := by
  obtain ⟨vertices,edges⟩ := concluded_counts concluded judged
  have sizes := buffered_size concluded.parsed.1
  have built : summary.edgesBuilt = UInt64.ofNat s.folded.edges.length := by
    obtain ⟨_,_,-,-,rfl⟩ := concluded.summary
    rfl
  refine ⟨vertices.symm,?_⟩
  unfold unaccounted
  by_cases routed : imp.routed
  · rw [if_pos routed] at edges
    rw [if_pos routed,built,← sizes,UInt64.ofNat_add,← edges,UInt64.ofNat_add,UInt64.add_assoc]
  · rw [if_neg routed] at edges
    rw [if_neg routed,Nat.add_zero,edges]

theorem unaccounted_none (judged : Judged s.loads verdicts) :
    (∀ kind, unaccounted imp s.loads verdicts kind = 0) ↔
    (∀ judged ∈ verdicts, ∀ verdict ∈ judged, .rejected ∉ verdict.2) ∧
    (imp.routed → (edgePlaces imp).Nodup) := by
  rw [← judged_none judged,← repeated_none]
  by_cases routed : imp.routed
  · simp only [routed,forall_true_left]
    constructor
    · intro none_
      have edges : rejected .edge s.loads verdicts + (if imp.routed then repeated imp else 0) = 0 := none_ .edge
      rw [if_pos routed] at edges
      refine ⟨fun kind => ?_,(Nat.add_eq_zero_iff.mp edges).2⟩
      cases kind with
      | document => exact none_ .document
      | edge => exact (Nat.add_eq_zero_iff.mp edges).1
    · intro none_ kind
      cases kind with
      | document => exact none_.1 .document
      | edge =>
        unfold unaccounted
        rw [if_pos routed,none_.1 .edge,none_.2]
  · simp only [routed,false_implies,and_true]
    refine forall_congr' fun kind => ?_
    cases kind with
    | document => rfl
    | edge =>
      unfold unaccounted
      rw [if_neg routed,Nat.add_zero]

-- The sums wrap at 64 bits, where it takes that many documents left out for them to meet again.
theorem rdf_import_accounts_iff (reachable : Reachable imp s) (finished : s.main = .finished (.ok summary))
    (judged : Judged s.loads verdicts) :
    ((summary.verticesCreated + summary.verticesIgnored = summary.verticesBuilt ∧
        summary.edgesCreated + summary.edgesIgnored = summary.edgesBuilt) ↔
      ∀ kind, 2 ^ 64 ∣ unaccounted imp s.loads verdicts kind) ∧
    ((∀ kind, unaccounted imp s.loads verdicts kind < 2 ^ 64) →
      ((summary.verticesCreated + summary.verticesIgnored = summary.verticesBuilt ∧
          summary.edgesCreated + summary.edgesIgnored = summary.edgesBuilt) ↔
        (∀ judged ∈ verdicts, ∀ verdict ∈ judged, .rejected ∉ verdict.2) ∧
          (imp.routed → (edgePlaces imp).Nodup))) := by
  obtain ⟨vertices,edges⟩ := accounts_sums (reachable_concluded reachable finished) judged
  have exact_ : (summary.verticesCreated + summary.verticesIgnored = summary.verticesBuilt ∧
      summary.edgesCreated + summary.edgesIgnored = summary.edgesBuilt) ↔
      ∀ kind, 2 ^ 64 ∣ unaccounted imp s.loads verdicts kind := by
    rw [vertices,edges,wrapped_iff,wrapped_iff]
    exact ⟨fun both kind => (by cases kind; exacts [both.1,both.2]),fun all => ⟨all .document,all .edge⟩⟩
  refine ⟨exact_,fun few => ?_⟩
  rw [exact_,← unaccounted_none judged]
  exact forall_congr' fun kind =>
    ⟨fun divides => Nat.eq_zero_of_dvd_of_lt divides (few kind),fun none_ => none_ ▸ Nat.dvd_zero _⟩

end Accounts
section Sole

theorem load_path {job : Job} {jobs : List Job} {loader loader' : Loader imp.concurrency.workers W}
    (path : Relation.ReflTransGen (ImportPipeline.Step (imp.load job)) loader loader') :
    Relation.ReflTransGen (Step imp) {s with main := .importing job jobs loader,world := loader.world}
      {s with main := .importing job jobs loader',world := loader'.world} := by
  induction path with
  | refl => exact .refl
  | tail _ moved ih => exact ih.tail (.load rfl moved)

-- `<s> <p> "o" .` without literals: one vertex and no edge, and a server that says `reply`.
def literalTriple : RdfTriple := ⟨.iri "s","p",.literal "o" none none,none⟩

def vertexLine : Bytes :=
  "\x7b\"_key\":\"9df93e1b6cabac38aee99adb31b49c815598eaf6e1d43c4c7183e112379451b0\",\"iri\":\"s\"\x7d".toUTF8.toList

def replies (reply : ImportResult) : (call : Call) → call.Answer → Prop
  | .ensureCollection _ _,answer => answer = .ok ()
  | .importDocuments _ _,answer => answer = .ok reply

def soleVertex (reply : ImportResult) : RdfImport Unit :=
  {digest := sampleDigest
   options := {vertexCollection := "nodes",edgeCollection := "links",literalPolicy := .noLiterals,namedGraph := .collection}
   triples := [literalTriple]
   parseError := none
   line := fun _ => vertexLine
   batch := {}
   concurrency := {workers := 1,maxInFlightBytes := 8 * 1024 * 1024,adaptive := false}
   answers := fun call _ answer _ => replies reply call answer}

def soleJob : Job := ⟨"nodes",.document,[plainOptions.resourceVertex sampleDigest (.iri "s")]⟩

def soleBatch : Batch := ⟨vertexLine ++ [10],1,1⟩

theorem soleVertex_finishes (reply : ImportResult) : ∃ (s : ImportState (soleVertex reply))
    (summary : RdfImportSummary),
    Reachable (soleVertex reply) s ∧ s.main = .finished (.ok summary) ∧
    s.loads = [⟨soleJob,[(soleBatch,reply)]⟩] := by
  have told : Resolves (soleVertex reply).answers (lift (.ok reply)) () (.ok reply) () := .lift
  have sent : Resolves (soleVertex reply).answers (RdfImport.send "nodes" soleBatch) () (.ok reply) () := .call _ _ (.ok reply) () rfl told
  have accepted : @Accepted _ _ _ ((soleVertex reply).load soleJob) [soleBatch] () [(soleBatch,reply)] () :=
    .send Nat.zero_lt_one sent .nil
  obtain ⟨loader,summary,⟨_,now,opened,started,path⟩,returned,-,answered,-⟩ :=
    solo_returns rfl (by simp [soleVertex,RdfImport.load]) (fun err => Option.some_ne_none _ ∘ Eq.symm) rfl accepted
  let at_ (main : Main 1 Unit RdfImportSummary) : ImportState (soleVertex reply) :=
    {(soleVertex reply).begin () with main := main}
  let read (main : Main 1 Unit RdfImportSummary) : ImportState (soleVertex reply) :=
    {taken _ (at_ main) literalTriple with main := main}
  have ensured : Step (soleVertex reply) ((soleVertex reply).begin ())
      (at_ (.ensuring [("links",.edge)])) := .ensure rfl rfl
  have ensured' : Step (soleVertex reply) (at_ (.ensuring [("links",.edge)]))
      (at_ (.ensuring [])) := .ensure rfl rfl
  have spawned : Step (soleVertex reply) (at_ (.ensuring [])) (at_ (.reading [literalTriple])) := .spawn rfl
  have folded : Step (soleVertex reply) (at_ (.reading [literalTriple])) (read (.reading [])) :=
    .read rfl (.inl rfl)
  have parsed : Step (soleVertex reply) (read (.reading [])) (read (.loading [soleJob])) := .parsed rfl rfl
  have chosen : Step (soleVertex reply) (read (.loading [soleJob])) (read (.opening soleJob [])) :=
    .openVertices rfl rfl
  have begun : Step (soleVertex reply) (read (.opening soleJob []))
      (read (.importing soleJob [] opened)) := .begin now rfl started
  have loads := @load_path _ _ (read (.loading [])) soleJob [] _ _ path
  let done_ (main : Main 1 Unit RdfImportSummary) : ImportState (soleVertex reply) :=
    {counted _ (read main) soleJob summary with main := main,loads := [⟨soleJob,[(soleBatch,reply)]⟩]}
  have loaded : Step (soleVertex reply) (read (.importing soleJob [] loader)) (done_ (.loading [])) := by
    have step := @Step.loaded _ (soleVertex reply) (read (.importing soleJob [] loader)) _ _ _ _ rfl returned
    rw [answered] at step
    exact step
  have complete : Step (soleVertex reply) (done_ (.loading []))
      (done_
        (.finished (.ok (summaryOf _ (done_ (.loading [])) (done_ (.loading [])).edgeTotals)))) :=
        .complete rfl rfl
  have opening :=
    (((((Relation.ReflTransGen.single ensured).tail ensured').tail spawned).tail folded).tail
      parsed).tail chosen
  exact ⟨_,_,⟨(),(((opening.tail begun).trans loads).tail loaded).tail complete⟩,rfl,rfl⟩

theorem accepted_vertex_accounted : ∃ (s : ImportState (soleVertex {created := 1}))
    (summary : RdfImportSummary),
    Reachable (soleVertex {created := 1}) s ∧ s.main = .finished (.ok summary) ∧
      summary.verticesCreated + summary.verticesIgnored = summary.verticesBuilt ∧
      summary.edgesCreated + summary.edgesIgnored = summary.edgesBuilt := by
  obtain ⟨s,summary,reachable,finished,loads⟩ := soleVertex_finishes {created := 1}
  have judged : Judged s.loads [[(soleBatch,[.created])]] := by
    rw [loads]
    exact .cons ⟨.cons ⟨rfl,rfl,rfl,rfl,rfl,rfl⟩ .nil,by simp⟩ .nil
  have few : ∀ kind, unaccounted (soleVertex {created := 1}) s.loads
      [[(soleBatch,[.created])]] kind < 2 ^ 64 := by
    intro kind
    rw [loads]
    cases kind <;> decide
  exact ⟨s,summary,reachable,finished,((rdf_import_accounts_iff reachable finished judged).2 few).mpr ⟨by simp,fun _ => .nil⟩⟩

-- The vertex is rejected and the import says nothing of it.
theorem rejected_vertex_unaccounted : ¬∀ (W : Type) (imp : RdfImport W) (s : ImportState imp)
    (summary : RdfImportSummary)
    (verdicts : List (List (Batch × List Outcome))), Reachable imp s →
    s.main = .finished (.ok summary) → Judged s.loads verdicts →
      summary.verticesCreated + summary.verticesIgnored = summary.verticesBuilt ∧
      summary.edgesCreated + summary.edgesIgnored = summary.edgesBuilt := by
  intro always
  obtain ⟨s,summary,reachable,finished,loads⟩ := soleVertex_finishes {errors := 1}
  have judged : Judged s.loads [[(soleBatch,[.rejected])]] := by
    rw [loads]
    exact .cons ⟨.cons ⟨rfl,rfl,rfl,rfl,rfl,rfl⟩ .nil,by simp⟩ .nil
  have counts := (accounts_sums (reachable_concluded reachable finished) judged).1
  rw [← (always Unit _ s summary _ reachable finished judged).1] at counts
  have missed : unaccounted (soleVertex {errors := 1}) s.loads [[(soleBatch,[.rejected])]] .document = 1 := by
    rw [loads]
    rfl
  have divides := wrapped_iff.mp counts
  rw [missed] at divides
  exact absurd divides (by decide)

end Sole
end ArangoDataTools.ImportRdf
