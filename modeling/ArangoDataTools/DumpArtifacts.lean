import ArangoDataTools.DumpExclusion

namespace ArangoDataTools.DumpArtifacts
open Interaction Interaction.Program Dump DumpClaim DumpExclusion

variable {ι : Type}

-- Every artifact a present manifest lists is a finished write of the run that
-- wrote the manifest.
def Unmixed (codec : Codec) (store : Nat) (w : Destination ι) : Prop :=
  ∀ stored manifest, w (manifestAt store) = some stored → codec.manifestFromJson stored.bytes = .ok manifest →
    ∀ artifact ∈ manifest.artifacts, ∃ held, w ⟨store,artifact.path⟩ = some held ∧
      held.writer = stored.writer ∧ held.complete = true

-- What is read back from a manifest text, cut short or not, is that manifest.
def ReadsBack (codec : Codec) : Prop :=
  ∀ manifest received other,
    codec.manifestFromJson ((codec.manifestToJson manifest).take received) = .ok other →
    other = manifest

-- The lock is not created while a manifest is present.
def unfinished (store : Nat) (s : Dumps ι) (event : Event ι Op Op.Answer) : Prop :=
  ∀ i body size, event = .call i (.putIfAbsent (lockAt store) body) (.ok size) →
    s.world (manifestAt store) = none

def Kept (store : Nat) (w : Destination ι) (writer : Option ι) (path : String) : Prop :=
  IsArtifact store ⟨store,path⟩ ∧ ∃ held, w ⟨store,path⟩ = some held ∧ held.writer = writer ∧
    held.complete = true

structure Intact (codec : Codec) (store : Nat) (s : Dumps ι) : Prop where
  listed : ∀ stored manifest, s.world (manifestAt store) = some stored →
    codec.manifestFromJson stored.bytes = .ok manifest → ∀ artifact ∈ manifest.artifacts,
      Kept store s.world stored.writer artifact.path
  claimed : ∀ i written, s.phases i = .claimed written → s.world (manifestAt store) = none ∧
    ∀ path ∈ written, Kept store s.world (some i) path

section Steps
variable {codec : Codec} {store : Nat} {w w' : Destination ι}

theorem kept_same {writer : Option ι} {path : String} (kept : Kept store w writer path)
    (same : ∀ object, IsArtifact store object → w' object = w object) : Kept store w' writer path := by
  obtain ⟨artifact,held,present,rest⟩ := kept
  exact ⟨artifact,held,by rw [same _ artifact]; exact present,rest⟩

theorem kept_put {i : ι} {path : String} {object : ObjectRef} (kept : Kept store w (some i) path) :
    Kept store (Function.update w object (some ⟨body,some i,true⟩)) (some i) path := by
  obtain ⟨artifact,held,present,rest⟩ := kept
  by_cases equal : (⟨store,path⟩ : ObjectRef) = object
  · subst equal
    exact ⟨artifact,_,Function.update_self _ _ _,rfl,rfl⟩
  · exact ⟨artifact,held,by rw [Function.update_of_ne equal]; exact present,rest⟩

theorem intact_aside {s next : Dumps ι} (intact : Intact codec store s)
    (same : ∀ object, object ≠ lockAt store → next.world object = s.world object)
    (phases : ∀ i written, next.phases i = .claimed written → s.phases i = .claimed written ∨
      written = [] ∧ s.world (manifestAt store) = none) : Intact codec store next := by
  have artifacts : ∀ object, IsArtifact store object → next.world object = s.world object :=
    fun object artifact => same object (lock_not_artifact artifact).symm
  have manifest : next.world (manifestAt store) = s.world (manifestAt store) :=
    same _ (lock_not_manifest store).symm
  constructor
  · intro stored listed present parsed artifact member
    rw [manifest] at present
    exact kept_same (intact.listed stored listed present parsed artifact member) artifacts
  · intro i written phase
    rcases phases i written phase with before | ⟨rfl,absent⟩
    · obtain ⟨absent,kept⟩ := intact.claimed i written before
      exact ⟨manifest.trans absent,fun path member => kept_same (kept path member) artifacts⟩
    · exact ⟨manifest.trans absent,by simp⟩

theorem intact_missing {s : Dumps ι} {i : ι} (missing : s.world (manifestAt store) = none)
    (idle : ∀ j, j ≠ i → ∀ written, s.phases j ≠ .claimed written)
    (kept : ∀ written, s.phases i = .claimed written → ∀ path ∈ written, Kept store s.world (some i) path) :
    Intact codec store s := by
  constructor
  · intro stored manifest present
    rw [missing] at present
    cases present
  · intro j written phase
    by_cases equal : j = i
    · subst equal
      exact ⟨missing,kept written phase⟩
    · exact absurd phase (idle j equal written)

theorem intact_manifest {s : Dumps ι} {i : ι} {manifest : Manifest} {written : List String}
    (reads : ReadsBack codec)
    (kept : ∀ path ∈ written, Kept store w (some i) path)
    (listed : ∀ artifact ∈ manifest.artifacts, artifact.path ∈ written)
    (world : s.world = Function.update w (manifestAt store)
      (some ⟨(codec.manifestToJson manifest).take received,some i,complete⟩))
    (none_claimed : ∀ i written, s.phases i ≠ .claimed written) : Intact codec store s := by
  have artifacts : ∀ object, IsArtifact store object → s.world object = w object := by
    intro object artifact
    rw [world]
    exact Function.update_of_ne (manifest_not_artifact artifact).symm _ _
  constructor
  · intro stored other present parsed artifact member
    rw [world,Function.update_self] at present
    cases present
    have equal := reads manifest received other parsed
    subst equal
    exact kept_same (kept _ (listed artifact member)) artifacts
  · intro j written phase
    exact absurd phase (none_claimed j written)

theorem aside_unchanged {i : ι} {op : Op} {answer : op.Answer} {q : Phase}
    (permitted : permits codec store q op)
    (answered : Answers i op w answer w') (aside : ∀ written, q ≠ .claimed written)
      (beyond : object ≠ lockAt store) :
    w' object = w object := by
  by_contra changed
  have writes := answers_frame answered changed
  cases q with
  | claimed written => exact aside written rfl
  | outside =>
    cases op with
    | putIfAbsent target body => cases writes; exact beyond permitted
    | _ => first | exact permitted.elim | cases writes
  | landed =>
    cases op with
    | delete target => cases writes; exact beyond permitted
    | _ => first | exact permitted.elim | cases writes
  | spent => cases op <;> first | exact permitted.elim | cases writes
  | released => cases op <;> first | exact permitted.elim | cases writes

theorem aside_claims {i : ι} {op : Op} {answer : op.Answer} {q : Phase} (permitted : permits codec store q op)
    (answered : Answers i op w answer w') (aside : ∀ written, q ≠ .claimed written)
    (claims : advance q op answer = .claimed written) :
    written = [] ∧ ∃ body size, (⟨op,answer⟩ : Sigma Op.Answer) =
    ⟨.putIfAbsent (lockAt store) body,.ok size⟩ := by
  cases q with
  | claimed written => exact absurd rfl (aside written)
  | landed => cases answered <;> cases claims
  | spent => cases answered <;> cases claims
  | released => cases answered <;> cases claims
  | outside =>
    cases answered with
    | create absent =>
      cases claims
      rw [permitted]
      exact ⟨rfl,_,_,rfl⟩
    | _ => cases claims

end Steps

section Runs
variable [DecidableEq ι] {codec : Codec} {store : Nat} {runs : ι → Run}

theorem intact_writing {s : Dumps ι} {i : ι} {op : Op} {answer : op.Answer} {written : List String}
    {w : Destination ι}
    {threads : ι → Tool Manifest} (reads : ReadsBack codec) (exclusive : Exclusive store s)
      (intact : Intact codec store s)
    (phase : s.phases i = .claimed written) (permitted : permits codec store (.claimed written) op)
    (answered : Answers i op s.world answer w) :
    Intact codec store ⟨threads,Function.update s.phases i (advance (.claimed written) op answer),w⟩ := by
  obtain ⟨missing,kept⟩ := intact.claimed i written phase
  have idle : ∀ q j, j ≠ i → ∀ written, Function.update s.phases i q j ≠ .claimed written := by
    intro q j differs written other
    rw [Function.update_of_ne differs] at other
    exact differs (exclusive.sole j i (by rw [other]; trivial) (by rw [phase]; trivial))
  have nobody : ∀ q, (∀ written, q ≠ .claimed written) → ∀ j written,
      Function.update s.phases i q j ≠ .claimed written := by
    intro q left j written
    by_cases equal : j = i
    · rw [equal,Function.update_self]
      exact left written
    · exact idle q j equal written
  have unlisted : ∀ {object stored}, IsArtifact store object →
      Function.update s.world object stored (manifestAt store) = none := by
    intro object stored artifact
    rw [Function.update_of_ne (manifest_not_artifact artifact)]
    exact missing
  have stopped : ∀ w, w (manifestAt store) = none →
      Intact codec store ⟨threads,Function.update s.phases i .spent,w⟩ := by
    intro w absent
    exact intact_missing absent (idle .spent) fun written claimed =>
      absurd claimed (nobody .spent (by simp) i written)
  have still : Intact codec store ⟨threads,Function.update s.phases i (.claimed written),s.world⟩ := by
    apply intact_missing (s:=⟨threads,Function.update s.phases i (.claimed written),s.world⟩) missing (idle _)
    intro others claimed
    simp only [Function.update_self,Phase.claimed.injEq] at claimed
    subst claimed
    exact kept
  cases answered with
  | send answer => exact still
  | emit => exact still
  | count => exact still
  | @put object body =>
    rcases permitted with artifact | ⟨rfl,manifest,rfl,listed⟩
    · simp only [advance,artifact.2.2,if_false]
      apply intact_missing (unlisted artifact) (idle _)
      intro others claimed
      simp only [Function.update_self,Phase.claimed.injEq] at claimed
      subst claimed
      intro path member
      rcases List.mem_append.mp member with earlier | last
      · exact kept_put (kept path earlier)
      · have here : (⟨store,path⟩ : ObjectRef) = object := by
          rw [List.mem_singleton.mp last,← artifact.1]
        subst here
        exact ⟨artifact,_,Function.update_self _ _ _,rfl,rfl⟩
    · simp only [advance,manifestAt,if_true]
      have whole : (codec.manifestToJson manifest).take (codec.manifestToJson manifest).length =
        codec.manifestToJson manifest := List.take_length
      refine intact_manifest reads kept listed (Eq.trans ?_ (congrArg (fun bytes => Function.update s.world
        (manifestAt store) (some ⟨bytes,some i,true⟩)) whole.symm)) (nobody _ (by simp))
      rfl
  | putFailed => exact stopped s.world missing
  | putTorn =>
    rcases permitted with artifact | ⟨rfl,manifest,rfl,listed⟩
    · exact stopped _ (unlisted artifact)
    · exact intact_manifest reads kept listed rfl (nobody _ (by simp [advance]))
  | abort => exact stopped s.world missing
  | abortTorn => exact stopped _ (unlisted permitted)
  | _ => exact permitted.elim

theorem intact_step {s next : Dumps ι} (reads : ReadsBack codec)
    (following : Following (protocol codec store) s)
    (exclusive : Exclusive store s) (intact : Intact codec store s) (meets : unfinished store s event)
    (step : Step codec store s event next) : Intact codec store next := by
  cases step with
  | stop head => exact ⟨intact.listed,intact.claimed⟩
  | @call i op rest answer w head answered =>
    have permitted : permits codec store (s.phases i) op := following_permits following head
    by_cases writing : ∃ written, s.phases i = .claimed written
    · obtain ⟨written,phase⟩ := writing
      rw [phase] at permitted
      simp only [phase]
      exact intact_writing reads exclusive intact phase permitted answered
    · have aside : ∀ written, s.phases i ≠ .claimed written := fun written equal => writing ⟨written,equal⟩
      apply intact_aside intact
      · intro object beyond
        exact aside_unchanged permitted answered aside beyond
      · intro j written claims
        by_cases equal : j = i
        · subst j
          simp only [Function.update_self] at claims
          obtain ⟨nil,body,size,call⟩ := aside_claims permitted answered aside claims
          refine .inr ⟨nil,?_⟩
          cases call
          exact meets i body size rfl
        · simp only [Function.update_of_ne equal] at claims
          exact .inl claims

structure Safe (codec : Codec) (store : Nat) (s : Dumps ι) : Prop where
  exclusive : Exclusive store s
  intact : Intact codec store s

theorem safe_step {s next : Dumps ι} (reads : ReadsBack codec) (following : Following (protocol codec store) s)
    (safe : Safe codec store s) (meets : unfinished store s event) (step : Step codec store s event next) :
    Safe codec store next :=
  ⟨exclusive_step following safe.exclusive step,
    intact_step reads following safe.exclusive safe.intact meets step⟩

omit [DecidableEq ι] in
theorem initial_intact {w : Destination ι} (empty : w (manifestAt store) = none) :
    Intact codec store (initial codec store runs w) := by
  constructor
  · intro stored manifest present
    have absent : (initial codec store runs w).world (manifestAt store) = none := empty
    rw [absent] at present
    cases present
  · intro i written claimed
    cases claimed

-- In a run where no lock is created over a present manifest, what a present
-- manifest lists is never another run's.
theorem artifacts_unmixed_when_unfinished (reads : ReadsBack codec)
    (kept : ∀ i, (runs i).options.overwrite = false)
    {w : Destination ι} (empty : w (manifestAt store) = none) {s : Dumps ι}
    (path : Reached codec store (unfinished store) (initial codec store runs w) s) :
    Unmixed codec store s.world := by
  have initially : Safe codec store (initial codec store runs w) := ⟨initial_exclusive w,initial_intact empty⟩
  have safe : Safe codec store s := by
    apply pool_invariant initially (initial_following kept w) _ path
    intro s event next following safe meets step
    exact safe_step reads following safe meets step
  intro stored manifest present parsed artifact member
  exact (safe.intact.listed stored manifest present parsed artifact member).2

def onlyBy (i : ι) (_ : Dumps ι) (event : Event ι Op Op.Answer) : Prop := event.party = i

omit [DecidableEq ι] in
theorem advance_outside {op : Op} {answer : op.Answer} {q : Phase} (outside : advance q op answer = .outside) :
    q = .outside := by
  unfold advance at outside
  split at outside
  · cases outside
  · split at outside <;> cases outside
  · cases outside
  · cases outside
  · cases outside
  · exact outside

-- A run that has the destination to itself always meets the condition: it
-- creates the lock before it has written anything.
theorem lone_meets {i : ι} (kept : ∀ j, (runs j).options.overwrite = false) {w : Destination ι}
    (empty : w (manifestAt store) = none) {s : Dumps ι}
    (path : Reached codec store (onlyBy i) (initial codec store runs w) s) :
    Reached codec store (unfinished store) (initial codec store runs w) s ∧
      (s.phases i = .outside → s.world (manifestAt store) = none) := by
  induction path with
  | start => exact ⟨.start,fun _ => empty⟩
  | @step next s event path mine step ih =>
    obtain ⟨reached,absent⟩ := ih
    have following := following_reached (initial_following kept w) path
    cases step with
    | stop head => exact ⟨.step reached (fun _ _ _ call => by cases call) (.stop head),absent⟩
    | @call j op rest answer w head answered =>
      have equal : j = i := mine
      subst equal
      have permitted : permits codec store (s.phases j) op := following_permits following head
      have meets : unfinished store s (.call j op answer) := by
        intro k body size call
        cases call
        have outside : s.phases j = .outside := by
          cases phase : s.phases j <;> rw [phase] at permitted <;> first | rfl | exact permitted.elim
        exact absent outside
      refine ⟨.step reached meets (.call head answered),?_⟩
      intro outside
      simp only [Function.update_self] at outside
      have before : s.phases j = .outside := advance_outside outside
      have aside : ∀ written, s.phases j ≠ .claimed written := by
        intro written claimed
        rw [before] at claimed
        cases claimed
      exact (aside_unchanged permitted answered aside (lock_not_manifest store).symm).trans (absent before)

end Runs

theorem sampleCodec_reads : ReadsBack sampleCodec := by
  intro manifest received other parsed
  by_cases equal : manifest = sampleManifest
  · subst equal
    by_cases whole : (sampleCodec.manifestToJson sampleManifest).take received = sampleText ∧
        (sampleCodec.manifestToJson sampleManifest).take received ≠ []
    · simp only [sampleCodec,if_true] at parsed whole
      rw [if_pos whole] at parsed
      cases parsed
      rfl
    · simp only [sampleCodec,if_true] at parsed whole
      rw [if_neg whole] at parsed
      cases parsed
  · simp [sampleCodec,equal] at parsed

-- One run alone, from an empty destination to its released lock.
def sampleLone : Dumps Bool := (initial sampleCodec 0 sampleRun fun _ => none).alone (protocol sampleCodec 0)
  (serving false {views := [sampleView "arangosearch"]}) false 9

-- Both runs find no manifest; the second one creates the lock after the first
-- has finished, and writes its own definition of the view.
def sampleChecked : Dumps Bool := (initial sampleCodec 0 sampleRun fun _ => none).alone (protocol sampleCodec 0)
  (serving true {views := [sampleView "search-alias"]}) true 2
def sampleFinished : Dumps Bool := sampleChecked.alone (protocol sampleCodec 0)
  (serving false {views := [sampleView "arangosearch"]}) false 9
def sampleMixed : Dumps Bool := sampleFinished.alone (protocol sampleCodec 0)
  (serving true {views := [sampleView "search-alias"]}) true 4

theorem sample_alone (i : Bool) (inventory : Inventory) (count : Nat) (s : Dumps Bool) :
    Reached sampleCodec 0 anyStep s (s.alone (protocol sampleCodec 0) (serving i inventory) i count) :=
  pool_alone (serving_answers i inventory) (fun _ _ _ => trivial) count s

theorem sampleMixed_reached :
    Reached sampleCodec 0 anyStep (initial sampleCodec 0 sampleRun fun _ => none) sampleMixed :=
  PoolReached.trans (PoolReached.trans (sample_alone true _ 2 _) (sample_alone false _ 9 _))
    (sample_alone true _ 4 _)

set_option maxRecDepth 3000 in
theorem late_claim_mixes_artifacts : ¬ ∀ s,
    Reached sampleCodec 0 anyStep (initial sampleCodec 0 sampleRun fun _ => none) s →
    Unmixed sampleCodec 0 s.world := by
  intro unmixed
  have manifest : sampleMixed.world (manifestAt 0) =
      some ⟨sampleCodec.manifestToJson sampleManifest,some false,true⟩ := rfl
  have parsed : sampleCodec.manifestFromJson (sampleCodec.manifestToJson sampleManifest) =
      .ok sampleManifest := by
    simp [sampleCodec,sampleText_some]
  have listed : sampleArtifact ∈ sampleManifest.artifacts :=
    List.mem_append_right _ (List.mem_singleton.mpr rfl)
  obtain ⟨held,present,writer,_⟩ :=
    unmixed sampleMixed sampleMixed_reached _ _ manifest parsed sampleArtifact listed
  have view : (sampleMixed.world ⟨0,"v.view.json"⟩).map Stored.writer = some (some true) := by decide
  have same : sampleMixed.world ⟨0,"v.view.json"⟩ = some held := present
  rw [same] at view
  simp [writer] at view

theorem lone_dump_unmixed : Unmixed sampleCodec 0 sampleLone.world ∧
    sampleLone.world (manifestAt 0) = some ⟨sampleCodec.manifestToJson sampleManifest,some false,true⟩ := by
  have alone : Reached sampleCodec 0 (onlyBy false)
      (initial sampleCodec 0 sampleRun fun _ => none) sampleLone :=
    pool_alone (serving_answers false _) (fun _ _ _ => rfl) 9 _
  have meets := (lone_meets (fun _ => rfl) rfl alone).1
  exact ⟨artifacts_unmixed_when_unfinished sampleCodec_reads (fun _ => rfl) rfl meets,rfl⟩

end ArangoDataTools.DumpArtifacts
