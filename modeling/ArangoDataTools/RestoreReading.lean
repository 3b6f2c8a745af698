import Mathlib.Data.List.Forall2
import ArangoDataTools.RestoreTrace

namespace ArangoDataTools.RestoreReading
open Interaction Interaction.Program Restore RestoreTrace

section Content
variable (codec : Codec) (broken : ObjectRef → Prop) (objects : ObjectRef → Option Bytes) (store : Nat)

def Holds (path : String) (plain : Bytes) : Prop :=
  ¬ broken ⟨store,path⟩ ∧ ∃ bytes, objects ⟨store,path⟩ = some bytes ∧ codec.decode .none bytes = .ok plain

def HasManifest (manifest : Manifest) : Prop :=
  ∃ plain, Holds codec broken objects store manifestName plain ∧ codec.manifestFromJson plain = .ok manifest

def HasStructure (group : CollectionGroup) (structure_ : Structure) : Prop :=
  group.structurePath ≠ "" ∧ ∃ plain value, Holds codec broken objects store group.structurePath plain ∧
    codec.fromSlice plain = .ok value ∧ parseStructure value = .ok structure_

def HasView (artifact : Artifact) (view : ViewArtifact) : Prop :=
  ∃ plain definition name, Holds codec broken objects store artifact.path plain ∧
    codec.fromSlice plain = .ok definition ∧
    artifact.view.or ((definition.get "name").bind Value.asStr) = some name ∧
    view = ⟨name,artifact.database,definition⟩

def viewArtifacts (manifest : Manifest) : List Artifact := manifest.artifacts.filter fun artifact =>
    artifact.kind = .view

-- A dump from which a restore can make its plan.
structure Planned (plan : Plan) : Prop where
  manifest : HasManifest codec broken objects store plan.manifest
  valid : validate plan.manifest = .ok ()
  units : ∃ units, units.map Prod.fst = groupByCollection plan.manifest ∧
    (∀ unit ∈ units, HasStructure codec broken objects store unit.1 unit.2) ∧
    plan.units = sortUnits units ∧ plan.databases = databaseOrder units []
  views : List.Forall₂ (HasView codec broken objects store) (viewArtifacts plan.manifest) plan.views

end Content

variable {codec : Codec} {broken : ObjectRef → Prop} {objects : ObjectRef → Option Bytes} {store : Nat}

theorem holds_unique {path : String} {one two : Bytes} (first : Holds codec broken objects store path one)
    (second : Holds codec broken objects store path two) : one = two := by
  obtain ⟨-,bytes,present,decoded⟩ := first
  obtain ⟨-,other,present',decoded'⟩ := second
  rw [present] at present'
  cases present'
  rw [decoded] at decoded'
  cases decoded'
  rfl

theorem manifest_unique {one two : Manifest} (first : HasManifest codec broken objects store one)
    (second : HasManifest codec broken objects store two) : one = two := by
  obtain ⟨plain,held,parsed⟩ := first
  obtain ⟨other,held',parsed'⟩ := second
  rw [holds_unique held held',parsed'] at parsed
  cases parsed
  rfl

theorem structure_unique {group : CollectionGroup} {one two : Structure}
    (first : HasStructure codec broken objects store group one)
    (second : HasStructure codec broken objects store group two) : one = two := by
  obtain ⟨-,plain,value,held,parsed,built⟩ := first
  obtain ⟨-,other,value',held',parsed',built'⟩ := second
  rw [holds_unique held held',parsed'] at parsed
  cases parsed
  rw [built'] at built
  cases built
  rfl

theorem view_unique {artifact : Artifact} {one two : ViewArtifact}
    (first : HasView codec broken objects store artifact one)
    (second : HasView codec broken objects store artifact two) : one = two := by
  obtain ⟨plain,definition,name,held,parsed,named,rfl⟩ := first
  obtain ⟨other,definition',name',held',parsed',named',rfl⟩ := second
  rw [holds_unique held held',parsed'] at parsed
  cases parsed
  rw [named'] at named
  cases named
  rfl

theorem units_unique {one two : List RestoreUnit} (keys : one.map Prod.fst = two.map Prod.fst)
    (first : ∀ unit ∈ one, HasStructure codec broken objects store unit.1 unit.2)
    (second : ∀ unit ∈ two, HasStructure codec broken objects store unit.1 unit.2) : one = two := by
  induction one generalizing two with
  | nil => exact (List.map_eq_nil_iff.mp keys.symm).symm
  | cons unit rest ih =>
    cases two with
    | nil => cases keys
    | cons unit' rest' =>
      obtain ⟨group,later⟩ := List.cons.inj keys
      have held := second unit' List.mem_cons_self
      rw [← group] at held
      rw [Prod.ext group (structure_unique (first unit List.mem_cons_self) held),
        ih later (fun other member => first other (List.mem_cons_of_mem _ member))
          fun other member => second other (List.mem_cons_of_mem _ member)]

theorem views_unique {artifacts : List Artifact} {one two : List ViewArtifact}
    (first : List.Forall₂ (HasView codec broken objects store) artifacts one)
    (second : List.Forall₂ (HasView codec broken objects store) artifacts two) : one = two := by
  induction first generalizing two with
  | nil => cases second; rfl
  | cons held _ ih =>
    cases second with
    | cons held' more => rw [view_unique held held',ih more]

theorem planned_unique {one two : Plan} (first : Planned codec broken objects store one)
    (second : Planned codec broken objects store two) : one = two := by
  have manifest := manifest_unique first.manifest second.manifest
  obtain ⟨units,grouped,built,sorted,ordered⟩ := first.units
  obtain ⟨units',grouped',built',sorted',ordered'⟩ := second.units
  have same : units = units' := units_unique (by rw [grouped,grouped',manifest]) built built'
  have views := first.views
  rw [manifest] at views
  obtain ⟨manifest₁,units₁,databases₁,views₁⟩ := one
  obtain ⟨manifest₂,units₂,databases₂,views₂⟩ := two
  have viewed : views₁ = views₂ := views_unique views second.views
  subst same
  dsimp only at manifest sorted ordered sorted' ordered'
  rw [manifest,sorted,sorted',ordered,ordered',viewed]

theorem planned_mono {objects' : ObjectRef → Option Bytes} {plan : Plan}
    (planned : Planned codec broken objects store plan)
    (kept : ∀ path bytes, objects ⟨store,path⟩ = some bytes → objects' ⟨store,path⟩ = some bytes) :
    Planned codec broken objects' store plan := by
  have held : ∀ path plain, Holds codec broken objects store path plain →
      Holds codec broken objects' store path plain := by
    intro path plain holds
    obtain ⟨whole,bytes,present,decoded⟩ := holds
    exact ⟨whole,bytes,kept path bytes present,decoded⟩
  obtain ⟨⟨plain,stored,parsed⟩,valid,⟨units,grouped,built,sorted,ordered⟩,viewed⟩ := planned
  refine ⟨⟨plain,held _ _ stored,parsed⟩,valid,⟨units,grouped,?_,sorted,ordered⟩,?_⟩
  · intro unit member
    obtain ⟨named,plain,value,stored,parsed,shaped⟩ := built unit member
    exact ⟨named,plain,value,held _ _ stored,parsed,shaped⟩
  · apply viewed.imp
    intro artifact view shown
    obtain ⟨plain,definition,name,stored,parsed,named,same⟩ := shown
    exact ⟨plain,definition,name,held _ _ stored,parsed,named,same⟩

section Triples
variable {pre : World → Prop}

theorem triple_held (still : ∀ w, pre w → w.objects = objects)
    (kept : ∀ w object bytes, pre w → pre (w.note (.read object bytes)))
    (path : String) : Triple (Answers codec broken) pre (readObject codec store path .none)
      (fun plain w => pre w ∧ Holds codec broken objects store path plain) pre pre := by
  apply triple_weaken (triple_readObject fun w bytes _ start => kept w _ bytes start) (fun _ start => start) _
    (fun _ start => start) fun _ start => start
  intro plain w holds
  obtain ⟨start,whole,bytes,present,-,decoded⟩ := holds
  exact ⟨start,whole,bytes,by rw [← still w start]; exact present,decoded⟩

theorem triple_readManifest (still : ∀ w, pre w → w.objects = objects)
    (kept : ∀ w object bytes, pre w → pre (w.note (.read object bytes))) :
    Triple (Answers codec broken) pre (readManifest codec store)
      (fun manifest w => pre w ∧ HasManifest codec broken objects store manifest) pre pre := by
  apply triple_bind (triple_held still kept manifestName)
  intro plain
  apply triple_lift _ (fun _ holds => holds.1) fun _ holds => holds.1
  intro manifest w parsed holds
  exact ⟨holds.1,plain,holds.2,parsed⟩

theorem triple_readStructure (still : ∀ w, pre w → w.objects = objects)
    (kept : ∀ w object bytes, pre w → pre (w.note (.read object bytes))) (group : CollectionGroup) :
    Triple (Answers codec broken) pre (readStructure codec store group)
      (fun structure_ w => pre w ∧ HasStructure codec broken objects store group structure_) pre pre := by
  unfold readStructure
  by_cases unnamed : group.structurePath = ""
  · rw [if_pos unnamed]
    exact triple_fail (fun _ start => start) fun _ start => start
  · rw [if_neg unnamed]
    apply triple_bind (triple_held still kept group.structurePath)
    intro plain
    have parsing : ∀ result : Except Error Value, codec.fromSlice plain = result →
        Triple (Answers codec broken)
          (fun w => pre w ∧ Holds codec broken objects store group.structurePath plain)
          ((lift result).bind fun value => lift (parseStructure value))
          (fun structure_ w => pre w ∧ HasStructure codec broken objects store group structure_) pre pre := by
      intro result parsed
      cases result with
      | error err => exact triple_fail (fun _ holds => holds.1) fun _ holds => holds.1
      | ok value =>
        apply triple_lift _ (fun _ holds => holds.1) fun _ holds => holds.1
        intro structure_ w built holds
        exact ⟨holds.1,unnamed,plain,value,holds.2,parsed,built⟩
    exact parsing _ rfl

theorem triple_readUnits (still : ∀ w, pre w → w.objects = objects)
    (kept : ∀ w object bytes, pre w → pre (w.note (.read object bytes))) (groups : List CollectionGroup) :
    Triple (Answers codec broken) pre (readUnits codec store groups)
      (fun units w => pre w ∧ units.map Prod.fst = groups ∧ ∀ unit ∈ units,
      HasStructure codec broken objects store unit.1 unit.2)
      pre pre := by
  induction groups with
  | nil => exact triple_done (fun w start => ⟨start,rfl,by simp⟩) fun _ start => start
  | cons group rest ih =>
    unfold readUnits
    apply triple_bind (triple_readStructure still kept group)
    intro structure_
    by_cases built : HasStructure codec broken objects store group structure_
    · apply triple_bind (triple_weaken ih (fun _ holds => holds.1) (fun _ _ holds => holds)
        (fun _ start => start) fun _ start => start)
      intro units
      apply triple_done _ fun _ holds => holds.1
      intro w holds
      refine ⟨holds.1,by rw [List.map_cons,holds.2.1],?_⟩
      intro unit member
      rcases List.mem_cons.mp member with rfl | later
      · exact built
      · exact holds.2.2 unit later
    · exact triple_never fun w holds => built holds.2

theorem triple_readViews (still : ∀ w, pre w → w.objects = objects)
    (kept : ∀ w object bytes, pre w → pre (w.note (.read object bytes))) (artifacts : List Artifact) :
    Triple (Answers codec broken) pre (readViews codec store artifacts)
      (fun views w => pre w ∧ List.Forall₂ (HasView codec broken objects store)
        (artifacts.filter fun artifact => artifact.kind = .view) views) pre pre := by
  induction artifacts with
  | nil => exact triple_done (fun w start => ⟨start,.nil⟩) fun _ start => start
  | cons artifact rest ih =>
    unfold readViews
    by_cases viewed : artifact.kind = .view
    · rw [if_pos viewed,List.filter_cons_of_pos (by simpa using viewed)]
      apply triple_bind (triple_held still kept artifact.path)
      intro plain
      cases parsed : codec.fromSlice plain with
      | error err => exact triple_fail (fun _ holds => holds.1) fun _ holds => holds.1
      | ok definition =>
        rw [lift,done_bind]
        cases chosen : artifact.view.or ((definition.get "name").bind Value.asStr) with
        | none => exact triple_fail (fun _ holds => holds.1) fun _ holds => holds.1
        | some name =>
          by_cases held : Holds codec broken objects store artifact.path plain
          · apply triple_bind (triple_weaken ih (fun _ holds => holds.1) (fun _ _ holds => holds)
              (fun _ start => start)
              fun _ start => start)
            intro views
            apply triple_done _ fun _ holds => holds.1
            intro w holds
            exact ⟨holds.1,.cons ⟨plain,definition,name,held,parsed,chosen,rfl⟩ holds.2⟩
          · exact triple_never fun w holds => held holds.2
    · rw [if_neg viewed,List.filter_cons_of_neg (by simpa using viewed)]
      exact ih

theorem triple_readPlan (still : ∀ w, pre w → w.objects = objects)
    (kept : ∀ w object bytes, pre w → pre (w.note (.read object bytes))) :
    Triple (Answers codec broken) pre (readPlan codec store)
      (fun plan w => pre w ∧ Planned codec broken objects store plan) pre pre := by
  apply triple_bind (triple_readManifest still kept)
  intro manifest
  by_cases named : HasManifest codec broken objects store manifest
  swap
  · exact triple_never fun w holds => named holds.2
  have validating : ∀ result : Except Error Unit, validate manifest = result →
      Triple (Answers codec broken) pre
        ((lift result).bind fun _ => (readUnits codec store (groupByCollection manifest)).bind fun units =>
          (readViews codec store manifest.artifacts).bind fun views =>
            done ⟨manifest,sortUnits units,databaseOrder units [],views⟩)
        (fun plan w => pre w ∧ Planned codec broken objects store plan) pre pre := by
    intro result valid
    cases result with
    | error err => exact triple_fail (fun _ start => start) fun _ start => start
    | ok _ =>
      apply triple_bind (triple_readUnits still kept (groupByCollection manifest))
      intro units
      by_cases built : units.map Prod.fst = groupByCollection manifest ∧
          ∀ unit ∈ units, HasStructure codec broken objects store unit.1 unit.2
      swap
      · exact triple_never fun w holds => built holds.2
      apply triple_bind (triple_weaken (triple_readViews still kept manifest.artifacts) (fun _ holds => holds.1)
        (fun _ _ holds => holds) (fun _ start => start) fun _ start => start)
      intro views
      apply triple_done _ fun _ holds => holds.1
      intro w holds
      exact ⟨holds.1,named,valid,⟨units,built.1,built.2,rfl,rfl⟩,holds.2⟩
  exact triple_weaken (validating _ rfl) (fun _ holds => holds.1) (fun _ _ holds => holds)
    (fun _ start => start)
    fun _ start => start

end Triples

section Existence
variable {w : World}

theorem readObject_runs {path : String} {bytes plain : Bytes} {compression : Compression}
    (whole : ¬ broken ⟨store,path⟩)
    (present : w.objects ⟨store,path⟩ = some bytes) (decoded : codec.decode compression bytes = .ok plain) :
    Runs (Answers codec broken) (readObject codec store path compression) w (done plain)
      (w.note (.read ⟨store,path⟩ bytes)) := by
  have fetched : Runs (Answers codec broken) (⟨store,path⟩ : ObjectRef).get w (done bytes)
      (w.note (.read ⟨store,path⟩ bytes)) :=
    .call _ _ _ _ (.get whole present) (.here _ _)
  apply runs_then fetched
  rw [decoded]
  exact .here _ _

theorem holds_runs {path : String} {plain : Bytes} (held : Holds codec broken w.objects store path plain) :
    ∃ w', w'.objects = w.objects ∧ Runs (Answers codec broken) (readObject codec store path .none) w
      (done plain) w' := by
  obtain ⟨whole,bytes,present,decoded⟩ := held
  exact ⟨w.note (.read ⟨store,path⟩ bytes),rfl,readObject_runs whole present decoded⟩

theorem units_run (units : List RestoreUnit) (w : World)
    (built : ∀ unit ∈ units, HasStructure codec broken w.objects store unit.1 unit.2) :
    ∃ w', w'.objects = w.objects ∧
      Runs (Answers codec broken) (readUnits codec store (units.map Prod.fst)) w (done units) w' := by
  induction units generalizing w with
  | nil => exact ⟨w,rfl,.here _ _⟩
  | cons unit rest ih =>
    obtain ⟨named,plain,value,held,parsed,shaped⟩ := built unit List.mem_cons_self
    obtain ⟨middle,same,reading⟩ := holds_runs held
    obtain ⟨w',kept,more⟩ := ih middle fun other member => by
      rw [same]
      exact built other (List.mem_cons_of_mem _ member)
    refine ⟨w',kept.trans same,?_⟩
    have first : Runs (Answers codec broken) (readStructure codec store unit.1) w (done unit.2) middle := by
      rw [readStructure,if_neg named]
      apply runs_then reading
      rw [parsed,lift,done_bind,shaped]
      exact .here _ _
    exact runs_then first (runs_then more (.here _ _))

theorem views_run (artifacts : List Artifact) (views : List ViewArtifact) (w : World)
    (shaped : List.Forall₂ (HasView codec broken w.objects store)
      (artifacts.filter fun artifact => artifact.kind = .view) views) :
    ∃ w', w'.objects = w.objects ∧ Runs (Answers codec broken) (readViews codec store artifacts) w
      (done views) w' := by
  induction artifacts generalizing w views with
  | nil =>
    cases shaped
    exact ⟨w,rfl,.here _ _⟩
  | cons artifact rest ih =>
    unfold readViews
    by_cases viewed : artifact.kind = .view
    · rw [List.filter_cons_of_pos (by simpa using viewed)] at shaped
      cases shaped with
      | @cons _ view _ later first more =>
        obtain ⟨plain,definition,name,held,parsed,chosen,rfl⟩ := first
        obtain ⟨middle,same,reading⟩ := holds_runs held
        rw [← same] at more
        obtain ⟨w',kept,following⟩ := ih later middle more
        refine ⟨w',kept.trans same,?_⟩
        rw [if_pos viewed]
        apply runs_then reading
        rw [parsed,lift,done_bind,chosen]
        exact runs_then following (.here _ _)
    · rw [List.filter_cons_of_neg (by simpa using viewed)] at shaped
      rw [if_neg viewed]
      exact ih views w shaped

theorem planned_runs {plan : Plan} (planned : Planned codec broken w.objects store plan) :
    ∃ w', w'.objects = w.objects ∧ Runs (Answers codec broken) (readPlan codec store) w (done plan) w' := by
  obtain ⟨⟨plain,held,parsed⟩,valid,⟨units,grouped,built,sorted,ordered⟩,shaped⟩ := planned
  obtain ⟨opened,same,reading⟩ := holds_runs held
  rw [← same] at built shaped
  obtain ⟨structured,same',structures⟩ := units_run units opened built
  rw [← same'] at shaped
  obtain ⟨w',same'',viewing⟩ := views_run _ _ structured shaped
  refine ⟨w',(same''.trans same').trans same,?_⟩
  have manifest : Runs (Answers codec broken) (readManifest codec store) w (done plan.manifest) opened := by
    apply runs_then reading
    rw [parsed]
    exact .here _ _
  apply runs_then manifest
  rw [valid,lift,done_bind,← grouped]
  apply runs_then structures
  apply runs_then viewing
  rw [← sorted,← ordered]
  exact .here _ _

end Existence

section Start
variable {pre : World → Prop} {client : Client} {options : RestoreOptions}

theorem triple_createDatabase (client : Client) (name : String)
    (kept : ∀ w name accepted, pre w → pre (w.note (.sent "_system" (.createDatabase name) accepted))) :
    Triple (Answers codec broken) pre (client.createDatabase name) (fun _ => pre) pre pre :=
  triple_tolerating 409 (triple_executeOn client fun w accepted => kept w name accepted)
    fun _ _ holds => holds.1

theorem triple_createDatabases
    (kept : ∀ w name accepted, pre w → pre (w.note (.sent "_system" (.createDatabase name) accepted)))
    (databases : List (Option String)) :
    Triple (Answers codec broken) pre (createDatabases client databases) (fun _ => pre) pre pre := by
  induction databases with
  | nil => exact triple_done (fun _ start => start) fun _ start => start
  | cons database rest ih =>
    cases database with
    | none => exact ih
    | some name => exact triple_bind (triple_createDatabase client name kept) fun _ => ih

theorem triple_prepareDatabases
    (kept : ∀ w name accepted, pre w → pre (w.note (.sent "_system" (.createDatabase name) accepted)))
    (plan : Plan) : Triple (Answers codec broken) pre (prepareDatabases client options plan)
      (fun _ => pre) pre pre := by
  unfold prepareDatabases
  by_cases several : (plan.units.any fun unit => unit.1.database.isSome) = true
  · rw [if_pos several]
    exact triple_createDatabases kept plan.databases
  · rw [if_neg several]
    cases options.createDatabase with
    | none => exact triple_done (fun _ start => start) fun _ start => start
    | some name => exact triple_createDatabase client name kept

-- What a run takes over from its checkpoint object.
def Started (codec : Codec) (broken : ObjectRef → Prop) (objects : ObjectRef → Option Bytes)
    (options : RestoreOptions)
    (fingerprint : String) (checkpoint : RestoreCheckpoint) : Prop :=
  match options.checkpoint with
  | none => checkpoint = .new fingerprint
  | some object => ¬ broken object ∧ match objects object with
    | none => checkpoint = .new fingerprint
    | some bytes => codec.checkpointFromJson bytes = .ok checkpoint ∧ checkpoint.manifest = fingerprint

theorem started_unique {options : RestoreOptions} {fingerprint : String} {one two : RestoreCheckpoint}
    (first : Started codec broken objects options fingerprint one)
      (second : Started codec broken objects options fingerprint two) :
    one = two := by
  unfold Started at first second
  cases configured : options.checkpoint with
  | none =>
    rw [configured] at first second
    exact first.trans second.symm
  | some object =>
    rw [configured] at first second
    obtain ⟨-,first⟩ := first
    obtain ⟨-,second⟩ := second
    cases stored : objects object with
    | none =>
      rw [stored] at first second
      exact first.trans second.symm
    | some bytes =>
      rw [stored] at first second
      exact Except.ok.inj (first.1.symm.trans second.1)

theorem triple_loadRestoreCheckpoint (still : ∀ w, pre w → w.objects = objects)
    (kept : ∀ w object bytes, pre w → pre (w.note (.read object bytes))) (object : ObjectRef) :
    Triple (Answers codec broken) pre (loadRestoreCheckpoint codec object)
      (fun loaded w => pre w ∧ ¬ broken object ∧
      match objects object with
      | none => loaded = none
      | some bytes => ∃ checkpoint, codec.checkpointFromJson bytes = .ok checkpoint ∧ loaded = some checkpoint) pre pre := by
  have headed : Triple (Answers codec broken) pre object.exists
      (fun present w => pre w ∧ ¬ broken object ∧ present = (objects object).isSome) pre pre := by
    have asked : Triple (Answers codec broken) pre (ask (.head object))
        (fun answer w => pre w ∧ ∀ size, answer = .ok size →
        ¬ broken object ∧ size.isSome = (objects object).isSome) pre pre := by
      apply triple_perform (fun _ start => start)
      intro w answer w' start step
      cases step with
      | head whole =>
        refine ⟨⟨start,?_⟩,start⟩
        intro size same
        cases same
        exact ⟨whole,by rw [still w start]; simp⟩
      | headFailed err => exact ⟨⟨start,fun size same => by cases same⟩,start⟩
    apply triple_bind asked
    intro answer
    cases answer with
    | error err => exact triple_fail (fun _ holds => holds.1) fun _ holds => holds.1
    | ok size => exact triple_done (fun _ holds => ⟨holds.1,(holds.2 size rfl).1,(holds.2 size rfl).2⟩) fun _ holds => holds.1
  have fetched : Triple (Answers codec broken) pre object.get
      (fun bytes w => pre w ∧ objects object = some bytes) pre pre := by
    have asked : Triple (Answers codec broken) pre (ask (.get object))
        (fun answer w => pre w ∧ ∀ bytes, answer = .ok bytes →
        objects object = some bytes) pre pre := by
      apply triple_perform (fun _ start => start)
      intro w answer w' start step
      cases step with
      | @get _ bytes _ whole present =>
        have noted := kept w object bytes start
        refine ⟨⟨noted,?_⟩,noted⟩
        intro other same
        cases same
        rw [← still w start]
        exact present
      | getFailed err => exact ⟨⟨start,fun bytes same => by cases same⟩,start⟩
    apply triple_bind asked
    intro answer
    cases answer with
    | error err => exact triple_fail (fun _ holds => holds.1) fun _ holds => holds.1
    | ok bytes => exact triple_done (fun _ holds => ⟨holds.1,holds.2 bytes rfl⟩) fun _ holds => holds.1
  unfold loadRestoreCheckpoint
  apply triple_bind headed
  intro present
  cases present with
  | false =>
    rw [if_neg Bool.false_ne_true]
    apply triple_done _ fun _ holds => holds.1
    intro w holds
    obtain ⟨start,whole,absent⟩ := holds
    cases stored : objects object with
    | none => exact ⟨start,whole,rfl⟩
    | some bytes => rw [stored] at absent; cases absent
  | true =>
    rw [if_pos rfl]
    by_cases whole : broken object
    · exact triple_never fun _ holds => holds.2.1 whole
    apply triple_bind (triple_weaken fetched (fun _ holds => holds.1) (fun _ _ holds => holds)
      (fun _ start => start)
      fun _ start => start)
    intro bytes
    have parsing : ∀ result : Except Error RestoreCheckpoint, codec.checkpointFromJson bytes = result →
        Triple (Answers codec broken) (fun w => pre w ∧ objects object = some bytes)
          ((lift result).bind fun checkpoint => done (some checkpoint))
            (fun loaded w => pre w ∧ ¬ broken object ∧
            match objects object with
            | none => loaded = none
            | some bytes => ∃ checkpoint, codec.checkpointFromJson bytes = .ok checkpoint ∧
                loaded = some checkpoint) pre pre := by
      intro result parsed
      cases result with
      | error err => exact triple_fail (fun _ holds => holds.1) fun _ holds => holds.1
      | ok checkpoint =>
        apply triple_done _ fun _ holds => holds.1
        intro w holds
        rw [holds.2]
        exact ⟨holds.1,whole,checkpoint,parsed,rfl⟩
    exact parsing _ rfl

theorem triple_initialCheckpoint (still : ∀ w, pre w → w.objects = objects)
    (kept : ∀ w object bytes, pre w → pre (w.note (.read object bytes))) (fingerprint : String) :
    Triple (Answers codec broken) pre (initialCheckpoint codec options fingerprint)
      (fun checkpoint w => pre w ∧ Started codec broken objects options fingerprint checkpoint) pre pre := by
  unfold initialCheckpoint Started
  cases options.checkpoint with
  | none => exact triple_done (fun _ start => ⟨start,rfl⟩) fun _ start => start
  | some object =>
    apply triple_bind (triple_loadRestoreCheckpoint still kept object)
    intro loaded
    cases loaded with
    | none =>
      apply triple_done _ fun _ holds => holds.1
      intro w holds
      obtain ⟨start,whole,found⟩ := holds
      refine ⟨start,whole,?_⟩
      cases stored : objects object with
      | none => rfl
      | some bytes =>
        rw [stored] at found
        obtain ⟨checkpoint,-,same⟩ := found
        cases same
    | some existing =>
      by_cases same : existing.manifest = fingerprint
      · simp only [if_pos same]
        apply triple_done _ fun _ holds => holds.1
        intro w holds
        obtain ⟨start,whole,found⟩ := holds
        refine ⟨start,whole,?_⟩
        cases stored : objects object with
        | none => rw [stored] at found; cases found
        | some bytes =>
          rw [stored] at found
          obtain ⟨checkpoint,parsed,equal⟩ := found
          cases equal
          exact ⟨parsed,same⟩
      · simp only [if_neg same]
        exact triple_fail (fun _ holds => holds.1) fun _ holds => holds.1

theorem started_runs {w : World} {fingerprint : String} {checkpoint : RestoreCheckpoint}
    (started : Started codec broken w.objects options fingerprint checkpoint) :
    ∃ w', w'.objects = w.objects ∧
    Runs (Answers codec broken) (initialCheckpoint codec options fingerprint) w (done checkpoint) w' := by
  unfold Started at started
  unfold initialCheckpoint
  cases configured : options.checkpoint with
  | none =>
    rw [configured] at started
    exact ⟨w,rfl,by rw [started]; exact .here _ _⟩
  | some object =>
    rw [configured] at started
    obtain ⟨whole,found⟩ := started
    have headed : Runs (Answers codec broken) object.exists w (done (w.objects object).isSome) w := by
      apply runs_then (.call _ _ _ _ (.head whole) (.here _ _))
      cases w.objects object <;> exact .here _ _
    cases stored : w.objects object with
    | none =>
      rw [stored] at found headed
      have absent : Runs (Answers codec broken) (loadRestoreCheckpoint codec object) w
          (done none) w := runs_then headed (.here _ _)
      refine ⟨w,rfl,runs_then absent ?_⟩
      rw [found]
      exact .here _ _
    | some bytes =>
      rw [stored] at found headed
      have fetched : Runs (Answers codec broken) object.get w (done bytes) (w.note (.read object bytes)) :=
        .call _ _ _ _ (.get whole stored) (.here _ _)
      have loaded : Runs (Answers codec broken) (loadRestoreCheckpoint codec object) w (done (some checkpoint))
          (w.note (.read object bytes)) := by
        apply runs_then headed
        rw [Option.isSome_some,if_pos rfl]
        apply runs_then fetched
        rw [found.1]
        exact .here _ _
      refine ⟨w.note (.read object bytes),rfl,runs_then loaded ?_⟩
      simp only [if_pos found.2]
      exact .here _ _

theorem createDatabase_accepted (client : Client) (name : String) (w : World) :
    Runs (Answers codec broken) (client.createDatabase name) w (done ())
      (w.note (.sent "_system" (.createDatabase name) true)) :=
  tolerating_accepted 409 (executeOn_accepted client "_system" (.createDatabase name) ())

theorem createDatabases_run (client : Client) (databases : List (Option String)) (w : World) :
    ∃ w', w'.objects = w.objects ∧ Runs (Answers codec broken) (createDatabases client databases) w
      (done ()) w' ∧
      (∀ event ∈ w.log, event ∈ w'.log) ∧ ∀ name, some name ∈ databases →
      .sent "_system" (.createDatabase name) true ∈ w'.log := by
  induction databases generalizing w with
  | nil => exact ⟨w,rfl,.here _ _,fun _ member => member,by simp⟩
  | cons database rest ih =>
    cases database with
    | none =>
      obtain ⟨w',same,runs,kept,sent⟩ := ih w
      exact ⟨w',same,runs,kept,fun name member => sent name (by simpa using member)⟩
    | some first =>
      obtain ⟨w',same,runs,kept,sent⟩ := ih (w.note (.sent "_system" (.createDatabase first) true))
      refine ⟨w',same,runs_then (createDatabase_accepted client first w) runs,?_,?_⟩
      · exact fun event member => kept event (List.mem_append_left _ member)
      · intro name member
        rcases List.mem_cons.mp member with equal | later
        · cases equal
          exact kept _ (List.mem_append_right _ (List.mem_singleton.mpr rfl))
        · exact sent name later

theorem prepareDatabases_run (client : Client) (options : RestoreOptions) (plan : Plan) (w : World) :
    ∃ w', w'.objects = w.objects ∧
    Runs (Answers codec broken) (prepareDatabases client options plan) w (done ()) w' ∧
      (∀ unit ∈ plan.units, ∀ name, unit.1.database = some name → some name ∈ plan.databases →
        .sent "_system" (.createDatabase name) true ∈ w'.log) ∧
      ((∀ unit ∈ plan.units, unit.1.database = none) → ∀ name, options.createDatabase = some name →
        .sent "_system" (.createDatabase name) true ∈ w'.log) := by
  unfold prepareDatabases
  by_cases several : (plan.units.any fun unit => unit.1.database.isSome) = true
  · rw [if_pos several]
    obtain ⟨w',same,runs,-,sent⟩ := createDatabases_run client plan.databases w
    refine ⟨w',same,runs,fun unit _ name _ listed => sent name listed,?_⟩
    intro single name _
    obtain ⟨unit,member,some_⟩ := List.any_eq_true.mp several
    rw [single unit member] at some_
    cases some_
  · rw [if_neg several]
    have single : ∀ unit ∈ plan.units, ∀ name, unit.1.database ≠ some name := by
      intro unit member name equal
      exact several (List.any_eq_true.mpr ⟨unit,member,by rw [equal]; rfl⟩)
    cases chosen : options.createDatabase with
    | none =>
      exact ⟨w,rfl,.here _ _,fun unit member name equal => absurd equal (single unit member name),
        fun _ name same => by cases same⟩
    | some first =>
      refine ⟨w.note (.sent "_system" (.createDatabase first) true),rfl,createDatabase_accepted client first w,
        fun unit member name equal => absurd equal (single unit member name),?_⟩
      intro _ name same
      cases same
      exact List.mem_append_right _ (List.mem_singleton.mpr rfl)

end Start

section Asked
variable {kind : Request → Prop} {options : RestoreOptions}

def Asked (kind : Request → Prop) (objects : ObjectRef → Option Bytes) (w : World) : Prop :=
  w.objects = objects ∧ ∀ database request accepted, .sent database request accepted ∈ w.log → kind request

theorem asked_read {w : World} (asked : Asked kind objects w) (object : ObjectRef) (bytes : Bytes) :
    Asked kind objects (w.note (.read object bytes)) := by
  refine ⟨asked.1,?_⟩
  intro database request accepted member
  rcases List.mem_append.mp member with earlier | last
  · exact asked.2 database request accepted earlier
  · cases List.mem_singleton.mp last

theorem asked_sent {w : World} (asked : Asked kind objects w) (database : String)
    {request : Request} (fits : kind request)
    (accepted : Bool) : Asked kind objects (w.note (.sent database request accepted)) := by
  refine ⟨asked.1,?_⟩
  intro other request' accepted' member
  rcases List.mem_append.mp member with earlier | last
  · exact asked.2 other request' accepted' earlier
  · cases List.mem_singleton.mp last
    exact fits

theorem asked_start : Asked kind objects ⟨objects,[]⟩ := ⟨rfl,by simp⟩

theorem asked_plan : Triple (Answers codec broken) (Asked kind objects) (readPlan codec store)
    (fun plan w => Asked kind objects w ∧ Planned codec broken objects store plan)
      (Asked kind objects) (Asked kind objects) := by
  apply triple_readPlan
  · exact fun _ asked => asked.1
  · exact fun _ object bytes asked => asked_read asked object bytes

theorem asked_checkpoint (fingerprint : String) :
    Triple (Answers codec broken) (Asked kind objects) (initialCheckpoint codec options fingerprint)
      (fun checkpoint w => Asked kind objects w ∧
      Started codec broken objects options fingerprint checkpoint) (Asked kind objects)
      (Asked kind objects) := by
  apply triple_initialCheckpoint
  · exact fun _ asked => asked.1
  · exact fun _ object bytes asked => asked_read asked object bytes

theorem asked_databases {client : Client} (fits : ∀ name, kind (.createDatabase name)) (plan : Plan) :
    Triple (Answers codec broken) (Asked kind objects) (prepareDatabases client options plan)
      (fun _ => Asked kind objects)
      (Asked kind objects) (Asked kind objects) := by
  apply triple_prepareDatabases
  exact fun _ name accepted asked => asked_sent asked "_system" (fits name) accepted

end Asked
end ArangoDataTools.RestoreReading
