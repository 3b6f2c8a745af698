import ArangoDataTools.RestorePhases
import ArangoDataTools.RestoreRefusal

namespace ArangoDataTools.RestoreHosting
open Interaction Interaction.Program Restore RestoreTrace RestoreReading RestorePhases RestoreRefusal

-- Which databases a server has, by what happened so far: `_system` at all times, none
-- of the dumped ones at the start, and nothing adds to them but creating a database.
structure Hosts (dumped : List String) (standing : List Event → String → Prop) : Prop where
  system : ∀ log, standing log "_system"
  missing : ∀ database ∈ dumped, database ≠ "_system" → ¬ standing [] database
  stays : ∀ log event database, standing log database → standing (log ++ [event]) database
  created : ∀ log name, standing (log ++ [.sent "_system" (.createDatabase name) true]) name
  added : ∀ log event database, standing (log ++ [event]) database → standing log database ∨
    ∃ accepted, event = .sent "_system" (.createDatabase database) accepted

-- What such a server may answer. It accepts requests to the databases it has and no
-- others; a database that exists is not created again, and 409 says that it exists.
def Allowed (standing : List Event → String → Prop) (log : List Event) : (op : Op) → op.Answer → Prop
  | .send database request, answer => (answer.toOption.isSome → standing log database) ∧
      ∀ name, request = .createDatabase name → (answer.toOption.isSome → ¬ standing log name) ∧
        ∀ message context, answer = .error (.http 409 message context) → standing log name
  | _, _ => True

def Hosted (codec : Codec) (standing : List Event → String → Prop) : Answering Op Op.Answer World :=
  fun op w answer w' => Answers codec (fun _ => False) op w answer w' ∧ Allowed standing w.log op answer

def Targeted (standing : List Event → String → Prop) (log : List Event) : Prop :=
  ∀ before database request accepted after,
    log = before ++ .sent database request accepted :: after → standing before database

-- On every such server a restore only uses databases that exist, and one that ends
-- well leaves all of the dumped ones.
def RestoresEvery (codec : Codec) (objects : ObjectRef → Option Bytes) (store : Nat)
    (dumped : List String) : Prop :=
  ∀ standing, Hosts dumped standing → ∀ (client : Client) (options : RestoreOptions) (reporting : Bool) q w',
    Runs (Hosted codec standing) (runRestoreWithProgress codec client store options reporting)
      ⟨objects,[]⟩ q w' →
      Targeted standing w'.log ∧ ∀ summary, q = done summary → ∀ database ∈ dumped, standing w'.log database

variable {codec : Codec} {standing : List Event → String → Prop} {dumped : List String}
  {objects : ObjectRef → Option Bytes} {store : Nat}
  {client : Client} {options : RestoreOptions} {reporting : Bool}

theorem hosted_answers (op : Op) (w : World) (answer : op.Answer) (w' : World)
    (step : Hosted codec standing op w answer w') :
    Answers codec (fun _ => False) op w answer w' := step.1

section Targets

theorem targeted_start : Targeted standing [] := by
  intro before database request accepted after split
  simp at split

theorem targeted_append {log : List Event} {event : Event} (targeted : Targeted standing log)
    (next : ∀ database request accepted, event = .sent database request accepted → standing log database) :
    Targeted standing (log ++ [event]) := by
  intro before database request accepted after split
  rcases List.eq_nil_or_concat after with rfl | ⟨rest,last,rfl⟩
  · obtain ⟨rfl,same⟩ := List.append_inj' split rfl
    exact next database request accepted (List.cons.inj same).1
  · rw [List.concat_eq_append,← List.cons_append,← List.append_assoc] at split
    obtain ⟨earlier,-⟩ := List.append_inj' split rfl
    exact targeted before database request accepted rest earlier

theorem targeted_read {log : List Event} (targeted : Targeted standing log) (object : ObjectRef)
    (bytes : Bytes) :
    Targeted standing (log ++ [.read object bytes]) :=
  targeted_append targeted fun _ _ _ same => by cases same

theorem targeted_sent {log : List Event} (targeted : Targeted standing log) {database : String}
    (there : standing log database)
    (request : Request) (accepted : Bool) : Targeted standing (log ++ [.sent database request accepted]) := by
  apply targeted_append targeted
  intro other _ _ same
  cases same
  exact there

end Targets

section Creating
variable {w w' : World}

theorem created_stands (hosts : Hosts dumped standing) {name : String}
    (runs : Runs (Hosted codec standing) (client.createDatabase name) w (done ()) w') :
    standing w'.log name := by
  have still : ∀ counter w answer w', Hosted codec standing (.count counter) w answer w' → w' = w := by
    intro counter w answer w' step
    cases step.1
    rfl
  have told : ∀ {result : Except Error (Request.createDatabase name).Response} {before after : World},
      Runs (Hosted codec standing) (client.executeOn "_system" (.createDatabase name)) before
        (lift result) after →
        ∃ middle, Hosted codec standing (.send "_system" (.createDatabase name)) middle result after :=
    fun runs => ClientRuns.executeOn_told client still runs
  obtain ⟨result,middle,tried,rest⟩ := runs_bind_done runs
  have outcome := attempt_returns tried
  cases result with
  | ok value =>
    obtain ⟨-,rfl⟩ := runs_done rest
    obtain ⟨before,answered,-⟩ := @told (.ok value) _ _ outcome
    cases answered with
    | send => exact hosts.created before.log name
  | error err =>
    cases err with
    | http code message context =>
      by_cases present : code = 409
      · subst present
        simp only [if_true] at rest
        obtain ⟨-,rfl⟩ := runs_done rest
        obtain ⟨before,answered,allowed⟩ := @told (.error (.http 409 message context)) _ _ outcome
        cases answered with
        | send => exact hosts.stays _ _ _ ((allowed.2 name rfl).2 message context rfl)
      · simp only [if_neg present] at rest
        cases (runs_fail rest).1
    | _ => cases (runs_fail rest).1

theorem hosted_createDatabase (hosts : Hosts dumped standing) {pre : World → Prop} {name : String}
    (kept : ∀ w name accepted, pre w → pre (w.note (.sent "_system" (.createDatabase name) accepted))) :
    Triple (Hosted codec standing) pre (client.createDatabase name)
      (fun _ w => pre w ∧ standing w.log name) pre pre :=
  let keeps := triple_fewer hosted_answers (triple_createDatabase client name kept)
  {everywhere := keeps.everywhere,fails := keeps.fails,
   returns := fun w value w' start runs => ⟨keeps.returns w value w' start runs,created_stands hosts runs⟩}

theorem hosted_createDatabases (hosts : Hosts dumped standing) (databases : List (Option String))
    {pre : World → Prop}
    (kept : ∀ w name accepted, pre w → pre (w.note (.sent "_system" (.createDatabase name) accepted))) :
    Triple (Hosted codec standing) pre (createDatabases client databases)
      (fun _ w => pre w ∧ ∀ name, some name ∈ databases → standing w.log name) pre pre := by
  induction databases generalizing pre with
  | nil => exact triple_done (fun _ start => ⟨start,by simp⟩) fun _ start => start
  | cons database rest ih =>
    cases database with
    | none =>
      apply triple_weaken (ih kept) (fun _ start => start) _ (fun _ start => start) fun _ start => start
      intro _ w holds
      exact ⟨holds.1,fun name member => holds.2 name (by simpa using member)⟩
    | some first =>
      apply triple_bind (hosted_createDatabase hosts kept)
      intro _
      have later := @ih (fun w => pre w ∧ standing w.log first)
        fun w name accepted holds => ⟨kept w name accepted holds.1,hosts.stays _ _ _ holds.2⟩
      apply triple_weaken later (fun _ holds => holds) _ (fun _ holds => holds.1) fun _ holds => holds.1
      intro _ w holds
      refine ⟨holds.1.1,?_⟩
      intro name member
      rcases List.mem_cons.mp member with same | listed
      · cases same
        exact holds.1.2
      · exact holds.2 name listed

end Creating

section Covered

structure Covers (manifest : Manifest) (dumped : List String) : Prop where
  artifacts : ∀ artifact ∈ manifest.artifacts, ∃ database ∈ dumped, artifact.database = some database
  collections : ∀ database ∈ dumped, database ≠ "_system" →
    ∃ artifact ∈ manifest.artifacts, artifact.collection ≠ none ∧ artifact.database = some database

variable {plan : Plan}

theorem planned_view (planned : Planned codec (fun _ => False) objects store plan)
    {view : ViewArtifact} (member : view ∈ plan.views) :
    ∃ artifact ∈ plan.manifest.artifacts, view.database = artifact.database := by
  have shown : ∀ {artifacts : List Artifact} {views : List ViewArtifact},
      List.Forall₂ (HasView codec (fun _ => False) objects store) artifacts views → ∀ view ∈ views,
        ∃ artifact ∈ artifacts, view.database = artifact.database := by
    intro artifacts views viewed
    induction viewed with
    | nil => simp
    | @cons artifact first _ _ held _ ih =>
      intro view member
      rcases List.mem_cons.mp member with rfl | later
      · obtain ⟨plain,definition,name,-,-,-,rfl⟩ := held
        exact ⟨artifact,List.mem_cons_self,rfl⟩
      · obtain ⟨other,listed,same⟩ := ih view later
        exact ⟨other,List.mem_cons_of_mem _ listed,same⟩
  obtain ⟨artifact,listed,same⟩ := shown planned.views view member
  exact ⟨artifact,List.mem_of_mem_filter listed,same⟩

theorem aimed_dumped (planned : Planned codec (fun _ => False) objects store plan)
    (known : ∀ artifact ∈ plan.manifest.artifacts, ∃ database ∈ dumped,
    artifact.database = some database) {database : String}
    (aimed : Aimed client options plan database) : database ∈ dumped := by
  have targets : ∀ {artifact : Artifact} {named : Option String},
      artifact ∈ plan.manifest.artifacts → artifact.database = named →
      (targetClient client options named).database ∈ dumped := by
    intro artifact named member same
    obtain ⟨database,listed,own⟩ := known artifact member
    rw [← same,own]
    exact listed
  cases aimed with
  | @unit unit member =>
    obtain ⟨artifact,listed,-,same⟩ :=
      (planned_databases planned _).mp ((planned_units planned _).mp ⟨unit,member,rfl⟩)
    exact targets listed same
  | @view view member =>
    obtain ⟨artifact,listed,same⟩ := planned_view planned member
    exact targets listed same.symm

theorem hosted_prepareDatabases (hosts : Hosts dumped standing)
    (planned : Planned codec (fun _ => False) objects store plan)
    (covers : Covers plan.manifest dumped) {pre : World → Prop}
    (kept : ∀ w name accepted, pre w → pre (w.note (.sent "_system" (.createDatabase name) accepted))) :
    Triple (Hosted codec standing) pre (prepareDatabases client options plan)
      (fun _ w => pre w ∧ ∀ database ∈ dumped, standing w.log database) pre pre := by
  have listed : ∀ database ∈ dumped, database ≠ "_system" → some database ∈ plan.databases :=
    fun database member other => (planned_databases planned _).mpr (covers.collections database member other)
  unfold prepareDatabases
  by_cases several : (plan.units.any fun unit => unit.1.database.isSome) = true
  · rw [if_pos several]
    apply triple_weaken (hosted_createDatabases hosts plan.databases kept) (fun _ start => start) _
      (fun _ start => start)
      fun _ start => start
    intro _ w holds
    refine ⟨holds.1,?_⟩
    intro database member
    by_cases system : database = "_system"
    · rw [system]
      exact hosts.system w.log
    · exact holds.2 database (listed database member system)
  · rw [if_neg several]
    -- Without a collection there is nothing but `_system`.
    have alone : ∀ w : World, ∀ database ∈ dumped, standing w.log database := by
      intro w database member
      by_cases system : database = "_system"
      · rw [system]
        exact hosts.system w.log
      · obtain ⟨unit,present,same⟩ := (planned_units planned _).mpr (listed database member system)
        exact absurd (List.any_eq_true.mpr ⟨unit,present,by rw [same]; rfl⟩) several
    cases options.createDatabase with
    | none => exact triple_done (fun w start => ⟨start,alone w⟩) fun _ start => start
    | some name =>
      exact triple_weaken (hosted_createDatabase hosts kept) (fun _ start => start)
        (fun _ w holds => ⟨holds.1,alone w⟩)
        (fun _ start => start) fun _ start => start

theorem covered_restored {manifest : Manifest}
    (named : HasManifest codec (fun _ => False) objects store manifest)
    (covers : Covers manifest dumped) : RestoresEvery codec objects store dumped := by
  intro standing hosts client options reporting q w' runs
  let opened : World → Prop := fun w => w.objects = objects ∧ Targeted standing w.log
  let ready : World → Prop := fun w => Targeted standing w.log ∧ ∀ database ∈ dumped, standing w.log database
  let safe : World → Prop := fun w => Targeted standing w.log
  have still : ∀ w, opened w → w.objects = objects := fun _ holds => holds.1
  have read : ∀ w object bytes, opened w → opened (w.note (.read object bytes)) :=
    fun _ object bytes holds => ⟨holds.1,targeted_read holds.2 object bytes⟩
  have created : ∀ w name accepted, opened w →
      opened (w.note (.sent "_system" (.createDatabase name) accepted)) :=
    fun w name accepted holds => ⟨holds.1,targeted_sent holds.2 (hosts.system w.log) _ accepted⟩
  have triple : Triple (Hosted codec standing) opened
      (runRestoreWithProgress codec client store options reporting)
      (fun _ => ready) safe safe := by
    apply triple_bind (triple_weaken (triple_fewer hosted_answers (triple_readPlan still read))
      (fun _ holds => holds)
      (fun _ _ holds => holds) (fun _ holds => holds.2) fun _ holds => holds.2)
    intro plan
    apply triple_assuming
    intro planned
    have same := manifest_unique planned.manifest named
    rw [← same] at covers
    let prepared : World → Prop := fun w => opened w ∧ ∀ database ∈ dumped, standing w.log database
    have noted : ∀ w object bytes, prepared w → prepared (w.note (.read object bytes)) :=
      fun w object bytes holds =>
        ⟨read w object bytes holds.1,fun database member => hosts.stays _ _ _ (holds.2 database member)⟩
    apply triple_bind (triple_weaken (hosted_prepareDatabases hosts planned covers created)
      (fun _ holds => holds)
      (fun _ _ holds => holds) (fun _ holds => holds.2) fun _ holds => holds.2)
    intro _
    apply triple_bind (triple_weaken
      (triple_fewer hosted_answers (triple_initialCheckpoint (fun _ holds => still _ holds.1) noted
      plan.manifest.fingerprint)) (fun _ holds => holds) (fun _ _ holds => holds.1)
        (fun _ holds => holds.1.2) fun _ holds => holds.1.2)
    intro checkpoint
    have lasting : Lasting client options plan ready := {
      read := fun w object bytes holds =>
        ⟨targeted_read holds.1 object bytes,fun database member => hosts.stays _ _ _ (holds.2 database member)⟩
      stored := fun _ _ _ _ holds => holds
      sent := fun w database request accepted aimed _ holds =>
        ⟨targeted_sent holds.1 (holds.2 database (aimed_dumped planned covers.artifacts aimed))
          request accepted,
         fun database member => hosts.stays _ _ _ (holds.2 database member)⟩}
    exact triple_weaken (triple_fewer hosted_answers (triple_phases lasting reporting checkpoint))
      (fun _ holds => ⟨holds.1.2,holds.2⟩)
      (fun _ _ holds => holds) (fun _ holds => holds.1) fun _ holds => holds.1
  have start : opened ⟨objects,[]⟩ := ⟨rfl,targeted_start⟩
  refine ⟨triple.everywhere _ q w' start runs,?_⟩
  intro summary ended
  rw [ended] at runs
  exact (triple.returns _ summary w' start runs).2

end Covered

section Missed
variable {w w' : World}

def creates : Event → Bool
  | .sent _ (.createDatabase _) _ => true
  | _ => false

def made (log : List Event) : List Event := log.filter creates

-- The databases of a server that began with `_system` alone.
def Created (log : List Event) (database : String) : Prop :=
  database = "_system" ∨ .sent "_system" (.createDatabase database) true ∈ log

theorem created_hosts (dumped : List String) : Hosts dumped Created where
  system _ := .inl rfl
  missing database _ other there := there.elim other (by simp)
  stays log event database there := there.imp_right (List.mem_append_left _)
  created log name := .inr (List.mem_append_right _ (List.mem_singleton.mpr rfl))
  added log event database there := by
    rcases there with system | listed
    · exact .inl (.inl system)
    · rcases List.mem_append.mp listed with earlier | last
      · exact .inl (.inr earlier)
      · exact .inr ⟨true,(List.mem_singleton.mp last).symm⟩

theorem made_read (log : List Event) (object : ObjectRef) (bytes : Bytes) :
    made (log ++ [.read object bytes]) = made log := by
  simp [made,creates]

theorem made_sent (log : List Event) (database : String) {request : Request}
    (other : ∀ name, request ≠ .createDatabase name)
    (accepted : Bool) : made (log ++ [.sent database request accepted]) = made log := by
  cases request with
  | createDatabase name => exact absurd rfl (other name)
  | _ => simp [made,creates]

theorem hosted_unless_missed {p q : Tool α}
    (quiet : ∀ q w', Runs (Answers codec (fun _ => False)) p w q w' → made w'.log = made w.log)
    (runs : Runs (Answers codec (fun _ => False)) p w q w') :
    Runs (Hosted codec standing) p w q w' ∨ ∃ q' v, Runs (Hosted codec standing) p w q' v ∧
    ¬ Targeted standing v.log := by
  rcases @runs_until _ _ _ _ _ _ _ _ (Hosted codec standing) _ _ runs with
    through | ⟨op,next,middle,answer,after,inside,answered,differs⟩
  · exact .inl through
  · right
    have refused : ¬ Allowed standing middle.log op answer := fun allowed => differs ⟨answered,allowed⟩
    have reached := runs_mono hosted_answers inside
    cases answered with
    | @send database request _ answer =>
      have other : ∀ name, request ≠ .createDatabase name := by
        intro name same
        subst same
        have later := quiet _ _ (runs_trans reached (.call _ _ answer _ (.send answer) (.here _ _)))
        rw [← quiet _ _ reached,note_log] at later
        have counted := congrArg List.length later
        simp [made,creates] at counted
      have gone : ¬ standing middle.log database :=
        fun there => refused ⟨fun _ => there,fun name same => absurd same (other name)⟩
      let missing : Except Error request.Response := .error (.http 404 "database not found" {})
      have failing : Hosted codec standing (.send database request) middle missing
          (middle.note (.sent database request false)) :=
        ⟨.send missing,fun accepted => (by cases accepted),fun name same => absurd same (other name)⟩
      refine ⟨_,_,runs_trans inside (.call _ _ missing _ failing (.here _ _)),?_⟩
      intro targeted
      exact gone (targeted middle.log database request false [] rfl)
    | _ => exact absurd trivial refused

theorem createDatabase_hosted (hosts : Hosts dumped standing) (client : Client) (name : String) (w : World) :
    ∃ (w' : World) (accepted : Bool), w'.objects = w.objects ∧
    w'.log = w.log ++ [.sent "_system" (.createDatabase name) accepted] ∧
      Runs (Hosted codec standing) (client.createDatabase name) w (done ()) w' := by
  by_cases there : standing w.log name
  · have told : Hosted codec standing (.send "_system" (.createDatabase name)) w
        (.error (.http 409 "duplicate database name" {}))
        (w.note (.sent "_system" (.createDatabase name) false)) := by
      refine ⟨.send (.error _),fun accepted => (by cases accepted),?_⟩
      intro other same
      cases same
      exact ⟨fun accepted => (by cases accepted),fun _ _ _ => there⟩
    have refused := ClientRuns.executeOn_refused client rfl told fun counter => ⟨.count,trivial⟩
    exact ⟨w.note (.sent "_system" (.createDatabase name) false),false,rfl,rfl,
      runs_then (attempt_runs refused) (.here _ _)⟩
  · have told : Hosted codec standing (.send "_system" (.createDatabase name)) w (.ok ())
        (w.note (.sent "_system" (.createDatabase name) true)) := by
      let taken : Except Error (Request.createDatabase name).Response := .ok ()
      have untold : ∀ message context, taken ≠ .error (.http 409 message context) := fun _ _ => by simp [taken]
      refine ⟨.send taken,fun _ => hosts.system w.log,?_⟩
      intro other same
      cases same
      exact ⟨fun _ => there,fun message context same => absurd same (untold message context)⟩
    have accepted := @ClientRuns.executeOn_answered _ (Hosted codec standing) w _ "_system"
        (.createDatabase name) client () told
    exact ⟨w.note (.sent "_system" (.createDatabase name) true),true,rfl,rfl,
      runs_then (attempt_runs accepted) (.here _ _)⟩

theorem createDatabases_hosted (hosts : Hosts dumped standing) (client : Client)
    (databases : List (Option String)) (w : World) :
    ∃ w', w'.objects = w.objects ∧ Runs (Hosted codec standing) (createDatabases client databases) w
      (done ()) w' ∧
      ∀ database name accepted, .sent database (.createDatabase name) accepted ∈ w'.log →
        .sent database (.createDatabase name) accepted ∈ w.log ∨ some name ∈ databases := by
  induction databases generalizing w with
  | nil => exact ⟨w,rfl,.here _ _,fun _ _ _ member => .inl member⟩
  | cons database rest ih =>
    cases database with
    | none =>
      obtain ⟨w',same,runs,listed⟩ := ih w
      refine ⟨w',same,runs,?_⟩
      intro database name accepted member
      exact (listed database name accepted member).imp_right (List.mem_cons_of_mem _)
    | some first =>
      obtain ⟨middle,told,kept,log,creating⟩ :=
        @createDatabase_hosted codec standing dumped hosts client first w
      obtain ⟨w',same,runs,listed⟩ := ih middle
      refine ⟨w',same.trans kept,runs_then creating runs,?_⟩
      intro database name accepted member
      rcases listed database name accepted member with earlier | later
      · rw [log] at earlier
        rcases List.mem_append.mp earlier with old | new
        · exact .inl old
        · cases List.mem_singleton.mp new
          exact .inr List.mem_cons_self
      · exact .inr (List.mem_cons_of_mem _ later)

theorem restored_or_missed {plan : Plan} (planned : Planned codec (fun _ => False) objects store plan)
    (reads : ∀ unit ∈ plan.units, DataReads codec (fun _ => False) objects store plan.manifest unit.1.dataPaths)
    (hosts : Hosts dumped standing) :
    (∃ summary w', Runs (Hosted codec standing)
      (runRestoreWithProgress codec {database := "_system"} store {} false) ⟨objects,[]⟩
        (done summary) w' ∧ ∀ database name accepted,
        .sent database (.createDatabase name) accepted ∈ w'.log → some name ∈ plan.databases) ∨
      ∃ q w', Runs (Hosted codec standing)
        (runRestoreWithProgress codec {database := "_system"} store {} false) ⟨objects,[]⟩ q w' ∧
        ¬ Targeted standing w'.log := by
  have reads_only := @asked_plan codec (fun _ => False) objects store fun _ => False
  have silent : ∀ q w', Runs (Answers codec (fun _ => False)) (readPlan codec store)
      ⟨objects,[]⟩ q w' → made w'.log = made [] := by
    intro q w' runs
    have asked := reads_only.everywhere _ q w' asked_start runs
    apply List.filter_eq_nil_iff.mpr
    intro event listed
    cases event with
    | sent database request accepted => exact (asked.2 database request accepted listed).elim
    | read => simp [creates]
  obtain ⟨read,same,reading⟩ := planned_runs (w:=⟨objects,[]⟩) planned
  have opened := reads_only.everywhere _ _ read asked_start reading
  rcases @hosted_unless_missed codec standing _ _ _ _ _ silent reading with reading | ⟨q,v,missed,untargeted⟩
  swap
  · exact .inr ⟨_,v,runs_append missed _,untargeted⟩
  have preparing : ∃ prepared : World, prepared.objects = objects ∧
      Runs (Hosted codec standing) (prepareDatabases {database := "_system"} {} plan) read (done ()) prepared ∧
      ∀ database name accepted, .sent database (.createDatabase name) accepted ∈ prepared.log →
      some name ∈ plan.databases := by
    unfold prepareDatabases
    by_cases several : (plan.units.any fun unit => unit.1.database.isSome) = true
    · rw [if_pos several]
      obtain ⟨prepared,kept,runs,listed⟩ :=
        @createDatabases_hosted codec standing dumped hosts {database := "_system"} plan.databases read
      refine ⟨prepared,kept.trans same,runs,?_⟩
      intro database name accepted member
      exact (listed database name accepted member).resolve_left fun earlier => opened.2 _ _ _ earlier
    · rw [if_neg several]
      exact ⟨read,same,.here _ _,fun _ _ _ member => (opened.2 _ _ _ member).elim⟩
  obtain ⟨prepared,kept,preparing,listed⟩ := preparing
  let checkpoint := RestoreCheckpoint.new plan.manifest.fingerprint
  obtain ⟨w',summary,runs⟩ :=
    @restorePhases_run codec (fun _ => False) {database := "_system"} store {} plan false checkpoint prepared
    (kept ▸ reads)
  have lasting : Lasting {database := "_system"} {} plan fun w => made w.log = made prepared.log := {
    read := fun w object bytes same => (made_read w.log object bytes).trans same
    stored := fun _ _ _ _ same => same
    sent := fun w database request accepted _ other same =>
    (made_sent w.log database other accepted).trans same}
  have phases := @triple_phases codec (fun _ => False) {database := "_system"} store
      {} plan _ lasting false checkpoint
  have quiet := fun q w' runs => phases.everywhere prepared q w' rfl runs
  rcases @hosted_unless_missed codec standing _ _ _ _ _ quiet runs with through | ⟨q,v,missed,untargeted⟩
  · refine .inl ⟨summary,w',runs_then reading (runs_then preparing through),?_⟩
    intro database name accepted member
    have early : .sent database (.createDatabase name) accepted ∈ made prepared.log := by
      rw [← quiet _ w' runs]
      exact List.mem_filter.mpr ⟨member,rfl⟩
    exact listed database name accepted (List.mem_of_mem_filter early)
  · exact .inr ⟨_,v,runs_then reading (runs_then preparing missed),untargeted⟩

theorem uncovered_missed {plan : Plan} (planned : Planned codec (fun _ => False) objects store plan)
    (reads : ∀ unit ∈ plan.units,
    DataReads codec (fun _ => False) objects store plan.manifest unit.1.dataPaths) {database : String}
    (member : database ∈ dumped) (other : database ≠ "_system")
    (unnamed : ∀ artifact ∈ plan.manifest.artifacts, artifact.collection ≠ none →
    artifact.database ≠ some database) :
    ¬ RestoresEvery codec objects store dumped := by
  intro restores
  have hosts := created_hosts dumped
  rcases restored_or_missed planned reads hosts with ⟨summary,w',runs,listed⟩ | ⟨q,w',runs,untargeted⟩
  · rcases (restores Created hosts _ _ _ _ w' runs).2 summary rfl database member with system | created
    · exact other system
    · obtain ⟨artifact,present,collected,named⟩ := (planned_databases planned _).mp (listed _ _ _ created)
      exact unnamed artifact present collected named
  · exact untargeted (restores Created hosts _ _ _ _ w' runs).1

theorem restored_ends {plan : Plan} (planned : Planned codec (fun _ => False) objects store plan)
    (reads : ∀ unit ∈ plan.units, DataReads codec (fun _ => False) objects store plan.manifest unit.1.dataPaths)
    (restores : RestoresEvery codec objects store dumped) (hosts : Hosts dumped standing) :
    ∃ summary w', Runs (Hosted codec standing)
      (runRestoreWithProgress codec {database := "_system"} store {} false) ⟨objects,[]⟩
      (done summary) w' ∧ ∀ database ∈ dumped, standing w'.log database := by
  rcases restored_or_missed planned reads hosts with ⟨summary,w',runs,-⟩ | ⟨q,w',runs,untargeted⟩
  · exact ⟨summary,w',runs,(restores standing hosts _ _ _ _ w' runs).2 summary rfl⟩
  · exact absurd (restores standing hosts _ _ _ _ w' runs).1 untargeted

end Missed
end ArangoDataTools.RestoreHosting
