import ArangoDataTools.RestoreOrder
import ArangoDataTools.RestoreHistory
import ArangoDataTools.RestoreIntegrity

namespace ArangoDataTools.RestoreSchedule
open Interaction Interaction.Program Restore RestoreTrace RestoreReading RestorePhases RestoreOrder
open RestoreIntegrity (pending linked)
open RestoreAttempt (indexEvents indexEvents_append unitNamed)

-- The accepted creations, the requests for views, those that load a collection
-- and of these the accepted ones.
def creates : Event → Bool
  | .sent _ (.restoreCollection _ _ _) accepted => accepted
  | _ => false

def shows : Event → Bool
  | .sent _ (.createView _) _ => true
  | .sent _ (.dropView _) _ => true
  | _ => false

def loads : Event → Bool
  | .sent _ (.restoreData _ _) _ => true
  | .sent _ (.createIndex _ _) _ => true
  | _ => false

def late (event : Event) : Bool := shows event || loads event

def loaded : Event → Bool
  | .sent _ (.restoreData _ _) accepted => accepted
  | .sent _ (.createIndex _ _) accepted => accepted
  | _ => false

section Schedule
variable (codec : Codec) (client : Client) (store : Nat) (options : RestoreOptions) (manifest : Manifest)

def database (unit : RestoreUnit) : String := (targetClient client options unit.1.database).database

def creation (unit : RestoreUnit) : Event :=
  .sent (database client options unit) (.restoreCollection unit.2.parameters [] options.overwrite) true

def todo (checkpoint : RestoreCheckpoint) (units : List RestoreUnit) : List RestoreUnit :=
  units.filter fun unit => !isDone options checkpoint (unitId unit.1)

-- The creations are accepted in their order, and all of them before any view or
-- any data is sent.
structure CreatesFirst (creations log : List Event) : Prop where
  next : log.filter creates <+: creations
  first : ∀ before event after, log = before ++ event :: after → late event = true →
    before.filter creates = creations

inductive LoadsFor (unit : RestoreUnit) : Event → Prop where
  | part : LoadsFor unit (.sent (database client options unit) (.restoreData unit.1.name body) accepted)
  | index : index ∈ unit.2.indexes →
      LoadsFor unit (.sent (database client options unit) (.createIndex unit.1.name index) accepted)

-- One unit is loaded after the other.
def LoadsInOrder (units : List RestoreUnit) (log : List Event) : Prop :=
  ∃ blocks, List.Forall₂ (fun unit block => ∀ event ∈ block, LoadsFor client options unit event) units blocks ∧
    log.filter loads = blocks.flatten

def ReadAs (log : List Event) (path : String) (body : Bytes) : Prop :=
  ∃ bytes, .read ⟨store,path⟩ bytes ∈ log ∧ codec.decode (compressionOf manifest path) bytes = .ok body

def loading (unit : RestoreUnit) (bodies : List Bytes) (indexes : List Value) : List Event :=
  bodies.map (fun body => .sent (database client options unit) (.restoreData unit.1.name body) true) ++
    indexEvents (database client options unit) unit.1.name indexes

def Whole (log : List Event) (unit : RestoreUnit) (block : List Event) : Prop :=
  ∃ bodies, List.Forall₂ (ReadAs codec store manifest log) unit.1.dataPaths bodies ∧
    block = loading client options unit bodies unit.2.indexes

-- What was accepted are just these units, each with all of its parts and indexes.
def AllLoaded (units : List RestoreUnit) (log : List Event) : Prop :=
  ∃ blocks, List.Forall₂ (Whole codec client store options manifest log) units blocks ∧
    log.filter loaded = blocks.flatten

end Schedule

variable {codec : Codec} {broken : ObjectRef → Prop} {client : Client} {store : Nat}
  {options : RestoreOptions} {manifest : Manifest}
variable {log : List Event} {event : Event}

section Logs

theorem createsFirst_note {creations : List Event} (earlier : CreatesFirst creations log)
    (next : (log ++ [event]).filter creates <+: creations)
    (late : late event = true → log.filter creates = creations) : CreatesFirst creations (log ++ [event]) := by
  refine ⟨next,?_⟩
  intro before other after split kind
  rcases List.eq_nil_or_concat after with rfl | ⟨rest,final,rfl⟩
  · obtain ⟨rfl,same⟩ := List.append_inj' split rfl
    rw [List.singleton_injective same] at late
    exact late kind
  · rw [List.concat_eq_append,← List.cons_append,← List.append_assoc] at split
    obtain ⟨rfl,-⟩ := List.append_inj' split rfl
    exact earlier.first before other rest rfl kind

theorem createsFirst_after {creations : List Event} (earlier : CreatesFirst creations log)
    (whole : log.filter creates = creations) (other : creates event = false) :
    CreatesFirst creations (log ++ [event]) ∧ (log ++ [event]).filter creates = creations := by
  have same : (log ++ [event]).filter creates = creations := by simp [other,whole]
  exact ⟨createsFirst_note earlier (same ▸ List.prefix_refl _) fun _ => whole,same⟩

theorem createsFirst_unloaded {creations : List Event} (next : log.filter creates <+: creations)
    (still : ∀ event ∈ log, late event = false) : CreatesFirst creations log := by
  refine ⟨next,?_⟩
  intro before event after split kind
  rw [still event (by rw [split]; simp)] at kind
  cases kind

theorem loaded_loads (ended : loaded event = true) : loads event = true := by
  unfold loaded at ended
  split at ended
  · rfl
  · rfl
  · cases ended

theorem late_note (still : ∀ other ∈ log, late other = false) (early : late event = false) :
    ∀ other ∈ log ++ [event], late other = false := by
  intro other member
  rcases List.mem_append.mp member with earlier | last
  · exact still other earlier
  · rw [List.mem_singleton.mp last]
    exact early

theorem loadsInOrder_none (units : List RestoreUnit) (unloaded : log.filter loads = []) :
    LoadsInOrder client options units log := by
  refine ⟨units.map fun _ => [],?_,?_⟩
  · exact List.forall₂_map_right_iff.mpr (List.forall₂_same.mpr fun _ _ => by simp)
  · rw [unloaded]
    simp

theorem loadsInOrder_more {units : List RestoreUnit} (more : List RestoreUnit)
    (order : LoadsInOrder client options units log) :
    LoadsInOrder client options (units ++ more) log := by
  obtain ⟨blocks,fits,same⟩ := order
  refine ⟨blocks ++ more.map fun _ => [],?_,?_⟩
  · exact List.rel_append fits (List.forall₂_map_right_iff.mpr (List.forall₂_same.mpr fun _ _ => by simp))
  · rw [same]
    simp

def LoadsWith (client : Client) (options : RestoreOptions) (through : List RestoreUnit)
    (unit : RestoreUnit) (log : List Event) : Prop :=
  ∃ blocks block, List.Forall₂ (fun unit block => ∀ event ∈ block,
    LoadsFor client options unit event) through blocks ∧
    (∀ event ∈ block, LoadsFor client options unit event) ∧ log.filter loads = blocks.flatten ++ block

theorem loadsWith_start {through : List RestoreUnit} (unit : RestoreUnit)
    (order : LoadsInOrder client options through log) :
    LoadsWith client options through unit log := by
  obtain ⟨blocks,fits,same⟩ := order
  exact ⟨blocks,[],fits,by simp,by rw [same,List.append_nil]⟩

theorem loadsWith_end {through : List RestoreUnit} {unit : RestoreUnit}
    (order : LoadsWith client options through unit log) :
    LoadsInOrder client options (through ++ [unit]) log := by
  obtain ⟨blocks,block,fits,own,same⟩ := order
  refine ⟨blocks ++ [block],List.rel_append fits (.cons own .nil),?_⟩
  rw [same]
  simp

theorem loadsWith_note {through : List RestoreUnit} {unit : RestoreUnit}
    (order : LoadsWith client options through unit log)
    (own : loads event = true → LoadsFor client options unit event) :
    LoadsWith client options through unit (log ++ [event]) := by
  obtain ⟨blocks,block,fits,known,same⟩ := order
  cases kind : loads event with
  | false => exact ⟨blocks,block,fits,known,by simp [kind,same]⟩
  | true =>
    refine ⟨blocks,block ++ [event],fits,?_,by simp [kind,same]⟩
    intro other member
    rcases List.mem_append.mp member with earlier | last
    · exact known other earlier
    · rw [List.mem_singleton.mp last]
      exact own kind

theorem readAs_mono {more : List Event} (inside : log ⊆ more) {path : String} {body : Bytes}
    (read : ReadAs codec store manifest log path body) :
    ReadAs codec store manifest more path body := by
  obtain ⟨bytes,member,decoded⟩ := read
  exact ⟨bytes,inside member,decoded⟩

theorem whole_mono {more : List Event} (inside : log ⊆ more) {unit : RestoreUnit} {block : List Event}
    (whole : Whole codec client store options manifest log unit block) :
    Whole codec client store options manifest more unit block := by
  obtain ⟨bodies,read,same⟩ := whole
  exact ⟨bodies,read.imp fun _ _ => readAs_mono inside,same⟩

end Logs

section Phases
variable {plan : Plan} {checkpoint : RestoreCheckpoint}

def creations (client : Client) (options : RestoreOptions) (checkpoint : RestoreCheckpoint)
    (plan : Plan) : List Event :=
  (todo options checkpoint plan.units).map (creation client options)

structure Held (client : Client) (options : RestoreOptions) (plan : Plan)
    (checkpoint : RestoreCheckpoint) (w : World) : Prop where
  creating : CreatesFirst (creations client options checkpoint plan) w.log
  loading : LoadsInOrder client options plan.units w.log

def Creating (client : Client) (options : RestoreOptions) (plan : Plan)
    (checkpoint : RestoreCheckpoint) (rest : List RestoreUnit)
    (w : World) : Prop :=
  ∃ made, made ++ todo options checkpoint rest = todo options checkpoint plan.units ∧
    w.log.filter creates = made.map (creation client options) ∧ ∀ event ∈ w.log, late event = false

structure Working (codec : Codec) (client : Client) (store : Nat) (options : RestoreOptions)
    (plan : Plan) (checkpoint : RestoreCheckpoint)
    (through taken : List RestoreUnit) (w : World) : Prop where
  creating : CreatesFirst (creations client options checkpoint plan) w.log
  created : w.log.filter creates = creations client options checkpoint plan
  loading : LoadsInOrder client options through w.log
  loaded : AllLoaded codec client store options plan.manifest taken w.log

theorem creating_held {rest : List RestoreUnit} {w : World}
    (start : Creating client options plan checkpoint rest w) :
    Held client options plan checkpoint w := by
  obtain ⟨made,split,same,still⟩ := start
  refine ⟨createsFirst_unloaded ?_ still,loadsInOrder_none _ (List.filter_eq_nil_iff.mpr ?_)⟩
  · rw [same,creations,← split,List.map_append]
    exact List.prefix_append _ _
  · intro event member
    have quiet := still event member
    rw [late,Bool.or_eq_false_iff] at quiet
    simp [quiet.2]

theorem working_held {through taken rest : List RestoreUnit} {w : World} (parts : through ++ rest = plan.units)
    (working : Working codec client store options plan checkpoint through taken w) :
    Held client options plan checkpoint w :=
  ⟨working.creating,parts ▸ loadsInOrder_more rest working.loading⟩

theorem triple_creating (units : List RestoreUnit) :
    Triple (Answers codec broken) (Creating client options plan checkpoint units)
    (createCollections client options checkpoint units) (fun _ => Creating client options plan checkpoint [])
    (Held client options plan checkpoint) (Held client options plan checkpoint) := by
  apply triple_createCollections
  · intro unit rest w recorded start
    obtain ⟨made,split,same,still⟩ := start
    refine ⟨made,?_,same,still⟩
    rw [← split,todo,todo,List.filter_cons_of_neg (by simp [recorded])]
  · intro unit rest waiting
    apply triple_attempts _ _ _ (fun _ => creating_held) fun _ => creating_held
    · intro w start
      obtain ⟨made,split,same,still⟩ := start
      exact ⟨made,split,by simp [creates,same],late_note still rfl⟩
    · intro w start
      obtain ⟨made,split,same,still⟩ := start
      refine ⟨made ++ [unit],?_,?_,?_⟩
      · rw [← split,todo,todo,List.filter_cons_of_pos (by simp [waiting]),List.append_assoc]
        rfl
      · rw [note_log,List.filter_append,same,List.map_append]
        rfl
      · exact late_note still rfl
  · exact fun _ => creating_held

theorem working_start {w : World} (created : Creating client options plan checkpoint [] w) :
    Working codec client store options plan checkpoint [] [] w := by
  have held := creating_held created
  obtain ⟨made,split,same,still⟩ := created
  have unloaded : w.log.filter loads = [] := by
    apply List.filter_eq_nil_iff.mpr
    intro event member
    have quiet := still event member
    rw [late,Bool.or_eq_false_iff] at quiet
    simp [quiet.2]
  have none_ : w.log.filter loaded = [] := by
    apply List.filter_eq_nil_iff.mpr
    intro event member ended
    have quiet := still event member
    rw [late,Bool.or_eq_false_iff,loaded_loads ended] at quiet
    cases quiet.2
  refine ⟨held.creating,?_,loadsInOrder_none [] unloaded,[],.nil,none_⟩
  rw [same,creations,← split,todo,List.filter_nil,List.append_nil]

theorem working_note {through taken : List RestoreUnit} {w : World}
    (working : Working codec client store options plan checkpoint through taken w)
      (other : creates event = false)
    (idle : loads event = false) : Working codec client store options plan checkpoint through taken
      (w.note event) := by
  obtain ⟨creating,created⟩ := createsFirst_after working.creating working.created other
  obtain ⟨blocks,fits,same⟩ := working.loading
  obtain ⟨ended,whole,all⟩ := working.loaded
  have unloaded : loaded event = false := by
    cases kind : loaded event with
    | false => rfl
    | true => rw [loaded_loads kind] at idle; cases idle
  refine ⟨creating,created,⟨blocks,fits,by simp [idle,same]⟩,ended,?_,by simp [unloaded,all]⟩
  exact whole.imp fun _ _ => whole_mono (List.subset_append_left _ _)

theorem triple_working_record {through taken rest : List RestoreUnit} (parts : through ++ rest = plan.units)
    (reached : RestoreCheckpoint) (id : String) :
    Triple (Answers codec broken) (Working codec client store options plan checkpoint through taken)
      (record codec options reached id)
      (fun next w => Working codec client store options plan checkpoint through taken w ∧
      next = noted options reached id)
      (Held client options plan checkpoint) (Held client options plan checkpoint) := by
  apply triple_recording
  · intro w working unconfigured
    exact ⟨working,by rw [noted,unconfigured]⟩
  · exact fun w object left working _ _ =>
      ⟨⟨working.creating,working.created,working.loading,working.loaded⟩,rfl⟩
  · exact fun _ => working_held parts
  · exact fun _ _ holds => working_held parts holds.1

theorem triple_viewing {through taken rest : List RestoreUnit}
    (parts : through ++ rest = plan.units) (views : List ViewArtifact)
    (start : RestoreCheckpoint) (restored : Nat) :
    Triple (Answers codec broken) (Working codec client store options plan checkpoint through taken)
      (restoreViews codec client options views start restored)
      (fun result w => Working codec client store options plan checkpoint through taken w ∧
      result.1 = viewsNoted options views start)
      (Held client options plan checkpoint) (Held client options plan checkpoint) := by
  let inv : List ViewArtifact → RestoreCheckpoint → World → Prop := fun rest reached w =>
    Working codec client store options plan checkpoint through taken w ∧
      viewsNoted options rest reached = viewsNoted options views start
  have loop : Triple (Answers codec broken) (inv views start)
      (restoreViews codec client options views start restored)
      (fun result => inv [] result.1) (Held client options plan checkpoint)
        (Held client options plan checkpoint) := by
    apply triple_restoreViews
    · intro view rest reached w recorded holds
      refine ⟨holds.1,?_⟩
      rw [← holds.2,viewsNoted,if_pos recorded]
    · intro view rest reached waiting
      apply triple_assuming
      intro ahead
      rw [viewsNoted,if_neg (by simp [waiting])] at ahead
      have shown := @triple_restoreView codec broken client options view
        (Working codec client store options plan checkpoint through taken)
          fun w request accepted working either => by
          rcases either with rfl | rfl
          · exact working_note working rfl rfl
          · exact working_note working rfl rfl
      apply triple_bind (triple_weaken shown (fun _ working => working) (fun _ _ holds => holds.1)
        (fun _ => working_held parts)
        fun _ => working_held parts)
      intro _
      apply triple_weaken (triple_working_record parts reached (viewUnitId view))
        (fun _ working => working) _ (fun _ held => held)
        fun _ held => held
      exact fun next w holds => ⟨holds.1,by rw [holds.2]; exact ahead⟩
    · exact fun _ _ holds => working_held parts holds.1
  exact triple_weaken loop (fun _ working => ⟨working,rfl⟩) (fun _ _ holds => holds)
    (fun _ held => held) fun _ held => held

structure Loading (codec : Codec) (client : Client) (store : Nat) (options : RestoreOptions)
    (plan : Plan) (checkpoint : RestoreCheckpoint)
    (through taken : List RestoreUnit) (unit : RestoreUnit) (paths : List String)
      (indexes : List Value) (w : World) : Prop where
  creating : CreatesFirst (creations client options checkpoint plan) w.log
  created : w.log.filter creates = creations client options checkpoint plan
  loading : LoadsWith client options through unit w.log
  loaded : ∃ blocks bodies, List.Forall₂ (Whole codec client store options plan.manifest w.log) taken blocks ∧
    List.Forall₂ (ReadAs codec store plan.manifest w.log) paths bodies ∧
    w.log.filter loaded = blocks.flatten ++ RestoreSchedule.loading client options unit bodies indexes

section Loading
variable {through taken rest : List RestoreUnit} {unit : RestoreUnit} {paths : List String}
  {indexes : List Value} {w : World}

theorem loading_held (parts : through ++ unit :: rest = plan.units)
    (working : Loading codec client store options plan checkpoint through taken unit paths indexes w) :
    Held client options plan checkpoint w := by
  refine ⟨working.creating,?_⟩
  have order := loadsInOrder_more rest (loadsWith_end working.loading)
  rwa [List.append_assoc,List.singleton_append,parts] at order

theorem loading_start (unit : RestoreUnit)
    (working : Working codec client store options plan checkpoint through taken w) :
    Loading codec client store options plan checkpoint through taken unit [] [] w := by
  obtain ⟨blocks,whole,all⟩ := working.loaded
  exact ⟨working.creating,working.created,loadsWith_start unit working.loading,blocks,[],whole,.nil,by
    rw [all]
    exact (List.append_nil _).symm⟩

theorem loading_end (working : Loading codec client store options plan checkpoint through taken unit
    unit.1.dataPaths unit.2.indexes w) :
    Working codec client store options plan checkpoint (through ++ [unit]) (taken ++ [unit]) w := by
  obtain ⟨blocks,bodies,whole,read,all⟩ := working.loaded
  refine ⟨working.creating,working.created,loadsWith_end working.loading,blocks ++ [_],
    List.rel_append whole (.cons ⟨bodies,read,rfl⟩ .nil),?_⟩
  rw [all]
  simp

theorem loading_note (working : Loading codec client store options plan checkpoint through taken
    unit paths indexes w)
    (other : creates event = false) (own : loads event = true → LoadsFor client options unit event)
      (waits : loaded event = false) :
    Loading codec client store options plan checkpoint through taken unit paths indexes (w.note event) := by
  obtain ⟨creating,created⟩ := createsFirst_after working.creating working.created other
  obtain ⟨blocks,bodies,whole,read,all⟩ := working.loaded
  refine ⟨creating,created,loadsWith_note working.loading own,blocks,bodies,?_,?_,by simp [waits,all]⟩
  · exact whole.imp fun _ _ => whole_mono (List.subset_append_left _ _)
  · exact read.imp fun _ _ => readAs_mono (List.subset_append_left _ _)

theorem triple_part (parts : through ++ unit :: rest = plan.units) (path : String) :
    Triple (Answers codec broken)
      (Loading codec client store options plan checkpoint through taken unit paths [])
      ((readData codec store plan.manifest path).bind fun body =>
        (targetClient client options unit.1.database).restoreData unit.1.name body)
      (fun _ => Loading codec client store options plan checkpoint through taken unit (paths ++ [path]) [])
      (Held client options plan checkpoint) (Held client options plan checkpoint) := by
  let here : World → Prop := Loading codec client store options plan checkpoint through taken unit paths []
  have seen : ∀ w bytes, here w → here (w.note (.read ⟨store,path⟩ bytes)) :=
    fun w bytes working => loading_note working rfl (fun sent => by cases sent) rfl
  have reading := @triple_lastRead codec broken here store path (compressionOf plan.manifest path)
    fun w bytes _ working => seen w bytes working
  apply triple_bind (triple_weaken reading (fun _ working => working) (fun _ _ holds => holds)
    (fun _ => loading_held parts)
    fun _ => loading_held parts)
  intro body
  let fetched : World → Prop := fun w => here w ∧ ReadAs codec store plan.manifest w.log path body
  have sending : Triple (Answers codec broken) fetched
      ((targetClient client options unit.1.database).restoreData unit.1.name body)
      (fun _ => Loading codec client store options plan checkpoint through taken unit (paths ++ [path]) [])
      (Held client options plan checkpoint) (Held client options plan checkpoint) := by
    apply triple_attempts _ _ _ (fun _ holds => loading_held parts holds.1) fun _ => loading_held parts
    · exact fun w holds => ⟨loading_note holds.1 rfl (fun _ => .part) rfl,
        readAs_mono (List.subset_append_left _ _) holds.2⟩
    · intro w holds
      obtain ⟨working,read⟩ := holds
      have sent : creates (.sent (database client options unit)
          (.restoreData unit.1.name body) true) = false := rfl
      obtain ⟨creating,created⟩ := createsFirst_after working.creating working.created sent
      obtain ⟨blocks,bodies,whole,earlier,all⟩ := working.loaded
      refine ⟨creating,created,loadsWith_note working.loading fun _ => .part,blocks,bodies ++ [body],?_,?_,?_⟩
      · exact whole.imp fun _ _ => whole_mono (List.subset_append_left _ _)
      · exact List.rel_append (earlier.imp fun _ _ => readAs_mono (List.subset_append_left _ _))
          (.cons (readAs_mono (List.subset_append_left _ _) read) .nil)
      · rw [note_log,List.filter_append,all]
        simp [RestoreSchedule.loading,RestoreSchedule.loaded,indexEvents,database]
  apply triple_weaken sending _ (fun _ _ holds => holds) (fun _ held => held) fun _ held => held
  intro w holds
  obtain ⟨before,bytes,working,rfl,-,-,decoded⟩ := holds
  exact ⟨seen before bytes working,bytes,List.mem_append_right _ List.mem_cons_self,decoded⟩

theorem triple_index (parts : through ++ unit :: rest = plan.units) {index : Value}
    (member : index ∈ unit.2.indexes)
    (explicit : isImplicit index = false) :
    Triple (Answers codec broken)
      (Loading codec client store options plan checkpoint through taken unit paths indexes)
      ((targetClient client options unit.1.database).createIndex unit.1.name index)
      (fun _ => Loading codec client store options plan checkpoint through taken unit paths
        (indexes ++ [index]))
      (Held client options plan checkpoint) (Held client options plan checkpoint) := by
  apply triple_attempts _ _ _ (fun _ => loading_held parts) fun _ => loading_held parts
  · exact fun w working => loading_note working rfl (fun _ => .index member) rfl
  · intro w working
    have sent : creates (.sent (database client options unit)
        (.createIndex unit.1.name index) true) = false := rfl
    obtain ⟨creating,created⟩ := createsFirst_after working.creating working.created sent
    obtain ⟨blocks,bodies,whole,read,all⟩ := working.loaded
    refine ⟨creating,created,loadsWith_note working.loading fun _ => .index member,blocks,bodies,?_,?_,?_⟩
    · exact whole.imp fun _ _ => whole_mono (List.subset_append_left _ _)
    · exact read.imp fun _ _ => readAs_mono (List.subset_append_left _ _)
    · rw [note_log,List.filter_append,all,RestoreSchedule.loading,RestoreSchedule.loading,
        indexEvents_append,explicit]
      simp [RestoreSchedule.loaded,database]

theorem triple_unit (parts : through ++ unit :: rest = plan.units) :
    Triple (Answers codec broken) (Working codec client store options plan checkpoint through taken)
      (loadCollectionData codec (targetClient client options unit.1.database) store plan.manifest unit)
      (fun _ => Working codec client store options plan checkpoint (through ++ [unit]) (taken ++ [unit]))
      (Held client options plan checkpoint) (Held client options plan checkpoint) := by
  let sending : List String → World → Prop := fun left w => ∃ paths,
    Loading codec client store options plan checkpoint through taken unit paths [] w ∧
    paths ++ left = unit.1.dataPaths
  let indexing : List Value → World → Prop := fun left w => ∃ indexes,
    Loading codec client store options plan checkpoint through taken unit unit.1.dataPaths indexes
      w ∧ indexes ++ left = unit.2.indexes
  have sent : Triple (Answers codec broken) (sending unit.1.dataPaths)
      (restoreParts codec (targetClient client options unit.1.database)
      store plan.manifest unit.1.name unit.1.dataPaths) (fun _ => sending [])
        (Held client options plan checkpoint)
      (Held client options plan checkpoint) := by
    apply triple_restoreParts
    · intro path left
      apply triple_some
      intro paths
      apply triple_assuming
      intro split
      apply triple_weaken (triple_part parts path) (fun _ working => working) _ (fun _ held => held)
        fun _ held => held
      exact fun _ w working => ⟨paths ++ [path],working,by rw [List.append_assoc]; exact split⟩
    · exact fun _ holds => holds.elim fun _ holds => loading_held parts holds.1
  apply triple_bind (triple_weaken sent (fun _ working => ⟨[],loading_start unit working,rfl⟩)
    (fun _ _ holds => holds)
    (fun _ held => held) fun _ held => held)
  intro _
  have indexed : Triple (Answers codec broken) (indexing unit.2.indexes)
      (createIndexes (targetClient client options unit.1.database)
      unit.1.name unit.2.indexes) (fun _ => indexing []) (Held client options plan checkpoint)
        (Held client options plan checkpoint) := by
    apply triple_createIndexes
    · intro index left w implicit holds
      obtain ⟨indexes,working,split⟩ := holds
      refine ⟨indexes ++ [index],
        ⟨working.creating,working.created,working.loading,?_⟩,by rw [List.append_assoc]; exact split⟩
      obtain ⟨blocks,bodies,whole,read,all⟩ := working.loaded
      refine ⟨blocks,bodies,whole,read,?_⟩
      rw [all,RestoreSchedule.loading,RestoreSchedule.loading,indexEvents_append,if_pos implicit,
        List.append_nil]
    · intro index left explicit
      apply triple_some
      intro indexes
      apply triple_assuming
      intro split
      have member : index ∈ unit.2.indexes := by
        rw [← split]
        exact List.mem_append_right _ List.mem_cons_self
      apply triple_weaken (triple_index parts member explicit) (fun _ working => working) _
        (fun _ held => held) fun _ held => held
      exact fun _ w working => ⟨indexes ++ [index],working,by rw [List.append_assoc]; exact split⟩
    · exact fun _ holds => holds.elim fun _ holds => loading_held parts holds.1
  apply triple_weaken indexed _ _ (fun _ held => held) fun _ held => held
  · intro w holds
    obtain ⟨paths,working,split⟩ := holds
    rw [List.append_nil] at split
    exact ⟨[],split ▸ working,rfl⟩
  · intro _ w holds
    obtain ⟨indexes,working,split⟩ := holds
    rw [List.append_nil] at split
    rw [split] at working
    exact loading_end working

end Loading

theorem triple_loading (reporting : Bool) (start : RestoreCheckpoint) (summary : RestoreSummary) :
    Triple (Answers codec broken) (Working codec client store options plan checkpoint [] [])
      (loadCollections codec client store options plan.manifest reporting plan.units start summary)
      (fun _ => Working codec client store options plan checkpoint plan.units
        (pending options plan.units start))
      (Held client options plan checkpoint) (Held client options plan checkpoint) := by
  let inv : List RestoreUnit → RestoreCheckpoint → World → Prop := fun rest reached w => ∃ through taken,
    Working codec client store options plan checkpoint through taken w ∧ through ++ rest = plan.units ∧
      taken ++ pending options rest reached = pending options plan.units start
  have held : ∀ rest reached w, inv rest reached w → Held client options plan checkpoint w := by
    intro rest reached w holds
    obtain ⟨through,taken,working,parts,-⟩ := holds
    exact working_held parts working
  have loop : Triple (Answers codec broken) (inv plan.units start)
      (loadCollections codec client store options plan.manifest reporting plan.units start summary)
        (fun result => inv [] result.1)
      (Held client options plan checkpoint) (Held client options plan checkpoint) := by
    apply triple_loadCollections
    · intro unit rest reached w recorded holds
      obtain ⟨through,taken,working,parts,due⟩ := holds
      refine ⟨through ++ [unit],taken,
        ⟨working.creating,working.created,loadsInOrder_more [unit] working.loading,working.loaded⟩,?_,?_⟩
      · rw [List.append_assoc]
        exact parts
      · rw [← due,pending,if_pos recorded]
    · intro unit rest reached waiting
      apply triple_some
      intro through
      apply triple_some
      intro taken
      apply triple_assuming
      intro ahead
      obtain ⟨parts,due⟩ := ahead
      have next : (through ++ [unit]) ++ rest = plan.units := by rw [List.append_assoc]; exact parts
      apply triple_bind (triple_unit parts)
      intro _
      apply triple_weaken (triple_working_record next reached (unitId unit.1))
        (fun _ working => working) _ (fun _ held => held)
        fun _ held => held
      intro checkpoint w holds
      refine ⟨through ++ [unit],taken ++ [unit],holds.1,next,?_⟩
      rw [← due,holds.2,pending,if_neg (by simp [waiting]),List.append_assoc]
      rfl
    · exact held
  apply triple_weaken loop (fun _ working => ⟨[],[],working,rfl,rfl⟩) _ (fun _ held => held) fun _ held => held
  intro _ w holds
  obtain ⟨through,taken,working,parts,due⟩ := holds
  rw [List.append_nil] at parts
  rw [pending,List.append_nil] at due
  rw [parts,due] at working
  exact working

theorem asked_creating {objects : ObjectRef → Option Bytes} {w : World}
    (asked : Asked (fun request => ∃ name, request = .createDatabase name) objects w) :
    Creating client options plan checkpoint plan.units w := by
  have quiet : ∀ event ∈ w.log, creates event = false ∧ late event = false := by
    intro event member
    cases event with
    | read object bytes => exact ⟨rfl,rfl⟩
    | sent database request accepted =>
      obtain ⟨name,rfl⟩ := asked.2 database request accepted member
      exact ⟨rfl,rfl⟩
  refine ⟨[],rfl,List.filter_eq_nil_iff.mpr ?_,fun event member => (quiet event member).2⟩
  intro event member
  simp [(quiet event member).1]

-- What the plan and the checkpoint come to.
def due (options : RestoreOptions) (plan : Plan) (checkpoint : RestoreCheckpoint) : List RestoreUnit :=
  pending options plan.units (viewsNoted options (linked plan) checkpoint)

theorem triple_run {objects : ObjectRef → Option Bytes} (planned : Planned codec broken objects store plan)
    (started : Started codec broken objects options plan.manifest.fingerprint checkpoint) (reporting : Bool) :
    Triple (Answers codec broken) (Asked (fun request => ∃ name, request = .createDatabase name) objects)
      (runRestoreWithProgress codec client store options reporting)
      (fun _ => Working codec client store options plan checkpoint plan.units (due options plan checkpoint))
      (Held client options plan checkpoint) (Held client options plan checkpoint) := by
  have held : ∀ w, Asked (fun request => ∃ name, request = .createDatabase name) objects w →
      Held client options plan checkpoint w :=
    fun _ asked => creating_held (asked_creating asked)
  have whole : plan.units ++ [] = plan.units := List.append_nil _
  apply triple_bind (triple_weaken asked_plan (fun _ asked => asked) (fun _ _ holds => holds) held held)
  intro found
  apply triple_assuming
  intro planned'
  rw [planned_unique planned' planned]
  apply triple_bind (triple_weaken (asked_databases (fun name => ⟨name,rfl⟩) plan)
    (fun _ asked => asked) (fun _ _ asked => asked)
    held held)
  intro _
  apply triple_bind (triple_weaken (asked_checkpoint plan.manifest.fingerprint)
    (fun _ asked => asked) (fun _ _ holds => holds) held held)
  intro reached
  apply triple_assuming
  intro started'
  rw [started_unique started' started]
  unfold restorePhases
  apply triple_bind (triple_weaken (triple_creating plan.units) (fun _ => asked_creating)
    (fun _ _ made => made) (fun _ held => held)
    fun _ held => held)
  intro _
  apply triple_bind (triple_weaken (triple_viewing (List.nil_append plan.units) (linked plan) checkpoint 0)
    (fun _ => working_start) (fun _ _ holds => holds) (fun _ held => held) fun _ held => held)
  intro viewed
  apply triple_assuming
  intro noted
  rw [noted]
  apply triple_bind (triple_loading reporting _ {collections := plan.units.length})
  intro result
  apply triple_bind (triple_viewing whole (plan.views.filter ViewArtifact.isSearchAlias) result.1 viewed.2)
  intro aliased
  exact triple_done (fun _ holds => holds.1) fun _ holds => working_held whole holds.1

end Phases

section Due
variable {plan : Plan} {checkpoint : RestoreCheckpoint}

theorem isDone_grows {reached : RestoreCheckpoint} (grows : ∀ id ∈ checkpoint.completed,
    id ∈ reached.completed) {id : String}
    (recorded : isDone options checkpoint id = true) : isDone options reached id = true := by
  unfold isDone at recorded ⊢
  rw [Bool.and_eq_true] at recorded ⊢
  exact ⟨recorded.1,(reached.contains_iff id).mpr (grows id ((checkpoint.contains_iff id).mp recorded.2))⟩

theorem noted_grows (reached : RestoreCheckpoint) (id : String) : ∀ earlier ∈ reached.completed,
    earlier ∈ (noted options reached id).completed := by
  intro earlier member
  unfold noted
  cases options.checkpoint with
  | none => exact member
  | some object => exact List.mem_append_left _ member

theorem viewsNoted_grows (views : List ViewArtifact) (reached : RestoreCheckpoint) :
    ∀ earlier ∈ reached.completed, earlier ∈ (viewsNoted options views reached).completed := by
  induction views generalizing reached with
  | nil => exact fun _ member => member
  | cons view rest ih =>
    intro earlier member
    unfold viewsNoted
    apply ih
    split
    · exact member
    · exact noted_grows reached _ earlier member

theorem pending_sublist (units : List RestoreUnit) {reached : RestoreCheckpoint}
    (grows : ∀ id ∈ checkpoint.completed, id ∈ reached.completed) :
    (pending options units reached).Sublist (todo options checkpoint units) := by
  induction units generalizing reached with
  | nil => exact .slnil
  | cons unit rest ih =>
    unfold pending todo
    cases before : isDone options checkpoint (unitId unit.1) with
    | true =>
      rw [if_pos (isDone_grows grows before),List.filter_cons_of_neg (by simp [before])]
      exact ih grows
    | false =>
      rw [List.filter_cons_of_pos (by simp [before])]
      split
      · exact (ih grows).cons _
      · exact (ih fun id member => noted_grows reached _ id (grows id member)).cons_cons _

theorem due_sublist (plan : Plan) (checkpoint : RestoreCheckpoint) :
    (due options plan checkpoint).Sublist (todo options checkpoint plan.units) :=
  pending_sublist plan.units (viewsNoted_grows (linked plan) checkpoint)

theorem isDone_noted {reached : RestoreCheckpoint} {id other : String} (apart : other ≠ id) :
    isDone options (noted options reached id) other = isDone options reached other := by
  unfold isDone noted
  cases options.checkpoint with
  | none => rfl
  | some object =>
    have same : RestoreCheckpoint.contains {reached with completed := reached.completed ++ [id]}
        other = reached.contains other := by
      rw [Bool.eq_iff_iff,RestoreCheckpoint.contains_iff,RestoreCheckpoint.contains_iff]
      simp [apart]
    rw [same]

theorem isDone_viewsNoted {views : List ViewArtifact} {reached : RestoreCheckpoint} {id : String}
    (apart : ∀ view ∈ views, id ≠ viewUnitId view) :
    isDone options (viewsNoted options views reached) id = isDone options reached id := by
  induction views generalizing reached with
  | nil => rfl
  | cons view rest ih =>
    unfold viewsNoted
    rw [ih fun other member => apart other (List.mem_cons_of_mem _ member)]
    split
    · rfl
    · exact isDone_noted (apart view List.mem_cons_self)

theorem pending_todo {units : List RestoreUnit} {reached : RestoreCheckpoint}
    (distinct : (units.map fun unit => unitId unit.1).Nodup)
    (same : ∀ unit ∈ units, isDone options reached (unitId unit.1) = isDone options checkpoint
      (unitId unit.1)) :
    pending options units reached = todo options checkpoint units := by
  induction units generalizing reached with
  | nil => rfl
  | cons unit rest ih =>
    obtain ⟨fresh,distinct⟩ := List.nodup_cons.mp distinct
    have later : ∀ other ∈ rest, isDone options reached (unitId other.1) = isDone options checkpoint
        (unitId other.1) :=
      fun other member => same other (List.mem_cons_of_mem _ member)
    unfold pending todo
    rw [same unit List.mem_cons_self]
    cases before : isDone options checkpoint (unitId unit.1) with
    | true =>
      rw [if_pos rfl,List.filter_cons_of_neg (by simp [before])]
      exact ih distinct later
    | false =>
      rw [if_neg Bool.false_ne_true,List.filter_cons_of_pos (by simp [before]),ih distinct]
      · rfl
      · intro other member
        have apart : unitId other.1 ≠ unitId unit.1 :=
          fun equal => fresh (List.mem_map.mpr ⟨other,member,equal⟩)
        rw [isDone_noted apart]
        exact later other member

-- No two of the identifiers that may be recorded are the same.
def Distinct (plan : Plan) : Prop :=
  (plan.units.map fun unit => unitId unit.1).Nodup ∧ ∀ unit ∈ plan.units, ∀ view ∈ linked plan,
    unitId unit.1 ≠ viewUnitId view

theorem pending_unsaved (unsaved : options.checkpoint = none) (units : List RestoreUnit)
    (reached : RestoreCheckpoint) :
    pending options units reached = todo options checkpoint units := by
  have open_ : ∀ checkpoint id, isDone options checkpoint id = false := by simp [isDone,unsaved]
  induction units generalizing reached with
  | nil => rfl
  | cons unit rest ih =>
    unfold pending todo
    rw [open_,if_neg Bool.false_ne_true,List.filter_cons_of_pos (by simp [open_]),ih]
    rfl

theorem due_todo (apart : options.checkpoint = none ∨ Distinct plan) :
    due options plan checkpoint = todo options checkpoint plan.units := by
  rcases apart with unsaved | distinct
  · exact pending_unsaved unsaved _ _
  · exact pending_todo distinct.1 fun unit member => isDone_viewsNoted (distinct.2 unit member)

end Due

section Restoring

theorem restored_in_order {objects : ObjectRef → Option Bytes} {reporting : Bool} :
    (∀ (manifest : Manifest) (units : List RestoreUnit), units.map Prod.fst = groupByCollection manifest →
      Ordered manifest units (sortUnits units)) ∧
    ∀ plan checkpoint, Planned codec broken objects store plan →
      Started codec broken objects options plan.manifest.fingerprint checkpoint →
      (∃ units, units.map Prod.fst = groupByCollection plan.manifest ∧ plan.units = sortUnits units) ∧
      (due options plan checkpoint).Sublist (todo options checkpoint plan.units) ∧
      (options.checkpoint = none ∨ Distinct plan → due options plan checkpoint =
      todo options checkpoint plan.units) ∧
      ∀ q w', Runs (Answers codec broken)
        (runRestoreWithProgress codec client store options reporting) ⟨objects,[]⟩ q w' →
        CreatesFirst ((todo options checkpoint plan.units).map (creation client options)) w'.log ∧
        LoadsInOrder client options plan.units w'.log ∧
        ∀ summary, q = done summary → AllLoaded codec client store options plan.manifest
          (due options plan checkpoint) w'.log := by
  refine ⟨fun _ _ grouped => sorted_ordered grouped,?_⟩
  intro plan checkpoint planned started
  obtain ⟨units,grouped,-,sorted,-⟩ := planned.units
  refine ⟨⟨units,grouped,sorted⟩,due_sublist plan checkpoint,due_todo,?_⟩
  intro q w' runs
  have triple := @triple_run codec broken client store options plan checkpoint objects planned started reporting
  have held := triple.everywhere _ q w' asked_start runs
  refine ⟨held.creating,held.loading,?_⟩
  intro summary ended
  rw [ended] at runs
  exact (triple.returns _ summary w' asked_start runs).loaded

section Sample
open RestoreHistory

def dataAt (path : String) (database : Option String) : Artifact :=
  {path := path,kind := .data,format := .jsonl,byteSize := 34,collection := some "c",
    database := database,part := some 0}

def ladenManifest : Manifest :=
  {Manifest.new "shop" "0.1.0" "2026-06-01T00:00:00Z" with
    artifacts := [structureAt "c.structure.json" none,dataAt "c.data.jsonl" none,
      structureAt "databases//c.structure.json" (some ""),dataAt "databases//c.data.jsonl" (some "")]}

def dataArtifact (path more : String) : String :=
  "\x7b\"path\":\"" ++ path ++ "\",\"kind\":\"data\",\"format\":\"jsonl\"," ++
  "\"compression\":\"none\",\"byte_size\":34,\"collection\":\"c\"" ++ more ++ ",\"part\":0\x7d"
def ladenText : Bytes := RestoreHistory.manifestText
    (",".intercalate [soloArtifact,dataArtifact "c.data.jsonl" "",twinArtifact,
  dataArtifact "databases//c.data.jsonl" ",\"database\":\"\""])

def ladenObjects (object : ObjectRef) : Option Bytes :=
  if object = ⟨0,"c.data.jsonl"⟩ then some DumpRestore.firstText
  else if object = ⟨0,"databases//c.data.jsonl"⟩ then some DumpRestore.firstText
  else bareObjects ladenText object

def ladenUnit (path data : String) (database : Option String) : RestoreUnit :=
  (⟨"c",database,path,[data]⟩,⟨DumpRestore.sampleCollection.parameters,[],false⟩)

def ladenUnits : List RestoreUnit :=
  [ladenUnit "c.structure.json" "c.data.jsonl" none,
    ladenUnit "databases//c.structure.json" "databases//c.data.jsonl" (some "")]
def ladenPlan : Plan := ⟨ladenManifest,sortUnits ladenUnits,[none,some ""],[]⟩
def ladenCodec : Codec := bareCodec ladenManifest ladenText
def ladenOptions : RestoreOptions := {checkpoint := some bareCheckpoint}

theorem laden_held {path : String} {bytes : Bytes} (stored : ladenObjects ⟨0,path⟩ = some bytes) :
    Holds ladenCodec (fun _ => False) ladenObjects 0 path bytes := ⟨not_false,bytes,stored,rfl⟩

theorem laden_structure {path data : String} {database : Option String} (named : path ≠ "")
    (stored : ladenObjects ⟨0,path⟩ = some DumpRestore.structureText) :
    HasStructure ladenCodec (fun _ => False) ladenObjects 0 (ladenUnit path data database).1
      (ladenUnit path data database).2 := by
  have apart : DumpRestore.structureText ≠ DumpRestore.viewText := by decide
  have parser : ladenCodec.fromSlice = DumpRestore.parseValue := rfl
  refine ⟨named,DumpRestore.structureText,Dump.structureValue DumpRestore.sampleCollection,
    laden_held stored,?_,?_⟩
  · rw [parser,DumpRestore.parseValue,if_neg apart,if_pos rfl]
  · exact DumpRestore.parseStructure_written DumpRestore.sampleCollection

theorem laden_grouped : groupByCollection ladenManifest = ladenUnits.map Prod.fst := by decide

theorem laden_manifest : HasManifest ladenCodec (fun _ => False) ladenObjects 0 ladenManifest := by
  have stored : ladenObjects ⟨0,Restore.manifestName⟩ = some ladenText := by
    simp [ladenObjects,bareObjects,Restore.manifestName]
  have parser : ladenCodec.manifestFromJson = readManifestOf ladenManifest ladenText := rfl
  refine ⟨ladenText,laden_held stored,?_⟩
  rw [parser,readManifestOf,if_pos rfl]

theorem laden_planned : Planned ladenCodec (fun _ => False) ladenObjects 0 ladenPlan where
  manifest := laden_manifest
  valid := rfl
  units := by
    refine ⟨ladenUnits,laden_grouped.symm,?_,rfl,rfl⟩
    intro unit member
    rcases List.mem_cons.mp member with rfl | later
    · exact laden_structure (by simp) (by simp [ladenObjects,bareObjects,Restore.manifestName])
    · rw [List.mem_singleton.mp later]
      exact laden_structure (by simp) (by simp [ladenObjects,bareObjects,Restore.manifestName])
  views := .nil

theorem laden_started : Started ladenCodec (fun _ => False) ladenObjects ladenOptions ladenManifest.fingerprint
    (.new ladenManifest.fingerprint) := by
  refine ⟨not_false,?_⟩
  simp [ladenObjects,bareObjects,bareCheckpoint]

theorem accepted_runs {codec : Codec} {objects : ObjectRef → Option Bytes} {plan : Plan}
    {checkpoint : RestoreCheckpoint}
    (planned : Planned codec (fun _ => False) objects 0 plan)
    (started : Started codec (fun _ => False) objects ladenOptions plan.manifest.fingerprint checkpoint)
    (data : ∀ unit ∈ plan.units, DataReads codec (fun _ => False) objects 0 plan.manifest unit.1.dataPaths) :
    ∃ summary w', Runs (Answers codec (fun _ => False))
      (runRestoreWithProgress codec {database := "shop"} 0 ladenOptions false)
      ⟨objects,[]⟩ (done summary) w' := by
  obtain ⟨read,same,reading⟩ := @planned_runs codec (fun _ => False) 0 ⟨objects,[]⟩ plan planned
  obtain ⟨prepared,same',preparing,-,-⟩ :=
    @prepareDatabases_run codec (fun _ => False) {database := "shop"} ladenOptions plan read
  have still : prepared.objects = objects := same'.trans same
  obtain ⟨ready,same'',starting⟩ :=
    @started_runs codec (fun _ => False) ladenOptions prepared plan.manifest.fingerprint _
    (by rw [still]; exact started)
  obtain ⟨w',summary,phases⟩ :=
    @restorePhases_run codec (fun _ => False) {database := "shop"} 0 ladenOptions plan false
    checkpoint ready (by rw [same'',still]; exact data)
  exact ⟨summary,w',runs_then reading (runs_then preparing (runs_then starting phases))⟩

theorem laden_runs : ∃ summary w', Runs (Answers ladenCodec (fun _ => False))
    (runRestoreWithProgress ladenCodec {database := "shop"} 0 ladenOptions false) ⟨ladenObjects,[]⟩
      (done summary) w' := by
  apply accepted_runs laden_planned laden_started
  intro unit member path listed
  have held : ladenObjects ⟨0,path⟩ = some DumpRestore.firstText := by
    rcases List.mem_cons.mp ((RestoreRefusal.mem_sortUnits _ _).mp member) with rfl | later
    · rw [List.mem_singleton.mp listed]
      simp [ladenObjects]
    · rw [List.mem_singleton.mp later] at listed
      rw [List.mem_singleton.mp listed]
      simp [ladenObjects]
  exact ⟨not_false,DumpRestore.firstText,DumpRestore.firstText,held,rfl⟩

theorem laden_count {units : List RestoreUnit} (laden : ∀ unit ∈ units, unit ∈ ladenUnits)
    (all : AllLoaded ladenCodec {database := "shop"} 0 ladenOptions ladenManifest units log) :
    (log.filter loaded).length = units.length := by
  obtain ⟨blocks,whole,same⟩ := all
  rw [same]
  clear same
  induction whole with
  | nil => rfl
  | cons here rest ih =>
    obtain ⟨bodies,read,rfl⟩ := here
    have plain : ∀ unit ∈ ladenUnits, unit.1.dataPaths.length = 1 ∧ unit.2.indexes = [] := by
      intro unit member
      rcases List.mem_cons.mp member with rfl | later
      · exact ⟨rfl,rfl⟩
      · rw [List.mem_singleton.mp later]
        exact ⟨rfl,rfl⟩
    obtain ⟨one,none_⟩ := plain _ (laden _ List.mem_cons_self)
    rw [List.flatten_cons,List.length_append,ih fun unit member =>
      laden unit (List.mem_cons_of_mem _ member),List.length_cons,
      loading,none_,List.length_append,List.length_map,← read.length_eq,one]
    simp [indexEvents,Nat.add_comm]

-- Both share one identifier: once the first is recorded the second, created in
-- phase 1, is taken for done.
theorem unnamed_database_not_loaded : ∃ summary w',
    Planned ladenCodec (fun _ => False) ladenObjects 0 ladenPlan ∧
    Started ladenCodec (fun _ => False) ladenObjects ladenOptions ladenManifest.fingerprint
      (.new ladenManifest.fingerprint) ∧
    Runs (Answers ladenCodec (fun _ => False))
      (runRestoreWithProgress ladenCodec {database := "shop"} 0 ladenOptions false)
      ⟨ladenObjects,[]⟩ (done summary) w' ∧
    ¬ AllLoaded ladenCodec {database := "shop"} 0 ladenOptions ladenManifest
      (todo ladenOptions (.new ladenManifest.fingerprint) ladenPlan.units) w'.log := by
  obtain ⟨summary,w',runs⟩ := laden_runs
  refine ⟨summary,w',laden_planned,laden_started,runs,?_⟩
  intro all
  have ended := (triple_run laden_planned laden_started false).returns _ summary w' asked_start runs
  have once : due ladenOptions ladenPlan (.new ladenManifest.fingerprint) =
      [ladenUnit "c.structure.json" "c.data.jsonl" none] := rfl
  have twice : todo ladenOptions (.new ladenManifest.fingerprint) ladenPlan.units = ladenUnits := rfl
  have one := laden_count (by rw [once]; simp [ladenUnits]) ended.loaded
  have two := laden_count (by rw [twice]; exact fun _ member => member) all
  rw [once] at one
  rw [twice,one] at two
  cases two

def edgeParameters : Value := .object [("name",.string "a"),("type",.number (.posInt 3))]
def edgeStructure : Value := .object [("indexes",.array []),("parameters",edgeParameters)]
def edgeText : Bytes := asciiBytes "\x7b\"indexes\":[],\"parameters\":\x7b\"name\":\"a\",\"type\":3\x7d\x7d"
def edgeData : Bytes := asciiBytes "\x7b\"_from\":\"c/1\",\"_to\":\"c/1\"\x7d\n"

def edgeManifest : Manifest := {RestoreConvergence.sampleManifest with artifacts := [
  {path := "a.structure.json",kind := .structureDef,format := .json,byteSize := 49,collection := some "a"},
  {path := "a.data.jsonl",kind := .data,format := .jsonl,byteSize := 28,collection := some "a",
    part := some 0}] ++
    RestoreConvergence.sampleArtifacts}
def edgeManifestText : Bytes :=
  RestoreHistory.manifestText ("\x7b\"path\":\"a.structure.json\",\"kind\":\"structure\"," ++
  "\"format\":\"json\",\"compression\":\"none\",\"byte_size\":49,\"collection\":\"a\"\x7d," ++
  "\x7b\"path\":\"a.data.jsonl\",\"kind\":\"data\",\"format\":\"jsonl\",\"compression\":\"none\",\"byte_size\":28," ++
  "\"collection\":\"a\",\"part\":0\x7d," ++ RestoreConvergence.artifactTexts)

def readEdgeValue (bytes : Bytes) : Except Error Value :=
  if bytes = edgeText then .ok edgeStructure
  else RestoreConvergence.parseValue bytes
def edgeCodec : Codec := {RestoreConvergence.sampleCodec with
  fromSlice := readEdgeValue
  manifestFromJson := readManifestOf edgeManifest edgeManifestText}

def edgeObjects (object : ObjectRef) : Option Bytes :=
  if object = ⟨0,Restore.manifestName⟩ then some edgeManifestText
  else if object = ⟨0,"a.structure.json"⟩ then some edgeText
  else if object = ⟨0,"a.data.jsonl"⟩ then some edgeData
  else RestoreConvergence.sampleObjects object

def edgeUnit : RestoreUnit := (⟨"a",none,"a.structure.json",["a.data.jsonl"]⟩,⟨edgeParameters,[],true⟩)
def edgePlan : Plan :=
  ⟨edgeManifest,sortUnits [edgeUnit,RestoreConvergence.sampleUnit],[none],[RestoreConvergence.sampleView]⟩

theorem edge_held {path : String} {bytes : Bytes} (stored : edgeObjects ⟨0,path⟩ = some bytes) :
    Holds edgeCodec (fun _ => False) edgeObjects 0 path bytes := ⟨not_false,bytes,stored,rfl⟩

theorem edge_manifest : HasManifest edgeCodec (fun _ => False) edgeObjects 0 edgeManifest := by
  have parser : edgeCodec.manifestFromJson = readManifestOf edgeManifest edgeManifestText := rfl
  refine ⟨_,edge_held (if_pos rfl),?_⟩
  rw [parser,readManifestOf,if_pos rfl]

theorem edge_structure : HasStructure edgeCodec (fun _ => False) edgeObjects 0 edgeUnit.1 edgeUnit.2 := by
  have parser : edgeCodec.fromSlice = readEdgeValue := rfl
  refine ⟨by decide,edgeText,edgeStructure,
    edge_held (by simp [edgeObjects,Restore.manifestName,edgeUnit]),?_,rfl⟩
  rw [parser,readEdgeValue,if_pos rfl]

theorem edge_document : HasStructure edgeCodec (fun _ => False) edgeObjects 0 RestoreConvergence.sampleUnit.1
    RestoreConvergence.sampleUnit.2 := by
  have parser : edgeCodec.fromSlice = readEdgeValue := rfl
  have apart : RestoreConvergence.structureText ≠ edgeText := by decide
  have held : edgeObjects ⟨0,"c.structure.json"⟩ = some RestoreConvergence.structureText := by
    rw [← RestoreConvergence.sampleObjects_structure]
    simp [edgeObjects,Restore.manifestName]
  refine ⟨by decide,_,RestoreConvergence.sampleStructure,edge_held held,?_,rfl⟩
  rw [parser,readEdgeValue,if_neg apart]
  exact RestoreConvergence.parseValue_structure

theorem edge_view : HasView edgeCodec (fun _ => False) edgeObjects 0
    {path := "v.view.json",kind := .view,format := .json,byteSize := 51,view := some "v"}
      RestoreConvergence.sampleView := by
  have parser : edgeCodec.fromSlice = readEdgeValue := rfl
  have apart : RestoreConvergence.viewText ≠ edgeText := by decide
  have held : edgeObjects ⟨0,"v.view.json"⟩ = some RestoreConvergence.viewText := by
    rw [← RestoreConvergence.sampleObjects_view]
    simp [edgeObjects,Restore.manifestName]
  refine ⟨_,RestoreConvergence.sampleDefinition,"v",edge_held held,?_,rfl,rfl⟩
  rw [parser,readEdgeValue,if_neg apart]
  exact RestoreConvergence.parseValue_view

theorem edge_grouped : groupByCollection edgeManifest =
    [edgeUnit,RestoreConvergence.sampleUnit].map Prod.fst := by decide

theorem edge_planned : Planned edgeCodec (fun _ => False) edgeObjects 0 edgePlan where
  manifest := edge_manifest
  valid := rfl
  units := by
    refine ⟨[edgeUnit,RestoreConvergence.sampleUnit],edge_grouped.symm,?_,rfl,rfl⟩
    intro unit member
    rcases List.mem_cons.mp member with rfl | later
    · exact edge_structure
    · rw [List.mem_singleton.mp later]
      exact edge_document
  views := .cons edge_view .nil

theorem edge_started : Started edgeCodec (fun _ => False) edgeObjects ladenOptions edgeManifest.fingerprint
    (.new edgeManifest.fingerprint) := by
  refine ⟨not_false,?_⟩
  simp [edgeObjects,RestoreConvergence.sampleObjects,bareCheckpoint]

theorem edge_runs : ∃ summary w', Runs (Answers edgeCodec (fun _ => False))
    (runRestoreWithProgress edgeCodec {database := "shop"} 0 ladenOptions false) ⟨edgeObjects,[]⟩
      (done summary) w' := by
  apply accepted_runs edge_planned edge_started
  intro unit member path listed
  rcases List.mem_cons.mp ((RestoreRefusal.mem_sortUnits _ _).mp member) with rfl | later
  · rw [List.mem_singleton.mp listed]
    exact ⟨not_false,edgeData,edgeData,by simp [edgeObjects,Restore.manifestName],rfl⟩
  · rw [List.mem_singleton.mp later] at listed
    rw [List.mem_singleton.mp listed]
    have held : edgeObjects ⟨0,"c.data.jsonl"⟩ = some RestoreConvergence.dataText := by
      rw [← RestoreConvergence.sampleObjects_data]
      simp [edgeObjects,Restore.manifestName]
    exact ⟨not_false,_,RestoreConvergence.dataText,held,rfl⟩

-- The edges come last although the dump lists them first.
theorem edges_restored_in_order :
    Ordered edgeManifest [edgeUnit,RestoreConvergence.sampleUnit]
      (sortUnits [edgeUnit,RestoreConvergence.sampleUnit]) ∧
    ∃ summary w', Runs (Answers edgeCodec (fun _ => False))
        (runRestoreWithProgress edgeCodec {database := "shop"} 0 ladenOptions false)
          ⟨edgeObjects,[]⟩ (done summary) w' ∧
      CreatesFirst ([RestoreConvergence.sampleUnit,edgeUnit].map
        (creation {database := "shop"} ladenOptions)) w'.log ∧
      LoadsInOrder {database := "shop"} ladenOptions [RestoreConvergence.sampleUnit,edgeUnit] w'.log ∧
      AllLoaded edgeCodec {database := "shop"} 0 ladenOptions edgeManifest
        [RestoreConvergence.sampleUnit,edgeUnit] w'.log := by
  obtain ⟨summary,w',runs⟩ := edge_runs
  have restored := @restored_in_order edgeCodec (fun _ => False)
      {database := "shop"} 0 ladenOptions edgeObjects false
  obtain ⟨-,-,-,run⟩ := restored.2 edgePlan _ edge_planned edge_started
  obtain ⟨created,order,all⟩ := run _ w' runs
  exact ⟨restored.1 edgeManifest _ edge_grouped.symm,summary,w',runs,created,order,all summary rfl⟩

end Sample

end Restoring
end ArangoDataTools.RestoreSchedule
