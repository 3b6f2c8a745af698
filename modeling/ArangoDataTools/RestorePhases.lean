import ArangoDataTools.RestoreReading

namespace ArangoDataTools.RestorePhases
open Interaction Interaction.Program Restore RestoreTrace RestoreReading

variable {codec : Codec} {broken : ObjectRef → Prop} {client : Client} {store : Nat}
  {options : RestoreOptions} {always : World → Prop}

def noted (options : RestoreOptions) (checkpoint : RestoreCheckpoint) (id : String) : RestoreCheckpoint :=
  match options.checkpoint with
  | none => checkpoint
  | some _ => {checkpoint with completed := checkpoint.completed ++ [id]}

section Loops

theorem triple_recording (checkpoint : RestoreCheckpoint) (id : String) {pre : World → Prop}
    {post : RestoreCheckpoint → World → Prop}
    (unsaved : ∀ w, pre w → options.checkpoint = none → post checkpoint w)
    (saved : ∀ w object left, pre w → options.checkpoint = some object →
      LeftBy codec (w.objects object) (codec.checkpointToJson (noted options checkpoint id)) left →
      post (noted options checkpoint id) (w.store object left))
    (kept : ∀ w, pre w → always w) (after : ∀ checkpoint w, post checkpoint w → always w) :
    Triple (Answers codec broken) pre (record codec options checkpoint id) post always always := by
  unfold record
  cases configured : options.checkpoint with
  | none => exact triple_done (fun w start => unsaved w start configured) kept
  | some object =>
    have next : noted options checkpoint id = {checkpoint with completed := checkpoint.completed ++ [id]} := by
      rw [noted,configured]
    rw [next] at saved
    have written : Triple (Answers codec broken) pre (ask (.putStream object (codec.checkpointToJson
        {checkpoint with completed := checkpoint.completed ++ [id]})))
        (fun _ => post {checkpoint with completed := checkpoint.completed ++ [id]}) always always := by
      apply triple_perform kept
      intro w answer w' start step
      cases step with
      | put =>
        have stored := saved w object _ start configured (.inr (.inl rfl))
        exact ⟨stored,after _ _ stored⟩
      | putFailed err left =>
        have stored := saved w object _ start configured left
        exact ⟨stored,after _ _ stored⟩
    apply triple_bind (triple_bind written fun _ => triple_done (fun _ holds => holds)
      fun _ holds => after _ _ holds)
    exact fun _ => triple_done (fun _ holds => holds) fun _ holds => after _ _ holds

theorem triple_createCollections {inv : List RestoreUnit → World → Prop}
    (checkpoint : RestoreCheckpoint) (units : List RestoreUnit)
    (skip : ∀ unit rest w, isDone options checkpoint (unitId unit.1) = true → inv (unit :: rest) w → inv rest w)
    (step : ∀ unit rest, isDone options checkpoint (unitId unit.1) = false →
      Triple (Answers codec broken) (inv (unit :: rest))
        ((targetClient client options unit.1.database).restoreCollection unit.2.parameters [] options.overwrite)
        (fun _ => inv rest) always always)
    (kept : ∀ w, inv [] w → always w) :
    Triple (Answers codec broken) (inv units) (createCollections client options checkpoint units)
      (fun _ => inv []) always always := by
  induction units with
  | nil => exact triple_done (fun _ start => start) kept
  | cons unit rest ih =>
    unfold createCollections
    by_cases recorded : isDone options checkpoint (unitId unit.1) = true
    · rw [if_pos recorded]
      exact triple_weaken ih (fun w start => skip unit rest w recorded start)
        (fun _ _ holds => holds) (fun _ holds => holds)
        fun _ holds => holds
    · rw [if_neg recorded]
      exact triple_bind (step unit rest (Bool.eq_false_iff.mpr recorded)) fun _ => ih

theorem triple_restoreView (view : ViewArtifact) {pre : World → Prop}
    (sent : ∀ w request accepted, pre w → request = .dropView view.name ∨
    request = .createView ((view.definition.remove "id").remove
      "globallyUniqueId") → pre
        (w.note (.sent (targetClient client options view.database).database request accepted))) :
    Triple (Answers codec broken) pre (restoreView client options view) (fun _ w => pre w ∧
      .sent (targetClient client options view.database).database
        (.createView ((view.definition.remove "id").remove "globallyUniqueId"))
        true ∈ w.log) pre pre := by
  let target := targetClient client options view.database
  have dropped : Triple (Answers codec broken) pre
      (if options.overwrite then target.dropView view.name else done ())
      (fun _ => pre) pre pre := by
    by_cases replacing : options.overwrite = true
    · rw [if_pos replacing]
      have sending := @triple_executeOn codec broken pre target target.database (.dropView view.name)
        fun w accepted start => sent w _ accepted start (.inl rfl)
      exact triple_tolerating 404 sending fun _ _ holds => holds.1
    · rw [if_neg replacing]
      exact triple_done (fun _ start => start) fun _ start => start
  have creating := @triple_executeOn codec broken pre target target.database
      (.createView ((view.definition.remove "id").remove
    "globallyUniqueId")) fun w accepted start => sent w _ accepted start (.inr rfl)
  apply triple_bind dropped
  intro _
  apply triple_bind (triple_attempt creating)
  intro result
  cases result with
  | ok value => exact triple_done (fun _ holds => holds) fun _ holds => holds.1
  | error err => exact triple_fail (fun _ start => start) fun _ start => start

theorem triple_restoreViews {inv : List ViewArtifact → RestoreCheckpoint → World → Prop}
    (views : List ViewArtifact)
    (checkpoint : RestoreCheckpoint) (restored : Nat)
    (skip : ∀ view rest checkpoint w, isDone options checkpoint (viewUnitId view) = true →
    inv (view :: rest) checkpoint w →
      inv rest checkpoint w)
    (step : ∀ view rest checkpoint, isDone options checkpoint (viewUnitId view) = false →
      Triple (Answers codec broken) (inv (view :: rest) checkpoint)
        ((restoreView client options view).bind fun _ => record codec options checkpoint
          (viewUnitId view)) (inv rest) always always)
    (kept : ∀ checkpoint w, inv [] checkpoint w → always w) :
    Triple (Answers codec broken) (inv views checkpoint)
      (restoreViews codec client options views checkpoint restored)
      (fun result => inv [] result.1) always always := by
  induction views generalizing checkpoint restored with
  | nil => exact triple_done (fun _ start => start) (kept checkpoint)
  | cons view rest ih =>
    unfold restoreViews
    by_cases recorded : isDone options checkpoint (viewUnitId view) = true
    · rw [if_pos recorded]
      exact triple_weaken (ih checkpoint restored) (fun w start => skip view rest checkpoint w recorded start)
        (fun _ _ holds => holds) (fun _ holds => holds) fun _ holds => holds
    · rw [if_neg recorded,← bind_assoc]
      exact triple_bind (step view rest checkpoint (Bool.eq_false_iff.mpr recorded)) fun next =>
        ih next (restored+1)

theorem triple_restoreParts {inv : List String → World → Prop} (manifest : Manifest) (name : String)
    (paths : List String)
    (step : ∀ path rest, Triple (Answers codec broken) (inv (path :: rest))
      ((readData codec store manifest path).bind fun body => client.restoreData name body)
        (fun _ => inv rest) always always)
    (kept : ∀ w, inv [] w → always w) :
    Triple (Answers codec broken) (inv paths) (restoreParts codec client store manifest name paths)
      (fun _ => inv []) always always := by
  induction paths with
  | nil => exact triple_done (fun _ start => start) kept
  | cons path rest ih =>
    unfold restoreParts
    rw [← bind_assoc]
    exact triple_bind (step path rest) fun _ => ih

theorem triple_createIndexes {inv : List Value → World → Prop} (name : String) (indexes : List Value)
    (skip : ∀ index rest w, isImplicit index = true → inv (index :: rest) w → inv rest w)
    (step : ∀ index rest, isImplicit index = false → Triple (Answers codec broken) (inv (index :: rest))
      (client.createIndex name index) (fun _ => inv rest) always always)
    (kept : ∀ w, inv [] w → always w) :
    Triple (Answers codec broken) (inv indexes) (createIndexes client name indexes)
      (fun _ => inv []) always always := by
  induction indexes with
  | nil => exact triple_done (fun _ start => start) kept
  | cons index rest ih =>
    unfold createIndexes
    by_cases implicit : isImplicit index = true
    · rw [if_pos implicit]
      exact triple_weaken ih (fun w start => skip index rest w implicit start)
        (fun _ _ holds => holds) (fun _ holds => holds)
        fun _ holds => holds
    · rw [if_neg implicit]
      exact triple_bind (step index rest (Bool.eq_false_iff.mpr implicit)) fun _ => ih

theorem triple_loadCollections {inv : List RestoreUnit → RestoreCheckpoint → World → Prop}
    (manifest : Manifest) (reporting : Bool)
    (units : List RestoreUnit) (checkpoint : RestoreCheckpoint) (summary : RestoreSummary)
    (skip : ∀ unit rest checkpoint w, isDone options checkpoint (unitId unit.1) = true →
    inv (unit :: rest) checkpoint w →
      inv rest checkpoint w)
    (step : ∀ unit rest checkpoint, isDone options checkpoint (unitId unit.1) = false →
      Triple (Answers codec broken) (inv (unit :: rest) checkpoint)
        ((loadCollectionData codec (targetClient client options unit.1.database) store manifest
          unit).bind fun _ =>
          record codec options checkpoint (unitId unit.1)) (inv rest) always always)
    (kept : ∀ units checkpoint w, inv units checkpoint w → always w) :
    Triple (Answers codec broken) (inv units checkpoint)
      (loadCollections codec client store options manifest reporting units checkpoint summary)
        (fun result => inv [] result.1)
      always always := by
  induction units generalizing checkpoint summary with
  | nil => exact triple_done (fun _ start => start) (kept [] checkpoint)
  | cons unit rest ih =>
    unfold loadCollections
    by_cases recorded : isDone options checkpoint (unitId unit.1) = true
    · rw [if_pos recorded]
      exact triple_weaken (ih checkpoint _)
        (fun w start => skip unit rest checkpoint w recorded start) (fun _ _ holds => holds)
        (fun _ holds => holds) fun _ holds => holds
    · simp only [if_neg recorded]
      rw [← bind_assoc]
      apply triple_bind (step unit rest checkpoint (Bool.eq_false_iff.mpr recorded))
      intro next
      have shown : ∀ snapshot : ProgressSnapshot, Triple (Answers codec broken) (inv rest next)
          (if reporting then emit (.progress snapshot) else done ())
            (fun _ => inv rest next) always always := by
        intro snapshot
        cases reporting with
        | true =>
          exact triple_weaken (triple_emit _) (fun _ start => start) (fun _ _ holds => holds)
            (kept rest next) (kept rest next)
        | false => exact triple_done (fun _ start => start) (kept rest next)
      exact triple_bind (shown _) fun _ => ih next _

end Loops

section Lasting

inductive Aimed (client : Client) (options : RestoreOptions) (plan : Plan) : String → Prop where
  | unit : unit ∈ plan.units → Aimed client options plan (targetClient client options unit.1.database).database
  | view : view ∈ plan.views → Aimed client options plan (targetClient client options view.database).database

structure Lasting (client : Client) (options : RestoreOptions) (plan : Plan) (kept : World → Prop) : Prop where
  read : ∀ w object bytes, kept w → kept (w.note (.read object bytes))
  stored : ∀ w object left, options.checkpoint = some object → kept w → kept (w.store object left)
  sent : ∀ w database request accepted, Aimed client options plan database →
    (∀ name, request ≠ .createDatabase name) → kept w →
    kept (w.note (.sent database request accepted))

variable {plan : Plan} {kept : World → Prop}

theorem lasting_execute (lasting : Lasting client options plan kept) {target : Client} {request : Request}
    (aimed : Aimed client options plan target.database) (other : ∀ name, request ≠ .createDatabase name) :
    Triple (Answers codec broken) kept (target.execute request) (fun _ => kept) kept kept := by
  have sending := @triple_executeOn codec broken kept target target.database request
    fun w accepted start => lasting.sent w _ request accepted aimed other start
  exact triple_weaken sending (fun _ start => start) (fun _ _ holds => holds.1)
    (fun _ start => start) fun _ start => start

theorem lasting_record (lasting : Lasting client options plan kept) (checkpoint : RestoreCheckpoint)
    (id : String) :
    Triple (Answers codec broken) kept (record codec options checkpoint id) (fun _ => kept) kept kept := by
  apply triple_recording
  · exact fun _ start _ => start
  · exact fun w object left start configured _ => lasting.stored w object left configured start
  · exact fun _ start => start
  · exact fun _ _ start => start

theorem lasting_views (lasting : Lasting client options plan kept) (views : List ViewArtifact)
    (known : ∀ view ∈ views, view ∈ plan.views)
    (checkpoint : RestoreCheckpoint) (restored : Nat) :
    Triple (Answers codec broken) kept (restoreViews codec client options views checkpoint restored)
      (fun _ => kept) kept kept := by
  let inv : List ViewArtifact → RestoreCheckpoint → World → Prop := fun rest _ w => kept w ∧
      ∀ view ∈ rest, view ∈ plan.views
  have loop : Triple (Answers codec broken) (inv views checkpoint)
      (restoreViews codec client options views checkpoint restored)
      (fun result => inv [] result.1) kept kept := by
    apply triple_restoreViews
    · exact fun view rest _ w _ holds =>
        ⟨holds.1,fun other member => holds.2 other (List.mem_cons_of_mem _ member)⟩
    · intro view rest reached _
      apply triple_assuming
      intro known
      have aimed : Aimed client options plan (targetClient client options view.database).database :=
        .view (known view List.mem_cons_self)
      have sent : ∀ w request accepted, kept w → request = .dropView view.name ∨
          request = .createView ((view.definition.remove
          "id").remove "globallyUniqueId") →
          kept (w.note (.sent (targetClient client options view.database).database request accepted)) := by
        intro w request accepted start either
        apply lasting.sent w _ request accepted aimed _ start
        rcases either with rfl | rfl <;> simp
      apply triple_bind (triple_restoreView view sent)
      intro _
      apply triple_weaken (lasting_record lasting reached (viewUnitId view))
        (fun _ holds => holds.1) _ (fun _ start => start)
        fun _ start => start
      exact fun _ _ start => ⟨start,fun other member => known other (List.mem_cons_of_mem _ member)⟩
    · exact fun _ _ holds => holds.1
  exact triple_weaken loop (fun _ start => ⟨start,known⟩) (fun _ _ holds => holds.1)
    (fun _ start => start) fun _ start => start

theorem lasting_data (lasting : Lasting client options plan kept) {unit : RestoreUnit}
    (member : unit ∈ plan.units) (manifest : Manifest) :
    Triple (Answers codec broken) kept
      (loadCollectionData codec (targetClient client options unit.1.database) store manifest unit)
        (fun _ => kept) kept kept := by
  let loading : List String → World → Prop := fun _ => kept
  have loaded : Triple (Answers codec broken) (loading unit.1.dataPaths)
      (restoreParts codec (targetClient client options unit.1.database) store manifest unit.1.name
        unit.1.dataPaths)
      (fun _ => loading []) kept kept := by
    apply triple_restoreParts
    · intro path rest
      have reading := @triple_readObject codec broken kept store path (compressionOf manifest path)
        fun w bytes _ start => lasting.read w _ bytes start
      apply triple_bind reading
      intro body
      exact triple_weaken (lasting_execute lasting (.unit member) (by simp))
        (fun _ holds => holds.1) (fun _ _ start => start)
        (fun _ start => start) fun _ start => start
    · exact fun _ start => start
  apply triple_bind loaded
  intro _
  let indexing : List Value → World → Prop := fun _ => kept
  have indexed : Triple (Answers codec broken) (indexing unit.2.indexes)
      (createIndexes (targetClient client options unit.1.database) unit.1.name unit.2.indexes)
        (fun _ => indexing []) kept kept := by
    apply triple_createIndexes
    · exact fun _ _ _ _ start => start
    · exact fun index rest _ => lasting_execute lasting (.unit member) (by simp)
    · exact fun _ start => start
  exact indexed

theorem triple_phases (lasting : Lasting client options plan kept) (reporting : Bool)
    (checkpoint : RestoreCheckpoint) :
    Triple (Answers codec broken) kept
      (restorePhases codec client store options reporting plan checkpoint) (fun _ => kept) kept kept := by
  let creating : List RestoreUnit → World → Prop := fun rest w => kept w ∧ ∀ unit ∈ rest, unit ∈ plan.units
  let loading : List RestoreUnit → RestoreCheckpoint → World → Prop := fun rest _ w => kept w ∧
      ∀ unit ∈ rest, unit ∈ plan.units
  have created : Triple (Answers codec broken) (creating plan.units)
      (createCollections client options checkpoint plan.units)
      (fun _ => creating []) kept kept := by
    apply triple_createCollections
    · exact fun unit rest w _ holds =>
        ⟨holds.1,fun other member => holds.2 other (List.mem_cons_of_mem _ member)⟩
    · intro unit rest _
      apply triple_assuming
      intro known
      apply triple_weaken (lasting_execute lasting (.unit (known unit List.mem_cons_self))
        (by simp)) (fun _ start => start) _
        (fun _ start => start) fun _ start => start
      exact fun _ _ start => ⟨start,fun other member => known other (List.mem_cons_of_mem _ member)⟩
    · exact fun _ holds => holds.1
  have loaded : ∀ (checkpoint : RestoreCheckpoint) (summary : RestoreSummary), Triple (Answers codec broken)
      (loading plan.units checkpoint)
      (loadCollections codec client store options plan.manifest reporting plan.units checkpoint
        summary) (fun result => loading [] result.1)
      kept kept := by
    intro checkpoint summary
    apply triple_loadCollections
    · exact fun unit rest _ w _ holds =>
        ⟨holds.1,fun other member => holds.2 other (List.mem_cons_of_mem _ member)⟩
    · intro unit rest reached _
      apply triple_assuming
      intro known
      apply triple_bind (lasting_data lasting (known unit List.mem_cons_self) plan.manifest)
      intro _
      apply triple_weaken (lasting_record lasting reached (unitId unit.1)) (fun _ start => start) _
        (fun _ start => start)
        fun _ start => start
      exact fun _ _ start => ⟨start,fun other member => known other (List.mem_cons_of_mem _ member)⟩
    · exact fun _ _ _ holds => holds.1
  apply triple_bind (triple_weaken created (fun _ start => ⟨start,fun _ member => member⟩)
    (fun _ _ holds => holds.1)
    (fun _ start => start) fun _ start => start)
  intro _
  apply triple_bind (lasting_views lasting (plan.views.filter fun view => !view.isSearchAlias)
    (fun _ member => List.mem_of_mem_filter member)
    checkpoint 0)
  intro linked
  apply triple_bind (triple_weaken (loaded linked.1 {collections := plan.units.length})
    (fun _ start => ⟨start,fun _ member => member⟩)
    (fun _ _ holds => holds.1) (fun _ start => start) fun _ start => start)
  intro result
  apply triple_bind (lasting_views lasting (plan.views.filter ViewArtifact.isSearchAlias)
    (fun _ member => List.mem_of_mem_filter member)
    result.1 linked.2)
  intro aliased
  exact triple_done (fun _ start => start) fun _ start => start

end Lasting

section Accepted
variable {w : World}

theorem record_run (checkpoint : RestoreCheckpoint) (id : String) :
    Runs (Answers codec broken) (record codec options checkpoint id) w
      (done (noted options checkpoint id)) w := by
  unfold record noted
  cases options.checkpoint with
  | none => exact .here _ _
  | some object =>
    have unsaved : w.store object (w.objects object) = w := by
      unfold World.store
      rw [Function.update_eq_self]
    have failed : Answers codec broken (.putStream object (codec.checkpointToJson
        {checkpoint with completed := checkpoint.completed ++ [id]})) w
          (.error (.storage "unavailable")) w := by
      have answer : Answers codec broken (.putStream object (codec.checkpointToJson
          {checkpoint with completed := checkpoint.completed ++ [id]})) w (.error (.storage "unavailable"))
          (w.store object (w.objects object)) := .putFailed (.storage "unavailable") (.inl rfl)
      rw [unsaved] at answer
      exact answer
    exact runs_then (runs_then (.call _ _ _ _ failed (.here _ _)) (.here _ _)) (.here _ _)

theorem createCollections_run (checkpoint : RestoreCheckpoint) (units : List RestoreUnit) (w : World) :
    ∃ w', w'.objects = w.objects ∧
    Runs (Answers codec broken) (createCollections client options checkpoint units) w (done ()) w' := by
  induction units generalizing w with
  | nil => exact ⟨w,rfl,.here _ _⟩
  | cons unit rest ih =>
    unfold createCollections
    by_cases recorded : isDone options checkpoint (unitId unit.1) = true
    · rw [if_pos recorded]
      exact ih w
    · rw [if_neg recorded]
      let target := targetClient client options unit.1.database
      have sent := @executeOn_accepted codec broken w target target.database
        (.restoreCollection unit.2.parameters [] options.overwrite) ()
      obtain ⟨w',same,runs⟩ := ih
          (w.note (.sent target.database (.restoreCollection unit.2.parameters [] options.overwrite) true))
      exact ⟨w',same,runs_then sent runs⟩

theorem restoreView_run (view : ViewArtifact) (w : World) :
    ∃ w', w'.objects = w.objects ∧ Runs (Answers codec broken) (restoreView client options view) w
      (done ()) w' := by
  let target := targetClient client options view.database
  have created : ∀ w, ∃ w', w'.objects = w.objects ∧
      Runs (Answers codec broken) (target.createView view.definition) w (done ()) w' := fun w =>
    ⟨w.note (.sent target.database
      (.createView ((view.definition.remove "id").remove "globallyUniqueId")) true),rfl,
      executeOn_accepted target target.database
        (.createView ((view.definition.remove "id").remove "globallyUniqueId")) ()⟩
  unfold restoreView
  by_cases replacing : options.overwrite = true
  · simp only [if_pos replacing]
    have sent := tolerating_accepted 404
        (@executeOn_accepted codec broken w target target.database (.dropView view.name) ())
    obtain ⟨w',same,runs⟩ := created (w.note (.sent target.database (.dropView view.name) true))
    exact ⟨w',same,runs_then sent (runs_then (attempt_runs runs) (.here _ _))⟩
  · simp only [if_neg replacing,done_bind]
    obtain ⟨w',same,runs⟩ := created w
    exact ⟨w',same,runs_then (attempt_runs runs) (.here _ _)⟩

def viewsNoted (options : RestoreOptions) : List ViewArtifact → RestoreCheckpoint → RestoreCheckpoint
  | [], checkpoint => checkpoint
  | view :: rest, checkpoint =>
    viewsNoted options rest (if isDone options checkpoint (viewUnitId view) then checkpoint
      else noted options checkpoint (viewUnitId view))

theorem restoreViews_run (views : List ViewArtifact) (checkpoint : RestoreCheckpoint)
    (restored : Nat) (w : World) :
    ∃ w' count, w'.objects = w.objects ∧
    Runs (Answers codec broken) (restoreViews codec client options views checkpoint restored) w
      (done (viewsNoted options views checkpoint,count)) w' := by
  induction views generalizing checkpoint restored w with
  | nil => exact ⟨w,restored,rfl,.here _ _⟩
  | cons view rest ih =>
    unfold restoreViews viewsNoted
    by_cases recorded : isDone options checkpoint (viewUnitId view) = true
    · rw [if_pos recorded,if_pos recorded]
      exact ih checkpoint restored w
    · rw [if_neg recorded,if_neg recorded]
      obtain ⟨middle,same,runs⟩ := @restoreView_run codec broken client options view w
      obtain ⟨w',count,same',more⟩ := ih (noted options checkpoint (viewUnitId view)) (restored+1) middle
      exact ⟨w',count,same'.trans same,
        runs_then runs (runs_then (record_run checkpoint (viewUnitId view)) more)⟩

theorem createIndexes_run (name : String) (indexes : List Value) (w : World) :
    ∃ w', w'.objects = w.objects ∧ Runs (Answers codec broken) (createIndexes client name indexes) w
      (done ()) w' := by
  induction indexes generalizing w with
  | nil => exact ⟨w,rfl,.here _ _⟩
  | cons index rest ih =>
    unfold createIndexes
    by_cases implicit : isImplicit index = true
    · rw [if_pos implicit]
      exact ih w
    · rw [if_neg implicit]
      have sent := @executeOn_accepted codec broken w client client.database (.createIndex name index) ()
      obtain ⟨w',same,runs⟩ := ih (w.note (.sent client.database (.createIndex name index) true))
      exact ⟨w',same,runs_then sent runs⟩

def DataReads (codec : Codec) (broken : ObjectRef → Prop) (objects : ObjectRef → Option Bytes)
    (store : Nat) (manifest : Manifest)
    (paths : List String) : Prop :=
  ∀ path ∈ paths, ¬ broken ⟨store,path⟩ ∧ ∃ bytes body, objects ⟨store,path⟩ = some bytes ∧
    codec.decode (compressionOf manifest path) bytes = .ok body

theorem restoreParts_run (manifest : Manifest) (name : String) (paths : List String) (w : World)
    (reads : DataReads codec broken w.objects store manifest paths) :
    ∃ w', w'.objects = w.objects ∧
    Runs (Answers codec broken) (restoreParts codec client store manifest name paths) w (done ()) w' := by
  induction paths generalizing w with
  | nil => exact ⟨w,rfl,.here _ _⟩
  | cons path rest ih =>
    obtain ⟨whole,bytes,body,present,decoded⟩ := reads path List.mem_cons_self
    have reading : Runs (Answers codec broken) (readData codec store manifest path) w (done body)
        (w.note (.read ⟨store,path⟩ bytes)) :=
      readObject_runs whole present decoded
    have sent := @executeOn_accepted codec broken
        (w.note (.read ⟨store,path⟩ bytes)) client client.database (.restoreData name body) ()
    obtain ⟨w',same,more⟩ := ih
        ((w.note (.read ⟨store,path⟩ bytes)).note (.sent client.database (.restoreData name body) true))
      fun other member => reads other (List.mem_cons_of_mem _ member)
    exact ⟨w',same,runs_then reading (runs_then sent more)⟩

theorem loadCollections_run (manifest : Manifest) (reporting : Bool) (units : List RestoreUnit)
    (checkpoint : RestoreCheckpoint)
    (summary : RestoreSummary) (w : World)
      (reads : ∀ unit ∈ units, DataReads codec broken w.objects store manifest unit.1.dataPaths) :
    ∃ w' result, w'.objects = w.objects ∧ Runs (Answers codec broken)
      (loadCollections codec client store options manifest reporting units checkpoint summary) w
        (done result) w' := by
  induction units generalizing checkpoint summary w with
  | nil => exact ⟨w,_,rfl,.here _ _⟩
  | cons unit rest ih =>
    have later : ∀ other ∈ rest, DataReads codec broken w.objects store manifest other.1.dataPaths :=
      fun other member => reads other (List.mem_cons_of_mem _ member)
    unfold loadCollections
    by_cases recorded : isDone options checkpoint (unitId unit.1) = true
    · rw [if_pos recorded]
      exact ih checkpoint _ w later
    · simp only [if_neg recorded]
      let target := targetClient client options unit.1.database
      obtain ⟨loaded,same,loading⟩ :=
        @restoreParts_run codec broken target store manifest unit.1.name unit.1.dataPaths w
        (reads unit List.mem_cons_self)
      obtain ⟨indexed,same',indexing⟩ :=
        @createIndexes_run codec broken target unit.1.name unit.2.indexes loaded
      have still : indexed.objects = w.objects := same'.trans same
      have recording := @record_run codec broken options indexed checkpoint (unitId unit.1)
      have shown : ∀ snapshot : ProgressSnapshot,
          Runs (Answers codec broken) (if reporting then emit (.progress snapshot)
            else done ()) indexed (done ()) indexed := by
        intro snapshot
        cases reporting with
        | true => exact .call _ _ _ _ .emit (.here _ _)
        | false => exact .here _ _
      obtain ⟨w',result,kept,more⟩ := ih (noted options checkpoint (unitId unit.1)) _ indexed (still ▸ later)
      exact ⟨w',result,kept.trans still,
        runs_then (runs_then loading indexing) (runs_then recording (runs_then (shown _) more))⟩

theorem restorePhases_run (plan : Plan) (reporting : Bool) (checkpoint : RestoreCheckpoint) (w : World)
    (reads : ∀ unit ∈ plan.units, DataReads codec broken w.objects store plan.manifest unit.1.dataPaths) :
    ∃ w' summary, Runs (Answers codec broken)
      (restorePhases codec client store options reporting plan checkpoint) w (done summary) w' := by
  obtain ⟨created,same,creating⟩ := @createCollections_run codec broken client options checkpoint plan.units w
  obtain ⟨viewed,count,same',viewing⟩ :=
    @restoreViews_run codec broken client options (plan.views.filter fun view => !view.isSearchAlias)
    checkpoint 0 created
  have still : viewed.objects = w.objects := same'.trans same
  obtain ⟨loaded,result,-,loading⟩ :=
    @loadCollections_run codec broken client store options plan.manifest reporting plan.units
    (viewsNoted options (plan.views.filter fun view => !view.isSearchAlias) checkpoint)
      {collections := plan.units.length} viewed
    (still ▸ reads)
  obtain ⟨w',total,-,aliasing⟩ :=
    @restoreViews_run codec broken client options (plan.views.filter ViewArtifact.isSearchAlias) result.1
    count loaded
  exact ⟨w',_,runs_then creating (runs_then viewing (runs_then loading (runs_then aliasing (.here _ _))))⟩

end Accepted
end ArangoDataTools.RestorePhases
