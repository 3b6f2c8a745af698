import ArangoDataTools.Dump
import ArangoDataTools.RestorePlan
import ArangoDataTools.RestorePhases
import ArangoDataTools.RestoreIdentity

namespace ArangoDataTools.RestoreIntegrity
open Interaction Interaction.Program Restore RestoreTrace RestoreReading RestorePhases

def lastRead (log : List Event) : Option (ObjectRef × Bytes) :=
  log.foldl (fun found event => match event with
    | .read object bytes => some (object,bytes)
    | .sent _ _ _ => found) none

@[simp] theorem lastRead_sent (log : List Event) (database : String) (request : Request) (accepted : Bool) :
    lastRead (log ++ [.sent database request accepted]) = lastRead log := by simp [lastRead]
@[simp] theorem lastRead_read (log : List Event) (object : ObjectRef) (bytes : Bytes) :
    lastRead (log ++ [.read object bytes]) = some (object,bytes) := by simp [lastRead]

theorem lastRead_last {log : List Event} {object : ObjectRef} {bytes : Bytes}
    (last : log.getLast? = some (.read object bytes)) :
    lastRead log = some (object,bytes) := by
  obtain ⟨earlier,rfl⟩ := List.getLast?_eq_some_iff.mp last
  exact lastRead_read earlier object bytes

section Content
variable (codec : Codec) (broken : ObjectRef → Prop) (objects : ObjectRef → Option Bytes)
  (store : Nat) (manifest : Manifest)

def Matches (artifact : Artifact) (bytes : Bytes) : Prop :=
  bytes.length = artifact.byteSize ∧ ∀ checksum, artifact.checksum = some checksum →
    checksum = ⟨"sha256",Dump.hex (codec.sha256 bytes)⟩

def Intact (artifact : Artifact) : Prop := ∃ bytes, objects ⟨store,artifact.path⟩ = some bytes ∧
    Matches codec artifact bytes

def AllIntact : Prop := ∀ artifact ∈ manifest.artifacts, artifact.kind = .data →
    Intact codec objects store artifact

def FromDump (collection : String) (read : Option (ObjectRef × Bytes)) (body : Bytes) : Prop :=
  ∃ artifact ∈ manifest.artifacts, ∃ bytes, artifact.kind = .data ∧ artifact.collection = some collection ∧
    read = some (⟨store,artifact.path⟩,bytes) ∧ Matches codec artifact bytes ∧
    ∃ entry ∈ manifest.artifacts, entry.path = artifact.path ∧ codec.decode entry.compression bytes = .ok body

def LoadedIntact (log : List Event) : Prop :=
  ∀ before after database collection body accepted,
    log = before ++ .sent database (.restoreData collection body) accepted :: after →
    FromDump codec store manifest collection (lastRead before) body

-- Every run from these objects loads data of the dump only, and where a part of it is damaged none ends well.
def LoadsOnlyTheDump (client : Client) (options : RestoreOptions) (reporting : Bool) : Prop :=
  ∀ manifest, HasManifest codec broken objects store manifest → ∀ q w',
    Runs (Answers codec broken) (runRestoreWithProgress codec client store options reporting)
      ⟨objects,[]⟩ q w' →
    LoadedIntact codec store manifest w'.log ∧
      (¬ AllIntact codec objects store manifest → ∀ summary, q ≠ done summary)

def pending (options : RestoreOptions) : List RestoreUnit → RestoreCheckpoint → List RestoreUnit
  | [], _ => []
  | unit :: rest, checkpoint =>
    if isDone options checkpoint (unitId unit.1) then pending options rest checkpoint
    else unit :: pending options rest (noted options checkpoint (unitId unit.1))

def parts (units : List RestoreUnit) : List (String × String) :=
  units.flatMap fun unit => unit.1.dataPaths.map fun path => (unit.1.name,path)

def Readable (path : String) : Prop :=
  ¬ broken ⟨store,path⟩ ∧ ∃ bytes body, objects ⟨store,path⟩ = some bytes ∧
    codec.decode (compressionOf manifest path) bytes = .ok body

def PartIntact (part : String × String) : Prop :=
  ∃ artifact ∈ manifest.artifacts, artifact.kind = .data ∧ artifact.collection = some part.1 ∧
    artifact.path = part.2 ∧
    Intact codec objects store artifact

-- Up to the first part that cannot be read every part is intact; and if all of
-- them can be read, so is everything the dump lists.
def Safe : List (String × String) → Prop
  | [] => AllIntact codec objects store manifest
  | part :: rest => Readable codec broken objects store manifest part.2 →
      PartIntact codec objects store manifest part ∧ Safe rest

def linked (plan : Plan) : List ViewArtifact := plan.views.filter fun view => !view.isSearchAlias

def SafeParts (options : RestoreOptions) : Prop :=
  ∀ plan checkpoint, Planned codec broken objects store plan →
    Started codec broken objects options plan.manifest.fingerprint checkpoint →
    Safe codec broken objects store plan.manifest
      (parts (pending options plan.units (viewsNoted options (linked plan) checkpoint)))

end Content

variable {codec : Codec} {broken : ObjectRef → Prop} {objects : ObjectRef → Option Bytes}
  {store : Nat} {manifest : Manifest}
variable {client : Client} {options : RestoreOptions} {reporting : Bool}

section Logs

theorem loaded_start : LoadedIntact codec store manifest [] := by
  intro before after _ _ _ _ split
  exact absurd split (by simp)

theorem loaded_append {log : List Event} {event : Event} (earlier : LoadedIntact codec store manifest log)
    (last : ∀ database collection body accepted,
    event = .sent database (.restoreData collection body) accepted →
      FromDump codec store manifest collection (lastRead log) body) :
      LoadedIntact codec store manifest (log ++ [event]) := by
  intro before after database collection body accepted split
  rcases List.eq_nil_or_concat after with rfl | ⟨rest,final,rfl⟩
  · obtain ⟨rfl,same⟩ := List.append_inj' split rfl
    exact last database collection body accepted (List.singleton_injective same)
  · rw [List.concat_eq_append,← List.cons_append,← List.append_assoc] at split
    obtain ⟨rfl,-⟩ := List.append_inj' split rfl
    exact earlier before rest database collection body accepted rfl

theorem loaded_other {log : List Event} {event : Event} (earlier : LoadedIntact codec store manifest log)
    (other : ∀ database collection body accepted,
    event ≠ .sent database (.restoreData collection body) accepted) :
    LoadedIntact codec store manifest (log ++ [event]) :=
  loaded_append earlier fun database collection body accepted same =>
    absurd same (other database collection body accepted)

end Logs

section Entries

theorem compressionOf_entry {path : String} (listed : ∃ artifact ∈ manifest.artifacts, artifact.path = path) :
    ∃ entry ∈ manifest.artifacts, entry.path = path ∧ compressionOf manifest path = entry.compression := by
  unfold compressionOf
  cases found : manifest.artifacts.find? fun artifact => artifact.path = path with
  | none =>
    obtain ⟨artifact,member,same⟩ := listed
    exact absurd same (by simpa using List.find?_eq_none.mp found artifact member)
  | some entry => exact ⟨entry,List.mem_of_find?_eq_some found,by simpa using List.find?_some found,rfl⟩

theorem part_fromDump {name path : String}
    (intact : PartIntact codec objects store manifest (name,path)) {bytes body : Bytes}
    (stored : objects ⟨store,path⟩ = some bytes)
      (decoded : codec.decode (compressionOf manifest path) bytes = .ok body) :
    FromDump codec store manifest name (some (⟨store,path⟩,bytes)) body := by
  obtain ⟨artifact,member,kind,named,rfl,other,held,fits⟩ := intact
  rw [stored] at held
  cases held
  obtain ⟨entry,listed,same,compression⟩ := compressionOf_entry ⟨artifact,member,rfl⟩
  rw [compression] at decoded
  exact ⟨artifact,member,bytes,kind,named,rfl,fits,entry,listed,same,decoded⟩

theorem fromDump_part {name path : String} {bytes body : Bytes} (stored : objects ⟨store,path⟩ = some bytes)
    (fromDump : FromDump codec store manifest name (some (⟨store,path⟩,bytes)) body) :
    PartIntact codec objects store manifest (name,path) := by
  obtain ⟨artifact,member,other,kind,named,read,fits,-⟩ := fromDump
  cases read
  exact ⟨artifact,member,kind,named,rfl,bytes,stored,fits⟩

theorem parts_cons (unit : RestoreUnit) (units : List RestoreUnit) :
    parts (unit :: units) = unit.1.dataPaths.map (fun path => (unit.1.name,path)) ++
      parts units := by simp [parts]

end Entries

section Keeping

structure Keeps (codec : Codec) (objects : ObjectRef → Option Bytes) (store : Nat)
    (manifest : Manifest) (options : RestoreOptions)
    (w : World) : Prop where
  same : ∀ object, options.checkpoint ≠ some object → w.objects object = objects object
  loaded : LoadedIntact codec store manifest w.log

theorem keeps_read {w : World} (keeps : Keeps codec objects store manifest options w)
    (object : ObjectRef) (bytes : Bytes) :
    Keeps codec objects store manifest options (w.note (.read object bytes)) :=
  ⟨keeps.same,loaded_other keeps.loaded (by simp)⟩

theorem keeps_sent {w : World} (keeps : Keeps codec objects store manifest options w)
    (database : String) {request : Request}
    (accepted : Bool) (other : ∀ collection body, request ≠ .restoreData collection body) :
    Keeps codec objects store manifest options (w.note (.sent database request accepted)) := by
  refine ⟨keeps.same,loaded_other keeps.loaded ?_⟩
  intro _ collection body _ same
  cases same
  exact other collection body rfl

theorem keeps_store {w : World} (keeps : Keeps codec objects store manifest options w) {object : ObjectRef}
    (configured : options.checkpoint = some object) (left : Option Bytes) :
    Keeps codec objects store manifest options (w.store object left) := by
  refine ⟨?_,keeps.loaded⟩
  intro other unlike
  have apart : other ≠ object := fun same => unlike (by rw [same,configured])
  rw [store_other w apart]
  exact keeps.same other unlike

theorem triple_keeps (client : Client) {request : Request}
    (other : ∀ collection body, request ≠ .restoreData collection body) :
    Triple (Answers codec broken) (Keeps codec objects store manifest options) (client.execute request)
      (fun _ => Keeps codec objects store manifest options) (Keeps codec objects store manifest options)
      (Keeps codec objects store manifest options) := by
  have sending := @triple_executeOn codec broken (Keeps codec objects store manifest options) client
      client.database request
    fun _ accepted keeps => keeps_sent keeps client.database accepted other
  exact triple_weaken sending (fun _ keeps => keeps) (fun _ _ holds => holds.1)
    (fun _ keeps => keeps) fun _ keeps => keeps

theorem triple_keeps_record (checkpoint : RestoreCheckpoint) (id : String) {fact : RestoreCheckpoint → Prop}
    (next : fact (noted options checkpoint id)) :
    Triple (Answers codec broken) (Keeps codec objects store manifest options)
      (record codec options checkpoint id)
      (fun checkpoint w => Keeps codec objects store manifest options w ∧ fact checkpoint)
      (Keeps codec objects store manifest options) (Keeps codec objects store manifest options) := by
  apply triple_recording
  · intro w keeps unconfigured
    rw [noted,unconfigured] at next
    exact ⟨keeps,next⟩
  · exact fun w object left keeps configured _ => ⟨keeps_store keeps configured left,next⟩
  · exact fun _ keeps => keeps
  · exact fun _ _ holds => holds.1

theorem triple_keeps_view (view : ViewArtifact) :
    Triple (Answers codec broken) (Keeps codec objects store manifest options) (restoreView client options view)
      (fun _ => Keeps codec objects store manifest options) (Keeps codec objects store manifest options)
      (Keeps codec objects store manifest options) := by
  have shown := @triple_restoreView codec broken client options view
      (Keeps codec objects store manifest options)
    fun w request accepted keeps either =>
      keeps_sent keeps _ accepted (by rcases either with rfl | rfl <;> simp)
  exact triple_weaken shown (fun _ keeps => keeps) (fun _ _ holds => holds.1) (fun _ keeps => keeps)
    fun _ keeps => keeps

theorem triple_keeps_views (views : List ViewArtifact) (checkpoint : RestoreCheckpoint) (restored : Nat) :
    Triple (Answers codec broken) (Keeps codec objects store manifest options)
      (restoreViews codec client options views checkpoint restored)
      (fun result w => Keeps codec objects store manifest options w ∧
      result.1 = viewsNoted options views checkpoint)
      (Keeps codec objects store manifest options) (Keeps codec objects store manifest options) := by
  let inv : List ViewArtifact → RestoreCheckpoint → World → Prop := fun rest reached w =>
    Keeps codec objects store manifest options w ∧ viewsNoted options rest reached =
      viewsNoted options views checkpoint
  have loop : Triple (Answers codec broken) (inv views checkpoint)
      (restoreViews codec client options views checkpoint restored)
      (fun result => inv [] result.1) (Keeps codec objects store manifest options)
        (Keeps codec objects store manifest options) := by
    apply triple_restoreViews
    · intro view rest reached w recorded holds
      refine ⟨holds.1,?_⟩
      rw [← holds.2,viewsNoted,if_pos recorded]
    · intro view rest reached pending
      apply triple_assuming
      intro ahead
      rw [viewsNoted,if_neg (by simp [pending])] at ahead
      exact triple_bind (triple_keeps_view view) fun _ => triple_keeps_record reached (viewUnitId view) ahead
    · exact fun _ _ holds => holds.1
  exact triple_weaken loop (fun _ keeps => ⟨keeps,rfl⟩) (fun _ _ holds => holds)
    (fun _ keeps => keeps) fun _ keeps => keeps

theorem triple_keeps_part {name path : String} {more : List (String × String)}
    (apart : options.checkpoint ≠ some ⟨store,path⟩)
    (safe : Safe codec broken objects store manifest ((name,path) :: more)) :
    Triple (Answers codec broken) (Keeps codec objects store manifest options)
      ((readData codec store manifest path).bind fun body => client.restoreData name body)
      (fun _ w => Keeps codec objects store manifest options w ∧ Safe codec broken objects store manifest more)
      (Keeps codec objects store manifest options) (Keeps codec objects store manifest options) := by
  let fetched : Bytes → World → Prop := fun body w => (Keeps codec objects store manifest options w ∧
    FromDump codec store manifest name (lastRead w.log) body) ∧ Safe codec broken objects store manifest more
  have reading : Triple (Answers codec broken) (Keeps codec objects store manifest options)
      (readData codec store manifest path)
      fetched (Keeps codec objects store manifest options) (Keeps codec objects store manifest options) := by
    have read := @triple_readObject codec broken (Keeps codec objects store manifest options) store path
      (compressionOf manifest path) fun w bytes _ keeps => keeps_read keeps ⟨store,path⟩ bytes
    apply triple_weaken read (fun _ keeps => keeps) _ (fun _ keeps => keeps) fun _ keeps => keeps
    intro body w holds
    obtain ⟨keeps,whole,bytes,present,last,decoded⟩ := holds
    rw [keeps.same _ apart] at present
    obtain ⟨intact,rest⟩ := safe ⟨whole,bytes,body,present,decoded⟩
    refine ⟨⟨keeps,?_⟩,rest⟩
    rw [lastRead_last last]
    exact part_fromDump intact present decoded
  apply triple_bind reading
  intro body
  apply triple_assuming
  intro rest
  have sending := @triple_executeOn codec broken (fun w => Keeps codec objects store manifest options w ∧
    FromDump codec store manifest name (lastRead w.log) body) client client.database (.restoreData name body)
    (by
      intro w accepted holds
      refine ⟨⟨holds.1.same,loaded_append holds.1.loaded ?_⟩,?_⟩
      · intro _ _ _ _ same
        cases same
        exact holds.2
      · rw [note_log,lastRead_sent]
        exact holds.2)
  exact triple_weaken sending (fun _ holds => holds) (fun _ _ holds => ⟨holds.1.1,rest⟩)
    (fun _ holds => holds.1)
    fun _ holds => holds.1

theorem triple_keeps_unit (target : Client) (unit : RestoreUnit) {more : List (String × String)}
    (apart : ∀ path ∈ unit.1.dataPaths, options.checkpoint ≠ some ⟨store,path⟩)
    (safe : Safe codec broken objects store manifest
      (unit.1.dataPaths.map (fun path => (unit.1.name,path)) ++ more)) :
    Triple (Answers codec broken) (Keeps codec objects store manifest options)
      (loadCollectionData codec target store manifest unit)
      (fun _ w => Keeps codec objects store manifest options w ∧ Safe codec broken objects store manifest more)
      (Keeps codec objects store manifest options) (Keeps codec objects store manifest options) := by
  let inv : List String → World → Prop := fun rest w => Keeps codec objects store manifest options w ∧
    ((∀ path ∈ rest, options.checkpoint ≠ some ⟨store,path⟩) ∧
      Safe codec broken objects store manifest (rest.map (fun path => (unit.1.name,path)) ++ more))
  have loaded : Triple (Answers codec broken) (inv unit.1.dataPaths)
      (restoreParts codec target store manifest unit.1.name unit.1.dataPaths) (fun _ => inv [])
      (Keeps codec objects store manifest options) (Keeps codec objects store manifest options) := by
    apply triple_restoreParts
    · intro path rest
      apply triple_assuming
      intro ahead
      have part := @triple_keeps_part codec broken objects store manifest target options unit.1.name path _
        (ahead.1 path List.mem_cons_self) ahead.2
      exact triple_weaken part (fun _ keeps => keeps)
        (fun _ _ holds => ⟨holds.1,fun other member => ahead.1 other (List.mem_cons_of_mem _ member),holds.2⟩)
        (fun _ keeps => keeps) fun _ keeps => keeps
    · exact fun _ holds => holds.1
  apply triple_bind (triple_weaken loaded (fun _ keeps => ⟨keeps,apart,safe⟩)
    (fun _ _ holds => holds) (fun _ keeps => keeps)
    fun _ keeps => keeps)
  intro _
  apply triple_assuming
  intro ahead
  let still : List Value → World → Prop := fun _ => Keeps codec objects store manifest options
  have indexed : Triple (Answers codec broken) (still unit.2.indexes)
      (createIndexes target unit.1.name unit.2.indexes)
      (fun _ => still []) (Keeps codec objects store manifest options)
        (Keeps codec objects store manifest options) := by
    apply triple_createIndexes
    · exact fun _ _ _ _ keeps => keeps
    · exact fun index rest _ => triple_keeps target (by simp)
    · exact fun _ keeps => keeps
  exact triple_weaken indexed (fun _ keeps => keeps) (fun _ _ keeps => ⟨keeps,ahead.2⟩)
    (fun _ keeps => keeps) fun _ keeps => keeps

theorem triple_keeps_collections (units : List RestoreUnit) (checkpoint : RestoreCheckpoint)
    (summary : RestoreSummary)
    (apart : ∀ unit ∈ units, ∀ path ∈ unit.1.dataPaths, options.checkpoint ≠ some ⟨store,path⟩)
    (safe : Safe codec broken objects store manifest (parts (pending options units checkpoint))) :
    Triple (Answers codec broken) (Keeps codec objects store manifest options)
      (loadCollections codec client store options manifest reporting units checkpoint summary)
      (fun _ w => Keeps codec objects store manifest options w ∧ AllIntact codec objects store manifest)
      (Keeps codec objects store manifest options) (Keeps codec objects store manifest options) := by
  let inv : List RestoreUnit → RestoreCheckpoint → World → Prop := fun rest reached w =>
    Keeps codec objects store manifest options w ∧
      ((∀ unit ∈ rest, ∀ path ∈ unit.1.dataPaths, options.checkpoint ≠ some ⟨store,path⟩) ∧
      Safe codec broken objects store manifest (parts (pending options rest reached)))
  have loop : Triple (Answers codec broken) (inv units checkpoint)
      (loadCollections codec client store options manifest reporting units checkpoint summary)
        (fun result => inv [] result.1)
      (Keeps codec objects store manifest options) (Keeps codec objects store manifest options) := by
    apply triple_loadCollections
    · intro unit rest reached w recorded holds
      refine ⟨holds.1,fun other member => holds.2.1 other (List.mem_cons_of_mem _ member),?_⟩
      have ahead := holds.2.2
      rw [pending,if_pos recorded] at ahead
      exact ahead
    · intro unit rest reached waiting
      apply triple_assuming
      intro ahead
      have safe := ahead.2
      rw [pending,if_neg (by simp [waiting]),parts_cons] at safe
      apply triple_bind (triple_keeps_unit _ unit (ahead.1 unit List.mem_cons_self) safe)
      intro _
      apply triple_assuming
      intro later
      exact triple_keeps_record reached (unitId unit.1)
        ⟨fun other member => ahead.1 other (List.mem_cons_of_mem _ member),later⟩
    · exact fun _ _ _ holds => holds.1
  exact triple_weaken loop (fun _ keeps => ⟨keeps,apart,safe⟩)
    (fun _ _ holds => ⟨holds.1,holds.2.2⟩) (fun _ keeps => keeps)
    fun _ keeps => keeps

end Keeping

section Breaking

def Breaks (codec : Codec) (broken : ObjectRef → Prop) (store : Nat) (manifest : Manifest)
    (p : Tool α) (w : World) : Prop :=
  ∃ q w', Runs (Answers codec broken) p w q w' ∧ ¬ LoadedIntact codec store manifest w'.log

theorem breaks_append {p : Tool α} {w : World} (breaks : Breaks codec broken store manifest p w)
    (f : α → Tool β) :
    Breaks codec broken store manifest (p.bind f) w := by
  obtain ⟨q,w',runs,foreign⟩ := breaks
  exact ⟨_,w',runs_append runs f,foreign⟩

theorem breaks_then {p : Tool α} {f : α → Tool β} {w middle : World} {value : α}
    (first : Runs (Answers codec broken) p w (done value) middle)
      (breaks : Breaks codec broken store manifest (f value) middle) :
    Breaks codec broken store manifest (p.bind f) w := by
  obtain ⟨q,w',runs,foreign⟩ := breaks
  exact ⟨q,w',runs_then first runs,foreign⟩

theorem part_run {name path : String} {more : List (String × String)}
    (risky : ¬ Safe codec broken objects store manifest ((name,path) :: more)) (w : World)
      (same : w.objects = objects) :
    ∃ w', w'.objects = objects ∧ Runs (Answers codec broken)
        ((readData codec store manifest path).bind fun body => client.restoreData name body) w (done ()) w' ∧
      (¬ LoadedIntact codec store manifest w'.log ∨ ¬ Safe codec broken objects store manifest more) := by
  have parts := Classical.not_imp.mp risky
  obtain ⟨⟨whole,bytes,body,stored,decoded⟩,either⟩ := parts
  have reading : Runs (Answers codec broken) (readData codec store manifest path) w (done body)
      (w.note (.read ⟨store,path⟩ bytes)) := readObject_runs whole (by rw [same]; exact stored) decoded
  have sending := @executeOn_accepted codec broken (w.note (.read ⟨store,path⟩ bytes)) client client.database
    (.restoreData name body) ()
  refine ⟨(w.note (.read ⟨store,path⟩ bytes)).note (.sent client.database (.restoreData name body) true),same,
    runs_then reading sending,?_⟩
  by_cases intact : PartIntact codec objects store manifest (name,path)
  · exact .inr fun safe => either ⟨intact,safe⟩
  · left
    intro loaded
    have sent := loaded (w.log ++ [.read ⟨store,path⟩ bytes]) [] client.database name body true rfl
    rw [lastRead_read] at sent
    exact intact (fromDump_part stored sent)

theorem parts_run (name : String) (paths : List String) {more : List (String × String)}
    (risky : ¬ Safe codec broken objects store manifest
      (paths.map (fun path => (name,path)) ++ more)) (w : World)
    (same : w.objects = objects) :
    Breaks codec broken store manifest (restoreParts codec client store manifest name paths) w ∨
      ∃ w', w'.objects = objects ∧
      Runs (Answers codec broken) (restoreParts codec client store manifest name paths) w (done ()) w' ∧
        ¬ Safe codec broken objects store manifest more := by
  induction paths generalizing w with
  | nil => exact .inr ⟨w,same,.here _ _,risky⟩
  | cons path rest ih =>
    obtain ⟨middle,kept,runs,outcome⟩ :=
      @part_run codec broken objects store manifest client name path _ risky w same
    unfold restoreParts
    rw [← bind_assoc]
    rcases outcome with foreign | ahead
    · exact .inl (breaks_append ⟨_,middle,runs,foreign⟩ _)
    · rcases ih ahead middle kept with breaks | ⟨w',still,later,last⟩
      · exact .inl (breaks_then runs breaks)
      · exact .inr ⟨w',still,runs_then runs later,last⟩

theorem unit_run (target : Client) (unit : RestoreUnit) {more : List (String × String)}
    (risky : ¬ Safe codec broken objects store manifest
      (unit.1.dataPaths.map (fun path => (unit.1.name,path)) ++ more))
    (w : World) (same : w.objects = objects) :
    Breaks codec broken store manifest (loadCollectionData codec target store manifest unit) w ∨
      ∃ w', w'.objects = objects ∧
      Runs (Answers codec broken) (loadCollectionData codec target store manifest unit) w (done ()) w' ∧
        ¬ Safe codec broken objects store manifest more := by
  rcases @parts_run codec broken objects store manifest target unit.1.name unit.1.dataPaths more
    risky w same with
    breaks | ⟨middle,kept,loading,last⟩
  · exact .inl (breaks_append breaks _)
  · obtain ⟨w',still,indexing⟩ := @createIndexes_run codec broken target unit.1.name unit.2.indexes middle
    exact .inr ⟨w',still.trans kept,runs_then loading indexing,last⟩

theorem collections_run (units : List RestoreUnit) (checkpoint : RestoreCheckpoint) (summary : RestoreSummary)
    (risky : ¬ Safe codec broken objects store manifest (parts (pending options units checkpoint))) (w : World)
    (same : w.objects = objects) :
    Breaks codec broken store manifest
      (loadCollections codec client store options manifest reporting units checkpoint summary) w ∨
      ∃ w' result, w'.objects = objects ∧ Runs (Answers codec broken)
          (loadCollections codec client store options manifest reporting units checkpoint summary) w
            (done result) w' ∧
        ¬ AllIntact codec objects store manifest := by
  induction units generalizing checkpoint summary w with
  | nil => exact .inr ⟨w,_,same,.here _ _,risky⟩
  | cons unit rest ih =>
    unfold loadCollections
    rw [pending] at risky
    by_cases recorded : isDone options checkpoint (unitId unit.1) = true
    · rw [if_pos recorded] at risky
      rw [if_pos recorded]
      exact ih checkpoint _ risky w same
    · rw [if_neg recorded,parts_cons] at risky
      simp only [if_neg recorded]
      rcases unit_run (targetClient client options unit.1.database) unit risky w same
        with breaks | ⟨middle,kept,loading,ahead⟩
      · exact .inl (breaks_append breaks _)
      · have shown : ∀ snapshot : ProgressSnapshot,
            Runs (Answers codec broken) (if reporting then emit (.progress snapshot)
              else done ()) middle (done ()) middle := by
          intro snapshot
          cases reporting with
          | true => exact .call _ _ _ _ .emit (.here _ _)
          | false => exact .here _ _
        have recording := @record_run codec broken options middle checkpoint (unitId unit.1)
        rcases ih (noted options checkpoint (unitId unit.1)) _ ahead middle kept
          with breaks | ⟨w',result,still,later,last⟩
        · exact .inl (breaks_then loading (breaks_then recording (breaks_then (shown _) breaks)))
        · exact .inr ⟨w',result,still,runs_then loading (runs_then recording (runs_then (shown _) later)),last⟩

theorem phases_run (plan : Plan) (checkpoint : RestoreCheckpoint)
    (risky : ¬ Safe codec broken objects store plan.manifest
      (parts (pending options plan.units (viewsNoted options (linked plan) checkpoint))))
        (w : World) (same : w.objects = objects) :
    Breaks codec broken store plan.manifest
      (restorePhases codec client store options reporting plan checkpoint) w ∨
      ∃ w' summary, Runs (Answers codec broken)
        (restorePhases codec client store options reporting plan checkpoint) w (done summary) w' ∧
        ¬ AllIntact codec objects store plan.manifest := by
  obtain ⟨created,kept,creating⟩ := @createCollections_run codec broken client options checkpoint plan.units w
  obtain ⟨viewed,count,kept',viewing⟩ :=
    @restoreViews_run codec broken client options (linked plan) checkpoint 0 created
  have still : viewed.objects = objects := (kept'.trans kept).trans same
  unfold restorePhases
  rcases @collections_run codec broken objects store plan.manifest client options reporting plan.units
      (viewsNoted options (linked plan) checkpoint) {collections := plan.units.length} risky viewed still with
    breaks | ⟨loaded,result,kept'',loading,last⟩
  · exact .inl (breaks_then creating (breaks_then viewing (breaks_append breaks _)))
  · obtain ⟨w',total,-,aliasing⟩ :=
      @restoreViews_run codec broken client options (plan.views.filter ViewArtifact.isSearchAlias)
      result.1 count loaded
    exact .inr ⟨w',_,runs_then creating
      (runs_then viewing (runs_then loading (runs_then aliasing (.here _ _)))),last⟩

end Breaking

section Restoring

-- The checkpoint object is none of the dump's.
def CheckpointApart (codec : Codec) (broken : ObjectRef → Prop) (objects : ObjectRef → Option Bytes)
    (store : Nat)
    (options : RestoreOptions) : Prop :=
  ∀ manifest, HasManifest codec broken objects store manifest → ∀ path ∈ RestorePlan.dumpPaths manifest,
    options.checkpoint ≠ some ⟨store,path⟩

theorem planned_paths {plan : Plan} (planned : Planned codec broken objects store plan) {unit : RestoreUnit}
    (member : unit ∈ plan.units) : ∀ path ∈ unit.1.dataPaths, path ∈ RestorePlan.dumpPaths plan.manifest := by
  obtain ⟨units,grouped,-,sorted,-⟩ := planned.units
  have listed : unit ∈ units := by
    rw [sorted] at member
    exact (List.perm_insertionSort _ units).mem_iff.mp member
  have group : unit.1 ∈ groupByCollection plan.manifest := by
    rw [← grouped]
    exact List.mem_map.mpr ⟨unit,listed,rfl⟩
  exact (RestorePlan.group_listed group).2

theorem restore_keeps (apart : CheckpointApart codec broken objects store options)
    (safe : SafeParts codec broken objects store options)
      (named : HasManifest codec broken objects store manifest) :
    Triple (Answers codec broken) (fun w => w.objects = objects ∧ LoadedIntact codec store manifest w.log)
      (runRestoreWithProgress codec client store options reporting)
      (fun _ w => Keeps codec objects store manifest options w ∧ AllIntact codec objects store manifest)
      (Keeps codec objects store manifest options) (Keeps codec objects store manifest options) := by
  let start : World → Prop := fun w => w.objects = objects ∧ LoadedIntact codec store manifest w.log
  have keeps : ∀ w, start w → Keeps codec objects store manifest options w := by
    intro w holds
    exact ⟨fun object _ => congrFun holds.1 object,holds.2⟩
  have still : ∀ w, start w → w.objects = objects := fun _ holds => holds.1
  have read : ∀ w object bytes, start w → start (w.note (.read object bytes)) :=
    fun _ _ _ holds => ⟨holds.1,loaded_other holds.2 (by simp)⟩
  have created : ∀ w name accepted, start w →
      start (w.note (.sent "_system" (.createDatabase name) accepted)) :=
    fun _ _ _ holds => ⟨holds.1,loaded_other holds.2 (by simp)⟩
  apply triple_bind (triple_weaken (triple_readPlan still read) (fun _ holds => holds)
    (fun _ _ holds => holds) keeps keeps)
  intro plan
  apply triple_assuming
  intro planned
  have same := manifest_unique planned.manifest named
  apply triple_bind (triple_weaken (triple_prepareDatabases created plan) (fun _ holds => holds)
    (fun _ _ holds => holds) keeps keeps)
  intro _
  apply triple_bind (triple_weaken (triple_initialCheckpoint still read plan.manifest.fingerprint)
    (fun _ holds => holds)
    (fun _ _ holds => holds) keeps keeps)
  intro checkpoint
  apply triple_assuming
  intro started
  have ahead := safe plan checkpoint planned started
  rw [same] at ahead
  have paths : ∀ unit ∈ plan.units, ∀ path ∈ unit.1.dataPaths, options.checkpoint ≠ some ⟨store,path⟩ :=
    fun unit member path listed => apart plan.manifest planned.manifest path
      (planned_paths planned member path listed)
  unfold restorePhases
  let creating : List RestoreUnit → World → Prop := fun _ => Keeps codec objects store manifest options
  have collections : Triple (Answers codec broken) (creating plan.units)
      (createCollections client options checkpoint plan.units)
      (fun _ => creating []) (Keeps codec objects store manifest options)
        (Keeps codec objects store manifest options) := by
    apply triple_createCollections
    · exact fun _ _ _ _ holds => holds
    · exact fun unit rest _ => triple_keeps _ (by simp)
    · exact fun _ holds => holds
  apply triple_bind (triple_weaken collections keeps (fun _ _ holds => holds) (fun _ holds => holds)
    fun _ holds => holds)
  intro _
  apply triple_bind (triple_keeps_views (linked plan) checkpoint 0)
  intro viewed
  apply triple_assuming
  intro reached
  rw [← reached] at ahead
  rw [same]
  apply triple_bind (triple_keeps_collections plan.units viewed.1
    {collections := plan.units.length} paths ahead)
  intro result
  apply triple_assuming
  intro intact
  apply triple_bind (triple_keeps_views (plan.views.filter ViewArtifact.isSearchAlias) result.1 viewed.2)
  intro aliased
  exact triple_done (fun _ holds => ⟨holds.1,intact⟩) fun _ holds => holds.1

theorem restore_breaks {plan : Plan} {checkpoint : RestoreCheckpoint}
    (planned : Planned codec broken objects store plan)
    (started : Started codec broken objects options plan.manifest.fingerprint checkpoint)
    (risky : ¬ Safe codec broken objects store plan.manifest
      (parts (pending options plan.units (viewsNoted options (linked plan) checkpoint)))) :
    ¬ LoadsOnlyTheDump codec broken objects store client options reporting := by
  intro promised
  obtain ⟨read,same,reading⟩ := planned_runs (w:=⟨objects,[]⟩) planned
  obtain ⟨prepared,same',preparing,-,-⟩ := @prepareDatabases_run codec broken client options plan read
  have still : prepared.objects = objects := same'.trans same
  rw [← still] at started
  obtain ⟨ready,same'',starting⟩ := started_runs started
  rcases @phases_run codec broken objects store client options reporting plan checkpoint risky ready
    (same''.trans still) with
    breaks | ⟨w',summary,runs,last⟩
  · have whole : Breaks codec broken store plan.manifest
        (runRestoreWithProgress codec client store options reporting) ⟨objects,[]⟩ :=
      breaks_then reading (breaks_then preparing (breaks_then starting breaks))
    obtain ⟨q,w',runs,foreign⟩ := whole
    exact foreign (promised plan.manifest planned.manifest q w' runs).1
  · have whole : Runs (Answers codec broken)
        (runRestoreWithProgress codec client store options reporting) ⟨objects,[]⟩
        (done summary) w' := runs_then reading (runs_then preparing (runs_then starting runs))
    exact (promised plan.manifest planned.manifest _ w' whole).2 last summary rfl

theorem restore_loads_only_the_dump_iff :
    (LoadsOnlyTheDump codec broken objects store client options reporting →
    SafeParts codec broken objects store options) ∧
    (CheckpointApart codec broken objects store options → SafeParts codec broken objects store options →
      LoadsOnlyTheDump codec broken objects store client options reporting) := by
  constructor
  · intro promised plan checkpoint planned started
    by_contra risky
    exact restore_breaks planned started risky promised
  · intro apart safe manifest named q w' runs
    have triple := @restore_keeps codec broken objects store manifest client options reporting apart safe named
    have start : (⟨objects,[]⟩ : World).objects = objects ∧ LoadedIntact codec store manifest [] :=
      ⟨rfl,loaded_start⟩
    refine ⟨(triple.everywhere _ q w' start runs).loaded,?_⟩
    intro spoilt summary ended
    rw [ended] at runs
    exact spoilt (triple.returns _ summary w' start runs).2

-- The second of the two lines of the data file is gone.
theorem truncated_data_loaded :
    HasManifest RestoreIdentity.laterCodec (fun _ => False)
      (RestoreIdentity.laterObjects DumpRestore.firstText) 0
      RestoreIdentity.laterManifest ∧
    ¬ LoadsOnlyTheDump RestoreIdentity.laterCodec (fun _ => False)
      (RestoreIdentity.laterObjects DumpRestore.firstText) 0
      {database := "shop"} {} false := by
  refine ⟨RestoreIdentity.later_manifest,?_⟩
  have stored : RestoreIdentity.laterObjects DumpRestore.firstText ⟨0,"c.data.jsonl"⟩ =
      some DumpRestore.firstText := by
    simp [RestoreIdentity.laterObjects,Restore.manifestName]
  have started : Started RestoreIdentity.laterCodec (fun _ => False)
      (RestoreIdentity.laterObjects DumpRestore.firstText) {}
      RestoreIdentity.laterManifest.fingerprint (.new RestoreIdentity.laterManifest.fingerprint) := rfl
  apply restore_breaks RestoreIdentity.later_planned started
  intro safe
  obtain ⟨⟨artifact,member,kind,-,path,bytes,held,size,-⟩,-⟩ :=
    safe ⟨not_false,DumpRestore.firstText,_,stored,rfl⟩
  have listed : artifact.byteSize = 68 := by
    simp only [RestoreIdentity.laterManifest,DumpRestore.sampleManifest,List.mem_cons,
      List.not_mem_nil,or_false] at member
    rcases member with rfl | rfl | rfl
    · cases kind
    · rfl
    · cases kind
  have short : DumpRestore.firstText.length = 34 := by
    rw [DumpRestore.firstText,asciiBytes_length]
    decide
  have located : RestoreIdentity.laterObjects DumpRestore.firstText ⟨0,artifact.path⟩ =
      some DumpRestore.firstText := by
    rw [path]
    exact stored
  rw [located] at held
  cases held
  omega

end Restoring
end ArangoDataTools.RestoreIntegrity
