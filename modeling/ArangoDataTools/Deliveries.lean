import ArangoDataTools.ImportParty
import ArangoDataTools.RetryRules

namespace ArangoDataTools.ImportPipeline
open Interaction Interaction.Program Tally

def Returning {α Q : Type} (post : α → Q → Prop) (outcome : Except Error α) (q : Q) : Prop :=
  ∀ value, outcome = .ok value → post value q

section Posts

def told : (op : Op) → op.Answer → Option ImportResult
  | .send _ (.importDocuments _ _),.ok result => some result
  | _,_ => none

def posting (options : ImportOptions) (body : Bytes) : Protocol Op Op.Answer (Option ImportResult) :=
  {permits := fun _ op => (∃ counter, op = .count counter) ∨ ∃ database,
    op = .send database (.importDocuments options body)
   advance := fun last op answer => (told op answer).or last}

abbrev Reports : Except Error ImportResult → Option ImportResult → Prop :=
  Returning fun result last => last = some result

theorem send_posting (sender : ArangoBatchSender) (batch : Batch) :
    Follows (posting sender.options batch.body) Reports (sender.send batch) none := by
  have unasked : ∀ (err : Error) last, Reports (.error err) last := fun _ _ value same => by cases same
  have counts : ∀ counter last,
      Follows (posting sender.options batch.body) (Unbroken Reports (fun _ => True) last)
        (ask (.count counter)) last :=
    fun counter last => ⟨.inl ⟨counter,rfl⟩,fun _ => ⟨rfl,fun err _ => unasked err _,id⟩⟩
  have tries : ∀ last, True → Follows (posting sender.options batch.body) (Tried Reports fun _ => True)
      (ask (.send sender.client.database (.importDocuments sender.options batch.body))) last := by
    refine fun last _ => ⟨.inr ⟨_,rfl⟩,fun answer => ?_⟩
    cases answer with
    | ok result =>
      intro value same
      cases same
      rfl
    | error err => exact ⟨unasked err _,fun _ => trivial⟩
  have request : ∀ last, Follows (posting sender.options batch.body) Reports
      (sender.client.importDocuments sender.options batch.body) last := by
    intro last
    unfold Client.importDocuments
    split
    · exact unasked _ last
    · exact follows_retry counts _ tries last trivial
  have attempted : Follows (posting sender.options batch.body) (Returning Reports)
      (attempt (sender.client.importDocuments sender.options batch.body)) none :=
    follows_attempt (follows_mono
      (fun outcome last reports value same => by cases same; exact reports) (request none))
  unfold ArangoBatchSender.send
  refine follows_seq attempted (fun outcome last ensured => ?_) (fun err last _ value same => by cases same)
  cases outcome with
  | ok result => exact ensured _ rfl
  | error err => exact unasked _ last

end Posts

section Arrivals
variable {W : Type} {run : ImportRun Op Op.Answer W} {s s' : RunState run} {options : ImportOptions}
  {holds : W → Prop}
  {landed : W → Batch → ImportResult → Prop} {start : W}

-- A send that posts its batch until it is answered, to a server on which posts keep `holds`;
-- what an accepted one brings about lasts.
structure Accepts (run : ImportRun Op Op.Answer W) (options : ImportOptions) (holds : W → Prop)
    (landed : W → Batch → ImportResult → Prop) :
    Prop where
  posts : ∀ batch, Follows (posting options batch.body) Reports (run.send batch) none
  keeps : ∀ sent ∈ run.batches, ∀ last op w answer w', (posting options sent.body).permits last op →
    run.answers op w answer w' →
    holds w → holds w'
  lands : ∀ batch ∈ run.batches, ∀ database w result w',
    run.answers (.send database (.importDocuments options batch.body)) w (.ok result) w' →
    holds w → landed w' batch result
  lasts : ∀ sent ∈ run.batches, ∀ last op w answer w', (posting options sent.body).permits last op →
    run.answers op w answer w' →
    holds w → ∀ batch result, landed w batch result → landed w' batch result

def Phase.Posts (options : ImportOptions) (landed : Batch → ImportResult → Prop) : Phase Op Op.Answer → Prop
  | sending held program => ∃ last, Follows (posting options held.batch.body) Reports program last ∧
      ∀ result, last = some result → landed held.batch result
  | _ => True

structure Arrivals (options : ImportOptions) (holds : W → Prop)
    (landed : W → Batch → ImportResult → Prop) (s : RunState run) : Prop where
  world : holds s.world
  workers : ∀ i, (s.workers i).phase.Posts options (landed s.world)
  answered : ∀ answer ∈ acknowledged s.answered, landed s.world answer.1 answer.2

theorem posts_mono {phase : Phase Op Op.Answer} {landed landed' : Batch → ImportResult → Prop}
    (lasts : ∀ batch result, landed batch result → landed' batch result)
      (posts : phase.Posts options landed) : phase.Posts options landed' := by
  cases phase with
  | sending held program =>
    obtain ⟨last,follows,lands⟩ := posts
    exact ⟨last,follows,fun result same => lasts _ _ (lands result same)⟩
  | _ => trivial

theorem told_accepted (accepts : Accepts run options holds landed) {batch : Batch}
    (present : batch ∈ run.batches) {last : Option ImportResult}
    {op : Op} {w w' : W} {answer : op.Answer}
      (permitted : (posting options batch.body).permits last op) (answered : run.answers op w answer w')
    (before : holds w) {result : ImportResult} (news : told op answer = some result) :
      landed w' batch result := by
  rcases permitted with ⟨counter,rfl⟩ | ⟨database,rfl⟩
  · cases news
  · cases answer with
    | ok value =>
      cases news
      exact accepts.lands batch present _ _ _ _ answered before
    | error err => cases news

theorem opening_arrivals (begins : holds start) (now : Nat) :
    Arrivals options holds landed (opening run start now) :=
  ⟨begins,fun _ => trivial,fun answer present => by cases present⟩

theorem reachable_blur (reachable : Reachable run s) : Reachable run.blurred s.blur := by
  obtain ⟨start,now,opened,started,path⟩ := reachable
  induction path with
  | refl => exact started_blur started
  | @tail middle _ _ moved ih => exact moved_blur (w:=middle.world) ih moved

def Posted (run : ImportRun Op Op.Answer W) (options : ImportOptions) (w w' : W) : Prop :=
  ∃ batch ∈ run.batches, ∃ last op answer, (posting options batch.body).permits last op ∧
    run.answers op w answer w'

theorem step_arrivals (accepts : Accepts run options holds landed)
    (reachable : Reachable run.blurred s.blur) (step : Step run s s')
    (arrivals : Arrivals options holds landed s) :
    Arrivals options holds landed s' ∧ (s'.world = s.world ∨ Posted run options s.world s'.world) := by
  obtain ⟨world_,workers,answers⟩ := arrivals
  have same : ∀ {i old} {new : Worker Op Op.Answer}, s.workers i = old →
      (old.phase.Posts options (landed s.world) → new.phase.Posts options (landed s.world)) →
      ∀ j, (Function.update s.workers i new j).phase.Posts options (landed s.world) := fun held keeps =>
    forall_update (fun w : Worker Op Op.Answer => w.phase.Posts options (landed s.world)) held keeps workers
  have at_ : ∀ {i old}, s.workers i = old → old.phase.Posts options (landed s.world) :=
    fun held => held ▸ workers _
  cases step with
  | skip | take | finish | acquire | push | giveUp | closeReceiver | checkpoint | finally_ =>
      exact ⟨⟨world_,workers,answers⟩,.inl rfl⟩
  | lock held _ | receive held _ | leave held _ _ | register held | wait held _ | wake held _ | record _ _ held
  | succeed held | die held | report held _ _ | unheard held _ | join _ held | joinFailed _ held =>
    exact ⟨⟨world_,same held fun _ => trivial,answers⟩,.inl rfl⟩
  | enter held room =>
    exact ⟨⟨world_,same held fun _ => ⟨none,accepts.posts _,fun result absurd_ => by cases absurd_⟩,
      answers⟩,.inl rfl⟩
  | @call op answer world _ i taken next summary held answered =>
    obtain ⟨last,⟨permitted,later⟩,lands⟩ := at_ held
    have present : taken.batch ∈ run.batches := @sending_wanted _ _ _ run.blurred s.blur _ _ _ _ reachable held
    have lasts := accepts.lasts _ present last op _ answer _ permitted answered world_
    refine ⟨⟨accepts.keeps _ present last op _ answer _ permitted answered world_,?_,
      fun answer present => lasts _ _ (answers answer present)⟩,
      .inr ⟨_,present,last,op,answer,permitted,answered⟩⟩
    refine forall_update (fun w : Worker Op Op.Answer => w.phase.Posts options (landed world)) held
      (fun _ => ⟨_,later answer,fun result news => ?_⟩) fun j => posts_mono lasts (workers j)
    rcases Option.or_eq_some_iff.mp news with fresh | ⟨-,before⟩
    · exact told_accepted accepts present permitted answered world_ fresh
    · exact lasts _ _ (lands result before)
  | @answer _ _ _ outcome _ held =>
    refine ⟨⟨world_,same held fun _ => trivial,fun answer present => ?_⟩,.inl rfl⟩
    obtain ⟨last,reports,lands⟩ := at_ held
    cases outcome with
    | ok result =>
      rw [acknowledged_ok] at present
      rcases List.mem_append.mp present with earlier | here
      · exact answers answer earlier
      · cases List.mem_singleton.mp here
        exact lands result (reports result rfl)
    | error err =>
      rw [acknowledged_error] at present
      exact answers answer present

theorem reached_arrivals (accepts : Accepts run options holds landed) (begins : holds start)
    (reached : ReachedFrom run start s) :
    Arrivals options holds landed s := by
  obtain ⟨now,opened,started,path⟩ := reached
  induction path with
  | refl =>
    obtain ⟨-,-,rfl⟩ := runImportWithCheckpoint_inv started
    exact opening_arrivals begins now
  | tail before moved ih =>
      exact (step_arrivals accepts (reachable_blur ⟨start,now,opened,started,before⟩) moved ih).1

end Arrivals

section Collection
variable {W : Type} {run : ImportRun Op Op.Answer W} {s : RunState run} {options : ImportOptions}
  {document : W → String → Option Value}
  {decode : Bytes → List Value} {key : Value → String} {line : Value → Bytes}
    {values more : List Value} {start w w' : W}

-- What is known of the server that holds the collection: an import request may take any part of
-- its documents, as they are where there was none or the same one, and leaves the others alone;
-- where it counts no error, every document of the request has its place.
structure Stocks (run : ImportRun Op Op.Answer W) (options : ImportOptions)
    (document : W → String → Option Value)
    (decode : Bytes → List Value) (key : Value → String) : Prop where
  counts : ∀ counter w answer w', run.answers (.count counter) w answer w' → document w' = document w
  others : ∀ database body w answer w',
    run.answers (.send database (.importDocuments options body)) w answer w' →
    ∀ name, (∀ value ∈ decode body, key value ≠ name) → document w' name = document w name
  takes : ∀ database body w answer w',
    run.answers (.send database (.importDocuments options body)) w answer w' →
    ∀ value ∈ decode body, (document w (key value) = none ∨ document w (key value) = some value) →
      document w' (key value) = document w (key value) ∨ document w' (key value) = some value
  stores : ∀ database body w result w',
    run.answers (.send database (.importDocuments options body)) w (.ok result) w' → result.errors = 0 →
    ∀ value ∈ decode body, (document w' (key value)).isSome

structure Supplies (run : ImportRun Op Op.Answer W) (sender : ArangoBatchSender)
    (line : Value → Bytes) (values : List Value) : Prop where
  documents : run.documents = values.map .ok
  encodes : ∀ value ∈ values, run.toVec value = .ok (line value)
  send : run.send = sender.send
  checkpoint : run.checkpoint = none

-- Of the documents some have come, each to its own key.
structure Partly (document : W → String → Option Value) (key : Value → String) (values : List Value)
    (start w : W) : Prop where
  others : ∀ name, (∀ value ∈ values, key value ≠ name) → document w name = document start name
  own : ∀ value ∈ values, document w (key value) = none ∨ document w (key value) = some value

def Delivered (document : W → String → Option Value) (decode : Bytes → List Value)
    (key : Value → String) (w : W) (batch : Batch)
    (result : ImportResult) : Prop := result.errors = 0 → ∀ value ∈ decode batch.body,
    (document w (key value)).isSome

theorem intoBatchesFrom_encoded {toVec : Value → Except Error Bytes}
    (encodes : ∀ value ∈ values, toVec value = .ok (line value))
    (config : BatchConfig) (b : Batcher) : intoBatchesFrom toVec config b (values.map .ok) =
      intoBatchesFrom (fun value => .ok (line value)) config b (values.map .ok) := by
  induction values generalizing b with
  | nil => rfl
  | cons value values ih =>
    obtain ⟨first,others⟩ := List.forall_mem_cons.mp encodes
    simp only [List.map_cons,intoBatchesFrom,first,ih others]

theorem supplies_carries {sender : ArangoBatchSender} (supplies : Supplies run sender line values) :
    Carries line run.batches values ∧
    run.ending = none := by
  unfold ImportRun.batches ImportRun.ending intoBatches
  rw [supplies.documents,intoBatchesFrom_encoded supplies.encodes]
  exact intoBatches_carries run.batchConfig values

theorem supplies_wanted {sender : ArangoBatchSender} (supplies : Supplies run sender line values) :
    run.wanted run.batches = run.batches := by
  refine List.filter_eq_self.mpr fun batch inside => decide_eq_true ?_
  have begins : run.resumeFrom = 0 := by
    unfold ImportRun.resumeFrom ImportRun.resume ImportRun.stored
    rw [supplies.checkpoint]
    rfl
  have numbered : batch.index ∈ List.range' 1 run.batches.length :=
    intoBatches_indices run.toVec run.documents run.batchConfig ▸ List.mem_map_of_mem inside
  rw [begins]
  exact (List.mem_range'_1.mp numbered).1

theorem key_same (distinct : (values.map key).Nodup) {one two : Value} (inside : one ∈ values)
    (inside' : two ∈ values)
    (same : key one = key two) : one = two := List.inj_on_of_nodup_map distinct inside inside' same

theorem post_moves (stocks : Stocks run options document decode key) {body : Bytes}
    (within : decode body ⊆ values) {last : Option ImportResult} {op : Op} {answer : op.Answer}
    (permitted : (posting options body).permits last op) (answered : run.answers op w answer w')
      (partly : Partly document key values start w)
    (name : String) : document w' name = document w name ∨ ∃ value ∈ values, key value = name ∧
      document w' name = some value := by
  rcases permitted with ⟨counter,rfl⟩ | ⟨database,rfl⟩
  · exact .inl (congrFun (stocks.counts _ _ _ _ answered) name)
  · by_cases sent : ∃ value ∈ decode body, key value = name
    · obtain ⟨value,present,rfl⟩ := sent
      have moved := stocks.takes _ _ _ _ _ answered value present (partly.own value (within present))
      exact moved.imp_right fun placed => ⟨value,within present,rfl,placed⟩
    · exact .inl (stocks.others _ _ _ _ _ answered name fun value present same => sent ⟨value,present,same⟩)

theorem partly_kept (distinct : (values.map key).Nodup) (partly : Partly document key values start w)
    (moved : ∀ name, document w' name = document w name ∨ ∃ value ∈ values, key value = name ∧
    document w' name = some value) :
    Partly document key values start w' where
  others name none_ := by
    rcases moved name with same | ⟨value,inside,named,-⟩
    · rw [same,partly.others name none_]
    · exact absurd named (none_ value inside)
  own value inside := by
    rcases moved (key value) with same | ⟨other,inside',named,placed⟩
    · rw [same]
      exact partly.own value inside
    · rw [key_same distinct inside' inside named] at placed
      exact .inr placed

theorem batch_within {sender : ArangoBatchSender} (supplies : Supplies run sender line values)
    (decodes : ∀ chunk, chunk <:+: values → decode (jsonl line chunk) = chunk) {batch : Batch}
      (present : batch ∈ run.batches) :
    decode batch.body ⊆ values := by
  obtain ⟨chunk,body,part⟩ := carries_mem (supplies_carries supplies).1 present
  rw [body,decodes chunk part]
  exact part.subset

theorem supplies_accepts {sender : ArangoBatchSender} (stocks : Stocks run sender.options document decode key)
    (supplies : Supplies run sender line values) (decodes : ∀ chunk, chunk <:+: values →
    decode (jsonl line chunk) = chunk)
    (within : values ⊆ more) (distinct : (more.map key).Nodup) :
    Accepts run sender.options (Partly document key more start) (Delivered document decode key) where
  posts batch := supplies.send ▸ send_posting sender batch
  keeps sent present last op w answer w' permitted answered partly :=
    partly_kept distinct partly
      (post_moves stocks (List.Subset.trans (batch_within supplies decodes present) within)
        permitted answered partly)
  lands batch present database w result w' answered _ clean value inside :=
    stocks.stores _ _ _ _ _ answered clean value inside
  lasts sent present last op w answer w' permitted answered partly batch result delivered clean
    value inside := by
    have inside_ := List.Subset.trans (batch_within supplies decodes present) within
    rcases post_moves stocks inside_ permitted answered partly (key value) with same | ⟨_,_,_,placed⟩
    · rw [same]
      exact delivered clean value inside
    · rw [placed]
      rfl

theorem supplies_blurred {sender : ArangoBatchSender} (supplies : Supplies run sender line values) :
    Supplies run.blurred sender line values :=
  ⟨supplies.documents,supplies.encodes,supplies.send,supplies.checkpoint⟩

-- No answer counts a rejected document.
def Unrejected (s : RunState run) : Prop := ∀ answer ∈ acknowledged s.answered, answer.2.errors = 0

theorem supplied_there {sender : ArangoBatchSender} {holds : W → Prop}
    (supplies : Supplies run sender line values)
    (decodes : ∀ chunk, chunk <:+: values → decode (jsonl line chunk) = chunk)
      (reachable : Reachable run.blurred s.blur)
    (arrivals : Arrivals options holds (Delivered document decode key) s) {summary : ImportSummary}
    (returned : s.returned = some (.ok summary)) (clean : Unrejected s) {value : Value}
      (inside : value ∈ values) :
    (document s.world (key value)).isSome := by
  obtain ⟨batch,present,chunk,body,part,held⟩ := carries_covers (supplies_carries supplies).1 inside
  have every := returned_acknowledged reachable returned
  rw [supplies_wanted (supplies_blurred supplies)] at every
  obtain ⟨answer,told_,rfl⟩ := List.mem_map.mp (every.mem_iff.mpr present)
  exact arrivals.answered answer told_ (clean answer told_) value (by rw [body,decodes chunk part]; exact held)

theorem collection_filled {sender : ArangoBatchSender} (stocks : Stocks run sender.options document decode key)
    (supplies : Supplies run sender line values) (decodes : ∀ chunk, chunk <:+: values →
    decode (jsonl line chunk) = chunk)
    (distinct : (values.map key).Nodup)
      (fresh : ∀ value ∈ values, document start (key value) = none) (reached : ReachedFrom run start s) :
    Partly document key values start s.world ∧ ∀ summary, s.returned = some (.ok summary) → Unrejected s →
      ∀ value ∈ values, document s.world (key value) = some value := by
  have begins : Partly document key values start start :=
    ⟨fun _ _ => rfl,fun value inside => .inl (fresh value inside)⟩
  have arrivals := reached_arrivals
      (supplies_accepts stocks supplies decodes (List.Subset.refl _) distinct) begins reached
  refine ⟨arrivals.world,fun summary returned clean value inside =>
    (arrivals.world.own value inside).resolve_left fun missing => ?_⟩
  have placed := supplied_there supplies decodes
      (reachable_blur reached.reachable) arrivals returned clean inside
  rw [missing] at placed
  cases placed

end Collection
end ArangoDataTools.ImportPipeline
