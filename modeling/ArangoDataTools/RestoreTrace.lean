import Mathlib.Logic.Function.Basic
import ArangoDataTools.Restore
import ArangoDataTools.ClientRuns

namespace ArangoDataTools.RestoreTrace
open Interaction Interaction.Program Restore

-- What a run of a restore did that can be seen from outside.
inductive Event where
  | sent (database : String) (request : Request) (accepted : Bool)
  | read (object : ObjectRef) (bytes : Bytes)

structure World where
  objects : ObjectRef → Option Bytes
  log : List Event := []

def World.note (w : World) (event : Event) : World := {w with log := w.log ++ [event]}
def World.store (w : World) (object : ObjectRef) (left : Option Bytes) : World :=
  {w with objects := Function.update w.objects object left}

@[simp] theorem note_objects (w : World) (event : Event) : (w.note event).objects = w.objects := rfl
@[simp] theorem note_log (w : World) (event : Event) : (w.note event).log = w.log ++ [event] := rfl
@[simp] theorem store_log (w : World) (object : ObjectRef) (left : Option Bytes) :
    (w.store object left).log = w.log := rfl

theorem store_same (w : World) (object : ObjectRef) (left : Option Bytes) :
    (w.store object left).objects object = left := by
  simp [World.store]
theorem store_other (w : World) {object other : ObjectRef} (apart : other ≠ object) (left : Option Bytes) :
    (w.store object left).objects other = w.objects other := by simp [World.store,apart]

-- What a failed write leaves behind: the object as it was, all of the write, or
-- something that is no checkpoint.
def LeftBy (codec : Codec) (before : Option Bytes) (body : Bytes) (left : Option Bytes) : Prop :=
  left = before ∨ left = some body ∨ ∃ torn, left = some torn ∧ ∀ checkpoint,
    codec.checkpointFromJson torn ≠ .ok checkpoint

-- Any server and any stores: every request may be answered in any way and every
-- store operation may fail. An object is read as it is; the broken ones are not
-- read at all.
inductive Answers (codec : Codec) (broken : ObjectRef → Prop) : Answering Op Op.Answer World where
  | send (answer : Except Error request.Response) :
      Answers codec broken (.send database request) w answer
        (w.note (.sent database request answer.toOption.isSome))
  | head : ¬ broken object → Answers codec broken (.head object) w (.ok ((w.objects object).map List.length)) w
  | headFailed (err : Error) : Answers codec broken (.head object) w (.error err) w
  | get : ¬ broken object → w.objects object = some bytes →
      Answers codec broken (.get object) w (.ok bytes) (w.note (.read object bytes))
  | getFailed (err : Error) : Answers codec broken (.get object) w (.error err) w
  | put : Answers codec broken (.putStream object body) w (.ok body.length) (w.store object (some body))
  | putFailed (err : Error) : LeftBy codec (w.objects object) body left →
      Answers codec broken (.putStream object body) w (.error err) (w.store object left)
  | emit : Answers codec broken (.emit event) w () w
  | count : Answers codec broken (.count counter) w () w

variable {codec : Codec} {broken : ObjectRef → Prop} {pre : World → Prop}

section Calls

theorem triple_count (counter : Counter) :
    Triple (Answers codec broken) pre (ask (.count counter)) (fun _ => pre) pre pre :=
  triple_perform (fun _ start => start) fun w answer w' start step => by cases step; exact ⟨start,start⟩

theorem triple_emit (event : ProgressEvent) :
    Triple (Answers codec broken) pre (emit event) (fun _ => pre) pre pre :=
  triple_perform (fun _ start => start) fun w answer w' start step => by cases step; exact ⟨start,start⟩

theorem triple_attempts (client : Client) {database : String} {request : Request} {post always : World → Prop}
    (refused : ∀ w, pre w → pre (w.note (.sent database request false)))
    (answered : ∀ w, pre w → post (w.note (.sent database request true)))
      (kept : ∀ w, pre w → always w) (after : ∀ w, post w → always w) :
    Triple (Answers codec broken) pre (client.executeOn database request) (fun _ => post) always always := by
  have counting : ∀ counter, Triple (Answers codec broken) pre (ask (.count counter))
      (fun _ => pre) pre always := fun counter =>
    triple_weaken (triple_count counter) (fun _ start => start) (fun _ _ start => start)
      (fun _ start => start) kept
  have tried : Triple (Answers codec broken) pre (client.executeOn database request)
      (fun _ => post) pre always := by
    refine ClientRuns.triple_retryLoop client.retry (triple_perform kept ?_) counting
      (fun _ start => start) (fun _ => after) kept _
    intro w answer w' start step
    cases step with
    | send answer =>
      cases answer with
      | ok value => exact ⟨answered w start,after _ (answered w start)⟩
      | error err => exact ⟨refused w start,kept _ (refused w start)⟩
  exact triple_weaken tried (fun _ start => start) (fun _ _ holds => holds) kept fun _ holds => holds

theorem triple_lastAttempt (client : Client) {database : String} {request : Request}
    (kept : ∀ w accepted, pre w → pre (w.note (.sent database request accepted))) :
    Triple (Answers codec broken) pre (client.executeOn database request)
      (fun _ w => ∃ before, pre before ∧ w = before.note (.sent database request true)) pre pre := by
  apply triple_attempts client (fun w start => kept w false start) (fun w start => ⟨w,start,rfl⟩)
    fun _ start => start
  intro w holds
  obtain ⟨before,start,rfl⟩ := holds
  exact kept before true start

theorem triple_executeOn (client : Client) {database : String} {request : Request}
    (kept : ∀ w accepted, pre w → pre (w.note (.sent database request accepted))) :
    Triple (Answers codec broken) pre (client.executeOn database request)
      (fun _ w => pre w ∧ .sent database request true ∈ w.log) pre pre := by
  apply triple_weaken (triple_lastAttempt client kept) (fun _ start => start) _
    (fun _ start => start) fun _ start => start
  intro value w holds
  obtain ⟨before,start,rfl⟩ := holds
  exact ⟨kept before true start,List.mem_append_right _ (List.mem_singleton.mpr rfl)⟩

theorem triple_tolerating (status : Nat) {request : Tool Unit} {post : Unit → World → Prop}
    (triple : Triple (Answers codec broken) pre request post pre pre) (kept : ∀ value w, post value w → pre w) :
    Triple (Answers codec broken) pre (Client.tolerating status request) (fun _ => pre) pre pre := by
  apply triple_bind (triple_attempt triple)
  intro result
  cases result with
  | ok value => exact triple_done (kept value) (kept value)
  | error err =>
    cases err with
    | http code message context =>
      by_cases tolerated : code = status
      · simp only [if_pos tolerated]
        exact triple_done (fun _ start => start) fun _ start => start
      · simp only [if_neg tolerated]
        exact triple_fail (fun _ start => start) fun _ start => start
    | _ => exact triple_fail (fun _ start => start) fun _ start => start

theorem triple_lastRead {store : Nat} {path : String} {compression : Compression}
    (kept : ∀ w bytes, w.objects ⟨store,path⟩ = some bytes → pre w → pre (w.note (.read ⟨store,path⟩ bytes))) :
    Triple (Answers codec broken) pre (readObject codec store path compression)
      (fun plain w => ∃ before bytes, pre before ∧ w = before.note (.read ⟨store,path⟩ bytes) ∧
      ¬ broken ⟨store,path⟩ ∧
        before.objects ⟨store,path⟩ = some bytes ∧ codec.decode compression bytes = .ok plain) pre pre := by
  let mid : Bytes → World → Prop := fun bytes w => ∃ before, pre before ∧
      w = before.note (.read ⟨store,path⟩ bytes) ∧
    ¬ broken ⟨store,path⟩ ∧ before.objects ⟨store,path⟩ = some bytes
  have noted : ∀ bytes w, mid bytes w → pre w := by
    intro bytes w holds
    obtain ⟨before,start,rfl,-,present⟩ := holds
    exact kept before bytes present start
  have fetched : Triple (Answers codec broken) pre (⟨store,path⟩ : ObjectRef).get mid pre pre := by
    let asked : Except Error Bytes → World → Prop := fun answer w => pre w ∧ ∀ bytes,
        answer = .ok bytes → mid bytes w
    have get : Triple (Answers codec broken) pre (ask (.get ⟨store,path⟩)) asked pre pre := by
      apply triple_perform (fun _ start => start)
      intro w answer w' start step
      cases step with
      | @get _ bytes _ whole present =>
        have after := kept w bytes present start
        refine ⟨⟨after,?_⟩,after⟩
        intro other same
        cases same
        exact ⟨w,start,rfl,whole,present⟩
      | getFailed err => exact ⟨⟨start,fun bytes same => by cases same⟩,start⟩
    apply triple_bind get
    intro answer
    cases answer with
    | ok bytes => exact triple_done (fun w holds => holds.2 bytes rfl) fun w holds => holds.1
    | error err => exact triple_fail (fun w holds => holds.1) fun w holds => holds.1
  unfold readObject
  apply triple_bind fetched
  intro bytes
  apply triple_lift _ (noted bytes) (noted bytes)
  intro plain w decoded holds
  obtain ⟨before,start,same,whole,present⟩ := holds
  exact ⟨before,bytes,start,same,whole,present,decoded⟩

theorem triple_readObject {store : Nat} {path : String} {compression : Compression}
    (kept : ∀ w bytes, w.objects ⟨store,path⟩ = some bytes → pre w → pre (w.note (.read ⟨store,path⟩ bytes))) :
    Triple (Answers codec broken) pre (readObject codec store path compression)
      (fun plain w => pre w ∧ ¬ broken ⟨store,path⟩ ∧ ∃ bytes, w.objects ⟨store,path⟩ = some bytes ∧
        w.log.getLast? = some (.read ⟨store,path⟩ bytes) ∧ codec.decode compression bytes =
        .ok plain) pre pre := by
  apply triple_weaken (triple_lastRead kept) (fun _ start => start) _ (fun _ start => start)
    fun _ start => start
  intro plain w holds
  obtain ⟨before,bytes,start,rfl,whole,present,decoded⟩ := holds
  exact ⟨kept before bytes present start,whole,bytes,present,List.getLast?_concat,decoded⟩

end Calls

section Accepted
variable {w : World}

theorem executeOn_accepted (client : Client) (database : String) (request : Request)
    (value : request.Response) :
    Runs (Answers codec broken) (client.executeOn database request) w (done value)
      (w.note (.sent database request true)) :=
  ClientRuns.executeOn_answered client (.send (.ok value))

theorem tolerating_accepted (status : Nat) {request : Tool Unit} {w' : World}
    (runs : Runs (Answers codec broken) request w (done ()) w') :
    Runs (Answers codec broken) (Client.tolerating status request) w (done ()) w' :=
    runs_then (attempt_runs runs) (.here _ _)

end Accepted
end ArangoDataTools.RestoreTrace
