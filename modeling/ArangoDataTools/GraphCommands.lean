import ArangoDataTools.Catalog
import ArangoDataTools.EdgeDefinitions

namespace ArangoDataTools.Catalog
open Interaction Interaction.Program
open RequestUrls (ObjectName)
open RequestNames (Smooth)

structure CreateArgs where
  name : String
  edgeDefinition : List String
  orphanCollection : List String
  overwrite : Bool

namespace CreateArgs

def definitions (args : CreateArgs) : Except Error (List Value) := args.edgeDefinition.mapM parseEdgeDefinition

def body (args : CreateArgs) (definitions : List Value) : Value :=
  .object [("edgeDefinitions",.array definitions),("name",.string args.name),
    ("orphanCollections",.array (args.orphanCollection.map .string))]

end CreateArgs

def createFailed (name : String) (err : Error) : Error :=
  .config (String.join ["failed to create graph '",name,"': ",err.display,
  ". Pass --overwrite to replace an existing graph of the same name; collections named in the definitions are created automatically if missing."])

-- `graph create`
def create (client : Client) (args : CreateArgs) : Command (Nat × Nat) :=
  (lift args.definitions).bind fun definitions =>
    if definitions.isEmpty && args.orphanCollection.isEmpty then
      fail (.config "a graph needs at least one --edge-definition or --orphan-collection")
    else
      (if args.overwrite then dropGraph client args.name false else done ()).bind fun _ =>
        (attempt (createGraph client (args.body definitions))).bind fun
          | .ok _ => done (definitions.length,args.orphanCollection.length)
          | .error err => fail (createFailed args.name err)

-- How far the party has come that creates the graph, and the error it was last answered; `cleared`
-- tells whether it has dropped the graph before. All other parties are `apart`.
inductive Replacing where
  | apart
  | dropping (last : Option Error)
  | creating (cleared : Bool) (last : Option Error)
  | made
  | refused (cleared : Bool)

def replacingNext : Replacing → (op : CatalogOp) → op.Answer → Replacing
  | .dropping _,.send (.dropGraph _ _),.ok _ => .creating true none
  | .dropping _,.send (.dropGraph _ _),.error err => if hasStatus 404 err then .creating true none
      else .dropping err
  | .creating _ _,.send (.createGraph _),.ok _ => .made
  | .creating cleared _,.send (.createGraph _),.error err => if hasStatus 409 err then
      .refused cleared else .creating cleared err
  | q,_,_ => q

def Touches (name : String) : CatalogRequest → Prop
  | .dropGraph other _ => other = name
  | .createGraph definition => definition.get "name" = some (.string name)
  | .collectionInfo _ | .createCollection _ _ => False

def Leaves (name : String) (op : CatalogOp) : Prop := Gentle op ∧ ∀ request, op = .send request →
    ¬ Touches name request

def replacingPermits (name : String) (definition : Value) : Replacing → CatalogOp → Prop
  | .apart,op => Leaves name op
  | .dropping _,op => (∃ counter, op = .count counter) ∨ op = .send (.dropGraph name false)
  | .creating _ _,op => (∃ counter, op = .count counter) ∨ op = .send (.createGraph definition)
  | _,op => ∃ counter, op = .count counter

def replacing (site : Site) (name : String) (definition : Value) :
    Protocol CatalogOp CatalogOp.Answer Replacing :=
  ⟨fun q op => Addresses site op ∧ replacingPermits name definition q op,replacingNext⟩

-- What has become of a graph that was there as `old` when the party began.
def Replacing.Holds (old : Option Value) (definition : Value) (now : Option Value) : Replacing → Prop
  | .apart => False
  | .dropping last => (now = old ∨ last ≠ none ∧ now = none) ∧ ∀ err, last = some err → Unclear err
  | .creating cleared last => (now = (if cleared then none else old) ∨ last ≠ none ∧
      (cleared = true ∨ old = none) ∧ now = some definition) ∧
      ∀ err, last = some err → Unclear err
  | .made => now = some definition
  | .refused cleared => if cleared = true ∨ old = none then now = some definition else now = old

section Served
variable {w w' : Database} {name : String} {definition : Value} {request : CatalogRequest}
  {answer : Except Error request.Response}

theorem serves_leaves (served : Serves request w answer w') (leaves : ¬ Touches name request) :
    w'.graphs name = w.graphs name := by
  induction served with
  | found | missing | created | taken | duplicate | unknown | refused => rfl
  | declared named _ _ =>
    refine Function.update_of_ne (fun same => leaves ?_) _ _
    rw [same]
    exact named
  | dropped _ _ => exact Function.update_of_ne (fun same => leaves same.symm) _ _
  | lost _ _ ih => exact ih leaves

theorem drop_moves {dropCollections : Bool} (served : Serves request w answer w')
    (removal : request = .dropGraph name dropCollections) :
    w'.graphs name = w.graphs name ∨ w'.graphs name = none := by
  induction served with
  | found | missing | created | taken | duplicate | unknown | refused => exact .inl rfl
  | declared => cases removal
  | dropped _ _ =>
    cases removal
    exact .inr (Function.update_self _ _ _)
  | lost _ _ ih => exact ih removal

theorem drop_served {dropCollections : Bool} {answer : Except Error Unit}
    (served : Serves (.dropGraph name dropCollections) w answer w') :
    (answer = .ok () → w'.graphs name = none) ∧
      ∀ err, answer = .error err → hasStatus 404 err = true ∧ w'.graphs name = none ∨ Unclear err := by
  cases served with
  | dropped some_ _ => exact ⟨fun _ => Function.update_self _ _ _,fun err same => by cases same⟩
  | unknown none_ => exact ⟨fun same => (by cases same),fun err same => (by cases same; exact .inl ⟨rfl,none_⟩)⟩
  | refused unclear => exact ⟨fun same => (by cases same),fun err same => (by cases same; exact .inr unclear)⟩
  | lost _ unclear => exact ⟨fun same => (by cases same),fun err same => (by cases same; exact .inr unclear)⟩

theorem creation_moves (served : Serves request w answer w') (creation : request = .createGraph definition)
    (named : definition.get "name" = some (.string name)) :
    w'.graphs name = w.graphs name ∨ w.graphs name = none ∧ w'.graphs name = some definition := by
  induction served with
  | found | missing | created | taken | duplicate | unknown | refused => exact .inl rfl
  | declared named' none_ _ =>
    cases creation
    rw [named] at named'
    cases named'
    exact .inr ⟨none_,Function.update_self _ _ _⟩
  | dropped => cases creation
  | lost _ _ ih => exact ih creation

theorem graph_served {answer : Except Error Unit} (served : Serves (.createGraph definition) w answer w')
    (named : definition.get "name" = some (.string name)) :
    (answer = .ok () → w'.graphs name = some definition) ∧
      ∀ err, answer = .error err → hasStatus 409 err = true ∧ w'.graphs name = w.graphs name ∧
      w.graphs name ≠ none ∨ Unclear err := by
  cases served with
  | declared named' _ _ =>
    rw [named] at named'
    cases named'
    exact ⟨fun _ => Function.update_self _ _ _,fun err same => by cases same⟩
  | duplicate named' some_ =>
    rw [named] at named'
    cases named'
    exact ⟨fun same => (by cases same),fun err same => (by cases same; exact .inl ⟨rfl,rfl,some_⟩)⟩
  | refused unclear => exact ⟨fun same => (by cases same),fun err same => (by cases same; exact .inr unclear)⟩
  | lost _ unclear => exact ⟨fun same => (by cases same),fun err same => (by cases same; exact .inr unclear)⟩

end Served

section Phases
variable {name : String} {definition : Value} {old : Option Value} {w w' : Database} {q : Replacing}
  {op : CatalogOp}
  {answer : op.Answer}

theorem replacing_gentle (permitted : replacingPermits name definition q op) : Gentle op := by
  cases q with
  | apart => exact permitted.1
  | dropping | creating =>
    rcases permitted with ⟨counter,rfl⟩ | rfl <;> intro name removal <;> cases removal
  | made | refused =>
    obtain ⟨counter,rfl⟩ := permitted
    intro name removal
    cases removal

theorem replacing_extends (permitted : replacingPermits name definition q op)
    (served : Answered op w answer w') : w.Extends w' := by
  cases op with
  | count counter =>
    cases served
    exact .refl
  | send request => exact serves_extends served (replacing_gentle permitted)

theorem apart_leaves (permitted : replacingPermits name definition .apart op)
    (served : Answered op w answer w') :
    w'.graphs name = w.graphs name := by
  cases op with
  | count counter =>
    cases served
    rfl
  | send request => exact serves_leaves served (permitted.2 request rfl)

theorem dropping_failed (other : String) (dropCollections : Bool) (last : Option Error) (err : Error) :
    replacingNext (.dropping last) (.send (.dropGraph other dropCollections)) (.error err) =
      if hasStatus 404 err then .creating true none else .dropping err := rfl

theorem creating_failed (other : Value) (cleared : Bool) (last : Option Error) (err : Error) :
    replacingNext (.creating cleared last) (.send (.createGraph other)) (.error err) =
      if hasStatus 409 err then .refused cleared else .creating cleared err := rfl

theorem base_none {cleared : Bool} : (if cleared then none else old) = none ↔ cleared = true ∨ old = none := by
  cases cleared with
  | true => exact ⟨fun _ => .inl rfl,fun _ => rfl⟩
  | false => exact ⟨fun none_ => .inr none_,fun either => either.resolve_left Bool.false_ne_true⟩

theorem base_old {cleared : Bool} (kept : ¬ (cleared = true ∨ old = none)) :
    (if cleared then none else old) = old :=
  if_neg fun on => kept (.inl on)

theorem holds_answered (named : definition.get "name" = some (.string name))
    (holds : q.Holds old definition (w.graphs name))
    (permitted : replacingPermits name definition q op) (served : Answered op w answer w') :
    (replacingNext q op answer).Holds old definition (w'.graphs name) := by
  have counting : ∀ {q : Replacing}, q.Holds old definition (w.graphs name) → (∃ counter, op = .count counter) →
      (replacingNext q op answer).Holds old definition (w'.graphs name) := by
    intro q holds only
    obtain ⟨counter,rfl⟩ := only
    cases served
    cases q <;> exact holds
  cases q with
  | apart => exact absurd holds id
  | dropping last =>
    rcases permitted with only | rfl
    · exact counting holds only
    · have moved := drop_moves served rfl
      obtain ⟨gone,failed⟩ := drop_served served
      have cleared : w'.graphs name = none → (Replacing.creating true none).Holds old definition
          (w'.graphs name) :=
        fun none_ => ⟨.inl none_,fun err same => by cases same⟩
      cases answer with
      | ok => exact cleared (gone rfl)
      | error err =>
        rw [dropping_failed]
        rcases failed err rfl with ⟨status,none_⟩ | unclear
        · rw [if_pos status]
          exact cleared none_
        · rw [if_neg (by rw [unclear.1]; exact Bool.false_ne_true)]
          refine ⟨?_,fun err same => (by cases same; exact unclear)⟩
          have answered : some err ≠ none := Option.some_ne_none err
          rcases moved with same | none_
          · rw [same]
            exact holds.1.imp_right fun gone => ⟨answered,gone.2⟩
          · exact .inr ⟨answered,none_⟩
  | creating cleared last =>
    rcases permitted with only | rfl
    · exact counting holds only
    · have moved := creation_moves served rfl named
      obtain ⟨there,failed⟩ := graph_served served named
      cases answer with
      | ok => exact there rfl
      | error err =>
        rw [creating_failed]
        rcases failed err rfl with ⟨status,same,some_⟩ | unclear
        · rw [if_pos status]
          change if cleared = true ∨ old = none then w'.graphs name = some definition else w'.graphs name = old
          rw [same]
          split
          · rename_i free
            exact (holds.1.resolve_left fun base => some_ (base.trans (base_none.mpr free))).2.2
          · rename_i kept
            rcases holds.1 with base | ⟨-,free,-⟩
            · exact base.trans (base_old kept)
            · exact absurd free kept
        · rw [if_neg (by rw [unclear.2]; exact Bool.false_ne_true)]
          refine ⟨?_,fun err same => (by cases same; exact unclear)⟩
          have answered : some err ≠ none := Option.some_ne_none err
          rcases moved with same | ⟨none_,placed⟩
          · rw [same]
            exact holds.1.imp_right fun there => ⟨answered,there.2⟩
          · refine .inr ⟨answered,?_,placed⟩
            rcases holds.1 with base | ⟨-,free,-⟩
            · exact base_none.mp (base.symm.trans none_)
            · exact free
  | made | refused => exact counting holds permitted

end Phases

section Calls
variable {site : Site} {client : Client} {name : String} {definition : Value}

end Calls

namespace CreateArgs

def invalid (args : CreateArgs) : Option Error := match args.definitions with
  | .error err => some err
  | .ok definitions => if definitions.isEmpty && args.orphanCollection.isEmpty then
      some (.config "a graph needs at least one --edge-definition or --orphan-collection") else none

def target (args : CreateArgs) : Value := args.body (args.definitions.toOption.getD [])

def phase (args : CreateArgs) : Replacing := if args.overwrite then .dropping none else .creating false none

theorem target_named (args : CreateArgs) : args.target.get "name" = some (.string args.name) := rfl

end CreateArgs

-- One party creates the graph; the others leave it alone and take no collection away. A graph that
-- is dropped before has a name that its URL carries.
structure GraphTasks (site : Site) (ι : Type) where
  mine : ι
  client : Client
  args : CreateArgs
  smooth : args.overwrite = true → ∃ object : ObjectName, object.text = args.name ∧ Smooth object.text.toList
  others : ι → Command (Nat × Nat)
  leaves : ∀ i, Follows (replacing site args.name args.target) (fun _ _ => True) (others i) .apart

section Runs
variable {site : Site} {ι : Type} [DecidableEq ι] {start w : Database} {args : CreateArgs} {q : Replacing}

namespace GraphTasks

def program (tasks : GraphTasks site ι) (i : ι) : Command (Nat × Nat) :=
  if i = tasks.mine then create (tasks.client.withDatabase site.database.text) tasks.args else tasks.others i

def phase (tasks : GraphTasks site ι) (i : ι) : Replacing := if i = tasks.mine then tasks.args.phase else .apart

def begin (tasks : GraphTasks site ι) (start : Database) : Pool ι CatalogOp CatalogOp.Answer Error
    (Nat × Nat) Database Replacing :=
  ⟨tasks.program,tasks.phase,start⟩

def protocol (tasks : GraphTasks site ι) : Protocol CatalogOp CatalogOp.Answer Replacing :=
  replacing site tasks.args.name tasks.args.target

def Knows (tasks : GraphTasks site ι) (start : Database) (i : ι) (q : Replacing) (w : Database) : Prop :=
  start.Extends w ∧ if i = tasks.mine then q.Holds (start.graphs tasks.args.name) tasks.args.target
    (w.graphs tasks.args.name) else q = .apart

def Relies (tasks : GraphTasks site ι) (i : ι) (w w' : Database) : Prop :=
  w.Extends w' ∧ (i = tasks.mine → w'.graphs tasks.args.name = w.graphs tasks.args.name)

theorem guarded (tasks : GraphTasks site ι) (start : Database) :
    Guarded (serving site) tasks.protocol (tasks.Knows start) tasks.Relies where
  keeps i q op w answer w' knows permitted served := by
    have answered := served permitted.1
    refine ⟨knows.1.trans (replacing_extends permitted.2 answered),?_⟩
    have own := knows.2
    by_cases mine : i = tasks.mine
    · rw [if_pos mine] at own ⊢
      exact holds_answered tasks.args.target_named own permitted.2 answered
    · rw [if_neg mine] at own ⊢
      subst own
      rfl
  stable i q w w' knows relied := by
    refine ⟨knows.1.trans relied.1,?_⟩
    have own := knows.2
    by_cases mine : i = tasks.mine
    · rw [if_pos mine] at own ⊢
      rw [relied.2 mine]
      exact own
    · rw [if_neg mine] at own ⊢
      exact own
  guarantees i j q op w answer w' apart knows permitted served := by
    have answered := served permitted.1
    refine ⟨replacing_extends permitted.2 answered,fun mine => ?_⟩
    have own := knows.2
    rw [if_neg fun same => apart (same.trans mine.symm)] at own
    subst own
    exact apart_leaves permitted.2 answered

end GraphTasks

end Runs

section Sample

end Sample
end ArangoDataTools.Catalog
