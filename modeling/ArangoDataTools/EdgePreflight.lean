import Mathlib.Data.List.Induction
import ArangoDataTools.Errors
import ArangoDataTools.Json
import ArangoDataTools.Segments

namespace ArangoDataTools.EdgePreflight

inductive Endpoint where
  | present | empty
  deriving DecidableEq, Repr

def edgeError (ordinal : Nat) (message : String) : Error := .parse message (some ordinal) none

def hasSlash (text : String) : Bool := text.toList.contains '/'

def checkEndpoint (value : Option Value) (field : String) (hasPrefix : Bool) (ordinal : Nat) :
    Except Error Endpoint :=
  match value with
  | none => .error (edgeError ordinal s!"edge document is missing '{field}'")
  | some .null => .ok .empty
  | some (.string text) =>
    if text = "" then .ok .empty
    else if !hasPrefix && !hasSlash text then
      .error (edgeError ordinal (s!"edge document '{field}' = '{text}' is not a fully-qualified document id " ++
        s!"(expected 'collection/key'); configure a {field} prefix to import bare keys"))
    else .ok .present
  | some _ => .error (edgeError ordinal s!"edge document '{field}' must be a string")

def checkEdge (document : Value) (ordinal : Nat) (fromHasPrefix toHasPrefix : Bool) : Except Error Bool :=
  match document with
  | .object object => do
    let from_ ← checkEndpoint (Value.lookup "_from" object) "_from" fromHasPrefix ordinal
    let to_ ← checkEndpoint (Value.lookup "_to" object) "_to" toHasPrefix ordinal
    pure (from_ = .present && to_ = .present)
  | _ => .error (edgeError ordinal "edge document must be a JSON object")

structure Validated where
  yielded : List Value := []
  skipped : Nat := 0
  failed : Option Error := none

def validateFrom (fromHasPrefix toHasPrefix : Bool) : Nat → List (Except Error Value) → Validated
  | _, [] => {}
  | _, .error err :: _ => {failed := some err}
  | ordinal, .ok document :: documents =>
    match checkEdge document (ordinal+1) fromHasPrefix toHasPrefix with
    | .error err => {failed := some err}
    | .ok false =>
      let rest := validateFrom fromHasPrefix toHasPrefix (ordinal+1) documents
      {rest with skipped := rest.skipped + 1}
    | .ok true =>
      let rest := validateFrom fromHasPrefix toHasPrefix (ordinal+1) documents
      {rest with yielded := document :: rest.yielded}

def validateEdgeDocuments (documents : List (Except Error Value))
    (fromHasPrefix toHasPrefix : Bool) : Validated :=
  validateFrom fromHasPrefix toHasPrefix 0 documents

def blank : Value → Bool
  | .null => true
  | .string text => text = ""
  | _ => false

def names (form : String → Bool) (hasPrefix : Bool) : Value → Bool
  | .string text => text ≠ "" && (hasPrefix || form text)
  | _ => false

def withEndpoints (test : Value → Value → Bool) (document : Value) : Bool :=
  match document.get "_from", document.get "_to" with
  | some from_, some to_ => test from_ to_
  | _, _ => false

section Rows
variable (form : String → Bool) (fromHasPrefix toHasPrefix : Bool)

def linked : Value → Bool := withEndpoints fun from_ to_ => names form fromHasPrefix from_ &&
    names form toHasPrefix to_

def unlinked : Value → Bool := withEndpoints fun from_ to_ =>
  (blank from_ || blank to_) && (blank from_ || names form fromHasPrefix from_) &&
    (blank to_ || names form toHasPrefix to_)

def malformed (document : Value) : Bool :=
  !linked form fromHasPrefix toHasPrefix document && !unlinked form fromHasPrefix toHasPrefix document

-- Where the stream ends after its first `n` documents.
inductive Ending : Nat → List (Except Error Value) → Option Error → Prop where
  | finished {n : Nat} : Ending n [] none
  | broken {n : Nat} {err : Error} {rest : List (Except Error Value)} : Ending n (.error err :: rest) (some err)
  | refused {n : Nat} {document : Value} {rest : List (Except Error Value)} (message : String) :
      malformed form fromHasPrefix toHasPrefix document = true →
      Ending n (.ok document :: rest) (some (edgeError (n+1) message))

structure Filters (documents : List (Except Error Value)) (before : Nat) (run : Validated)
    (consumed : List Value)
    (rest : List (Except Error Value)) : Prop where
  split : documents = consumed.map .ok ++ rest
  yields : run.yielded = consumed.filter (linked form fromHasPrefix toHasPrefix)
  skips : run.skipped = consumed.countP (unlinked form fromHasPrefix toHasPrefix)
  formed : ∀ document ∈ consumed, malformed form fromHasPrefix toHasPrefix document = false
  ending : Ending form fromHasPrefix toHasPrefix (before + consumed.length) rest run.failed

end Rows

section Checks
variable {fromHasPrefix toHasPrefix hasPrefix : Bool} {document value : Value} {field : String} {ordinal : Nat}

theorem checkEndpoint_blank (empty : blank value = true) :
    checkEndpoint (some value) field hasPrefix ordinal = .ok .empty := by
  cases value with
  | null => rfl
  | string text =>
    have none_ : text = "" := by simpa [blank] using empty
    exact if_pos none_
  | _ => cases empty

theorem checkEndpoint_names (named : names hasSlash hasPrefix value = true) :
    checkEndpoint (some value) field hasPrefix ordinal = .ok .present := by
  cases value with
  | string text =>
    obtain ⟨some_,qualified⟩ : text ≠ "" ∧ (hasPrefix = true ∨ hasSlash text = true) := by
      simpa [names] using named
    unfold checkEndpoint
    dsimp only
    rw [if_neg some_,if_neg]
    rcases qualified with configured | slash
    · simp [configured]
    · simp [slash]
  | _ => cases named

theorem checkEndpoint_other (filled : blank value = false) (bare : names hasSlash hasPrefix value = false) :
    ∃ message, checkEndpoint (some value) field hasPrefix ordinal = .error (edgeError ordinal message) := by
  cases value with
  | null => cases filled
  | string text =>
    have some_ : text ≠ "" := by simpa [blank] using filled
    have unqualified : hasPrefix = false ∧ hasSlash text = false := by simpa [names,some_] using bare
    unfold checkEndpoint
    dsimp only
    rw [if_neg some_,if_pos (by simp [unqualified])]
    exact ⟨_,rfl⟩
  | _ => exact ⟨_,rfl⟩

theorem checkEndpoint_cases (value : Value) (field : String) (hasPrefix : Bool) (ordinal : Nat) :
    blank value = true ∧ names hasSlash hasPrefix value = false ∧
    checkEndpoint (some value) field hasPrefix ordinal = .ok .empty ∨
    blank value = false ∧ names hasSlash hasPrefix value = true ∧
    checkEndpoint (some value) field hasPrefix ordinal = .ok .present ∨
    blank value = false ∧ names hasSlash hasPrefix value = false ∧
      ∃ message, checkEndpoint (some value) field hasPrefix ordinal = .error (edgeError ordinal message) := by
  cases empty : blank value with
  | true =>
    refine .inl ⟨rfl,?_,checkEndpoint_blank empty⟩
    cases value with
    | string text =>
      have none_ : text = "" := by simpa [blank] using empty
      simp [names,none_]
    | _ => rfl
  | false =>
    cases named : names hasSlash hasPrefix value with
    | true => exact .inr (.inl ⟨rfl,rfl,checkEndpoint_names named⟩)
    | false => exact .inr (.inr ⟨rfl,rfl,checkEndpoint_other empty named⟩)

theorem checkEdge_cases (document : Value) (ordinal : Nat) (fromHasPrefix toHasPrefix : Bool) :
    checkEdge document ordinal fromHasPrefix toHasPrefix = .ok true ∧
    linked hasSlash fromHasPrefix toHasPrefix document = true ∧
      unlinked hasSlash fromHasPrefix toHasPrefix document = false ∨
    checkEdge document ordinal fromHasPrefix toHasPrefix = .ok false ∧
      linked hasSlash fromHasPrefix toHasPrefix document = false ∧
      unlinked hasSlash fromHasPrefix toHasPrefix document = true ∨
    malformed hasSlash fromHasPrefix toHasPrefix document = true ∧
      ∃ message, checkEdge document ordinal fromHasPrefix toHasPrefix = .error (edgeError ordinal message) := by
  cases document with
  | object object =>
    unfold checkEdge malformed linked unlinked withEndpoints
    simp only [Value.get_object]
    cases from_ : Value.lookup "_from" object with
    | none => exact .inr (.inr ⟨rfl,_,rfl⟩)
    | some first =>
      cases to_ : Value.lookup "_to" object with
      | none =>
        obtain ⟨empty,named,checked⟩ | ⟨empty,named,checked⟩ | ⟨empty,named,message,checked⟩ :=
          checkEndpoint_cases first "_from" fromHasPrefix ordinal
        · rw [checked]
          exact .inr (.inr ⟨rfl,_,rfl⟩)
        · rw [checked]
          exact .inr (.inr ⟨rfl,_,rfl⟩)
        · rw [checked]
          exact .inr (.inr ⟨rfl,_,rfl⟩)
      | some second =>
        obtain ⟨empty,named,checked⟩ | ⟨empty,named,checked⟩ | ⟨empty,named,message,checked⟩ :=
            checkEndpoint_cases first "_from" fromHasPrefix ordinal <;>
          obtain ⟨empty',named',checked'⟩ | ⟨empty',named',checked'⟩ | ⟨empty',named',message',checked'⟩ :=
            checkEndpoint_cases second "_to" toHasPrefix ordinal <;>
          simp [checked,checked',empty,empty',named,named',bind,Except.bind,pure,Except.pure]
  | _ => exact .inr (.inr ⟨rfl,_,rfl⟩)

end Checks

section Streams
variable {fromHasPrefix toHasPrefix : Bool}

theorem validateFrom_filters (documents : List (Except Error Value)) (ordinal : Nat) :
    ∃ consumed rest, Filters hasSlash fromHasPrefix toHasPrefix documents ordinal
      (validateFrom fromHasPrefix toHasPrefix ordinal documents) consumed rest := by
  induction documents generalizing ordinal with
  | nil => exact ⟨[],[],rfl,rfl,rfl,by simp,.finished⟩
  | cons first documents ih =>
    cases first with
    | error err => exact ⟨[],_,rfl,rfl,rfl,by simp,.broken⟩
    | ok document =>
      obtain ⟨consumed,rest,split,yields,skips,formed,ending⟩ := ih (ordinal+1)
      have following : ordinal + 1 + consumed.length = ordinal + (document :: consumed).length := by
        rw [List.length_cons]
        omega
      rw [following] at ending
      obtain ⟨checked,isLinked,notUnlinked⟩ | ⟨checked,notLinked,isUnlinked⟩ | ⟨broken,message,checked⟩ :=
        checkEdge_cases document (ordinal+1) fromHasPrefix toHasPrefix
      · have run : validateFrom fromHasPrefix toHasPrefix ordinal (.ok document :: documents) =
            {validateFrom fromHasPrefix toHasPrefix (ordinal+1) documents with
              yielded := document :: (validateFrom fromHasPrefix toHasPrefix
                (ordinal+1) documents).yielded} := by
          rw [validateFrom,checked]
        refine ⟨document :: consumed,rest,congrArg (.ok document :: ·) split,?_,?_,?_,?_⟩
        · rw [run,List.filter_cons_of_pos isLinked,yields]
        · rw [run,List.countP_cons_of_neg (by simp [notUnlinked]),skips]
        · exact List.forall_mem_cons.mpr ⟨by simp [malformed,isLinked],formed⟩
        · rw [run]
          exact ending
      · have run : validateFrom fromHasPrefix toHasPrefix ordinal (.ok document :: documents) =
            {validateFrom fromHasPrefix toHasPrefix (ordinal+1) documents with
              skipped := (validateFrom fromHasPrefix toHasPrefix (ordinal+1) documents).skipped + 1} := by
          rw [validateFrom,checked]
        refine ⟨document :: consumed,rest,congrArg (.ok document :: ·) split,?_,?_,?_,?_⟩
        · rw [run,List.filter_cons_of_neg (by simp [notLinked]),yields]
        · rw [run,List.countP_cons_of_pos isUnlinked,skips]
        · exact List.forall_mem_cons.mpr ⟨by simp [malformed,isUnlinked],formed⟩
        · rw [run]
          exact ending
      · have run : validateFrom fromHasPrefix toHasPrefix ordinal (.ok document :: documents) =
            {failed := some (edgeError (ordinal+1) message)} := by
          rw [validateFrom,checked]
        refine ⟨[],.ok document :: documents,rfl,?_,?_,by simp,?_⟩
        · rw [run]
          rfl
        · rw [run]
          rfl
        · rw [run]
          exact .refused message broken

end Streams

-- `collection/key`, cut at the first slash.
def qualified (text : String) : Bool :=
  match Segments.cut '/' text.toList with
  | (_,none) => false
  | (collection,some key) => collection ≠ [] && key ≠ [] && !key.contains '/'

theorem qualified_iff {text : String} :
    qualified text = true ↔ ∃ collection key : String, collection ≠ "" ∧ key ≠ "" ∧ '/' ∉ collection.toList ∧
      '/' ∉ key.toList ∧ text = collection ++ "/" ++ key := by
  constructor
  · intro form
    have joined := Segments.cut_joined (d:= '/') text.toList
    have whole := Segments.cut_before (d:= '/') text.toList
    unfold qualified at form
    generalize Segments.cut '/' text.toList = parts at joined whole form
    obtain ⟨before,after⟩ := parts
    cases after with
    | none => cases form
    | some rest =>
      obtain ⟨⟨someBefore,someRest⟩,plain⟩ : (before ≠ [] ∧ rest ≠ []) ∧ '/' ∉ rest := by simpa using form
      refine ⟨.ofList before,.ofList
        rest,by simpa using someBefore,by simpa using someRest,by simpa using whole,
        by simpa using plain,?_⟩
      rw [← String.toList_inj,← joined]
      simp [Segments.tail,String.toList_append]
  · rintro ⟨collection,key,someCollection,someKey,whole,plain,rfl⟩
    have parts : Segments.cut '/' (collection ++ "/" ++ key).toList = (collection.toList,some key.toList) := by
      simpa [Segments.tail] using Segments.cut_tail whole (some key.toList)
    unfold qualified
    rw [parts]
    simp [someCollection,someKey,plain]

theorem qualified_slash {text : String} (form : qualified text = true) : hasSlash text = true := by
  obtain ⟨collection,key,_,_,_,_,rfl⟩ := qualified_iff.mp form
  simp [hasSlash]

section Rows
variable {form looser : String → Bool} {fromHasPrefix toHasPrefix hasPrefix : Bool} {document value : Value}

theorem names_not_blank (named : names form hasPrefix value = true) : blank value = false := by
  cases value with
  | string text => exact decide_eq_false (by simp [names] at named; exact named.1)
  | _ => cases named

theorem names_mono (wider : ∀ text, form text = true → looser text = true)
    (named : names form hasPrefix value = true) :
    names looser hasPrefix value = true := by
  cases value with
  | string text =>
    obtain ⟨some_,qualified⟩ : text ≠ "" ∧ (hasPrefix = true ∨ form text = true) := by simpa [names] using named
    have qualified' : hasPrefix = true ∨ looser text = true := qualified.imp id (wider text)
    simpa [names,some_] using qualified'
  | _ => cases named

theorem linked_iff : linked form fromHasPrefix toHasPrefix document = true ↔ ∃ from_ to_,
    document.get "_from" = some from_ ∧
    document.get "_to" = some to_ ∧ names form fromHasPrefix from_ = true ∧
    names form toHasPrefix to_ = true := by
  unfold linked withEndpoints
  cases document.get "_from" <;> cases document.get "_to" <;> simp

theorem unlinked_iff : unlinked form fromHasPrefix toHasPrefix document = true ↔ ∃ from_ to_,
    document.get "_from" = some from_ ∧
    document.get "_to" = some to_ ∧ (blank from_ = true ∨ blank to_ = true) ∧
    (blank from_ = true ∨ names form fromHasPrefix from_ = true) ∧
    (blank to_ = true ∨ names form toHasPrefix to_ = true) := by
  unfold unlinked withEndpoints
  cases document.get "_from" <;> cases document.get "_to" <;> simp [and_assoc]

theorem linked_not_unlinked (isLinked : linked form fromHasPrefix toHasPrefix document = true) :
    unlinked looser fromHasPrefix toHasPrefix document = false := by
  obtain ⟨from_,to_,held,held',named,named'⟩ := linked_iff.mp isLinked
  by_contra both
  obtain ⟨_,_,equal,equal',empty,_,_⟩ := unlinked_iff.mp (Bool.not_eq_false _ ▸ both)
  cases held.symm.trans equal
  cases held'.symm.trans equal'
  simp [names_not_blank named,names_not_blank named'] at empty

theorem linked_mono (wider : ∀ text, form text = true → looser text = true)
    (isLinked : linked form fromHasPrefix toHasPrefix document = true) :
    linked looser fromHasPrefix toHasPrefix document = true := by
  obtain ⟨from_,to_,held,held',named,named'⟩ := linked_iff.mp isLinked
  exact linked_iff.mpr ⟨from_,to_,held,held',names_mono wider named,names_mono wider named'⟩

theorem unlinked_mono (wider : ∀ text, form text = true → looser text = true)
    (isUnlinked : unlinked form fromHasPrefix toHasPrefix document = true) :
    unlinked looser fromHasPrefix toHasPrefix document = true := by
  obtain ⟨from_,to_,held,held',empty,first,second⟩ := unlinked_iff.mp isUnlinked
  exact unlinked_iff.mpr ⟨from_,to_,held,held',empty,first.imp id (names_mono wider),
    second.imp id (names_mono wider)⟩

theorem standing_same (wider : ∀ text, form text = true → looser text = true)
    (formed : malformed form fromHasPrefix toHasPrefix document = false) :
    malformed looser fromHasPrefix toHasPrefix document = false ∧
      linked looser fromHasPrefix toHasPrefix document = linked form fromHasPrefix toHasPrefix document ∧
      unlinked looser fromHasPrefix toHasPrefix document =
      unlinked form fromHasPrefix toHasPrefix document := by
  cases isLinked : linked form fromHasPrefix toHasPrefix document with
  | true =>
    have looserToo := linked_mono wider isLinked
    exact ⟨by simp [malformed,looserToo],looserToo,
      (linked_not_unlinked isLinked).trans (linked_not_unlinked isLinked).symm⟩
  | false =>
    have isUnlinked : unlinked form fromHasPrefix toHasPrefix document = true := by
      simpa [malformed,isLinked] using formed
    have looserToo := unlinked_mono wider isUnlinked
    have notLinked : linked looser fromHasPrefix toHasPrefix document = false := by
      by_contra both
      exact Bool.false_ne_true ((linked_not_unlinked (Bool.not_eq_false _ ▸ both)).symm.trans isUnlinked)
    exact ⟨by simp [malformed,looserToo],notLinked,looserToo.trans isUnlinked.symm⟩

end Rows

section Streams
variable {form : String → Bool} {fromHasPrefix toHasPrefix : Bool}
  {documents rest : List (Except Error Value)} {before : Nat}
  {run : Validated} {consumed : List Value}

theorem filters_length (filters : Filters form fromHasPrefix toHasPrefix documents before run consumed rest) :
    run.yielded.length + run.skipped = consumed.length := by
  have others : consumed.countP (unlinked form fromHasPrefix toHasPrefix) =
      consumed.countP fun document => ¬linked form fromHasPrefix toHasPrefix document = true := by
    refine List.countP_congr fun document present => ?_
    have formed := filters.formed document present
    cases isLinked : linked form fromHasPrefix toHasPrefix document with
    | true => simp [linked_not_unlinked isLinked]
    | false => simpa [malformed,isLinked] using formed
  rw [filters.yields,filters.skips,others,← List.countP_eq_length_filter]
  exact (List.length_eq_countP_add_countP (linked form fromHasPrefix toHasPrefix)).symm

def HasId (document : Value) (field : String) : Prop :=
  ∃ collection key : String, collection ≠ "" ∧ key ≠ "" ∧ '/' ∉ collection.toList ∧ '/' ∉ key.toList ∧
    document.get field = some (.string (collection ++ "/" ++ key))

structure Preflight (fromHasPrefix toHasPrefix : Bool) (documents : List (Except Error Value))
    (run : Validated) : Prop where
  subsequence : (run.yielded.map .ok).Sublist documents
  accounting : run.failed = none → run.yielded.length + run.skipped = documents.length
  endpoints : ∀ document ∈ run.yielded,
    (fromHasPrefix = false → HasId document "_from") ∧ (toHasPrefix = false → HasId document "_to")
  filters : ∃ consumed rest, Filters qualified fromHasPrefix toHasPrefix documents 0 run consumed rest

theorem names_hasId {document value : Value} {field : String} (held : document.get field = some value)
    (named : names qualified false value = true) : HasId document field := by
  cases value with
  | string text =>
    have form : qualified text = true := by
      have both : text ≠ "" ∧ qualified text = true := by simpa [names] using named
      exact both.2
    obtain ⟨collection,key,someCollection,someKey,whole,plain,rfl⟩ := qualified_iff.mp form
    exact ⟨collection,key,someCollection,someKey,whole,plain,held⟩
  | _ => cases named

theorem linked_ids {document : Value} (isLinked : linked qualified fromHasPrefix toHasPrefix document = true) :
    (fromHasPrefix = false → HasId document "_from") ∧ (toHasPrefix = false → HasId document "_to") := by
  obtain ⟨from_,to_,held,held',named,named'⟩ := linked_iff.mp isLinked
  exact ⟨fun bare => names_hasId held (bare ▸ named),fun bare => names_hasId held' (bare ▸ named')⟩

theorem filters_preflight
    (filters : Filters qualified fromHasPrefix toHasPrefix documents 0 run consumed rest) :
    Preflight fromHasPrefix toHasPrefix documents run where
  subsequence := by
    rw [filters.split,filters.yields]
    exact (List.filter_sublist.map _).trans (List.sublist_append_left _ _)
  accounting := by
    intro finished
    have ending := filters.ending
    rw [finished] at ending
    cases ending
    rw [filters_length filters,filters.split,List.append_nil,List.length_map]
  endpoints := by
    intro document present
    rw [filters.yields] at present
    exact linked_ids (List.mem_filter.mp present).2
  filters := ⟨consumed,rest,filters⟩

-- Malformed, but with a slash somewhere in every endpoint that needs one.
def halfQualified (fromHasPrefix toHasPrefix : Bool) (document : Value) : Bool :=
  malformed qualified fromHasPrefix toHasPrefix document &&
    !malformed hasSlash fromHasPrefix toHasPrefix document

theorem first_fails {α : Type} {P : α → Prop} (items : List α)
    (next : ∀ earlier item later, items = earlier ++ item :: later → (∀ before ∈ earlier, P before) → P item) :
    ∀ item ∈ items, P item := by
  induction items using List.reverseRecOn with
  | nil => exact fun _ listed => absurd listed List.not_mem_nil
  | append_singleton items last ih =>
    have before : ∀ item ∈ items, P item := by
      refine ih fun earlier item later split => next earlier item (later ++ [last]) ?_
      rw [split,List.append_assoc,List.cons_append]
    intro item listed
    rcases List.mem_append.mp listed with early | last_
    · exact before item early
    · obtain rfl := List.mem_singleton.mp last_
      exact next items item [] rfl before

theorem filters_reach {earlier : List Value} {document : Value} {later : List (Except Error Value)}
    (filters : Filters form fromHasPrefix toHasPrefix documents before run consumed rest)
    (split : documents = earlier.map .ok ++ .ok document :: later)
    (formed : ∀ row ∈ earlier ++ [document], malformed form fromHasPrefix toHasPrefix row = false) :
    document ∈ consumed := by
  have listed {rows : List Value} (among : Except.ok (ε:=Error) document ∈ rows.map .ok) : document ∈ rows := by
    obtain ⟨row,present,equal⟩ := List.mem_map.mp among
    cases equal
    exact present
  have meet : (earlier ++ [document]).map .ok ++ later = consumed.map .ok ++ rest := by
    rw [← filters.split,split,List.map_append,List.append_assoc]
    rfl
  rcases List.append_eq_append_iff.mp meet with ⟨more,covered,_⟩ | ⟨more,covered,remaining⟩
  · refine listed ?_
    rw [covered]
    simp
  · cases more with
    | nil =>
      refine listed ?_
      rw [← List.append_nil (consumed.map _),← covered]
      simp
    | cons first more =>
      have present : first ∈ (earlier ++ [document]).map Except.ok := by simp [covered]
      obtain ⟨row,among,rfl⟩ := List.mem_map.mp present
      have ending := filters.ending
      rw [remaining] at ending
      generalize run.failed = failed at ending
      cases ending with
      | refused message broken => exact absurd (formed row among) (by simp [broken])

theorem ending_mono {looser : String → Bool} (wider : ∀ text, form text = true → looser text = true)
    {n : Nat} {failed : Option Error}
    (ending : Ending looser fromHasPrefix toHasPrefix n rest failed) :
    Ending form fromHasPrefix toHasPrefix n rest failed := by
  cases ending with
  | finished => exact .finished
  | broken => exact .broken
  | @refused document rest message broken =>
    refine .refused message ?_
    by_contra formed
    have accepted := (standing_same wider (Bool.not_eq_true _ ▸ formed)).1
    exact Bool.false_ne_true (accepted.symm.trans broken)

theorem preflight_iff (documents : List (Except Error Value)) (fromHasPrefix toHasPrefix : Bool) :
    Preflight fromHasPrefix toHasPrefix documents (validateEdgeDocuments documents fromHasPrefix toHasPrefix) ↔
      ∀ (earlier : List Value) (document : Value) (later : List (Except Error Value)),
        documents = earlier.map .ok ++ .ok document :: later →
        (∀ row ∈ earlier, malformed qualified fromHasPrefix toHasPrefix row = false) →
        halfQualified fromHasPrefix toHasPrefix document = false := by
  obtain ⟨consumed,rest,loose⟩ := @validateFrom_filters fromHasPrefix toHasPrefix documents 0
  have slash : ∀ text, qualified text = true → hasSlash text = true := fun _ => qualified_slash
  constructor
  · intro preflight earlier document later split formed
    obtain ⟨consumed',rest',strict⟩ := preflight.filters
    have lengths : consumed.length = consumed'.length :=
      (filters_length loose).symm.trans (filters_length strict)
    have same : consumed = consumed' := by
      have meet := loose.split.symm.trans strict.split
      have mapped := (List.append_inj meet (by simp [lengths])).1
      exact (List.map_inj_right fun _ _ equal => Except.ok.inj equal).mp mapped
    by_contra half
    obtain ⟨broken,accepted⟩ : malformed qualified fromHasPrefix toHasPrefix document = true ∧
        malformed hasSlash fromHasPrefix toHasPrefix document = false := by simpa [halfQualified] using half
    have reached : document ∈ consumed := by
      refine filters_reach loose split fun row present => ?_
      rcases List.mem_append.mp present with early | last_
      · exact (standing_same slash (formed row early)).1
      · rw [List.mem_singleton.mp last_]
        exact accepted
    rw [same] at reached
    exact Bool.false_ne_true ((strict.formed document reached).symm.trans broken)
  · intro condition
    have formed : ∀ document ∈ consumed, malformed qualified fromHasPrefix toHasPrefix document = false := by
      refine first_fails consumed fun earlier document later split before => ?_
      have accepted := loose.formed document (by simp [split])
      have half := condition earlier document (later.map .ok ++ rest) (by simp [loose.split,split]) before
      simpa [halfQualified,accepted] using half
    refine filters_preflight ⟨loose.split,?_,?_,formed,ending_mono slash loose.ending⟩
    · rw [validateEdgeDocuments,loose.yields]
      exact List.filter_congr fun document present => (standing_same slash (formed document present)).2.1
    · rw [validateEdgeDocuments,loose.skips]
      refine List.countP_congr fun document present => ?_
      rw [(standing_same slash (formed document present)).2.2]

end Streams

def halfEdge : Value := .object [("_from",.string "people/"),("_to",.string "people/bob")]

theorem half_edge_passes : ¬∀ (documents : List (Except Error Value)) (fromHasPrefix toHasPrefix : Bool),
    Preflight fromHasPrefix toHasPrefix documents
      (validateEdgeDocuments documents fromHasPrefix toHasPrefix) := by
  intro always
  have passed : halfEdge ∈ (validateEdgeDocuments [.ok halfEdge] false false).yielded := by
    have run : (validateEdgeDocuments [.ok halfEdge] false false).yielded = [halfEdge] := by rfl
    rw [run]
    exact List.mem_singleton_self _
  obtain ⟨collection,key,someCollection,someKey,whole,plain,held⟩ :=
    ((always [.ok halfEdge] false false).endpoints halfEdge passed).1 rfl
  have form : qualified "people/" = true := by
    have equal : some (Value.string "people/") = some (.string (collection ++ "/" ++ key)) := held
    exact qualified_iff.mpr ⟨collection,key,someCollection,someKey,whole,plain,
      Value.string.inj (Option.some.inj equal)⟩
  exact absurd form (by decide)

end ArangoDataTools.EdgePreflight
