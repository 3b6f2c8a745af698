import ArangoDataTools.RdfStatements

namespace ArangoDataTools.RdfLines
open TextScan

inductive Place where
  | between
  | delimited (close : Char) (escaped : Bool)
  | label
  deriving DecidableEq, Repr

def Place.enter (c : Char) : Place :=
  if c = '<' then .delimited '>' false
  else if c = '"' then .delimited '"' false
  else if c = '_' then .label
  else .between

-- What follows the first `.` outside IRIs, quotes and blank node labels.
def afterDot : Place → List Char → List Char
  | _, [] => []
  | .between, c :: rest => if c = '.' then rest else afterDot (.enter c) rest
  | .delimited close true, _ :: rest => afterDot (.delimited close false) rest
  | .delimited close false, c :: rest =>
    if c = close then afterDot .between rest else afterDot (.delimited close (c = '\\')) rest
  | .label, c :: rest => if isLabelChar c then afterDot .label rest else afterDot (.enter c) rest

-- Only blanks, or blanks and a comment.
def Insignificant (tail : List Char) : Prop := skipWs tail = [] ∨ (skipWs tail).head? = some '#'

instance : DecidablePred Insignificant := fun _ => inferInstanceAs (Decidable (_ ∨ _))

def WholeLine (format : RdfFormat) (line : List Char) : Prop :=
  ∃ triple tail, StatementAt format triple line tail ∧ Insignificant tail

variable {text rest body line tail : List Char} {close : Char} {iri label value : String}
  {resource : RdfResource}
variable {term : RdfTerm} {format : RdfFormat} {triple : RdfTriple}

theorem after_pairs (mark : close ≠ '\\') (pairs : Pairs close body) :
    afterDot (.delimited close false) (body ++ close :: rest) = afterDot .between rest := by
  induction pairs with
  | nil => exact if_pos rfl
  | single free _ ih => rw [List.cons_append,afterDot,if_neg free.1,decide_eq_false free.2,ih]
  | pair _ ih =>
    rw [List.cons_append,List.cons_append,afterDot,if_neg (Ne.symm mark)]
    exact ih

theorem after_inert (inert : ∀ c ∈ body, c ≠ '.' ∧ Place.enter c = .between) :
    afterDot .between (body ++ rest) = afterDot .between rest := by
  induction body with
  | nil => rfl
  | cons first body ih =>
    obtain ⟨dot,enters⟩ := inert first (by simp)
    rw [List.cons_append,afterDot,if_neg dot,enters]
    exact ih fun c member => inert c (List.mem_cons_of_mem _ member)

theorem after_skipTo (skip : SkipTo text rest) : afterDot .between text = afterDot .between rest := by
  obtain ⟨gap,blanks,rfl⟩ := skip
  refine after_inert fun c member => ?_
  have kind := blanks c member
  simp only [isBlank,Bool.or_eq_true,decide_eq_true_eq] at kind
  rcases kind with rfl | rfl <;> decide

theorem after_iriAt (at_text : IriAt iri text rest) : afterDot .between text = afterDot .between rest := by
  obtain ⟨body,spells,rfl⟩ := at_text
  exact after_pairs (by decide) ((spells_free rfl).mp spells).2

theorem after_quotedAt (at_text : QuotedAt value text rest) : afterDot .between text =
    afterDot .between rest := by
  obtain ⟨body,spells,rfl⟩ := at_text
  exact after_pairs (by decide) ((spells_free rfl).mp spells).2

theorem after_label (labels : ∀ c ∈ body, isLabelChar c = true) (stops : Stops isLabelChar rest) :
    afterDot .label (body ++ rest) = afterDot .between rest := by
  induction body with
  | nil =>
    cases rest with
    | nil => rfl
    | cons first rest =>
      have ends := stops first rfl
      have dot : first ≠ '.' := by
        rintro rfl
        exact absurd ends (by decide)
      rw [List.nil_append,afterDot,afterDot,ends,if_neg dot]
      rfl
  | cons first body ih =>
    rw [List.cons_append,afterDot,labels first (by simp)]
    exact ih fun c member => labels c (List.mem_cons_of_mem _ member)

theorem after_blankAt (at_text : BlankAt label text rest) : afterDot .between text =
    afterDot .between rest := by
  obtain ⟨_,labels,stops,rfl⟩ := at_text
  exact after_label (List.forall_mem_cons.mpr ⟨by decide,labels⟩) stops

theorem after_resourceAt (at_text : ResourceAt resource text rest) : afterDot .between text =
    afterDot .between rest := by
  cases at_text with
  | iri at_text => exact after_iriAt at_text
  | blank at_text => exact after_blankAt at_text

theorem tag_inert {c : Char} (tag : isTagChar c = true) : c ≠ '.' ∧ Place.enter c = .between := by
  have other : ∀ d, isTagChar d = false → c ≠ d := by
    rintro d no rfl
    rw [tag] at no
    cases no
  refine ⟨other '.' rfl,?_⟩
  rw [Place.enter,if_neg (other '<' rfl),if_neg (other '"' rfl),if_neg (other '_' rfl)]

theorem after_suffixAt {datatype language : Option String} (at_text : SuffixAt datatype language text rest) :
    afterDot .between text = afterDot .between rest := by
  cases at_text with
  | none => rfl
  | datatype at_text =>
    have carets : ∀ c ∈ ['^','^'], c ≠ '.' ∧ Place.enter c = .between :=
      List.forall_iff_forall_mem.mp (by decide)
    exact (after_inert carets).trans (after_iriAt at_text)
  | language _ tags _ => exact after_inert (List.forall_mem_cons.mpr ⟨by decide,fun c member => tag_inert (tags c member)⟩)

theorem after_termAt (at_text : TermAt term text rest) : afterDot .between text = afterDot .between rest := by
  cases at_text with
  | iri at_text => exact after_iriAt at_text
  | blank at_text => exact after_blankAt at_text
  | literal quoted suffix => exact (after_quotedAt quoted).trans (after_suffixAt suffix)

theorem after_statement (statement : StatementAt format triple line tail) : afterDot .between line = tail := by
  cases statement with
  | triple first subject second predicate third object dot =>
    rw [after_skipTo first,after_resourceAt subject,after_skipTo second,after_iriAt predicate,
      after_skipTo third,
      after_termAt object,after_skipTo dot]
    rfl
  | quad _ first subject second predicate third object fourth graph dot =>
    rw [after_skipTo first,after_resourceAt subject,after_skipTo second,after_iriAt predicate,
      after_skipTo third,
      after_termAt object,after_skipTo fourth,after_resourceAt graph,after_skipTo dot]
    rfl

-- An accepted line begins with a statement; whatever follows its `.` is not
-- looked at.
theorem accepted_line_whole_iff (accepted : parseStatement line format = .ok (some triple)) :
    WholeLine format line ↔ Insignificant (afterDot .between line) := by
  constructor
  · rintro ⟨other,tail,statement,insignificant⟩
    rwa [after_statement statement]
  · intro insignificant
    obtain ⟨tail,statement⟩ := parseStatement_iff.mp accepted
    exact ⟨triple,tail,statement,after_statement statement ▸ insignificant⟩

-- `<s><p>_:o .#c`
theorem commented_line_whole :
    WholeLine .nQuads ['<','s','>','<','p','>','_',':','o',' ','.','#','c'] ↔ Insignificant ['#','c'] := by
  have accepted : parseStatement ['<','s','>','<','p','>','_',':','o',' ','.','#','c'] .nQuads =
      .ok (some ⟨.iri "s","p",.blankNode "o",none⟩) := rfl
  exact accepted_line_whole_iff accepted

-- `<s> <p> <o> . <t>`
theorem second_statement_ignored :
    parseStatement ['<','s','>',' ','<','p','>',' ','<','o','>',' ','.',' ','<','t','>'] .nTriples =
        .ok (some ⟨.iri "s","p",.iri "o",none⟩) ∧
      ¬WholeLine .nTriples ['<','s','>',' ','<','p','>',' ','<','o','>',' ','.',' ','<','t','>'] := by
  refine ⟨rfl,?_⟩
  rintro ⟨other,tail,statement,insignificant⟩
  have same : [' ','<','t','>'] = tail := after_statement statement
  subst same
  exact absurd insignificant (by decide)

end ArangoDataTools.RdfLines
