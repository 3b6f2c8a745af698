import ArangoDataTools.RdfRendering
import ArangoDataTools.RdfWholeLine

namespace ArangoDataTools.RdfLines
open TextScan

def Blanks (gap : List Char) : Prop := ∀ c ∈ gap, isBlank c = true

def Parted (object : RdfTerm) (graph : RdfResource) (gap : List Char) : Prop :=
  gap = [] → ∀ first second, object = .blankNode first → graph ≠ .blankNode second

-- A line of a quad as the grammar has it, and the spaces and tabs before its `.`.
inductive LaidOut : Quad → List Char → List Char → Prop where
  | triple {subject : RdfResource} {predicate : String} {object : RdfTerm}
      {lead a first b second c last tail : List Char} :
      Blanks lead → ResourceText subject a → Blanks first → IriText predicate b → Blanks second →
      TermText object c →
      Blanks last → Insignificant tail →
      LaidOut ⟨subject,predicate,object,none⟩ last
        (lead ++ (a ++ (first ++ (b ++ (second ++ (c ++ (last ++ '.' :: tail)))))))
  | quad {subject graph : RdfResource} {predicate : String} {object : RdfTerm}
      {lead a first b second c third d last tail : List Char} :
      Blanks lead → ResourceText subject a → Blanks first → IriText predicate b → Blanks second →
      TermText object c →
      Blanks third → Parted object graph third → ResourceText graph d → Blanks last → Insignificant tail →
      LaidOut ⟨subject,predicate,object,some graph⟩ last
        (lead ++ (a ++ (first ++ (b ++ (second ++ (c ++ (third ++ (d ++ (last ++ '.' :: tail)))))))))

-- The term before the `.` is a blank node.
def Quad.EndsInBlank (quad : Quad) : Prop :=
  (∃ label, quad.graph = some (.blankNode label)) ∨ quad.graph = none ∧ ∃ label, quad.object = .blankNode label

variable {iri label value : String} {text rest gap line a b c d e f : List Char}
  {resource graph : RdfResource} {term object : RdfTerm}
  {quad : Quad} {format : RdfFormat}

theorem blanks_skip (blanks : Blanks gap) (rest : List Char) : SkipTo (gap ++ rest) rest := ⟨gap,blanks,rfl⟩

def Follows (rest : List Char) : Prop := Stops isTagChar rest ∧ rest.head? ≠ some '@' ∧ rest.head? ≠ some '^'

theorem blanks_begin {first : Char} (blanks : Blanks gap) (rest : List Char) :
    ∃ c more, gap ++ first :: rest = c :: more ∧ (isBlank c = true ∨ gap = [] ∧ c = first) := by
  cases gap with
  | nil => exact ⟨first,rest,rfl,.inr ⟨rfl,rfl⟩⟩
  | cons c gap => exact ⟨c,gap ++ first :: rest,rfl,.inl (blanks c List.mem_cons_self)⟩

theorem blanks_follow {first : Char} (blanks : Blanks gap)
    (mark : first = '<' ∨ first = '_' ∨ first = '.') (rest : List Char) :
    Follows (gap ++ first :: rest) := by
  obtain ⟨c,more,whole,kind⟩ := @blanks_begin gap first blanks rest
  rw [whole]
  rcases kind with blank | ⟨-,rfl⟩
  · obtain ⟨-,tag,at_sign,caret⟩ := blank_ends blank
    exact ⟨stops_cons tag,fun same => at_sign (Option.some.inj same),fun same => caret (Option.some.inj same)⟩
  · rcases mark with rfl | rfl | rfl <;> exact ⟨stops_cons rfl,by simp,by simp⟩

theorem blanks_stop {first : Char} (blanks : Blanks gap) (mark : gap ≠ [] ∨ first = '<') (rest : List Char) :
    Stops isLabelChar (gap ++ first :: rest) := by
  obtain ⟨c,more,whole,kind⟩ := @blanks_begin gap first blanks rest
  rw [whole]
  rcases kind with blank | ⟨none_,rfl⟩
  · exact stops_cons (blank_ends blank).1
  · obtain rfl := mark.resolve_left fun some_ => some_ none_
    exact stops_cons rfl

theorem resource_at (text_of : ResourceText resource text)
    (ends : ∀ label, resource = .blankNode label → Stops isLabelChar rest) :
    ResourceAt resource (text ++ rest) rest := by
  cases text_of with
  | iri text_of => exact .iri (iriText_at text_of _)
  | blank text_of => exact .blank (labelText_at text_of (ends _ rfl))

theorem term_at (text_of : TermText term text) (ends : ∀ label, term = .blankNode label → Stops isLabelChar rest)
    (follows : Follows rest) : TermAt term (text ++ rest) rest := by
  obtain ⟨tag,at_sign,caret⟩ := follows
  cases text_of with
  | iri text_of => exact .iri (iriText_at text_of _)
  | blank text_of => exact .blank (labelText_at text_of (ends _ rfl))
  | plain text_of => exact .literal (quotedText_at text_of _) (.none at_sign fun more same => caret (by rw [same]; rfl))
  | typed text_of datatype =>
    rw [List.append_assoc]
    exact .literal (quotedText_at text_of _) (.datatype (iriText_at datatype _))
  | tagged text_of nonempty tags =>
    rw [List.append_assoc]
    exact .literal (quotedText_at text_of _) (.language nonempty tags tag)

theorem iri_begins (text_of : IriText iri text) : ∃ more, text = '<' :: more := by
  cases text_of with
  | iri => exact ⟨_,rfl⟩

theorem resource_begins (text_of : ResourceText resource text) :
    (∃ label more, resource = .blankNode label ∧ text = '_' :: more) ∨ ∃ iri more,
    resource = .iri iri ∧ text = '<' :: more := by
  cases text_of with
  | iri text_of =>
    obtain ⟨more,rfl⟩ := iri_begins text_of
    exact .inr ⟨_,more,rfl,rfl⟩
  | blank text_of => cases text_of with
    | label => exact .inl ⟨_,_,rfl,rfl⟩

theorem object_at (text_of : TermText object c) (blanks : Blanks gap)
    (parted : Parted object graph gap) (graph_of : ResourceText graph d)
    (rest : List Char) : TermAt object (c ++ (gap ++ (d ++ rest))) (gap ++ (d ++ rest)) := by
  rcases resource_begins graph_of with ⟨label,more,rfl,rfl⟩ | ⟨iri,more,rfl,rfl⟩
  · refine term_at text_of (fun other same => ?_) (blanks_follow blanks (.inr (.inl rfl)) _)
    exact blanks_stop blanks (.inl fun none_ => parted none_ other label same rfl) _
  · exact term_at text_of (fun _ _ => blanks_stop blanks (.inr rfl) _) (blanks_follow blanks (.inl rfl) _)

theorem subject_at (text_of : ResourceText resource a) (blanks : Blanks gap)
    (predicate_of : IriText iri b) (rest : List Char) :
    ResourceAt resource (a ++ (gap ++ (b ++ rest))) (gap ++ (b ++ rest)) := by
  obtain ⟨more,rfl⟩ := iri_begins predicate_of
  exact resource_at text_of fun _ _ => blanks_stop blanks (.inr rfl) _

theorem parse_laid (laid : LaidOut quad gap line) (fits : format = .nQuads ∨ quad.graph = none)
    (clear : gap ≠ [] ∨ ¬ quad.EndsInBlank) :
    parseStatement line format = .ok (some quad.triple) := by
  cases laid with
  | @triple _ _ term _ _ _ _ _ text _ tail lead subject first predicate second object last _ =>
    have ends : TermAt term (text ++ (gap ++ '.' :: tail)) (gap ++ '.' :: tail) := by
      refine term_at object (fun label same => ?_) (blanks_follow last (.inr (.inr rfl)) tail)
      exact blanks_stop last (.inl (clear.resolve_right fun other => other (.inr ⟨rfl,label,same⟩))) tail
    exact parseStatement_iff.mpr
      ⟨_,.triple (blanks_skip lead _) (subject_at subject first predicate _) (blanks_skip first _)
      (iriText_at predicate _) (blanks_skip second _) ends (blanks_skip last _)⟩
  | @quad _ name _ _ _ _ _ _ _ _ _ text _ tail lead subject first predicate second object third parted graph last _ =>
    have ends : ResourceAt name (text ++ (gap ++ '.' :: tail)) (gap ++ '.' :: tail) := by
      refine resource_at graph fun label same => ?_
      exact blanks_stop last (.inl
        (clear.resolve_right fun other => other (.inl ⟨label,congrArg some same⟩))) tail
    exact parseStatement_iff.mpr
      ⟨_,.quad (fits.resolve_right (by simp)) (blanks_skip lead _) (subject_at subject first predicate _)
      (blanks_skip first _) (iriText_at predicate _) (blanks_skip second _)
        (object_at object third parted graph _) (blanks_skip third _)
      ends (blanks_skip last _)⟩

theorem resource_once {other : RdfResource} (skip : SkipTo line a)
    (at_text : ResourceAt resource a b) (again : SkipTo line c)
    (at_other : ResourceAt other c d) : resource = other ∧ b = d := by
  obtain rfl : a = c := (skipWs_skipTo skip (resourceAt_stops at_text)).symm.trans
      (skipWs_skipTo again (resourceAt_stops at_other))
  have same := (readResource_iff.mpr at_text).symm.trans (readResource_iff.mpr at_other)
  simpa using same

theorem iri_once {other : String} (skip : SkipTo line a) (at_text : IriAt iri a b)
    (again : SkipTo line c) (at_other : IriAt other c d) :
    iri = other ∧ b = d := by
  have both := resource_once skip (.iri at_text) again (.iri at_other)
  simpa using both

theorem term_once {other : RdfTerm} (skip : SkipTo line a) (at_text : TermAt term a b) (again : SkipTo line c)
    (at_other : TermAt other c d) : term = other ∧ b = d := by
  obtain rfl : a = c := (skipWs_skipTo skip (termAt_stops at_text)).symm.trans
      (skipWs_skipTo again (termAt_stops at_other))
  have same := (readObject_iff.mpr at_text).symm.trans (readObject_iff.mpr at_other)
  simpa using same

theorem label_dotted (text_of : LabelText label text) (tail : List Char) :
    ¬ BlankAt label (text ++ '.' :: tail) rest := by
  rintro ⟨-,-,stops,same⟩
  cases text_of with
  | label =>
    rw [List.cons_append,List.cons_append] at same
    obtain rfl : '.' :: tail = rest := List.append_cancel_left (List.cons.inj (List.cons.inj same).2).2
    exact absurd (stops '.' rfl) (by decide)

theorem label_once (blanks : Blanks gap) (text_of : LabelText label text) (tail : List Char)
    (skip : SkipTo (gap ++ (text ++ '.' :: tail)) a) :
    ¬ BlankAt label a b := by
  intro at_text
  have begins : Stops isBlank (text ++ '.' :: tail) := by
    cases text_of with
    | label => exact stops_cons rfl
  obtain rfl : text ++ '.' :: tail = a :=
    (skipWs_skipTo (blanks_skip blanks _) begins).symm.trans
      (skipWs_skipTo skip (stops_head (blankAt_head at_text) rfl))
  exact label_dotted text_of tail at_text

theorem dotted_refused (laid : LaidOut quad [] line) (dotted : quad.EndsInBlank) :
    parseStatement line format ≠ .ok (some quad.triple) := by
  intro parsed
  obtain ⟨rest,statement⟩ := parseStatement_iff.mp parsed
  cases laid with
  | @triple subject predicate object _ _ _ _ _ text _ tail lead subject_of first predicate_of second object_of _ _ =>
    obtain ⟨label,rfl⟩ : ∃ label, object = .blankNode label := by
      rcases dotted with ⟨label,absurd_⟩ | ⟨-,blank⟩
      · cases absurd_
      · exact blank
    cases statement with
    | triple start here between predicate_here gap object_here dot =>
      obtain ⟨-,rfl⟩ := resource_once (blanks_skip lead _)
          (subject_at subject_of first predicate_of _) start here
      obtain ⟨-,rfl⟩ := iri_once (blanks_skip first _) (iriText_at predicate_of _) between predicate_here
      cases object_of with
      | blank label_of => cases object_here with
        | blank label_here => exact label_once second label_of tail gap label_here
  | @quad subject graph predicate object _ _ _ _ _ _ _ text _ tail lead subject_of first predicate_of second object_of third parted graph_of _ _ =>
    obtain ⟨label,rfl⟩ : ∃ label, graph = .blankNode label := by
      rcases dotted with ⟨label,same⟩ | ⟨absurd_,-⟩
      · exact ⟨label,Option.some.inj same⟩
      · cases absurd_
    generalize whole : Quad.triple ⟨subject,predicate,object,some (.blankNode label)⟩ = triple at statement
    cases statement with
    | triple => cases whole
    | @quad _ _ _ _ _ _ _ _ _ _ _ other _ _ _ start here between predicate_here gap object_here later graph_here dot =>
      obtain ⟨-,rfl⟩ := resource_once (blanks_skip lead _)
          (subject_at subject_of first predicate_of _) start here
      obtain ⟨-,rfl⟩ := iri_once (blanks_skip first _) (iriText_at predicate_of _) between predicate_here
      obtain ⟨-,rfl⟩ := term_once (blanks_skip second _)
          (object_at object_of third parted graph_of _) gap object_here
      have named : "_:" ++ label = graphName other := by
        simpa [Quad.triple,graphName] using congrArg RdfTriple.graph whole
      cases graph_of with
      | blank label_of =>
        cases graph_here with
        | iri iri_here =>
          cases label_of with
          | label =>
            have same := (skipWs_skipTo (blanks_skip third _) (stops_cons rfl)).symm.trans
              (skipWs_skipTo later (stops_head (iriAt_head iri_here) rfl))
            have heads := iriAt_head iri_here
            rw [← same] at heads
            cases heads
        | @blank second_label _ _ label_here =>
          obtain rfl : label = second_label := (String.append_right_inj "_:").mp named
          exact label_once third label_of tail later label_here

theorem laid_iff (laid : LaidOut quad gap line) (fits : format = .nQuads ∨ quad.graph = none) :
    parseStatement line format = .ok (some quad.triple) ↔ ¬ (quad.EndsInBlank ∧ gap = []) := by
  constructor
  · rintro parsed ⟨dotted,rfl⟩
    exact dotted_refused laid dotted parsed
  · intro clear
    exact parse_laid laid fits (or_iff_not_imp_left.mpr fun none_ dotted => clear ⟨dotted,not_not.mp none_⟩)

-- Two layouts of a quad are read as that quad unless a blank node stands directly before
-- the `.` in one of them.
theorem layout_free_iff {other again : List Char} (laid : LaidOut quad gap line)
    (second : LaidOut quad other again)
    (fits : format = .nQuads ∨ quad.graph = none) :
    (parseStatement line format = .ok (some quad.triple) ∧ parseStatement again format =
    .ok (some quad.triple)) ↔
      ¬ (quad.EndsInBlank ∧ (gap = [] ∨ other = [])) := by
  rw [laid_iff laid fits,laid_iff second fits]
  tauto

def sampleQuad : Quad := ⟨.iri "s","p",.blankNode "o",none⟩

theorem sample_laid {last tail : List Char} (blanks : Blanks last) (rest : Insignificant tail) :
    LaidOut sampleQuad last (['<','s','>',' ','<','p','>',' ','_',':','o'] ++ (last ++ '.' :: tail)) := by
  have first : Spells (Free '>') namedEscape "s".toList ['s'] := .raw ⟨by decide,by decide⟩ .nil
  have second : Spells (Free '>') namedEscape "p".toList ['p'] := .raw ⟨by decide,by decide⟩ .nil
  have subject : IriText "s" ['<','s','>'] := .iri first
  have predicate : IriText "p" ['<','p','>'] := .iri second
  have object : LabelText "o" ['_',':','o'] := .label (by decide) (List.forall_iff_forall_mem.mp (by decide))
  have space : Blanks [' '] := List.forall_mem_singleton.mpr rfl
  exact .triple (List.forall_mem_nil _) (.iri subject) space predicate space (.blank object) blanks rest

-- A space before the `.`, and a tab and a comment.
theorem spaced_layouts_read :
    parseStatement ['<','s','>',' ','<','p','>',' ','_',':','o',' ','.'] .nTriples =
    .ok (some sampleQuad.triple) ∧
    parseStatement ['<','s','>',' ','<','p','>',' ','_',':','o','\t','.','#','c'] .nTriples =
    .ok (some sampleQuad.triple) := by
  have space : Blanks [' '] := List.forall_mem_singleton.mpr rfl
  have tab : Blanks ['\t'] := List.forall_mem_singleton.mpr rfl
  exact (layout_free_iff (sample_laid space (.inl rfl)) (sample_laid tab (.inr rfl)) (.inr rfl)).mpr (by simp)

-- `<s> <p> _:o.`
theorem dotted_label_refused :
    LaidOut sampleQuad [] ['<','s','>',' ','<','p','>',' ','_',':','o','.'] ∧
    LaidOut sampleQuad [' '] ['<','s','>',' ','<','p','>',' ','_',':','o',' ','.'] ∧
    parseStatement ['<','s','>',' ','<','p','>',' ','_',':','o','.'] .nTriples =
      .error (.config "unexpected token after object; expected '.'") ∧
    parseStatement ['<','s','>',' ','<','p','>',' ','_',':','o',' ','.'] .nTriples =
      .ok (some sampleQuad.triple) :=
  ⟨sample_laid (List.forall_mem_nil _) (.inl rfl),sample_laid (List.forall_mem_singleton.mpr rfl)
    (.inl rfl),rfl,rfl⟩

end ArangoDataTools.RdfLines
