import ArangoDataTools.RdfStatements

namespace ArangoDataTools.RdfLines
open TextScan

-- A statement before it is written: the graph label is a resource.
structure Quad where
  subject : RdfResource
  predicate : String
  object : RdfTerm
  graph : Option RdfResource
  deriving DecidableEq, Repr

def Quad.triple (quad : Quad) : RdfTriple := ⟨quad.subject,quad.predicate,quad.object,quad.graph.map graphName⟩

-- The texts of a term: each character of an IRI or a literal raw or as one of
-- its escapes.
inductive IriText : String → List Char → Prop where
  | iri {iri : String} {body : List Char} : Spells (Free '>') namedEscape iri.toList body →
      IriText iri ('<' :: body ++ ['>'])

inductive LabelText : String → List Char → Prop where
  | label {label : String} : label.toList ≠ [] → (∀ c ∈ label.toList, isLabelChar c = true) →
      LabelText label ('_' :: ':' :: label.toList)

inductive ResourceText : RdfResource → List Char → Prop where
  | iri {iri : String} {text : List Char} : IriText iri text → ResourceText (.iri iri) text
  | blank {label : String} {text : List Char} : LabelText label text → ResourceText (.blankNode label) text

inductive QuotedText : String → List Char → Prop where
  | quoted {value : String} {body : List Char} : Spells (Free '"') namedEscape value.toList body →
      QuotedText value ('"' :: body ++ ['"'])

inductive TermText : RdfTerm → List Char → Prop where
  | iri {iri : String} {text : List Char} : IriText iri text → TermText (.iri iri) text
  | blank {label : String} {text : List Char} : LabelText label text → TermText (.blankNode label) text
  | plain {value : String} {text : List Char} : QuotedText value text → TermText (.literal value none none) text
  | typed {value datatype : String} {text suffix : List Char} : QuotedText value text →
      IriText datatype suffix →
      TermText (.literal value (some datatype) none) (text ++ '^' :: '^' :: suffix)
  | tagged {value tag : String} {text : List Char} : QuotedText value text → tag.toList ≠ [] →
      (∀ c ∈ tag.toList, isTagChar c = true) →
      TermText (.literal value none (some tag)) (text ++ '@' :: tag.toList)

def Separator (gap : List Char) : Prop := gap ≠ [] ∧ ∀ c ∈ gap, isBlank c = true

inductive Rendered : Quad → List Char → Prop where
  | triple {subject : RdfResource} {predicate : String} {object : RdfTerm}
      {a b c first second third : List Char} :
      ResourceText subject a → Separator first → IriText predicate b → Separator second →
      TermText object c → Separator third →
      Rendered ⟨subject,predicate,object,none⟩ (a ++ (first ++ (b ++ (second ++ (c ++ (third ++ ['.']))))))
  | quad {subject graph : RdfResource} {predicate : String} {object : RdfTerm}
      {a b c d first second third fourth : List Char} :
      ResourceText subject a → Separator first → IriText predicate b → Separator second →
      TermText object c → Separator third →
      ResourceText graph d → Separator fourth →
      Rendered ⟨subject,predicate,object,some graph⟩
        (a ++ (first ++ (b ++ (second ++ (c ++ (third ++ (d ++ (fourth ++ ['.']))))))))

variable {iri label value : String} {text rest gap line : List Char} {resource : RdfResource}
  {term : RdfTerm} {quad : Quad}

theorem separator_skips (separator : Separator gap) (rest : List Char) :
    SkipTo (gap ++ rest) rest := ⟨gap,separator.2,rfl⟩

theorem separator_begins (separator : Separator gap) (rest : List Char) : ∃ c more,
    gap ++ rest = c :: more ∧ isBlank c = true := by
  obtain ⟨nonempty,blanks⟩ := separator
  obtain ⟨c,more,rfl⟩ := List.exists_cons_of_ne_nil nonempty
  exact ⟨c,more ++ rest,rfl,blanks c (by simp)⟩

theorem blank_ends {c : Char} (blank : isBlank c = true) : isLabelChar c = false ∧
    isTagChar c = false ∧ c ≠ '@' ∧ c ≠ '^' := by
  simp only [isBlank,Bool.or_eq_true,decide_eq_true_eq] at blank
  rcases blank with rfl | rfl <;> decide

theorem iriText_at (text_of : IriText iri text) (rest : List Char) : IriAt iri (text ++ rest) rest := by
  cases text_of with
  | iri spells => exact ⟨_,spells,by simp⟩

theorem labelText_at (text_of : LabelText label text) (stops : Stops isLabelChar rest) :
    BlankAt label (text ++ rest) rest := by
  cases text_of with
  | label nonempty labels => exact ⟨nonempty,labels,stops,rfl⟩

theorem quotedText_at (text_of : QuotedText value text) (rest : List Char) :
    QuotedAt value (text ++ rest) rest := by
  cases text_of with
  | quoted spells => exact ⟨_,spells,by simp⟩

theorem resourceText_at (text_of : ResourceText resource text) (separator : Separator gap) :
    ResourceAt resource (text ++ (gap ++ rest)) (gap ++ rest) := by
  obtain ⟨c,more,begins,blank⟩ := separator_begins separator rest
  cases text_of with
  | iri text_of => exact .iri (iriText_at text_of _)
  | blank text_of => exact .blank (labelText_at text_of (begins ▸ stops_cons (blank_ends blank).1))

theorem termText_at (text_of : TermText term text) (separator : Separator gap) :
    TermAt term (text ++ (gap ++ rest)) (gap ++ rest) := by
  obtain ⟨c,more,begins,blank⟩ := separator_begins separator rest
  obtain ⟨label,tag,at_sign,caret⟩ := blank_ends blank
  cases text_of with
  | iri text_of => exact .iri (iriText_at text_of _)
  | blank text_of => exact .blank (labelText_at text_of (begins ▸ stops_cons label))
  | plain text_of =>
    refine .literal (quotedText_at text_of _) (.none ?_ fun other same => ?_)
    · rw [begins]
      exact fun same => at_sign (Option.some.inj same)
    · rw [begins] at same
      exact caret (List.cons.inj same).1
  | typed text_of datatype =>
    rw [List.append_assoc]
    exact .literal (quotedText_at text_of _) (.datatype (iriText_at datatype _))
  | tagged text_of nonempty tags =>
    rw [List.append_assoc]
    exact .literal (quotedText_at text_of _) (.language nonempty tags (begins ▸ stops_cons tag))

theorem parse_rendered (rendered : Rendered quad line) (format : RdfFormat)
    (fits : format = .nQuads ∨ quad.graph = none) :
    parseStatement line format = .ok (some quad.triple) := by
  have start : ∀ text, SkipTo text text := fun text => ⟨[],by simp,rfl⟩
  refine parseStatement_iff.mpr ⟨[],?_⟩
  cases rendered with
  | triple subject first predicate second object third =>
    exact .triple (start _) (resourceText_at subject first) (separator_skips first _) (iriText_at predicate _)
      (separator_skips second _) (termText_at object third) (separator_skips third _)
  | quad subject first predicate second object third graph fourth =>
    exact .quad (fits.resolve_right (by simp)) (start _) (resourceText_at subject first)
      (separator_skips first _)
      (iriText_at predicate _) (separator_skips second _) (termText_at object third) (separator_skips third _)
      (resourceText_at graph fourth) (separator_skips fourth _)

-- `_:s <\u0070>	"a\n"@en _:g .`
theorem escaped_quad_parsed :
    parseStatement ['_',':','s',' ','<','\\','u','0','0','7','0','>','\t','"','a','\\','n','"','@',
    'e','n',' ','_',':','g',' ','.']
      .nQuads = .ok (some ⟨.blankNode "s","p",.literal "a\n" none (some "en"),some "_:g"⟩) := by
  have subject : LabelText "s" ['_',':','s'] := .label (by decide) (List.forall_iff_forall_mem.mp (by decide))
  have graph : LabelText "g" ['_',':','g'] := .label (by decide) (List.forall_iff_forall_mem.mp (by decide))
  have point : HexNames 4 0 ['0','0','7','0'] 'p' := ⟨rfl,rfl⟩
  have name : Spells (Free '>') namedEscape "p".toList ['\\','u','0','0','7','0'] :=
    .coded (.inl ⟨rfl,rfl⟩) point .nil
  have predicate : IriText "p" ['<','\\','u','0','0','7','0','>'] := .iri name
  have letters : Spells (Free '"') namedEscape "a\n".toList ['a','\\','n'] :=
    .raw ⟨by decide,by decide⟩ (.named rfl .nil)
  have value : QuotedText "a\n" ['"','a','\\','n','"'] := .quoted letters
  have object : TermText (.literal "a\n" none (some "en")) ['"','a','\\','n','"','@','e','n'] :=
    .tagged value (by decide) (List.forall_iff_forall_mem.mp (by decide))
  have space : Separator [' '] := ⟨by simp,List.forall_iff_forall_mem.mp (by decide)⟩
  have tab : Separator ['\t'] := ⟨by simp,List.forall_iff_forall_mem.mp (by decide)⟩
  exact parse_rendered (.quad (.blank subject) space predicate tab object space
    (.blank graph) space) .nQuads (.inl rfl)

end ArangoDataTools.RdfLines
