import ArangoDataTools.TurtleLexing

namespace ArangoDataTools.Turtle
open TextScan TextReader

variable {text rest gap body word more value : List Char} {s : Env} {c quote : Char} {size : Nat}

section Strings

variable {triple : Bool}

theorem quote_kinds (kind : IsQuote quote) : quote ≠ '\\' ∧ toDigit quote = none ∧
    isWhitespace quote = false ∧ quote ≠ '#' := by
  rcases kind with rfl | rfl <;> exact ⟨by decide,rfl,rfl,by decide⟩

theorem reads_namedEscape {name : Char} (named : echar name = some c) :
    Reads readStringEscape (name :: rest) s c rest s := by
  unfold echar at named
  refine reads_bind reads_nextChar ?_
  split at named <;> cases named <;> exact reads_pure

theorem reads_codedEscape {name : Char} (kind : name = 'u' ∧ size = 4 ∨ name = 'U' ∧ size = 8)
    (hex : HexNames size 0 word c) :
    Reads readStringEscape (name :: (word ++ rest)) s c rest s := by
  rcases kind with ⟨rfl,rfl⟩ | ⟨rfl,rfl⟩ <;> exact reads_bind reads_nextChar (reads_hexFrom hex)

-- The rest of a string reads as `value`, with fuel above `bound`.
def Body (quote : Char) (triple : Bool) (s : Env) (bound : Nat) (text value rest : List Char) : Prop :=
  ∀ fuel, bound < fuel → Reads (stringBodyRest quote triple fuel) text s value rest s

theorem body_plain {bound : Nat} (free : Free quote c) (tail : Body quote triple s bound text value rest) :
    Body quote triple s (bound + 1) (c :: text) (c :: value) rest := by
  intro fuel enough
  obtain ⟨fuel,rfl⟩ := Nat.exists_eq_succ_of_ne_zero (Nat.ne_of_gt (Nat.zero_lt_of_lt enough))
  refine reads_bind reads_nextChar ?_
  simp only [if_neg free.1,if_neg free.2]
  exact reads_bind (tail fuel (by omega)) reads_pure

theorem body_escape {bound : Nat} (mark : quote ≠ '\\') (escape : Reads readStringEscape text s c more s)
    (tail : Body quote triple s bound more value rest) :
    Body quote triple s (bound + 1) ('\\' :: text) (c :: value) rest := by
  intro fuel enough
  obtain ⟨fuel,rfl⟩ := Nat.exists_eq_succ_of_ne_zero (Nat.ne_of_gt (Nat.zero_lt_of_lt enough))
  refine reads_bind reads_nextChar ?_
  simp only [if_neg (Ne.symm mark),if_true]
  exact reads_bind escape (reads_bind (tail fuel (by omega)) reads_pure)

theorem body_weaken {bound larger : Nat} (tail : Body quote triple s bound text value rest)
    (le : bound ≤ larger) :
    Body quote triple s larger text value rest := fun fuel enough => tail fuel (by omega)

theorem body_spelled {bound : Nat} {spelled one : List Char} (mark : quote ≠ '\\')
    (spells : Spells (Free quote) echar spelled one)
    (tail : Body quote triple s bound text value rest) : Body quote triple s (one.length + bound)
      (one ++ text) (spelled ++ value) rest := by
  induction spells with
  | nil => exact body_weaken tail (by omega)
  | raw free _ ih => exact body_weaken (body_plain free ih) (by simp only [List.length_cons]; omega)
  | named found _ ih =>
    exact body_weaken (body_escape mark (reads_namedEscape found) ih) (by simp only [List.length_cons]; omega)
  | coded kind hex _ ih =>
    simp only [List.cons_append,List.append_assoc]
    exact body_weaken (body_escape mark (reads_codedEscape kind hex) ih)
      (by simp only [List.length_cons,List.length_append]; omega)

theorem body_short : Body quote false s 0 (quote :: rest) [] rest := by
  intro fuel enough
  obtain ⟨fuel,rfl⟩ := Nat.exists_eq_succ_of_ne_zero (Nat.ne_of_gt enough)
  refine reads_bind reads_nextChar ?_
  simp only [if_true,Bool.not_false]
  exact reads_pure

theorem body_long : Body quote true s 0 (quote :: quote :: quote :: rest) [] rest := by
  intro fuel enough
  obtain ⟨fuel,rfl⟩ := Nat.exists_eq_succ_of_ne_zero (Nat.ne_of_gt enough)
  refine reads_bind reads_nextChar ?_
  simp only [if_true,Bool.not_true,Bool.false_eq_true,if_false]
  refine reads_bind reads_peek (reads_bind (reads_peekAt 1) ?_)
  simp only [List.head?_cons,List.getElem?_cons_succ,List.getElem?_cons_zero,and_self,if_true]
  have two : [quote,quote].length = 2 := rfl
  exact reads_bind (reads_advance 2 two) reads_pure

theorem body_quote {bound : Nat} (single : ¬(text.head? = some quote ∧ text[1]? = some quote))
    (tail : Body quote true s bound text value rest) : Body quote true s (bound + 1) (quote :: text)
      (quote :: value) rest := by
  intro fuel enough
  obtain ⟨fuel,rfl⟩ := Nat.exists_eq_succ_of_ne_zero (Nat.ne_of_gt (Nat.zero_lt_of_lt enough))
  refine reads_bind reads_nextChar ?_
  simp only [if_true,Bool.not_true,Bool.false_eq_true,if_false]
  refine reads_bind reads_peek (reads_bind (reads_peekAt 1) ?_)
  rw [if_neg single]
  exact reads_bind (tail fuel (by omega)) reads_pure

theorem spelled_head (mark : quote ≠ '\\') {spelled one : List Char}
    (spells : Spells (Free quote) echar spelled one) (nonempty : spelled ≠ []) :
    ∃ first tail, one = first :: tail ∧ first ≠ quote := by
  cases spells with
  | nil => exact absurd rfl nonempty
  | raw free _ => exact ⟨_,_,rfl,free.1⟩
  | named _ _ => exact ⟨_,_,rfl,Ne.symm mark⟩
  | coded _ _ _ => exact ⟨_,_,rfl,Ne.symm mark⟩

theorem longText_body (kind : IsQuote quote) (long : LongText quote value body) :
    Body quote true s body.length (body ++ quote :: quote :: quote :: rest) value rest := by
  have mark := (quote_kinds kind).1
  induction long with
  | nil => exact body_long
  | @more quotes single text one body few all length spells _ ih =>
    have nonempty : single ≠ [] := by
      rintro rfl
      cases length
    have spelled := body_spelled mark spells ih
    obtain ⟨first,tail,rfl,other⟩ := spelled_head mark spells nonempty
    rw [List.append_assoc,List.append_assoc,List.append_assoc]
    have lone : ∀ x : List Char, ¬((first :: x).head? = some quote ∧ (first :: x)[1]? = some quote) :=
      fun x both => other (Option.some.inj both.1)
    match quotes with
    | [] => exact body_weaken spelled (by simp only [List.length_append,List.length_nil]; omega)
    | [one] =>
      obtain rfl := all one (by simp)
      exact body_weaken (body_quote (lone _) spelled)
        (by simp only [List.length_append,List.length_cons,List.length_nil]; omega)
    | [one,two] =>
      obtain rfl := all one (by simp)
      obtain rfl := all two (by simp)
      have inner := body_quote (lone _) spelled
      refine body_weaken (body_quote (fun both => other (Option.some.inj both.2)) inner) ?_
      simp only [List.length_append,List.length_cons,List.length_nil]
      omega
    | _ :: _ :: _ :: _ => simp at few

theorem reads_stringBody (reads : Body quote triple s text.length text value rest) :
    Reads (readStringBody quote triple) text s value rest s :=
  reads_bind reads_ahead (reads _ (Nat.lt_succ_self _))

theorem short_single (mark : quote ≠ '\\') (spells : Spells (Free quote) echar value body)
    (ends : body = [] → rest.head? ≠ some quote) :
    ¬((body ++ quote :: rest).head? = some quote ∧ (body ++ quote :: rest)[1]? = some quote) := by
  rintro ⟨first,second⟩
  by_cases empty : value = []
  · subst empty
    cases spells
    cases rest with
    | nil => cases second
    | cons c rest => exact ends rfl second
  · obtain ⟨c,tail,rfl,other⟩ := spelled_head mark spells empty
    exact other (Option.some.inj first)

theorem yields_string {found : Option (RdfTerm × Env)} {ends : List Char → Prop}
    (text_of : StringText value word)
    (single : ∀ quote, word = [quote,quote] → rest.head? ≠ some quote)
    (suffix : Yields (readSuffix >>= fun (datatype,language) =>
    pure (RdfTerm.literal (String.ofList value) datatype language)) rest s
      found ends) : Yields stringLiteral (word ++ rest) s found ends := by
  cases text_of with
  | @short quote _ body kind spells =>
    have mark := (quote_kinds kind).1
    have alone : ¬((body ++ quote :: rest).head? = some quote ∧ (body ++ quote :: rest)[1]? = some quote) :=
      short_single mark spells (by rintro rfl; exact single quote rfl)
    have body_reads : Body quote false s (body ++ quote :: rest).length (body ++ quote :: rest) value rest := by
      have closing : Body quote false s 0 (quote :: rest) [] rest := body_short
      have spelled := body_spelled mark spells closing
      rw [List.append_nil] at spelled
      exact body_weaken spelled (by simp only [List.length_append]; omega)
    have shape : quote :: body ++ [quote] ++ rest = quote :: (body ++ quote :: rest) := by simp
    rw [shape]
    refine yields_after reads_nextChar (yields_after reads_peek (yields_after (reads_peekAt 1) ?_))
    simp only [decide_eq_false alone]
    exact yields_after (reads_stringBody body_reads) suffix
  | @long quote _ body kind long =>
    have long_body : Body quote true s body.length
        (body ++ quote :: quote :: quote :: rest) value rest := longText_body kind long
    have bound : body.length ≤ (body ++ quote :: quote :: quote :: rest).length := by
      rw [List.length_append]
      omega
    have body_reads := body_weaken long_body bound
    have shape : quote :: quote :: quote :: body ++ [quote,quote,quote] ++ rest =
        quote :: ([quote,quote] ++ (body ++ quote :: quote :: quote :: rest)) := by simp
    rw [shape]
    refine yields_after reads_nextChar (yields_after reads_peek (yields_after (reads_peekAt 1) ?_))
    simp only [List.cons_append,List.nil_append,List.head?_cons,List.getElem?_cons_succ,
      List.getElem?_cons_zero,and_self,
      decide_true,if_true]
    have two : [quote,quote].length = 2 := rfl
    exact yields_after (reads_advance 2 two) (yields_after (reads_stringBody body_reads) suffix)

end Strings
section Naming

theorem env_assert (scope : Scope) (subject : Vertex) (predicate : String) (object : Value) :
    (scope.assert subject predicate object).env = scope.env.push
      { subject := (subject.node codeLabel).intoResource, predicate, object := (object.object codeLabel).term, graph := none } := by
  simp only [Scope.env,Scope.assert,Env.push,List.map_append,List.map_cons,List.map_nil,Fact.triple]

theorem reads_freshBlank (scope : Scope) :
    Reads freshBlank text scope.env (scope.allocate.1.node codeLabel) text scope.allocate.2.env :=
  reads_bind (reads_update _) (reads_bind reads_current fun passed => ⟨passed,rfl⟩)

theorem reads_pushTriple (scope : Scope) (subject : Vertex) (predicate : String) (object : Value) :
    Reads (pushTriple (subject.node codeLabel) predicate (object.object codeLabel).term) text scope.env () text
      (scope.assert subject predicate object).env := by
  rw [env_assert]
  exact reads_update _

end Naming

section Words

variable {label name x keyword : List Char} {form : IriForm} {scope : Scope}

def NameStart (c : Char) : Prop := (c = ':' ∨ isAsciiAlphabetic c = true ∨ 0x7F < c.toNat) ∧
    isWhitespace c = false

theorem name_start (label_form : LabelForm label) (x : List Char) : ∃ c tail,
    label ++ ':' :: x = c :: tail ∧ NameStart c := by
  cases label with
  | nil => exact ⟨':',x,rfl,.inl rfl,rfl⟩
  | cons first label => exact ⟨first,label ++ ':' :: x,rfl,.inr (label_form.2 first rfl),
      (label_form.1 first (by simp)).2⟩

theorem nameStart_ne (starts : NameStart c) {d : Char}
    (other : d ≠ ':' ∧ isAsciiAlphabetic d = false ∧ d.toNat ≤ 0x7F) : c ≠ d := by
  rintro rfl
  rcases starts.1 with colon | letter | high
  · exact other.1 colon
  · rw [other.2.1] at letter
    cases letter
  · omega

theorem nameStart_visible (starts : NameStart c) : Visible (c :: rest) :=
  visible_cons ⟨starts.2,nameStart_ne starts (by decide)⟩

-- Where a prefixed name seems to begin with a keyword, its label goes on with a
-- `.` after it.
theorem keyword_opens {fold : Char → Char} (fold_colon : fold ':' = ':') (no_colon : ':' ∉ keyword)
    (label_form : LabelForm label)
    (same : ((label ++ ':' :: x).take keyword.length).map fold = keyword)
    (boundary : isTokenBoundary (label ++ ':' :: x)[keyword.length]? = true) :
    (label.take keyword.length).map fold = keyword ∧ label[keyword.length]? = some '.' := by
  by_cases inside : keyword.length < label.length
  · rw [List.take_append_of_le_length (Nat.le_of_lt inside)] at same
    rw [List.getElem?_append_left inside] at boundary
    refine ⟨same,?_⟩
    obtain ⟨c,found⟩ : ∃ c, label[keyword.length]? = some c := ⟨_,List.getElem?_eq_getElem inside⟩
    obtain ⟨allowed,visible⟩ := label_form.1 c (List.mem_of_getElem? found)
    rw [found] at boundary
    simp only [isTokenBoundary,visible,Bool.false_or,decide_eq_true_eq,List.mem_cons,
      List.not_mem_nil,or_false] at boundary
    rw [found]
    rcases boundary with rfl | rfl | rfl | rfl | rfl | rfl | rfl <;> first
      | rfl
      | exact absurd allowed (by decide)
  · exfalso
    have at_colon : (label ++ ':' :: x)[label.length]? = some ':' := by simp
    rcases Nat.lt_or_eq_of_le (Nat.le_of_not_lt inside) with shorter | equal
    · have taken : ((label ++ ':' :: x).take keyword.length)[label.length]? = some ':' := by
        rw [List.getElem?_take_of_lt shorter,at_colon]
      have folded : ':' ∈ ((label ++ ':' :: x).take keyword.length).map fold :=
        List.mem_map.mpr ⟨':',List.mem_of_getElem? taken,fold_colon⟩
      rw [same] at folded
      exact no_colon folded
    · rw [← equal,at_colon] at boundary
      exact absurd boundary (by decide)

theorem opens_false {words : List (List Char)} {fold : Char → Char} (fold_colon : fold ':' = ':')
    (label_form : LabelForm label)
    (keyword x : List Char) (clear : (IriForm.prefixed label name).misread words fold = false)
      (member : keyword ∈ words) (no_colon : ':' ∉ keyword) :
    ¬(((label ++ ':' :: x).take keyword.length).map fold = keyword ∧
      isTokenBoundary (label ++ ':' :: x)[keyword.length]? = true) := by
  rintro ⟨same,boundary⟩
  obtain ⟨begins,dot⟩ := keyword_opens fold_colon no_colon label_form same boundary
  simp only [IriForm.misread,List.any_eq_false] at clear
  exact clear keyword member (by simp [begins,dot])

end Words

section Terms

variable {label name : List Char} {form : IriForm} {scope : Scope}

theorem label_shape (label name rest : List Char) : label ++ ':' :: name ++ rest =
    label ++ ':' :: (name ++ rest) := by simp

theorem readable_plain {words : List (List Char)} {fold : Char → Char}
    (readable : form.readable scope.labels words fold = true) :
    ∀ label pieces, form = .escaped label pieces → scope.prefixes.lookup (String.ofList label) = none := by
  rintro label pieces rfl
  simp only [IriForm.readable,Bool.and_eq_true,decide_eq_true_eq] at readable
  cases found : scope.prefixes.lookup (String.ofList label) with
  | none => rfl
  | some iri => exact absurd (lookup_declared found) readable.2

theorem readable_begins {labels : List String} {words : List (List Char)} {fold : Char → Char}
    (text_of : IriText form word)
    (readable : form.readable labels words fold = true) : (∃ tail, word = '<' :: tail) ∨
    ∃ label tail, word = label ++ ':' :: tail ∧ LabelForm label ∧
    (IriForm.prefixed label []).misread words fold = false := by
  cases text_of with
  | reference => exact .inl ⟨_,rfl⟩
  | prefixed label_form name_form => exact .inr ⟨_,_,rfl,label_form,(Bool.not_eq_true' _).mp readable⟩
  | escaped label_form pieces some_ =>
    simp only [IriForm.readable,Bool.and_eq_true] at readable
    exact .inr ⟨_,_,rfl,label_form,by simpa using readable.1⟩

theorem yields_iriOrBlank
    (plain : ∀ label pieces, form = .escaped label pieces → scope.prefixes.lookup (String.ofList label) = none)
    (text_of : IriText form word) (ends : IriEnds form rest) :
    Yields iriOrBlank (word ++ rest) scope.env
      ((scope.resolve form).map fun iri => (Node.iri iri,scope.env)) (· = rest) := by
  cases text_of with
  | @reference raw body spells =>
    have shape : '<' :: body ++ ['>'] ++ rest = '<' :: body ++ '>' :: rest := by simp
    rw [shape]
    refine yields_after (skipWs_visible (visible_cons (by decide))) (yields_after reads_peek ?_)
    refine yields_reads rfl (reads_bind (reads_iriRef spells) ?_)
    rw [show scope.env.base = scope.base from rfl,resolveIri_reference]
    exact reads_pure
  | @prefixed label name label_form name_form =>
    have found := yields_prefixedName (s := scope.env) label_form.1 name_form ends
    rw [label_shape]
    obtain ⟨c,tail,begins,starts⟩ := name_start label_form (name ++ rest)
    rw [begins] at found ⊢
    refine yields_after (skipWs_visible (nameStart_visible starts)) (yields_after reads_peek ?_)
    have lt : c ≠ '<' := nameStart_ne starts (by decide)
    have underscore : c ≠ '_' := nameStart_ne starts (by decide)
    split
    · rename_i same
      exact absurd (Option.some.inj same) lt
    · rename_i same
      exact absurd (Option.some.inj same) underscore
    · have mapped := yields_map (fun iri => Node.iri iri) found
      simp only [Scope.resolve,Option.map_map]
      exact mapped
    · rename_i none
      cases none
  | @escaped label pieces label_form _ _ =>
    have unknown := plain _ _ rfl
    have found := fails_unknownPrefix (s := scope.env) label_form.1 unknown (pieces.flatMap pieceText ++ rest)
    rw [label_shape,Scope.resolve,unknown]
    obtain ⟨c,tail,begins,starts⟩ := name_start label_form (pieces.flatMap pieceText ++ rest)
    rw [begins] at found ⊢
    refine yields_after (skipWs_visible (nameStart_visible starts)) (yields_after reads_peek ?_)
    have lt : c ≠ '<' := nameStart_ne starts (by decide)
    have underscore : c ≠ '_' := nameStart_ne starts (by decide)
    split
    · rename_i same
      exact absurd (Option.some.inj same) lt
    · rename_i same
      exact absurd (Option.some.inj same) underscore
    · exact fails_bind found
    · rename_i none
      cases none

theorem reads_noSuffix (language : rest.head? ≠ some '@') (datatype : rest.take 2 ≠ ['^','^']) :
    Reads readSuffix rest s (none,none) rest s := by
  refine reads_bind reads_peek ?_
  split
  · rename_i same
    exact absurd same language
  · rename_i same
    obtain ⟨tail,rfl⟩ := List.head?_eq_some_iff.mp same
    refine reads_bind (reads_peekAt 1) ?_
    have other : ¬('^' :: tail)[1]? = some '^' := by
      intro second
      cases tail with
      | nil => cases second
      | cons c tail =>
        cases second
        exact datatype rfl
    rw [if_neg other]
    exact reads_pure
  · exact reads_pure

theorem reads_tag {tag : List Char} (nonempty : tag ≠ []) (all : ∀ c ∈ tag, isTagChar c = true)
    (stops : Stops isTagChar rest) :
    Reads readSuffix ('@' :: (tag ++ rest)) s (none,some (String.ofList tag)) rest s := by
  refine reads_bind reads_peek (reads_bind reads_step (reads_bind (reads_word all stops) ?_))
  simp only [if_neg nonempty]
  exact reads_pure

theorem yields_datatype (plain : ∀ label pieces,
    form = .escaped label pieces → scope.prefixes.lookup (String.ofList label) = none)
    (gap_form : Gap gap) (text_of : IriText form word)
    (ends : IriEnds form rest) :
    Yields readSuffix ('^' :: '^' :: (gap ++ (word ++ rest))) scope.env
      ((scope.resolve form).map fun iri => ((some iri,none),scope.env)) (· = rest) := by
  have two : ['^','^'].length = 2 := rfl
  refine yields_after reads_peek (yields_after (reads_peekAt 1) ?_)
  simp only [List.getElem?_cons_succ,List.getElem?_cons_zero,if_true]
  refine yields_after (reads_advance 2 two) ?_
  cases text_of with
  | @reference raw body spells =>
    have shape : '<' :: body ++ ['>'] ++ rest = '<' :: body ++ '>' :: rest := by simp
    rw [shape]
    refine yields_after (reads_skipWs gap_form (visible_cons (by decide))) (yields_after reads_peek ?_)
    simp only [List.cons_append,List.head?_cons,if_true]
    refine yields_reads rfl (reads_bind (reads_iriRef spells) ?_)
    rw [show scope.env.base = scope.base from rfl,resolveIri_reference]
    exact reads_pure
  | @prefixed label name label_form name_form =>
    have found := yields_prefixedName (s := scope.env) label_form.1 name_form ends
    rw [label_shape]
    obtain ⟨c,tail,begins,starts⟩ := name_start label_form (name ++ rest)
    rw [begins] at found ⊢
    refine yields_after (reads_skipWs gap_form (nameStart_visible starts)) (yields_after reads_peek ?_)
    have lt : (c :: tail).head? ≠ some '<' := fun same => nameStart_ne starts (by decide) (Option.some.inj same)
    rw [if_neg lt]
    have mapped := yields_map (fun iri => (some iri,(none : Option String))) found
    simp only [Scope.resolve,Option.map_map]
    exact mapped
  | @escaped label pieces label_form _ _ =>
    have unknown := plain _ _ rfl
    have found := fails_unknownPrefix (s := scope.env) label_form.1 unknown (pieces.flatMap pieceText ++ rest)
    rw [label_shape,Scope.resolve,unknown]
    obtain ⟨c,tail,begins,starts⟩ := name_start label_form (pieces.flatMap pieceText ++ rest)
    rw [begins] at found ⊢
    refine yields_after (reads_skipWs gap_form (nameStart_visible starts)) (yields_after reads_peek ?_)
    have lt : (c :: tail).head? ≠ some '<' := fun same => nameStart_ne starts (by decide) (Option.some.inj same)
    rw [if_neg lt]
    exact fails_bind found

theorem stringText_begins (text_of : StringText value word) : ∃ quote tail, word = quote :: tail ∧
    IsQuote quote := by
  cases text_of with
  | short kind _ => exact ⟨_,_,rfl,kind⟩
  | long kind _ => exact ⟨_,_,rfl,kind⟩

theorem suffix_single {mark : Char} (text_of : StringText value word) (other : mark ≠ '"' ∧ mark ≠ '\'') :
    ∀ quote, word = [quote,quote] → (mark :: rest).head? ≠ some quote := by
  intro quote shape same
  obtain ⟨first,tail,begins,kind⟩ := stringText_begins text_of
  obtain rfl : mark = quote := Option.some.inj same
  rw [shape] at begins
  obtain rfl : mark = first := (List.cons.inj begins).1
  exact kind.elim other.1 other.2

theorem yields_stringLiteral {suffix : Suffix}
    (readable : (LiteralForm.string value suffix).readable scope.labels = true)
    (text_of : LiteralText (.string value suffix) word)
      (ends : Ends (.literal (.string value suffix)) word rest) :
    Yields stringLiteral (word ++ rest) scope.env
      ((scope.literal (.string value suffix)).map fun found =>
      ((found.object codeLabel).term,scope.env)) (· = rest) := by
  cases suffix with
  | plain =>
    cases text_of with
    | plain text_of =>
      obtain ⟨language,datatype,single⟩ := ends
      refine yields_string text_of single (yields_reads rfl (reads_bind (reads_noSuffix language datatype) ?_))
      exact reads_pure
  | tagged tag =>
    cases text_of with
    | tagged _ _ nonempty all =>
      obtain ⟨⟨text,text_of,shape⟩,stops⟩ := ends
      rw [shape,List.append_assoc]
      refine yields_string text_of (suffix_single text_of (by decide))
        (yields_reads rfl (reads_bind (reads_tag nonempty all stops) ?_))
      exact reads_pure
  | typed datatype =>
    obtain ⟨⟨text,gap,word,string_text,gap_form,iri_text,rfl⟩,iri_ends⟩ := ends
    have shape : text ++ '^' :: '^' :: (gap ++ word) ++ rest =
        text ++ '^' :: '^' :: (gap ++ (word ++ rest)) := by simp
    rw [shape]
    refine yields_string string_text (suffix_single string_text (by decide)) ?_
    have plain := readable_plain (show datatype.readable scope.labels [] id = true from readable)
    have found : Yields readSuffix ('^' :: '^' :: (gap ++ (word ++ rest))) scope.env
      ((scope.resolve datatype).map fun iri => ((some iri,none),scope.env)) (· = rest) :=
      yields_datatype plain gap_form iri_text iri_ends
    have mapped := yields_map (fun pair => RdfTerm.literal (String.ofList value) pair.1 pair.2) found
    simp only [Scope.literal,Option.map_map]
    exact mapped

end Terms

end ArangoDataTools.Turtle
