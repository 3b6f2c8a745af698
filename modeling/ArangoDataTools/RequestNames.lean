import ArangoDataTools.RequestUrls

namespace ArangoDataTools.RequestNames
open Percent Segments Url RequestUrls

-- What a server reads from the URL of a request, and what the request is meant
-- to ask for.
def arrived (rules : Rules) (request : UrlRequest) : Received := Url.received (request.url rules).text

def intended (rules : Rules) (request : UrlRequest) : Option (List Char) :=
  ((⟨[],(request.query.map String.toList).map (encode rules.query),none⟩ : Parsed).appendPairs
    request.pairs).query

-- Every name stands in its own segment, with nothing behind the path but the
-- query of the request.
structure Reaches (rules : Rules) (request : UrlRequest) : Prop where
  names : ∀ (place : Nat) (name : ObjectName), request.parts[place]? = some (.name name) →
    (arrived rules request).segments[place]? = some (utf8 name.text.toList)
  query : (arrived rules request).query = intended rules request
  fragment : (arrived rules request).fragment = none

structure Smooth (text : List Char) : Prop where
  question : '?' ∉ text
  hash : '#' ∉ text
  backslash : '\\' ∉ text
  plain : escapes text = false

structure Carried (request : UrlRequest) : Prop where
  smooth : ∀ name, .name name ∈ request.parts → Smooth name.text.toList
  ending : request.query = none → ∀ name, request.parts.getLast? = some (.name name) →
    name.text.toList.getLast? ≠ some ' '

section Texts

structure Segment (text : List Char) : Prop where
  some_ : text ≠ []
  whole : '/' ∉ text
  newlines : ∀ c ∈ text, lineEnd c = false
  blanks : ∀ c ∈ text, blank c = true → c = ' '
  named : text ≠ ['.'] ∧ text ≠ ['.','.']

theorem printed_newline {c : Char} (printed : control c = false) : lineEnd c = false := by
  cases kind : lineEnd c with
  | false => rfl
  | true =>
    have forms : c = '\t' ∨ c = '\n' ∨ c = '\r' := by simpa [lineEnd,or_assoc] using kind
    rcases forms with rfl | rfl | rfl <;> cases printed

theorem printed_blank {c : Char} (printed : control c = false) (low : blank c = true) : c = ' ' := by
  have bounds := Bool.or_eq_false_iff.mp printed
  have least : ¬ c.toNat < 32 := of_decide_eq_false bounds.1
  have most : c.toNat ≤ 32 := of_decide_eq_true low
  exact Char.toNat_inj.mp (Nat.le_antisymm most (Nat.le_of_not_lt least))

theorem name_segment (name : ObjectName) : Segment name.text.toList :=
  ⟨name.some_,name.whole,fun c member => printed_newline (name.printed c member),
    fun c member => printed_blank (name.printed c member),name.named⟩

theorem visible_newline {c : Char} (range : 32 < c.toNat) : lineEnd c = false := by
  cases broken : lineEnd c with
  | false => rfl
  | true =>
    have forms : c = '\t' ∨ c = '\n' ∨ c = '\r' := by simpa [lineEnd,or_assoc] using broken
    rcases forms with rfl | rfl | rfl <;> exact absurd range (by decide)

theorem visible_blank {c : Char} (range : 32 < c.toNat) : blank c = false :=
  decide_eq_false (Nat.not_le_of_lt range)

theorem word_visible {text : String} (kind : word text = true) {c : Char} (member : c ∈ text.toList) :
    lineEnd c = false ∧ blank c = false := by
  have range := ordinary_range (List.all_eq_true.mp (Bool.and_eq_true_iff.mp kind).2 c member)
  exact ⟨visible_newline range,visible_blank range⟩

theorem word_segment {text : String} (kind : word text = true) : Segment text.toList where
  some_ := by simpa using (Bool.and_eq_true_iff.mp kind).1
  whole := word_other kind (by decide)
  newlines c member := (word_visible kind member).1
  blanks c member low := absurd low (by simp [(word_visible kind member).2])
  named := by
    have dot := word_other (d := '.') kind (by decide)
    exact ⟨fun same => dot (by simp [same]),fun same => dot (by simp [same])⟩

theorem escapes_sign {text : List Char} (some_ : escapes text = true) : '%' ∈ text := by
  fun_induction escapes text with
  | case1 c a b rest ih =>
    rcases Bool.or_eq_true_iff.mp some_ with here | later
    · obtain ⟨byte,found⟩ := Option.isSome_iff_exists.mp here
      rw [(escaped_digits_of found).1]
      exact List.mem_cons_self
    · exact List.mem_cons_of_mem c (ih later)
  | case2 text short => cases some_

theorem word_smooth {text : String} (kind : word text = true) : Smooth text.toList where
  question := word_other kind (by decide)
  hash := word_other kind (by decide)
  backslash := word_other kind (by decide)
  plain := by
    cases bent : escapes text.toList with
    | false => rfl
    | true => exact absurd (escapes_sign bent) (word_other kind (by decide))

variable {request : UrlRequest}

theorem texts_segment {text : List Char} (member : text ∈ textsOf request.parts) : Segment text := by
  obtain ⟨part,inside,rfl⟩ := List.mem_map.mp member
  cases part with
  | own text => exact word_segment (UrlRequest.own_word inside)
  | name name => exact name_segment name

theorem texts_some : textsOf request.parts ≠ [] := by
  cases request <;> exact List.cons_ne_nil _ _

theorem reference_newlines : ∀ c ∈ request.reference.toList, lineEnd c = false := by
  rw [request.reference_text]
  intro c member
  rcases List.mem_append.mp member with path | query
  · exact rooted_printed (fun text inside => (texts_segment inside).newlines) c path
  · cases asked : request.query with
    | none =>
      rw [asked] at query
      cases query
    | some text =>
      rw [asked] at query
      rcases List.mem_cons.mp query with rfl | inside
      · rfl
      · have range := queryChar_range (List.all_eq_true.mp (UrlRequest.query_plain asked) c inside)
        exact visible_newline range

theorem rooted_last {before : List (List Char)} {last : List Char} (some_ : last ≠ []) :
    (rooted (before ++ [last])).getLast? = last.getLast? := by
  rw [rooted_append,List.getLast?_append,rooted,List.flatMap_singleton,List.getLast?_cons_of_ne_nil some_,
    List.getLast?_eq_some_getLast some_]
  rfl

theorem reference_kept (ends : request.query = none → ∀ text,
    (textsOf request.parts).getLast? = some text → text.getLast? ≠ some ' ') :
    cleaned request.reference.toList = request.reference.toList := by
  refine cleaned_kept ?_ reference_newlines ?_
  · rw [request.reference_text]
    exact rooted_head texts_some _
  · intro c last
    rw [request.reference_text] at last
    cases asked : request.query with
    | none =>
      have form := (List.dropLast_concat_getLast (@texts_some request)).symm
      generalize (textsOf request.parts).dropLast = before,
        (textsOf request.parts).getLast texts_some = text at form
      have segment : Segment text := texts_segment (form ▸ List.mem_append_right before List.mem_cons_self)
      rw [asked,form,Option.map_none,tail,List.append_nil,rooted_last segment.some_] at last
      cases low : blank c with
      | false => rfl
      | true =>
        have space := segment.blanks c (List.mem_of_getLast? last) low
        exact absurd (space ▸ last) (ends asked text (by simp [form]))
    | some text =>
      rw [asked] at last
      have inside : c ∈ '?' :: text.toList := by
        have final := List.getLast?_eq_some_getLast (List.cons_ne_nil '?' text.toList)
        rw [Option.map_some,tail,List.getLast?_append,final,Option.some_or] at last
        exact Option.some.inj last ▸ List.getLast_mem _
      rcases List.mem_cons.mp inside with rfl | within
      · rfl
      · exact visible_blank (queryChar_range (List.all_eq_true.mp (UrlRequest.query_plain asked) c within))

end Texts

section Reading
variable {rules : Rules} {request : UrlRequest}

theorem arrived_parsed (rules : Rules) (request : UrlRequest) :
    arrived rules request = ((parse rules request.reference.toList).appendPairs request.pairs).received :=
  received_text (appendPairs_formed (parse_formed _) _)

theorem arrived_segments (rules : Rules) (request : UrlRequest) :
    (arrived rules request).segments = (parse rules request.reference.toList).segments.map decode := by
  rw [arrived_parsed]
  exact congrArg (List.map decode) (appendPairs_segments _ _)

theorem arrived_fragment (rules : Rules) (request : UrlRequest) :
    (arrived rules request).fragment = (parse rules request.reference.toList).fragment := by
  rw [arrived_parsed]
  exact appendPairs_fragment _ _

theorem text_at {place : Nat} {name : ObjectName} (there : request.parts[place]? = some (.name name)) :
    (textsOf request.parts)[place]? = some name.text.toList := by
  rw [textsOf,List.getElem?_map,there]
  rfl

theorem last_text {text : List Char} (last : (textsOf request.parts).getLast? = some text) :
    (∃ own, word own = true ∧ own.toList = text) ∨ ∃ name,
    request.parts.getLast? = some (.name name) ∧ name.text.toList = text := by
  rw [textsOf,List.getLast?_map] at last
  obtain ⟨part,final,rfl⟩ := Option.map_eq_some_iff.mp last
  cases part with
  | own own => exact .inl ⟨own,UrlRequest.own_word (List.mem_of_getLast? final),rfl⟩
  | name name => exact .inr ⟨name,final,rfl⟩

theorem segments_smooth (smooth : ∀ text ∈ textsOf request.parts, Smooth text) :
    walk [] (((textsOf request.parts).flatMap fun text => (text.map slash).splitOn '/').map
      (encode rules.path)) =
      (textsOf request.parts).map (encode rules.path) := by
  rw [pieces_plain fun text member => ⟨(texts_segment member).whole,(smooth text member).backslash⟩]
  have whole : walk [] ((textsOf request.parts).map (encode rules.path) ++ []) =
      walk ([] ++ (textsOf request.parts).map (encode rules.path)) [] := walk_plain ?_ [] []
  · rw [List.append_nil,List.nil_append] at whole
    exact whole
  · intro segment member dotted
    obtain ⟨text,inside,rfl⟩ := List.mem_map.mp member
    have named := (texts_segment inside).named
    exact (plain_dotted (smooth text inside).plain dotted).elim named.1 named.2

theorem query_clean : '#' ∉ tail '?' (request.query.map String.toList) := by
  cases asked : request.query with
  | none => exact List.not_mem_nil
  | some text =>
    intro here
    have inside := (List.mem_cons.mp here).resolve_left (by decide)
    have sign := List.all_eq_true.mp (UrlRequest.query_plain asked) _ inside
    exact absurd sign (by decide)

theorem reaches_of_carried (carried : Carried request) : Reaches rules request := by
  have smooth : ∀ text ∈ textsOf request.parts, Smooth text := by
    intro text member
    obtain ⟨part,inside,rfl⟩ := List.mem_map.mp member
    cases part with
    | own text => exact word_smooth (UrlRequest.own_word inside)
    | name name => exact carried.smooth name inside
  have kept : cleaned request.reference.toList = request.reference.toList :=
    reference_kept fun none_ text last => by
    rcases last_text last with ⟨own,kind,rfl⟩ | ⟨name,final,rfl⟩
    · exact fun space => absurd (word_visible kind (List.mem_of_getLast? space)).2 (by decide)
    · exact carried.ending none_ name final
  have clean : '#' ∉ cleaned request.reference.toList := by
    rw [kept,request.reference_text]
    intro here
    rcases List.mem_append.mp here with path | query
    · obtain ⟨text,member,inside⟩ := (mem_rooted (by decide)).mp path
      exact (smooth text member).hash inside
    · exact query_clean query
  have parsed := @parse_rooted rules _ _ _ texts_some (kept.trans request.reference_text) clean
    fun text member => (smooth text member).question
  refine ⟨?_,?_,?_⟩
  · intro place name there
    have plain := (smooth _ (List.mem_of_getElem? (text_at there))).plain
    rw [arrived_segments,parsed,segments_smooth smooth,List.getElem?_map,List.getElem?_map,
      text_at there,Option.map_some,Option.map_some,
      decode_encode rules.keeps,decode_plain plain]
  · rw [arrived_parsed,parsed]
    unfold intended Parsed.received Parsed.appendPairs
    split <;> rfl
  · rw [arrived_fragment,parsed]

end Reading

section Names
variable {rules : Rules} {request : UrlRequest}

theorem reference_kept_query {query : String} (asked : request.query = some query) :
    cleaned request.reference.toList = rooted (textsOf request.parts) ++ '?' :: query.toList := by
  have kept : cleaned request.reference.toList = request.reference.toList := reference_kept fun none_ => by
    rw [asked] at none_
    cases none_
  rw [kept,request.reference_text,asked]
  rfl

theorem cleaned_texts (request : UrlRequest) : ∃ sent, cleaned request.reference.toList =
    rooted sent ++ tail '?' (request.query.map String.toList) ∧
    sent ≠ [] ∧ ∀ text ∈ sent, ∃ source ∈ textsOf request.parts, text <:+: source := by
  cases asked : request.query with
  | some query =>
    exact ⟨_,reference_kept_query asked,texts_some,fun text member => ⟨text,member,List.infix_rfl⟩⟩
  | none =>
    have form := (List.dropLast_concat_getLast (@texts_some request)).symm
    generalize (textsOf request.parts).dropLast = before,
      (textsOf request.parts).getLast texts_some = last at form
    have whole := request.reference_text
    rw [asked,Option.map_none,tail,List.append_nil,form] at whole
    refine ⟨before ++ [last.rdropWhile blank],?_,by simp,?_⟩
    · rw [whole,Option.map_none,tail,List.append_nil]
      exact cleaned_rooted fun text member => (texts_segment (form ▸ member)).newlines
    · intro text member
      rcases List.mem_append.mp member with early | final
      · exact ⟨text,form ▸ List.mem_append_left _ early,List.infix_rfl⟩
      · rw [List.mem_singleton.mp final]
        exact ⟨last,form ▸ List.mem_append_right _ List.mem_cons_self,
          (List.rdropWhile_prefix blank last).isInfix⟩

theorem names_hash (reaches : Reaches rules request) : '#' ∉ cleaned request.reference.toList := by
  refine @no_fragment rules _ ?_
  rw [← arrived_fragment]
  exact reaches.fragment

theorem mem_reference {text : List Char} {c : Char} (member : text ∈ textsOf request.parts)
    (inside : c ∈ text) (other : c ≠ '/')
    (visible : blank c = false) : c ∈ cleaned request.reference.toList := by
  refine mem_cleaned ?_ visible ((texts_segment member).newlines c inside)
  rw [request.reference_text]
  exact List.mem_append_left _ ((mem_rooted other).mpr ⟨text,member,inside⟩)

theorem names_question (reaches : Reaches rules request) : ∀ text ∈ textsOf request.parts, '?' ∉ text := by
  intro text member inside
  have clean := names_hash reaches
  have same := reaches.query
  rw [arrived_parsed] at same
  by_cases none_ : request.pairs = []
  · rw [none_] at same
    have plain : (parse rules request.reference.toList).query =
        (request.query.map String.toList).map (encode rules.query) := by
      simpa [intended,none_,Parsed.appendPairs,Parsed.received] using same
    cases asked : request.query with
    | none =>
      have early := mem_reference member inside (by decide) (by decide)
      obtain ⟨later,found⟩ := @early_question rules _ _ _ (List.append_nil _).symm clean early
      rw [found,asked] at plain
      cases plain
    | some query =>
      have early := (mem_rooted (by decide)).mpr ⟨text,member,inside⟩
      obtain ⟨later,found⟩ := @early_question rules _ _ _ (reference_kept_query asked) clean early
      rw [found,asked] at plain
      have lengths := congrArg List.length (Option.some.inj plain)
      rw [encode_append,encode_cons] at lengths
      have sign : 0 < (if rules.query '?' then escape '?' else ['?']).length := by
        have long := escape_length '?'
        split
        · omega
        · exact Nat.one_pos
      simp only [List.length_append] at lengths
      omega
  · obtain ⟨none_query,before,own,form⟩ := UrlRequest.pairs_own none_
    have texts : textsOf request.parts = textsOf before ++ [own.toList] := by
      rw [form,textsOf,List.map_append]
      rfl
    have kind : word own = true := UrlRequest.own_word (form ▸ List.mem_append_right before List.mem_cons_self)
    have first : text ∈ textsOf before := by
      rw [texts] at member
      rcases List.mem_append.mp member with early | final
      · exact early
      · exact absurd (List.mem_singleton.mp final ▸ inside) (word_other kind (by decide))
    have kept : cleaned request.reference.toList = rooted (textsOf before) ++ '/' :: own.toList := by
      rw [reference_kept,request.reference_text,none_query,texts,rooted_append]
      · simp [rooted,tail]
      · intro _ last final space
        rw [texts,List.getLast?_concat] at final
        cases final
        exact absurd (word_visible kind (List.mem_of_getLast? space)).2 (by decide)
    obtain ⟨later,found⟩ := @early_question rules _ _ _ kept clean
        ((mem_rooted (by decide)).mpr ⟨text,first,inside⟩)
    have filled : encode rules.query (later ++ '/' :: own.toList) ≠ [] := by
      intro empty
      have long := @encode_length rules.query (later ++ '/' :: own.toList)
      rw [empty] at long
      simp at long
    have asked : some (behind (parse rules request.reference.toList).query (pairsText request.pairs)) =
        some (pairsText request.pairs) := by
      simpa [intended,none_,none_query,Parsed.appendPairs,Parsed.received,behind] using same
    rw [found,behind_some filled] at asked
    have lengths := congrArg List.length (Option.some.inj asked)
    rw [List.length_append,List.length_cons] at lengths
    omega

theorem names_parsed (reaches : Reaches rules request) : ∃ sent,
    cleaned request.reference.toList = rooted sent ++ tail '?' (request.query.map String.toList) ∧
    (arrived rules request).segments =
      (walk [] ((sent.flatMap fun text => (text.map slash).splitOn '/').map (encode rules.path))).map decode ∧
    ∀ text ∈ sent, ∃ source ∈ textsOf request.parts, text <:+: source := by
  obtain ⟨sent,kept,some_,sources⟩ := cleaned_texts request
  have questions : ∀ text ∈ sent, '?' ∉ text := by
    intro text member inside
    obtain ⟨source,there,within⟩ := sources text member
    exact names_question reaches source there (within.subset inside)
  have parsed := @parse_rooted rules _ _ _ some_ kept (names_hash reaches) questions
  exact ⟨sent,kept,by rw [arrived_segments,parsed],sources⟩

def Bent (text : List Char) : Prop := '\\' ∈ text ∨ escapes text = true

theorem bent_longer (reaches : Reaches rules request) {text : List Char}
    (member : text ∈ textsOf request.parts) (bent : Bent text) :
    ∃ longer ∈ textsOf request.parts, Bent longer ∧ (utf8 text).length < (utf8 longer).length := by
  obtain ⟨part,inside,rfl⟩ := List.mem_map.mp member
  cases part with
  | own text =>
    have smooth := word_smooth (UrlRequest.own_word inside)
    exact absurd bent (not_or.mpr ⟨smooth.backslash,by simp [Part.text,smooth.plain]⟩)
  | name name =>
    obtain ⟨place,there⟩ := List.getElem?_of_mem inside
    obtain ⟨sent,-,segments,sources⟩ := names_parsed reaches
    have came := reaches.names place name there
    rw [segments,List.getElem?_map] at came
    obtain ⟨segment,found,same⟩ := Option.map_eq_some_iff.mp came
    obtain ⟨text,source,escaped,longer⟩ := longer_source name.some_ bent same (List.mem_of_getElem? found)
    obtain ⟨whole,origin,within⟩ := sources text source
    exact ⟨whole,origin,.inr (escapes_within escaped within),Nat.lt_of_lt_of_le longer (utf8_within within)⟩

theorem none_bent (reaches : Reaches rules request) : ∀ text ∈ textsOf request.parts, ¬ Bent text := by
  have bounded : ∀ text ∈ textsOf request.parts,
      (utf8 text).length ≤ (utf8 (textsOf request.parts).flatten).length :=
    fun text member => utf8_within (List.infix_of_mem_flatten member)
  have room : ∀ n, ∀ text ∈ textsOf request.parts, Bent text →
      (utf8 text).length + n ≤ (utf8 (textsOf request.parts).flatten).length := by
    intro n
    induction n with
    | zero => exact fun text member _ => bounded text member
    | succ n ih =>
      intro text member bent
      obtain ⟨longer,there,next,more⟩ := bent_longer reaches member bent
      have left := ih longer there next
      omega
  intro text member bent
  have full := room ((utf8 (textsOf request.parts).flatten).length + 1) text member bent
  omega

theorem lost_blank {before : List (List Char)} {name : List Char}
    (plain : ∀ text ∈ before, Segment text ∧ Smooth text) (some_ : name ≠ [])
    (whole : '/' ∉ name) (smooth : Smooth name) (space : name.getLast? = some ' ')
    (came : ((walk [] (((before ++ [name.rdropWhile blank]).flatMap fun text => (text.map slash).splitOn '/').map
      (encode rules.path))).map decode)[before.length]? = some (utf8 name)) : False := by
  obtain ⟨rest,form⟩ := List.getLast?_eq_some_iff.mp space
  have cut : name.rdropWhile blank <+: rest := by
    rw [form,List.rdropWhile_concat_pos blank rest ' ' (by decide)]
    exact List.rdropWhile_prefix blank rest
  have within : name.rdropWhile blank <:+: name := (List.rdropWhile_prefix blank name).isInfix
  have shorter : (utf8 (name.rdropWhile blank)).length < (utf8 name).length := by
    have bounded := utf8_within cut.isInfix
    rw [form,utf8_append,List.length_append,← form]
    have one : (utf8 [' ']).length = 1 := by decide
    omega
  have whole_ : ∀ text ∈ before ++ [name.rdropWhile blank], '/' ∉ text ∧ '\\' ∉ text := by
    intro text member
    rcases List.mem_append.mp member with early | final
    · exact ⟨(plain text early).1.whole,(plain text early).2.backslash⟩
    · rw [List.mem_singleton.mp final]
      exact ⟨fun here => whole (within.subset here),fun here => smooth.backslash (within.subset here)⟩
  have dots : ∀ segment ∈ before.map (encode rules.path), ¬ Dotted segment := by
    intro segment member dotted
    obtain ⟨text,inside,rfl⟩ := List.mem_map.mp member
    have ⟨segment,smooth⟩ := plain text inside
    exact (plain_dotted smooth.plain dotted).elim segment.named.1 segment.named.2
  have size : before.length = (before.map (encode rules.path)).length := (List.length_map _).symm
  rw [pieces_plain whole_,List.map_append,walk_plain dots,List.nil_append,List.map_singleton,walk,
    List.isEmpty_nil,walk,List.getElem?_map,
    size] at came
  obtain ⟨segment,found,same⟩ := Option.map_eq_some_iff.mp came
  by_cases dotted : Dotted (encode rules.path (name.rdropWhile blank))
  · rw [advance_dotted dotted _ segment found] at same
    have empty : utf8 name = utf8 [] := same.symm
    exact some_ (utf8_inj empty)
  · rw [advance_plain dotted,List.getElem?_concat_length] at found
    cases found
    rw [decode_encode rules.keeps] at same
    have bounded := decode_length (name.rdropWhile blank)
    rw [same] at bounded
    omega

theorem carried_of_reaches (reaches : Reaches rules request) : Carried request := by
  have hashes : ∀ text ∈ textsOf request.parts, '#' ∉ text := fun text member inside =>
    names_hash reaches (mem_reference member inside (by decide) (by decide))
  have smooth : ∀ text ∈ textsOf request.parts, Smooth text := by
    intro text member
    have ⟨backslash,plain⟩ := not_or.mp (none_bent reaches text member)
    exact ⟨names_question reaches text member,hashes text member,backslash,by simpa using plain⟩
  refine ⟨fun name member => smooth _ (List.mem_map_of_mem member),?_⟩
  intro none_ name last space
  obtain ⟨before,form⟩ := List.getLast?_eq_some_iff.mp last
  have texts : textsOf request.parts = textsOf before ++ [name.text.toList] := by
    rw [form,textsOf,List.map_append]
    rfl
  have member : name.text.toList ∈ textsOf request.parts := texts ▸ List.mem_append_right _ List.mem_cons_self
  have early : ∀ text ∈ textsOf before, text ∈ textsOf request.parts :=
    fun text inside => texts ▸ List.mem_append_left _ inside
  have kept : cleaned request.reference.toList =
      rooted (textsOf before ++ [name.text.toList.rdropWhile blank]) ++ tail '?' none := by
    rw [request.reference_text,none_,texts,Option.map_none,tail,List.append_nil,List.append_nil]
    exact cleaned_rooted fun text inside => (texts_segment (texts ▸ inside)).newlines
  have questions : ∀ text ∈ textsOf before ++ [name.text.toList.rdropWhile blank], '?' ∉ text := by
    intro text inside here
    rcases List.mem_append.mp inside with first | final
    · exact (smooth text (early text first)).question here
    · rw [List.mem_singleton.mp final] at here
      exact (smooth _ member).question ((List.rdropWhile_prefix blank _).subset here)
  have parsed := @parse_rooted rules _ _ _ (by simp) kept (names_hash reaches) questions
  have there : request.parts[(textsOf before).length]? = some (.name name) := by
    rw [form,textsOf,List.length_map,List.getElem?_concat_length]
  have came := reaches.names _ name there
  rw [arrived_segments,parsed] at came
  exact lost_blank (fun text inside =>
    ⟨texts_segment (early text inside),smooth text (early text inside)⟩) name.some_ name.whole
    (smooth _ member) space came

end Names

theorem requests_address_their_objects_iff (rules : Rules) (request : UrlRequest) :
    Reaches rules request ↔ Carried request :=
  ⟨carried_of_reaches,reaches_of_carried⟩

section Standard

def below (c : Char) : Bool := c.toNat ≤ 32 || 126 < c.toNat
def querySet (c : Char) : Bool := below c || "\"#<>'".toList.contains c
def fragmentSet (c : Char) : Bool := below c || "\"<>`".toList.contains c
def pathSet (c : Char) : Bool := below c || "\"#<>?^`\x7b\x7d".toList.contains c

theorem hexValue_range {c : Char} (digit : (hexValue c).isSome = true) : 48 ≤ c.toNat ∧ c.toNat ≤ 102 := by
  unfold hexValue at digit
  split at digit
  · rename_i range
    exact ⟨range.1,Nat.le_trans range.2 (by decide)⟩
  · split at digit
    · rename_i range
      exact ⟨Nat.le_trans (by decide) range.1,Nat.le_trans range.2 (by decide)⟩
    · split at digit
      · rename_i range
        exact ⟨Nat.le_trans (by decide) range.1,range.2⟩
      · cases digit

theorem pathSet_keeps : Keeps pathSet := by
  refine ⟨by decide,?_⟩
  intro c digit
  have range := hexValue_range digit
  have signs : "\"#<>?^`\x7b\x7d".toList.all (fun d => (hexValue d).isNone) = true := by decide
  have middle : below c = false := by
    rw [below,decide_eq_false (by omega),decide_eq_false (by omega)]
    rfl
  rw [pathSet,middle,Bool.false_or]
  cases member : "\"#<>?^`\x7b\x7d".toList.contains c with
  | false => rfl
  | true =>
    have none_ := List.all_eq_true.mp signs c (List.contains_iff_mem.mp member)
    rw [Option.isNone_iff_eq_none.mp none_] at digit
    cases digit

def standard : Rules := ⟨pathSet,querySet,fragmentSet,pathSet_keeps⟩

theorem printed_all {text : String} (all : text.toList.all (fun c => !control c) = true) :
    ∀ c ∈ text.toList, control c = false :=
  fun c member => by simpa using List.all_eq_true.mp all c member

def shop : ObjectName := ⟨"shop",by decide,by decide,printed_all (by decide),by decide⟩
def orders : ObjectName := ⟨"orders?old",by decide,by decide,printed_all (by decide),by decide⟩

-- Dropping one collection drops another.
theorem question_drops_another :
    arrived standard (.within shop (.dropCollection orders)) =
      ⟨["_db","shop","_api","collection","orders"].map (utf8 ·.toList),some "old".toList,none⟩ ∧
    ¬ Reaches standard (.within shop (.dropCollection orders)) := by
  have heard : arrived standard (.within shop (.dropCollection orders)) =
      ⟨["_db","shop","_api","collection","orders"].map (utf8 ·.toList),some "old".toList,none⟩ := by decide
  refine ⟨heard,?_⟩
  intro reaches
  have query := reaches.query
  rw [heard] at query
  cases query

end Standard

end ArangoDataTools.RequestNames
