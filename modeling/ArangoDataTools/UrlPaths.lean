import Mathlib.Data.List.DropRight
import ArangoDataTools.Percent
import ArangoDataTools.Segments

namespace Url
open Percent Segments

-- References that begin with a slash, resolved against a URL whose scheme is
-- special, by the WHATWG rules: what is parsed replaces the whole path, query
-- and fragment of the base. Which characters are escaped is left open, but for
-- the escapes a reference already has.
structure Rules where
  path : Char → Bool
  query : Char → Bool
  fragment : Char → Bool
  keeps : Keeps path

structure Parsed where
  segments : List (List Char)
  query : Option (List Char)
  fragment : Option (List Char)
  deriving DecidableEq

section Parser

def blank (c : Char) : Bool := c.toNat ≤ 32
def lineEnd (c : Char) : Bool := c == '\t' || c == '\n' || c == '\r'

def cleaned (reference : List Char) : List Char :=
  ((reference.dropWhile blank).rdropWhile blank).filter fun c => !lineEnd c

def slash (c : Char) : Char := if c = '\\' then '/' else c

def singleDot (segment : List Char) : Bool := [".","%2e","%2E"].any fun form => form.toList == segment
def doubleDot (segment : List Char) : Bool :=
  ["..",".%2e",".%2E","%2e.","%2E.","%2e%2e","%2e%2E","%2E%2e","%2E%2E"].any fun form => form.toList == segment

def advance (done : List (List Char)) (segment : List Char) (last : Bool) : List (List Char) :=
  if doubleDot segment then (if last then done.dropLast ++ [[]] else done.dropLast)
  else if singleDot segment then (if last then done ++ [[]] else done)
  else done ++ [segment]

def walk (done : List (List Char)) : List (List Char) → List (List Char)
  | [] => done
  | segment :: rest => walk (advance done segment rest.isEmpty) rest

def pieces (path : List Char) : List (List Char) := ((path.drop 1).map slash).splitOn '/'

def parse (rules : Rules) (reference : List Char) : Parsed :=
  let whole := cut '#' (cleaned reference)
  let body := cut '?' whole.1
  ⟨walk [] ((pieces body.1).map (encode rules.path)),body.2.map (encode rules.query),
    whole.2.map (encode rules.fragment)⟩

end Parser

section Texts

def rooted (segments : List (List Char)) : List Char := segments.flatMap fun segment => '/' :: segment

def Parsed.text (url : Parsed) : List Char := rooted url.segments ++ tail '?' url.query ++ tail '#' url.fragment

structure Received where
  segments : List (List UInt8)
  query : Option (List Char)
  fragment : Option (List Char)
  deriving DecidableEq

def received (text : List Char) : Received :=
  let whole := cut '#' text
  let body := cut '?' whole.1
  ⟨((body.1.drop 1).splitOn '/').map decode,body.2,whole.2⟩

def Parsed.received (url : Parsed) : Received := ⟨url.segments.map decode,url.query,url.fragment⟩

theorem rooted_join {segments : List (List Char)} (some_ : segments ≠ []) : rooted segments =
    '/' :: join '/' segments := by
  induction segments with
  | nil => exact absurd rfl some_
  | cons segment rest ih =>
    cases rest with
    | nil => simp [rooted,join]
    | cons next rest =>
      rw [join_cons segment (List.cons_ne_nil next rest),← ih (List.cons_ne_nil next rest)]
      rfl

theorem mem_rooted {segments : List (List Char)} {c : Char} (other : c ≠ '/') :
    c ∈ rooted segments ↔ ∃ segment ∈ segments, c ∈ segment := by
  simp [rooted,other]

structure Parsed.Formed (url : Parsed) : Prop where
  some_ : url.segments ≠ []
  segments : ∀ segment ∈ url.segments, '/' ∉ segment ∧ '?' ∉ segment ∧ '#' ∉ segment
  query : ∀ query, url.query = some query → '#' ∉ query

theorem received_text {url : Parsed} (formed : url.Formed) : Url.received url.text = url.received := by
  have path {c : Char} (other : c ≠ '/') (none_ : ∀ segment ∈ url.segments, c ∉ segment) :
      c ∉ rooted url.segments :=
    fun here => by
      obtain ⟨segment,member,inside⟩ := (mem_rooted other).mp here
      exact none_ segment member inside
  have body : '#' ∉ rooted url.segments ++ tail '?' url.query := by
    intro here
    rcases List.mem_append.mp here with inside | inside
    · exact path (by decide) (fun segment member => (formed.segments segment member).2.2) inside
    · cases asked : url.query with
      | none =>
        rw [asked] at inside
        cases inside
      | some query =>
        rw [asked] at inside
        rcases List.mem_cons.mp inside with same | within
        · exact absurd same (by decide)
        · exact formed.query query asked within
  have questions := path (by decide) fun segment member => (formed.segments segment member).2.1
  have split := @split_join Char '/' _ _ _
      (fun segment member => (formed.segments segment member).1) formed.some_
  unfold Url.received Parsed.text
  rw [cut_tail body]
  simp only
  rw [cut_tail questions]
  simp only [rooted_join formed.some_,List.drop_one,List.tail_cons,split]
  rfl

end Texts

section Walking

theorem mem_advance {done : List (List Char)} {segment s : List Char} {last : Bool}
    (member : s ∈ advance done segment last) :
    s ∈ done ∨ s = [] ∨ s = segment := by
  unfold advance at member
  split at member
  · cases last with
    | true =>
      rcases List.mem_append.mp member with early | new
      · exact .inl (List.dropLast_subset done early)
      · exact .inr (.inl (List.mem_singleton.mp new))
    | false => exact .inl (List.dropLast_subset done member)
  · split at member
    · cases last with
      | true =>
        rcases List.mem_append.mp member with early | new
        · exact .inl early
        · exact .inr (.inl (List.mem_singleton.mp new))
      | false => exact .inl member
    · rcases List.mem_append.mp member with early | new
      · exact .inl early
      · exact .inr (.inr (List.mem_singleton.mp new))

theorem advance_last (done : List (List Char)) (segment : List Char) : advance done segment true ≠ [] := by
  unfold advance
  split
  · simp
  · split <;> simp

theorem mem_walk {done segments : List (List Char)} {s : List Char} (member : s ∈ walk done segments) :
    s ∈ done ∨ s = [] ∨ s ∈ segments := by
  induction segments generalizing done with
  | nil => exact .inl member
  | cons segment rest ih =>
    rcases ih member with early | empty | later
    · rcases mem_advance early with before | empty | same
      · exact .inl before
      · exact .inr (.inl empty)
      · exact .inr (.inr (same ▸ List.mem_cons_self))
    · exact .inr (.inl empty)
    · exact .inr (.inr (List.mem_cons_of_mem segment later))

theorem walk_some (done : List (List Char)) {segments : List (List Char)} (some_ : segments ≠ []) :
    walk done segments ≠ [] := by
  induction segments generalizing done with
  | nil => exact absurd rfl some_
  | cons segment rest ih =>
    cases rest with
    | nil => exact advance_last done segment
    | cons next rest => exact ih _ (List.cons_ne_nil next rest)

def Dotted (segment : List Char) : Prop := doubleDot segment = true ∨ singleDot segment = true

theorem advance_plain {segment : List Char} (plain : ¬ Dotted segment) (done : List (List Char)) (last : Bool) :
    advance done segment last = done ++ [segment] := by
  have ⟨double,single⟩ := not_or.mp plain
  rw [advance,if_neg double,if_neg single]

theorem walk_plain {before : List (List Char)} (plain : ∀ segment ∈ before, ¬ Dotted segment)
    (done rest : List (List Char)) :
    walk done (before ++ rest) = walk (done ++ before) rest := by
  induction before generalizing done with
  | nil => simp
  | cons segment before ih =>
    rw [List.cons_append,walk,advance_plain (plain segment List.mem_cons_self),
      ih fun s member => plain s (List.mem_cons_of_mem segment member)]
    simp

theorem advance_dotted {segment : List Char} (dotted : Dotted segment) (done : List (List Char)) :
    ∀ s ∈ (advance done segment true)[done.length]?, s = [] := by
  unfold advance
  by_cases double : doubleDot segment = true
  · rw [if_pos double,if_pos rfl]
    cases done with
    | nil => simp
    | cons first rest =>
      rw [List.getElem?_eq_none (by simp)]
      simp
  · rw [if_neg double,if_pos (dotted.resolve_left double),if_pos rfl]
    simp

end Walking

section Parsing
variable {rules : Rules}

theorem encode_clean {text : List Char} {d : Char} (sign : d ≠ '%') (digit : hexValue d = none)
    (none_ : d ∉ text)
    (reserved : Char → Bool) : d ∉ encode reserved text := by
  intro here
  rcases mem_encode here with same | same | ⟨value,low,same⟩
  · exact none_ same
  · exact sign same
  · rw [same,hexValue_hexDigit value low] at digit
    cases digit

theorem slash_other {c d : Char} (kept : slash c = d) (other : d ≠ '/') : c = d := by
  unfold slash at kept
  split at kept
  · exact absurd kept.symm other
  · exact kept

theorem slash_whole (c : Char) : slash c ≠ '\\' := by
  unfold slash
  split
  · decide
  · assumption

theorem mem_pieces {path piece : List Char} {c : Char} (member : piece ∈ pieces path)
    (inside : c ∈ piece) : c ∈ path ∧ c ≠ '/' := by
  have other : c ≠ '/' := fun same => split_whole _ piece member (same ▸ inside)
  obtain ⟨e,here,same⟩ := List.mem_map.mp ((split_within member).subset inside)
  exact ⟨slash_other same other ▸ List.mem_of_mem_drop here,other⟩

theorem mem_cut {text : List Char} {c d : Char} (member : c ∈ (cut d text).1) : c ∈ text := by
  rw [← @cut_joined _ d _ _ text]
  exact List.mem_append_left _ member

theorem parse_formed (reference : List Char) : (parse rules reference).Formed where
  some_ := walk_some [] (by simp [pieces])
  segments segment member := by
    rcases mem_walk member with early | rfl | piece
    · cases early
    · simp
    · obtain ⟨piece,inside,rfl⟩ := List.mem_map.mp piece
      refine ⟨?_,?_,?_⟩
      · exact encode_clean (by decide) (by decide) (fun here => (mem_pieces inside here).2 rfl) rules.path
      · refine encode_clean (by decide) (by decide) (fun here => ?_) rules.path
        exact cut_before _ (mem_pieces inside here).1
      · refine encode_clean (by decide) (by decide) (fun here => ?_) rules.path
        exact cut_before _ (mem_cut (mem_pieces inside here).1)
  query query asked := by
    obtain ⟨raw,found,rfl⟩ := Option.map_eq_some_iff.mp asked
    refine encode_clean (by decide) (by decide) (fun here => ?_) rules.query
    have whole := @cut_joined _ '?' _ _ (cut '#' (cleaned reference)).1
    rw [found] at whole
    exact cut_before (cleaned reference) (whole ▸ List.mem_append_right _ (List.mem_cons_of_mem _ here))

end Parsing

section Cleaning

theorem rdropWhile_append {p : Char → Bool} {c : Char} (kept : p c = false) (before after : List Char) :
    (before ++ c :: after).rdropWhile p = before ++ c :: after.rdropWhile p := by
  induction after using List.reverseRecOn with
  | nil =>
    rw [List.rdropWhile_concat_neg p before c (by simp [kept])]
    simp
  | append_singleton after d ih =>
    have grouped : before ++ c :: (after ++ [d]) = before ++ c :: after ++ [d] := by simp
    by_cases dropped : p d = true
    · rw [grouped,List.rdropWhile_concat_pos p _ d dropped,ih,List.rdropWhile_concat_pos p _ d dropped]
    · rw [grouped,List.rdropWhile_concat_neg p _ d dropped,List.rdropWhile_concat_neg p _ d dropped,grouped]

theorem rdropWhile_kept {p : Char → Bool} {text : List Char}
    (kept : ∀ c, text.getLast? = some c → p c = false) :
    text.rdropWhile p = text := by
  rw [List.rdropWhile_eq_self_iff]
  intro some_
  simp [kept _ (List.getLast?_eq_some_getLast some_)]

theorem cleaned_started {reference : List Char} (starts : reference.head? = some '/')
    (printed : ∀ c ∈ reference, lineEnd c = false) :
    cleaned reference = reference.rdropWhile blank := by
  obtain ⟨rest,rfl⟩ := List.head?_eq_some_iff.mp starts
  have start : ('/' :: rest).dropWhile blank = '/' :: rest := List.dropWhile_cons_of_neg (by decide)
  rw [cleaned,start,List.filter_eq_self]
  intro c member
  simp [printed c ((List.rdropWhile_prefix blank _).subset member)]

theorem mem_cleaned {reference : List Char} {c : Char} (member : c ∈ reference)
    (visible : blank c = false) (printed : lineEnd c = false) :
    c ∈ cleaned reference := by
  have first : c ∈ reference.dropWhile blank := by
    rw [← List.takeWhile_append_dropWhile (p:=blank) (l:=reference)] at member
    rcases List.mem_append.mp member with taken | left
    · exact absurd (List.mem_takeWhile_imp taken) (by simp [visible])
    · exact left
  have last : c ∈ (reference.dropWhile blank).rdropWhile blank := by
    rw [← @List.rdropWhile_append_rtakeWhile _ blank (reference.dropWhile blank)] at first
    rcases List.mem_append.mp first with left | taken
    · exact left
    · exact absurd (List.mem_rtakeWhile_imp taken) (by simp [visible])
  exact List.mem_filter.mpr ⟨last,by simp [printed]⟩

theorem rooted_append (one two : List (List Char)) : rooted (one ++ two) =
    rooted one ++ rooted two := List.flatMap_append

theorem rooted_head {segments : List (List Char)} (some_ : segments ≠ []) (after : List Char) :
    (rooted segments ++ after).head? = some '/' := by
  rw [rooted_join some_]
  rfl

theorem rooted_printed {segments : List (List Char)} (printed : ∀ segment ∈ segments, ∀ c ∈ segment,
    lineEnd c = false) :
    ∀ c ∈ rooted segments, lineEnd c = false := by
  intro c member
  by_cases delimiter : c = '/'
  · rw [delimiter]
    rfl
  · obtain ⟨segment,inside,here⟩ := (mem_rooted delimiter).mp member
    exact printed segment inside c here

theorem cleaned_rooted {before : List (List Char)} {last : List Char}
    (printed : ∀ segment ∈ before ++ [last], ∀ c ∈ segment, lineEnd c = false) :
    cleaned (rooted (before ++ [last])) = rooted (before ++ [last.rdropWhile blank]) := by
  have starts : (rooted (before ++ [last]) ++ []).head? = some '/' := rooted_head (by simp) []
  rw [List.append_nil] at starts
  rw [cleaned_started starts (rooted_printed printed),rooted_append,rooted_append]
  simpa [rooted] using rdropWhile_append (p:=blank) (c := '/') (by decide) (rooted before) last

theorem cleaned_kept {reference : List Char} (starts : reference.head? = some '/')
    (printed : ∀ c ∈ reference, lineEnd c = false)
    (ends : ∀ c, reference.getLast? = some c → blank c = false) : cleaned reference = reference := by
  rw [cleaned_started starts printed]
  exact rdropWhile_kept ends

end Cleaning

section References
variable {rules : Rules} {reference : List Char}

theorem parse_query (whole : '#' ∉ cleaned reference) : (parse rules reference).query =
    (cut '?' (cleaned reference)).2.map (encode rules.query) := by
  have all := @cut_tail _ '#' _ _ _ whole none
  rw [tail,List.append_nil] at all
  rw [parse,all]

theorem no_fragment (none_ : (parse rules reference).fragment = none) : '#' ∉ cleaned reference := by
  intro here
  obtain ⟨first,later,found⟩ := cut_inside here []
  rw [List.append_nil] at found
  have lost := Option.map_eq_none_iff.mp none_
  rw [found] at lost
  cases lost

theorem early_question {before after : List Char} (kept : cleaned reference = before ++ after)
    (whole : '#' ∉ cleaned reference)
    (early : '?' ∈ before) : ∃ later, (parse rules reference).query =
    some (encode rules.query (later ++ after)) := by
  obtain ⟨first,later,found⟩ := cut_inside early after
  exact ⟨later,by rw [parse_query whole,kept,found]; rfl⟩

theorem parse_rooted {texts : List (List Char)} {query : Option (List Char)} (some_ : texts ≠ [])
    (kept : cleaned reference = rooted texts ++ tail '?' query) (clean : '#' ∉ cleaned reference)
    (plain : ∀ text ∈ texts, '?' ∉ text) :
    parse rules reference = ⟨walk []
      ((texts.flatMap fun text => (text.map slash).splitOn '/').map (encode rules.path)),
      query.map (encode rules.query),none⟩ := by
  have all := @cut_tail _ '#' _ _ _ clean none
  rw [tail,List.append_nil] at all
  have questions : '?' ∉ rooted texts := by
    intro here
    obtain ⟨text,member,inside⟩ := (mem_rooted (by decide)).mp here
    exact plain text member inside
  have mapped : texts.map (List.map slash) ≠ [] := by simpa using some_
  have split : pieces (rooted texts) = texts.flatMap fun text => (text.map slash).splitOn '/' := by
    rw [pieces,rooted_join some_,List.drop_one,List.tail_cons,map_join some_]
    exact (split_joined mapped).trans (List.flatMap_map _ _ texts)
  rw [parse,all]
  simp only
  rw [kept,cut_tail questions]
  simp only
  rw [split]
  rfl

theorem escaped_slash (c a b : Char) : escaped (slash c) (slash a) (slash b) = escaped c a b := by
  have digit : ∀ d, hexValue (slash d) = hexValue d := by
    intro d
    unfold slash
    split
    · rename_i same
      rw [same]
      decide
    · rfl
  have sign : slash c = '%' ↔ c = '%' :=
    ⟨fun same => slash_other same (by decide),fun same => by rw [same]; rfl⟩
  simp only [escaped,digit,sign]

theorem escapes_slash (text : List Char) : escapes (text.map slash) = escapes text := by
  fun_induction escapes text with
  | case1 c a b rest ih =>
    rw [List.map_cons,List.map_cons] at ih
    rw [List.map_cons,List.map_cons,List.map_cons,escapes,escaped_slash,ih]
  | case2 text short =>
    rcases short_forms short with rfl | ⟨c,rfl⟩ | ⟨c,a,rfl⟩ <;> rfl

theorem utf8_slash (text : List Char) : (utf8 (text.map slash)).length = (utf8 text).length := by
  induction text with
  | nil => rfl
  | cons c rest ih =>
    have size : (slash c).utf8Size = c.utf8Size := by
      unfold slash
      split
      · rename_i same
        rw [same]
        decide
      · rfl
    rw [List.map_cons,utf8_length_cons,utf8_length_cons,ih,size]

theorem longer_source {texts : List (List Char)} {name segment : List Char} (some_ : name ≠ [])
    (bent : '\\' ∈ name ∨ escapes name = true) (arrived : decode segment = utf8 name)
    (member : segment ∈ walk []
      ((texts.flatMap fun text => (text.map slash).splitOn '/').map (encode rules.path))) :
    ∃ text ∈ texts, escapes text = true ∧ (utf8 name).length < (utf8 text).length := by
  rcases mem_walk member with early | rfl | sent
  · cases early
  · have empty : utf8 name = utf8 [] := arrived.symm
    exact absurd (utf8_inj empty) some_
  · obtain ⟨piece,inside,rfl⟩ := List.mem_map.mp sent
    obtain ⟨text,source,part⟩ := List.mem_flatMap.mp inside
    have within : piece <:+: text.map slash := split_within part
    rw [decode_encode rules.keeps] at arrived
    cases kind : escapes piece with
    | false =>
      rw [decode_plain kind] at arrived
      have same := utf8_inj arrived
      rw [← same,kind] at bent
      obtain ⟨c,-,back⟩ := List.mem_map.mp (within.subset (bent.resolve_right (by simp)))
      exact absurd back (slash_whole c)
    | true =>
      have shorter := decode_shorter kind
      have bounded := utf8_within within
      rw [arrived] at shorter
      rw [utf8_slash] at bounded
      refine ⟨text,source,?_,by omega⟩
      rw [← escapes_slash]
      exact escapes_within kind within

end References

section Plain

theorem pieces_plain {texts : List (List Char)} (plain : ∀ text ∈ texts, '/' ∉ text ∧ '\\' ∉ text) :
    (texts.flatMap fun text => (text.map slash).splitOn '/') = texts := by
  induction texts with
  | nil => rfl
  | cons text rest ih =>
    have ⟨one,two⟩ := plain text List.mem_cons_self
    have kept : text.map slash = text := by
      conv_rhs => rw [← List.map_id text]
      refine List.map_congr_left fun c member => ?_
      have other : c ≠ '\\' := fun same => two (same ▸ member)
      exact if_neg other
    have alone : text.splitOn '/' = [text] := List.splitOn_eq_singleton one
    rw [List.flatMap_cons,kept,alone,ih fun other member => plain other (List.mem_cons_of_mem text member)]
    rfl

theorem dotted_decode {segment : List Char} (dotted : Dotted segment) : decode segment =
    utf8 ['.'] ∨ decode segment = utf8 ['.','.'] := by
  rcases dotted with double | single
  · obtain ⟨form,member,same⟩ := List.any_eq_true.mp double
    have forms : ∀ form ∈ ["..",".%2e",".%2E","%2e.","%2E.","%2e%2e","%2e%2E","%2E%2e","%2E%2E"],
        decode form.toList = utf8 ['.','.'] := by
      decide
    exact .inr (eq_of_beq same ▸ forms form member)
  · obtain ⟨form,member,same⟩ := List.any_eq_true.mp single
    have forms : ∀ form ∈ [".","%2e","%2E"], decode form.toList = utf8 ['.'] := by decide
    exact .inl (eq_of_beq same ▸ forms form member)

theorem plain_dotted {rules : Rules} {text : List Char} (plain : escapes text = false)
    (dotted : Dotted (encode rules.path text)) :
    text = ['.'] ∨ text = ['.','.'] := by
  have back := dotted_decode dotted
  rw [decode_encode rules.keeps,decode_plain plain] at back
  exact back.imp utf8_inj utf8_inj

end Plain

section Pairs

def formByte (byte : UInt8) : List Char :=
  if byte = 32 then ['+']
  else if (Char.ofNat byte.toNat).isAlphanum || "*-._".toList.contains (Char.ofNat byte.toNat) then
    [Char.ofNat byte.toNat]
  else escapeByte byte

def formText (text : String) : List Char := (utf8 text.toList).flatMap formByte

def pairsText (pairs : List (String × String)) : List Char :=
  join '&' (pairs.map fun pair => formText pair.1 ++ '=' :: formText pair.2)

def behind (query : Option (List Char)) (text : List Char) : List Char :=
  match query with
  | none | some [] => text
  | some query => query ++ '&' :: text

def Parsed.appendPairs (url : Parsed) (pairs : List (String × String)) : Parsed :=
  if pairs = [] then url else {url with query := some (behind url.query (pairsText pairs))}

@[simp] theorem appendPairs_segments (url : Parsed) (pairs : List (String × String)) :
    (url.appendPairs pairs).segments = url.segments := by
  unfold Parsed.appendPairs
  split <;> rfl

@[simp] theorem appendPairs_fragment (url : Parsed) (pairs : List (String × String)) :
    (url.appendPairs pairs).fragment = url.fragment := by
  unfold Parsed.appendPairs
  split <;> rfl

theorem formByte_clean (byte : UInt8) : '#' ∉ formByte byte := by
  unfold formByte
  split
  · decide
  · split
    · rename_i kept
      rw [List.mem_singleton]
      intro same
      rw [← same] at kept
      exact absurd kept (by decide)
    · intro here
      rcases mem_escapeByte here with same | ⟨value,low,same⟩
      · exact absurd same (by decide)
      · have digit := hexValue_hexDigit value low
        rw [← same] at digit
        cases digit

theorem formText_clean (text : String) : '#' ∉ formText text := by
  intro here
  obtain ⟨byte,-,inside⟩ := List.mem_flatMap.mp here
  exact formByte_clean byte inside

theorem pairsText_clean (pairs : List (String × String)) : '#' ∉ pairsText pairs := by
  intro here
  rcases mem_join here with same | ⟨text,member,inside⟩
  · exact absurd same (by decide)
  · obtain ⟨pair,-,rfl⟩ := List.mem_map.mp member
    rcases List.mem_append.mp inside with key | value
    · exact formText_clean _ key
    · rcases List.mem_cons.mp value with same | last
      · exact absurd same (by decide)
      · exact formText_clean _ last

theorem behind_some {query text : List Char} (some_ : query ≠ []) : behind (some query) text =
    query ++ '&' :: text := by
  cases query with
  | nil => exact absurd rfl some_
  | cons c rest => rfl

theorem appendPairs_formed {url : Parsed} (formed : url.Formed) (pairs : List (String × String)) :
    (url.appendPairs pairs).Formed := by
  unfold Parsed.appendPairs
  split
  · exact formed
  · refine ⟨formed.some_,formed.segments,?_⟩
    intro query asked
    have whole := pairsText_clean pairs
    cases asked
    unfold behind
    split
    · exact whole
    · exact whole
    · rename_i early _ before
      intro here
      rcases List.mem_append.mp here with first | last
      · exact formed.query _ before first
      · exact whole ((List.mem_cons.mp last).resolve_left (by decide))

end Pairs

end Url
