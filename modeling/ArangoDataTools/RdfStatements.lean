import ArangoDataTools.RdfLines

namespace ArangoDataTools.RdfLines
open TextScan

attribute [local simp] hexFrom readHexFrom decodeFrom readRaw

-- `SkipTo text rest`, `IriAt iri text rest` and the like: what stands at the
-- beginning of `text`, and the `rest` after it.
def SkipTo (text rest : List Char) : Prop := ∃ gap, (∀ c ∈ gap, isBlank c = true) ∧ text = gap ++ rest

def IriAt (iri : String) (text rest : List Char) : Prop :=
  ∃ body, Spells (Free '>') namedEscape iri.toList body ∧ text = '<' :: body ++ '>' :: rest

def BlankAt (label : String) (text rest : List Char) : Prop :=
  label.toList ≠ [] ∧ (∀ c ∈ label.toList, isLabelChar c = true) ∧ Stops isLabelChar rest ∧
    text = '_' :: ':' :: label.toList ++ rest

def QuotedAt (value : String) (text rest : List Char) : Prop :=
  ∃ body, Spells (Free '"') namedEscape value.toList body ∧ text = '"' :: body ++ '"' :: rest

inductive SuffixAt : Option String → Option String → List Char → List Char → Prop where
  | none {rest : List Char} : rest.head? ≠ some '@' → (∀ more, rest ≠ '^' :: '^' :: more) →
      SuffixAt none none rest rest
  | datatype {iri : String} {text rest : List Char} : IriAt iri text rest →
      SuffixAt (some iri) none ('^' :: '^' :: text) rest
  | language {tag : String} {rest : List Char} : tag.toList ≠ [] →
      (∀ c ∈ tag.toList, isTagChar c = true) → Stops isTagChar rest →
      SuffixAt none (some tag) ('@' :: tag.toList ++ rest) rest

inductive ResourceAt : RdfResource → List Char → List Char → Prop where
  | iri {iri : String} {text rest : List Char} : IriAt iri text rest → ResourceAt (.iri iri) text rest
  | blank {label : String} {text rest : List Char} : BlankAt label text rest →
      ResourceAt (.blankNode label) text rest

inductive TermAt : RdfTerm → List Char → List Char → Prop where
  | iri {iri : String} {text rest : List Char} : IriAt iri text rest → TermAt (.iri iri) text rest
  | blank {label : String} {text rest : List Char} : BlankAt label text rest →
      TermAt (.blankNode label) text rest
  | literal {value : String} {datatype language : Option String} {text middle rest : List Char} :
      QuotedAt value text middle →
      SuffixAt datatype language middle rest → TermAt (.literal value datatype language) text rest

-- A statement up to and including its `.`, and what follows it.
inductive StatementAt (format : RdfFormat) : RdfTriple → List Char → List Char → Prop where
  | triple {line a b c d e f tail : List Char} {subject : RdfResource} {predicate : String} {object : RdfTerm} :
      SkipTo line a → ResourceAt subject a b → SkipTo b c → IriAt predicate c d → SkipTo d e →
      TermAt object e f →
      SkipTo f ('.' :: tail) → StatementAt format ⟨subject,predicate,object,none⟩ line tail
  | quad {line a b c d e f g h tail : List Char} {subject graph : RdfResource} {predicate : String}
      {object : RdfTerm} :
      format = .nQuads → SkipTo line a → ResourceAt subject a b → SkipTo b c → IriAt predicate c d →
      SkipTo d e →
      TermAt object e f → SkipTo f g → ResourceAt graph g h → SkipTo h ('.' :: tail) →
      StatementAt format ⟨subject,predicate,object,some (graphName graph)⟩ line tail

section Escapes

variable {text rest raw value digits : List Char} {c close : Char} {code size : Nat} {what : String}

theorem readHexFrom_iff : readHexFrom code size text = .ok (c,rest) ↔ ∃ digits,
    text = digits ++ rest ∧ HexNames size code digits c := by
  induction size generalizing code text with
  | zero =>
    constructor
    · intro read
      rw [readHexFrom] at read
      cases point : fromCode code with
      | none => rw [point] at read; cases read
      | some found =>
        rw [point] at read
        cases read
        exact ⟨[],rfl,rfl,point⟩
    · rintro ⟨digits,rfl,length,names⟩
      rw [List.length_eq_zero_iff.mp length] at names ⊢
      rw [List.nil_append,readHexFrom,show fromCode code = some c from names]
  | succ size ih =>
    constructor
    · intro read
      cases text with
      | nil => cases read
      | cons first text =>
        rw [readHexFrom] at read
        cases digit : toDigit first with
        | none => rw [digit] at read; cases read
        | some number =>
          rw [digit] at read
          obtain ⟨digits,rfl,length,names⟩ := ih.mp read
          exact ⟨first :: digits,rfl,congrArg (· + 1) length,by rw [hexFrom,digit]; exact names⟩
    · rintro ⟨digits,rfl,length,names⟩
      cases digits with
      | nil => cases length
      | cons first digits =>
        obtain ⟨point,found,from_code⟩ := Option.bind_eq_some_iff.mp names
        obtain ⟨number,digit,found⟩ := Option.bind_eq_some_iff.mp found
        rw [List.cons_append,readHexFrom,digit]
        exact ih.mpr ⟨digits,rfl,Nat.succ.inj length,Option.bind_eq_some_iff.mpr ⟨point,found,from_code⟩⟩

theorem decodeFrom_coded (kind : name = 'u' ∧ size = 4 ∨ name = 'U' ∧ size = 8)
    (read : readHex size text = .ok (c,rest)) :
    decodeFrom ('\\' :: name :: text) = (decodeFrom rest).map (c :: ·) := by
  have sized : (if name = 'u' then 4 else 8) = size := by
    rcases kind with ⟨rfl,rfl⟩ | ⟨rfl,rfl⟩ <;> rfl
  have coded : name = 'u' ∨ name = 'U' := kind.imp And.left And.left
  rw [decodeFrom,if_pos coded]
  split
  · rename_i failure failed
    rw [sized,read] at failed
    cases failed
  · rename_i found more again
    rw [sized,read] at again
    cases again
    rfl

theorem decodeFrom_named (named : namedEscape name = some c) :
    decodeFrom ('\\' :: name :: text) = (decodeFrom text).map (c :: ·) := by
  have coded : ¬(name = 'u' ∨ name = 'U') := by
    rintro (rfl | rfl) <;> cases named
  rw [decodeFrom,if_neg coded,named]

theorem decodeFrom_plain (plain : c ≠ '\\') : decodeFrom (c :: text) = (decodeFrom text).map (c :: ·) := by
  rw [decodeFrom]
  exact plain

theorem spells_decodeFrom (spells : Spells (· ≠ '\\') namedEscape value text) : decodeFrom text =
    .ok value := by
  induction spells with
  | nil => rw [decodeFrom]
  | raw stands _ ih => rw [decodeFrom_plain stands,ih]; rfl
  | named found _ ih => rw [decodeFrom_named found,ih]; rfl
  | coded kind hex _ ih =>
    rw [List.cons_append,List.cons_append,decodeFrom_coded kind (readHexFrom_iff.mpr ⟨_,rfl,hex⟩),ih]
    rfl

theorem decodeFrom_spells (decodes : decodeFrom text = .ok value) :
    Spells (· ≠ '\\') namedEscape value text := by
  induction text using decodeFrom.induct generalizing value with
  | case1 =>
    rw [decodeFrom] at decodes
    cases decodes
    exact .nil
  | case2 =>
    rw [decodeFrom] at decodes
    cases decodes
  | case3 name text coded failure failed =>
    rw [dite_eq_ite] at failed
    rw [decodeFrom,if_pos coded] at decodes
    split at decodes
    · cases decodes
    · rename_i read
      rw [failed] at read
      cases read
  | case4 name text coded c rest read shorter ih =>
    rw [dite_eq_ite] at read
    have kind : name = 'u' ∧ (if name = 'u' then 4 else 8) = 4 ∨ name = 'U' ∧
        (if name = 'u' then 4 else 8) = 8 := by
      rcases coded with rfl | rfl <;> simp
    generalize (if name = 'u' then 4 else 8) = size at kind read
    rw [decodeFrom_coded kind read] at decodes
    obtain ⟨tail,tail_decodes,rfl⟩ := map_ok.mp decodes
    obtain ⟨digits,rfl,hex⟩ := readHexFrom_iff.mp read
    exact .coded kind hex (ih tail_decodes)
  | case5 name text coded c named ih =>
    rw [decodeFrom_named named] at decodes
    obtain ⟨tail,tail_decodes,rfl⟩ := map_ok.mp decodes
    exact .named named (ih tail_decodes)
  | case6 name text coded named =>
    rw [decodeFrom,if_neg coded,named] at decodes
    cases decodes
  | case7 c text plain ih =>
    rw [decodeFrom_plain plain] at decodes
    obtain ⟨tail,tail_decodes,rfl⟩ := map_ok.mp decodes
    exact .raw plain (ih tail_decodes)

theorem decodeFrom_unescaped (plain : '\\' ∉ text) : decodeFrom text = .ok text := by
  induction text with
  | nil => rw [decodeFrom]
  | cons first text ih =>
    obtain ⟨other,plain⟩ := not_or.mp (List.mem_cons.not.mp plain)
    rw [decodeFrom_plain (Ne.symm other),ih plain]
    rfl

theorem decodeEscapes_iff : decodeEscapes text = .ok value ↔ Spells (· ≠ '\\') namedEscape value text := by
  have loop : decodeEscapes text = decodeFrom text := by
    unfold decodeEscapes
    split
    · rfl
    · rename_i plain
      exact (decodeFrom_unescaped plain).symm
  rw [loop]
  exact ⟨decodeFrom_spells,spells_decodeFrom⟩

-- What `readRaw` keeps: single characters, and pairs after a backslash.
inductive Pairs (close : Char) : List Char → Prop where
  | nil : Pairs close []
  | single {c : Char} {text : List Char} : Free close c → Pairs close text → Pairs close (c :: text)
  | pair {next : Char} {text : List Char} : Pairs close text → Pairs close ('\\' :: next :: text)

theorem readRaw_close : readRaw close what (close :: text) = .ok ([],text) := by
  rw [readRaw.eq_def]
  exact if_pos rfl

theorem readRaw_single (free : Free close c) :
    readRaw close what (c :: text) = (readRaw close what text).map fun (raw,rest) => (c :: raw,rest) := by
  rw [readRaw.eq_def]
  exact (if_neg free.1).trans (if_neg free.2)

theorem readRaw_pair (mark : close ≠ '\\') :
    readRaw close what ('\\' :: c :: text) = (readRaw close what text).map fun (raw,rest) =>
    ('\\' :: c :: raw,rest) := by
  rw [readRaw.eq_def]
  exact (if_neg (Ne.symm mark)).trans (if_pos rfl)

theorem readRaw_pairs (read : readRaw close what text = .ok (raw,rest)) : Pairs close raw ∧
    text = raw ++ close :: rest := by
  induction text using readRaw.induct close generalizing raw with
  | case1 => cases read
  | case2 text =>
    rw [readRaw_close] at read
    cases read
    exact ⟨.nil,rfl⟩
  | case3 other =>
    rw [readRaw.eq_def] at read
    simp only [if_neg other,if_true] at read
    cases read
  | case4 next text other ih =>
    rw [readRaw_pair (Ne.symm other)] at read
    obtain ⟨⟨tail,after⟩,tail_read,same⟩ := map_ok.mp read
    cases same
    obtain ⟨pairs,rfl⟩ := ih tail_read
    exact ⟨.pair pairs,rfl⟩
  | case5 first text other plain ih =>
    rw [readRaw_single ⟨other,plain⟩] at read
    obtain ⟨⟨tail,after⟩,tail_read,same⟩ := map_ok.mp read
    cases same
    obtain ⟨pairs,rfl⟩ := ih tail_read
    exact ⟨.single ⟨other,plain⟩ pairs,rfl⟩

theorem pairs_readRaw (mark : close ≠ '\\') (pairs : Pairs close raw) :
    readRaw close what (raw ++ close :: rest) = .ok (raw,rest) := by
  induction pairs with
  | nil => exact readRaw_close
  | single free _ ih =>
    rw [List.cons_append,readRaw_single free,ih]
    rfl
  | pair _ ih =>
    rw [List.cons_append,List.cons_append,readRaw_pair mark,ih]
    rfl

theorem pairs_single (pairs : Pairs close (c :: text)) (plain : c ≠ '\\') : Free close c ∧
    Pairs close text := by
  cases pairs with
  | single free pairs => exact ⟨free,pairs⟩
  | pair => exact absurd rfl plain

theorem pairs_unescape (pairs : Pairs close (digits ++ text)) (plain : ∀ c ∈ digits, c ≠ '\\') :
    Pairs close text := by
  induction digits with
  | nil => exact pairs
  | cons first digits ih =>
    exact ih (pairs_single pairs (plain first (by simp))).2 fun c member =>
      plain c (List.mem_cons_of_mem _ member)

theorem pairs_tail (pairs : Pairs close ('\\' :: name :: text)) : Pairs close text := by
  cases pairs with
  | single free => exact absurd rfl free.2
  | pair pairs => exact pairs

theorem pairs_append (free : ∀ c ∈ digits, Free close c) (pairs : Pairs close text) :
    Pairs close (digits ++ text) := by
  induction digits with
  | nil => exact pairs
  | cons first digits ih => exact .single (free first (by simp)) (ih fun c member => free c (List.mem_cons_of_mem _ member))

theorem spells_free (marks : toDigit close = none) :
    Spells (Free close) namedEscape value text ↔ Spells (· ≠ '\\') namedEscape value text ∧
    Pairs close text := by
  constructor
  · intro spells
    refine ⟨spells_mono spells (fun c free => free.2) fun _ _ same => same,?_⟩
    induction spells with
    | nil => exact .nil
    | raw free _ ih => exact .single free ih
    | named _ _ ih => exact .pair ih
    | coded _ hex _ ih =>
      refine .pair (pairs_append (fun c member => ?_) ih)
      obtain ⟨digit,isDigit⟩ := hex_digits hex c member
      refine ⟨?_,(hex_digit isDigit).1⟩
      rintro rfl
      rw [marks] at isDigit
      cases isDigit
  · rintro ⟨spells,pairs⟩
    induction spells with
    | nil => exact .nil
    | raw plain _ ih => exact .raw (pairs_single pairs plain).1 (ih (pairs_single pairs plain).2)
    | named found _ ih => exact .named found (ih (pairs_tail pairs))
    | coded kind hex _ ih =>
      refine .coded kind hex (ih (pairs_unescape (pairs_tail pairs) fun c member => ?_))
      obtain ⟨digit,isDigit⟩ := hex_digits hex c member
      exact (hex_digit isDigit).1

theorem body_read (mark : close ≠ '\\') (marks : toDigit close = none) :
    (∃ raw, readRaw close what text = .ok (raw,rest) ∧ decodeEscapes raw = .ok value) ↔
      ∃ body, Spells (Free close) namedEscape value body ∧ text = body ++ close :: rest := by
  constructor
  · rintro ⟨raw,read,decodes⟩
    obtain ⟨pairs,rfl⟩ := readRaw_pairs read
    exact ⟨raw,(spells_free marks).mpr ⟨decodeEscapes_iff.mp decodes,pairs⟩,rfl⟩
  · rintro ⟨body,spells,rfl⟩
    obtain ⟨decodes,pairs⟩ := (spells_free marks).mp spells
    exact ⟨body,pairs_readRaw mark pairs,decodeEscapes_iff.mpr decodes⟩

end Escapes

section Readers

variable {text rest line tail : List Char} {iri label : String} {resource : RdfResource}
  {term : RdfTerm} {format : RdfFormat}
variable {triple : RdfTriple}

theorem readIri_iff : readIri text = .ok (iri,rest) ↔ IriAt iri text rest := by
  constructor
  · intro read
    rw [readIri.eq_def] at read
    split at read
    · obtain ⟨⟨raw,after⟩,raw_read,read⟩ := bind_ok.mp read
      obtain ⟨value,decodes,same⟩ := bind_ok.mp read
      cases same
      obtain ⟨body,spells,rfl⟩ := (body_read (by decide) rfl).mp ⟨raw,raw_read,decodes⟩
      exact ⟨body,by rwa [String.toList_ofList],rfl⟩
    · cases read
  · rintro ⟨body,spells,rfl⟩
    have body_reads : ∃ raw, readRaw '>' "IRI" (body ++ '>' :: rest) = .ok (raw,rest) ∧
        decodeEscapes raw = .ok iri.toList :=
      (body_read (by decide) rfl).mpr ⟨body,spells,rfl⟩
    obtain ⟨raw,read,decodes⟩ := body_reads
    exact bind_ok.mpr ⟨_,read,bind_ok.mpr ⟨_,decodes,by rw [String.ofList_toList]; rfl⟩⟩

theorem readBlank_iff : readBlank text = .ok (label,rest) ↔ BlankAt label text rest := by
  constructor
  · intro read
    rw [readBlank.eq_def] at read
    split at read
    · rename_i text
      split_ifs at read with empty
      cases read
      refine ⟨by rwa [String.toList_ofList],?_,dropWhile_stops text,?_⟩
      · rw [String.toList_ofList]
        exact takeWhile_all text
      · simp [String.toList_ofList]
    · cases read
  · rintro ⟨nonempty,labels,stops,rfl⟩
    have word := takeWhile_word labels stops
    show readBlank ('_' :: ':' :: (label.toList ++ rest)) = _
    rw [readBlank,word,if_neg nonempty,dropWhile_word labels stops,String.ofList_toList]

theorem iriAt_head (at_text : IriAt iri text rest) : text.head? = some '<' := by
  obtain ⟨_,_,rfl⟩ := at_text
  rfl

theorem blankAt_head (at_text : BlankAt label text rest) : text.head? = some '_' := by
  obtain ⟨_,_,_,rfl⟩ := at_text
  rfl

theorem readSuffix_iff {value : List Char} : readSuffix value text = .ok (term,rest) ↔
    ∃ datatype language, term = .literal (String.ofList value) datatype language ∧
    SuffixAt datatype language text rest := by
  constructor
  · intro read
    rw [readSuffix.eq_def] at read
    split at read
    · obtain ⟨⟨datatype,after⟩,read,same⟩ := map_ok.mp read
      cases same
      exact ⟨some datatype,none,rfl,.datatype (readIri_iff.mp read)⟩
    · rename_i text
      split_ifs at read with empty
      cases read
      have suffix : SuffixAt none (some (String.ofList (text.takeWhile isTagChar)))
          ('@' :: (String.ofList (text.takeWhile isTagChar)).toList ++ text.dropWhile isTagChar)
            (text.dropWhile isTagChar) :=
        .language (by rwa [String.toList_ofList])
          (by rw [String.toList_ofList]; exact takeWhile_all text) (dropWhile_stops text)
      rw [String.toList_ofList,List.cons_append,List.takeWhile_append_dropWhile] at suffix
      exact ⟨none,_,rfl,suffix⟩
    · rename_i notDatatype notLanguage
      cases read
      refine ⟨none,none,rfl,.none ?_ notDatatype⟩
      intro head
      obtain ⟨tail,rfl⟩ := List.head?_eq_some_iff.mp head
      exact notLanguage tail rfl
  · rintro ⟨datatype,language,rfl,suffix⟩
    cases suffix with
    | none notLanguage notDatatype =>
      rw [readSuffix.eq_def]
      split
      · exact absurd rfl (notDatatype _)
      · exact absurd rfl notLanguage
      · rfl
    | datatype iri => exact map_ok.mpr ⟨_,readIri_iff.mpr iri,rfl⟩
    | @language tag _ nonempty tags stops =>
      rw [List.cons_append,readSuffix,takeWhile_word tags stops,dropWhile_word tags stops,
        if_neg nonempty,String.ofList_toList]

theorem readLiteral_iff : readLiteral text = .ok (term,rest) ↔
    ∃ value datatype language middle, term = .literal value datatype language ∧ QuotedAt value text middle ∧
      SuffixAt datatype language middle rest := by
  constructor
  · intro read
    rw [readLiteral.eq_def] at read
    split at read
    · obtain ⟨⟨raw,after⟩,raw_read,read⟩ := bind_ok.mp read
      obtain ⟨value,decodes,suffix_read⟩ := bind_ok.mp read
      obtain ⟨body,spells,rfl⟩ := (body_read (by decide) rfl).mp ⟨raw,raw_read,decodes⟩
      obtain ⟨datatype,language,rfl,suffix⟩ := readSuffix_iff.mp suffix_read
      exact ⟨_,datatype,language,after,rfl,⟨body,by rwa [String.toList_ofList],rfl⟩,suffix⟩
    · cases read
  · rintro ⟨value,datatype,language,middle,rfl,⟨body,spells,rfl⟩,suffix⟩
    have body_reads : ∃ raw, readRaw '"' "literal" (body ++ '"' :: middle) = .ok (raw,middle) ∧
        decodeEscapes raw = .ok value.toList := (body_read (by decide) rfl).mpr ⟨body,spells,rfl⟩
    obtain ⟨raw,read,decodes⟩ := body_reads
    have suffix_read : readSuffix value.toList middle = .ok (.literal value datatype language,rest) :=
      readSuffix_iff.mpr ⟨datatype,language,by rw [String.ofList_toList],suffix⟩
    exact bind_ok.mpr ⟨_,read,bind_ok.mpr ⟨_,decodes,suffix_read⟩⟩

theorem readResource_iff : readResource text = .ok (resource,rest) ↔ ResourceAt resource text rest := by
  constructor
  · intro read
    unfold readResource at read
    split at read
    · obtain ⟨⟨iri,after⟩,read,same⟩ := map_ok.mp read
      cases same
      exact .iri (readIri_iff.mp read)
    · obtain ⟨⟨label,after⟩,read,same⟩ := map_ok.mp read
      cases same
      exact .blank (readBlank_iff.mp read)
    · cases read
  · intro at_text
    unfold readResource
    cases at_text with
    | iri at_text =>
      rw [iriAt_head at_text]
      exact map_ok.mpr ⟨_,readIri_iff.mpr at_text,rfl⟩
    | blank at_text =>
      rw [blankAt_head at_text]
      exact map_ok.mpr ⟨_,readBlank_iff.mpr at_text,rfl⟩

theorem readObject_iff : readObject text = .ok (term,rest) ↔ TermAt term text rest := by
  constructor
  · intro read
    unfold readObject at read
    split at read
    · obtain ⟨⟨iri,after⟩,read,same⟩ := map_ok.mp read
      cases same
      exact .iri (readIri_iff.mp read)
    · obtain ⟨⟨label,after⟩,read,same⟩ := map_ok.mp read
      cases same
      exact .blank (readBlank_iff.mp read)
    · obtain ⟨value,datatype,language,middle,rfl,quoted,suffix⟩ := readLiteral_iff.mp read
      exact .literal quoted suffix
    · cases read
  · intro at_text
    unfold readObject
    cases at_text with
    | iri at_text =>
      rw [iriAt_head at_text]
      exact map_ok.mpr ⟨_,readIri_iff.mpr at_text,rfl⟩
    | blank at_text =>
      rw [blankAt_head at_text]
      exact map_ok.mpr ⟨_,readBlank_iff.mpr at_text,rfl⟩
    | literal quoted suffix =>
      have head : text.head? = some '"' := by
        obtain ⟨_,_,rfl⟩ := quoted
        rfl
      rw [head]
      exact readLiteral_iff.mpr ⟨_,_,_,_,rfl,quoted,suffix⟩

theorem skipTo_skipWs (text : List Char) : SkipTo text (skipWs text) :=
  ⟨text.takeWhile isBlank,takeWhile_all text,List.takeWhile_append_dropWhile.symm⟩

theorem skipWs_skipTo (skip : SkipTo text rest) (stops : Stops isBlank rest) : skipWs text = rest := by
  obtain ⟨gap,blanks,rfl⟩ := skip
  exact dropWhile_word blanks stops

theorem stops_head {inClass : Char → Bool} {c : Char} (head : text.head? = some c)
    (outside : inClass c = false) :
    Stops inClass text := by
  obtain ⟨rest,rfl⟩ := List.head?_eq_some_iff.mp head
  exact stops_cons outside

theorem resourceAt_head (at_text : ResourceAt resource text rest) : text.head? = some '<' ∨
    text.head? = some '_' := by
  cases at_text with
  | iri at_text => exact .inl (iriAt_head at_text)
  | blank at_text => exact .inr (blankAt_head at_text)

theorem resourceAt_stops (at_text : ResourceAt resource text rest) : Stops isBlank text :=
  (resourceAt_head at_text).elim (stops_head · (by decide)) (stops_head · (by decide))

theorem termAt_stops (at_text : TermAt term text rest) : Stops isBlank text := by
  cases at_text with
  | iri at_text => exact stops_head (iriAt_head at_text) (by decide)
  | blank at_text => exact stops_head (blankAt_head at_text) (by decide)
  | literal quoted _ =>
    obtain ⟨_,_,rfl⟩ := quoted
    exact stops_cons (by decide)

theorem trim_begins {first : Char} {rest : List Char} (skip : SkipTo line (first :: rest))
    (visible : isWhitespace first = false) :
    (trim line).head? = some first := by
  obtain ⟨gap,blanks,rfl⟩ := skip
  have spaces : ∀ c ∈ gap, isWhitespace c = true := by
    intro c member
    have kind := blanks c member
    simp only [isBlank,Bool.or_eq_true,decide_eq_true_eq] at kind
    rcases kind with rfl | rfl <;> rfl
  rw [trim,dropWhile_word spaces (stops_cons visible)]
  obtain ⟨tail,whole⟩ := List.rdropWhile_prefix isWhitespace (l := first :: rest)
  have nonempty : (first :: rest).rdropWhile isWhitespace ≠ [] := by
    intro empty
    have all := List.rdropWhile_eq_nil_iff.mp empty first (by simp)
    rw [visible] at all
    cases all
  obtain ⟨head,more,form⟩ := List.exists_cons_of_ne_nil nonempty
  rw [form,List.cons_append] at whole
  rw [form,(List.cons.inj whole).1]
  rfl

theorem begins_kept (skip : SkipTo line text) (at_text : ResourceAt resource text rest) :
    ¬(trim line = [] ∨ (trim line).head? = some '#') := by
  have first : ∃ c, (trim line).head? = some c ∧ c ≠ '#' := by
    rcases resourceAt_head at_text with head | head <;> obtain ⟨more,rfl⟩ := List.head?_eq_some_iff.mp head
    · exact ⟨_,trim_begins skip rfl,by decide⟩
    · exact ⟨_,trim_begins skip rfl,by decide⟩
  obtain ⟨c,begins,other⟩ := first
  rintro (empty | comment)
  · rw [empty] at begins
    cases begins
  · rw [comment] at begins
    exact other (Option.some.inj begins).symm

theorem readGraph_iff {graph : Option String} : readGraph format text = .ok (graph,'.' :: tail) ↔
    graph = none ∧ text = '.' :: tail ∨ text.head? ≠ some '.' ∧ format = .nQuads ∧
      ∃ name h, graph = some (graphName name) ∧ ResourceAt name text h ∧ SkipTo h ('.' :: tail) := by
  have stops : Stops isBlank ('.' :: tail) := stops_cons rfl
  unfold readGraph
  constructor
  · intro read
    split_ifs at read with dot quads
    · cases read
      exact .inl ⟨rfl,rfl⟩
    · obtain ⟨⟨name,h⟩,resource_read,same⟩ := map_ok.mp read
      simp only [Prod.mk.injEq] at same
      obtain ⟨rfl,ends⟩ := same
      exact .inr ⟨dot,quads,name,h,rfl,readResource_iff.mp resource_read,ends ▸ skipTo_skipWs h⟩
  · rintro (⟨rfl,rfl⟩ | ⟨dot,quads,name,h,rfl,at_text,skip⟩)
    · rfl
    · rw [if_neg dot,if_pos quads,readResource_iff.mpr at_text]
      exact congrArg (fun rest => Except.ok (some (graphName name),rest)) (skipWs_skipTo skip stops)

theorem statement_parsed {a b c d e f g : List Char} {graph : Option String} {subject : RdfResource}
    {predicate : String}
    (first : SkipTo line a) (subject_at : ResourceAt subject a b) (second : SkipTo b c)
      (predicate_at : IriAt predicate c d)
    (third : SkipTo d e) (object_at : TermAt term e f)
      (graph_read : readGraph format (skipWs f) = .ok (graph,'.' :: g)) :
    parseStatement line format = .ok (some ⟨subject,predicate,term,graph⟩) := by
  unfold parseStatement
  rw [if_neg (begins_kept first subject_at),skipWs_skipTo first (resourceAt_stops subject_at)]
  refine bind_ok.mpr ⟨_,readResource_iff.mpr subject_at,?_⟩
  simp only [skipWs_skipTo second (stops_head (iriAt_head predicate_at) rfl),iriAt_head predicate_at,if_true]
  refine bind_ok.mpr ⟨_,readIri_iff.mpr predicate_at,?_⟩
  simp only [skipWs_skipTo third (termAt_stops object_at)]
  refine bind_ok.mpr ⟨_,readObject_iff.mpr object_at,bind_ok.mpr ⟨_,graph_read,?_⟩⟩
  rfl

theorem parseStatement_iff : parseStatement line format = .ok (some triple) ↔ ∃ tail,
    StatementAt format triple line tail := by
  constructor
  · intro parsed
    unfold parseStatement at parsed
    split at parsed
    · cases parsed
    obtain ⟨⟨subject,b⟩,subject_read,parsed⟩ := bind_ok.mp parsed
    simp only at parsed
    split_ifs at parsed with begins
    obtain ⟨⟨predicate,d⟩,predicate_read,parsed⟩ := bind_ok.mp parsed
    obtain ⟨⟨object,f⟩,object_read,parsed⟩ := bind_ok.mp parsed
    obtain ⟨⟨graph,g⟩,graph_read,parsed⟩ := bind_ok.mp parsed
    simp only at parsed
    split_ifs at parsed with dot
    cases parsed
    obtain ⟨tail,rfl⟩ := List.head?_eq_some_iff.mp dot
    have subject_at := readResource_iff.mp subject_read
    have predicate_at := readIri_iff.mp predicate_read
    have object_at := readObject_iff.mp object_read
    rcases readGraph_iff.mp graph_read with ⟨rfl,ends⟩ | ⟨_,quads,name,h,rfl,graph_at,skip⟩
    · exact ⟨tail,.triple (skipTo_skipWs _) subject_at (skipTo_skipWs _) predicate_at
        (skipTo_skipWs _) object_at
        (ends ▸ skipTo_skipWs f)⟩
    · exact ⟨tail,.quad quads (skipTo_skipWs _) subject_at (skipTo_skipWs _) predicate_at
        (skipTo_skipWs _) object_at
        (skipTo_skipWs f) graph_at skip⟩
  · rintro ⟨tail,statement⟩
    cases statement with
    | triple first subject_at second predicate_at third object_at dot =>
      have ends := skipWs_skipTo dot (stops_cons rfl)
      exact statement_parsed first subject_at second predicate_at third object_at
        (readGraph_iff.mpr (.inl ⟨rfl,ends⟩))
    | quad quads first subject_at second predicate_at third object_at fourth graph_at dot =>
      refine statement_parsed first subject_at second predicate_at third object_at
        (readGraph_iff.mpr (.inr ⟨?_,quads,_,_,rfl,?_,dot⟩))
      · rw [skipWs_skipTo fourth (resourceAt_stops graph_at)]
        rcases resourceAt_head graph_at with head | head <;> rw [head] <;> simp
      · rwa [skipWs_skipTo fourth (resourceAt_stops graph_at)]

end Readers
end ArangoDataTools.RdfLines
