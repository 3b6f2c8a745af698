import ArangoDataTools.TurtleTokens

namespace ArangoDataTools.Turtle
open TextScan TextReader

variable {text rest gap body word more : List Char} {s : Env} {c : Char} {size code : Nat}

section Gaps

def Visible (text : List Char) : Prop := ∀ c ∈ text.head?, isWhitespace c = false ∧ c ≠ '#'

theorem visible_cons (kind : isWhitespace c = false ∧ c ≠ '#') : Visible (c :: rest) := by
  intro first member
  simp only [List.head?_cons,Option.mem_def,Option.some.injEq] at member
  exact member ▸ kind

theorem comment_length (single : '\n' ∉ body) : gapLength true (body ++ '\n' :: rest) =
    body.length + 1 + gapLength false rest := by
  induction body with
  | nil => simp [gapLength]; omega
  | cons first body ih =>
    obtain ⟨other,single⟩ := not_or.mp (List.mem_cons.not.mp single)
    simp only [List.cons_append,gapLength,if_true,List.length_cons,decide_eq_true (Ne.symm other),ih single]
    omega

theorem end_comment_length (single : '\n' ∉ body) : gapLength true body = body.length := by
  induction body with
  | nil => rfl
  | cons first body ih =>
    obtain ⟨other,single⟩ := not_or.mp (List.mem_cons.not.mp single)
    simp only [gapLength,if_true,List.length_cons,decide_eq_true (Ne.symm other),ih single]

theorem hash_length (text : List Char) : gapLength false ('#' :: text) = gapLength true text + 1 := rfl

theorem gap_length (whole : Gap gap) (rest : List Char) : gapLength false (gap ++ rest) =
    gap.length + gapLength false rest := by
  induction whole with
  | nil => simp
  | space white _ ih =>
    simp only [List.cons_append,gapLength,white,Bool.false_eq_true,if_false,if_true,ih,List.length_cons]
    omega
  | comment single _ ih =>
    rw [List.append_assoc,List.cons_append,List.cons_append,hash_length,comment_length single,ih]
    simp only [List.length_append,List.length_cons]
    omega

theorem visible_length (visible : Visible rest) : gapLength false rest = 0 := by
  cases rest with
  | nil => rfl
  | cons first rest =>
    obtain ⟨white,hash⟩ := visible first rfl
    simp [gapLength,white,hash]

theorem reads_skipWs (whole : Gap gap) (visible : Visible rest) : Reads skipWs (gap ++ rest) s () rest s := by
  refine reads_bind reads_ahead (reads_advance _ ?_)
  rw [gap_length whole,visible_length visible,Nat.add_zero]

theorem skipWs_visible (visible : Visible text) : Reads skipWs text s () text s := reads_skipWs .nil visible

end Gaps

section Characters

theorem reads_expect (c : Char) : Reads (expect c) (c :: rest) s () rest s := by
  refine reads_bind reads_nextChar ?_
  simp only [if_true]
  exact reads_pure

theorem reads_hexFrom (hex : HexNames size code word c) :
    Reads (readHexFrom code size) (word ++ rest) s c rest s := by
  obtain ⟨length,names⟩ := hex
  induction size generalizing code word with
  | zero =>
    rw [List.length_eq_zero_iff.mp length] at names ⊢
    rw [readHexFrom,show fromCode code = some c from names]
    exact reads_pure
  | succ size ih =>
    cases word with
    | nil => cases length
    | cons first word =>
      obtain ⟨number,found,from_code⟩ := Option.bind_eq_some_iff.mp names
      obtain ⟨digit,is_digit,found⟩ := Option.bind_eq_some_iff.mp found
      refine reads_bind reads_nextChar ?_
      simp only [is_digit]
      exact ih (Nat.succ.inj length) (Option.bind_eq_some_iff.mpr ⟨number,found,from_code⟩)

theorem schemeRest_takeWhile (text : List Char) :
    schemeRest text = decide ((text.dropWhile isSchemeChar).head? = some ':') := by
  induction text with
  | nil => rfl
  | cons first text ih =>
    by_cases colon : first = ':'
    · subst colon
      rfl
    · by_cases scheme : isSchemeChar first = true
      · have kind : (isAsciiAlphanumeric first || first = '+' || first = '-' || first = '.') = true := scheme
        rw [schemeRest,if_neg colon,if_pos kind,ih,List.dropWhile_cons_of_pos scheme]
      · have kind : ¬(isAsciiAlphanumeric first || first = '+' || first = '-' || first = '.') = true := scheme
        rw [schemeRest,if_neg colon,if_neg kind,List.dropWhile_cons_of_neg scheme]
        simp [colon]

theorem alphabetic_scheme (letter : isAsciiAlphabetic c = true) : isSchemeChar c = true := by
  simp [isSchemeChar,isAsciiAlphanumeric,letter]

theorem hasScheme_isAbsolute (raw : List Char) : hasScheme raw = isAbsolute raw := by
  cases raw with
  | nil => rfl
  | cons first raw =>
    by_cases letter : isAsciiAlphabetic first = true
    · have scheme := alphabetic_scheme letter
      simp only [hasScheme,isAbsolute,letter,Bool.true_and,schemeRest_takeWhile,
        List.takeWhile_cons_of_pos scheme,
        List.dropWhile_cons_of_pos scheme,List.head?_cons,Option.any_some]
    · simp only [Bool.not_eq_true] at letter
      by_cases scheme : isSchemeChar first = true
      · simp [hasScheme,isAbsolute,letter,List.takeWhile_cons_of_pos scheme]
      · simp [hasScheme,isAbsolute,letter,List.takeWhile_cons_of_neg scheme]

theorem resolveIri_reference (scope : Scope) (raw : List Char) : resolveIri scope.base raw =
    scope.reference raw := by
  unfold resolveIri Scope.reference
  rw [hasScheme_isAbsolute]
  split
  · rfl
  · cases scope.base with
    | none => simp
    | some base => rfl

end Characters

section Names

theorem reads_iriRest {raw : List Char} (spells : Spells (Free '>') (fun _ => none) raw body)
    (fuel : Nat) (enough : body.length < fuel) :
    Reads (iriRefRest fuel) (body ++ '>' :: rest) s raw rest s := by
  induction spells generalizing fuel with
  | nil =>
    obtain ⟨fuel,rfl⟩ := Nat.exists_eq_succ_of_ne_zero (Nat.ne_of_gt enough)
    refine reads_bind reads_nextChar ?_
    simp only [if_true]
    exact reads_pure
  | raw free _ ih =>
    obtain ⟨fuel,rfl⟩ := Nat.exists_eq_succ_of_ne_zero (Nat.ne_of_gt (Nat.zero_lt_of_lt enough))
    refine reads_bind reads_nextChar ?_
    simp only [if_neg free.1,if_neg free.2]
    exact reads_bind (ih fuel (by simp at enough; omega)) reads_pure
  | named found => cases found
  | coded kind hex _ ih =>
    obtain ⟨fuel,rfl⟩ := Nat.exists_eq_succ_of_ne_zero (Nat.ne_of_gt (Nat.zero_lt_of_lt enough))
    simp only [List.cons_append,List.append_assoc,List.length_cons,List.length_append] at enough ⊢
    refine reads_bind reads_nextChar ?_
    simp only [if_neg (show '\\' ≠ '>' by decide),if_true]
    refine reads_bind reads_nextChar ?_
    have tail := ih fuel (by omega)
    rcases kind with ⟨rfl,rfl⟩ | ⟨rfl,rfl⟩
    · exact reads_bind (reads_hexFrom hex) (reads_bind tail reads_pure)
    · exact reads_bind (reads_hexFrom hex) (reads_bind tail reads_pure)

theorem reads_iriRef {raw : List Char} (spells : Spells (Free '>') (fun _ => none) raw body) :
    Reads readIriRef ('<' :: body ++ '>' :: rest) s (resolveIri s.base raw) rest s := by
  refine reads_bind (reads_expect '<') (reads_bind reads_ahead ?_)
  refine reads_bind (reads_iriRest spells _ ?_) (reads_bind reads_current reads_pure)
  show body.length < (body ++ '>' :: rest).length + 1
  rw [List.length_append]
  omega

theorem reads_blankLabel (nonempty : word ≠ []) (all : ∀ c ∈ word, isPnLocalChar c = true)
    (stops : Stops isPnLocalChar rest) :
    Reads readBlankLabel ('_' :: ':' :: word ++ rest) s ("u_" ++ String.ofList word) rest s := by
  refine reads_bind (reads_expect '_') (reads_bind (reads_expect ':') (reads_bind (reads_word all stops) ?_))
  simp only [if_neg nonempty]
  exact reads_pure

theorem rdropWhile_name {name dots : List Char} (name_ends : name.getLast? ≠ some '.')
    (all : ∀ c ∈ dots, c = '.') :
    (name ++ dots).rdropWhile (· = '.') = name := by
  induction dots using List.reverseRecOn with
  | nil =>
    rw [List.append_nil]
    cases last : name.getLast? with
    | none => rw [List.getLast?_eq_none_iff.mp last]; rfl
    | some c =>
      obtain ⟨front,rfl⟩ := List.getLast?_eq_some_iff.mp last
      rw [last] at name_ends
      rw [List.rdropWhile_concat,if_neg (by simpa using fun same => name_ends (congrArg some same))]
  | append_singleton dots dot ih =>
    rw [← List.append_assoc,List.rdropWhile_concat,if_pos (by simp [all dot (by simp)])]
    exact ih fun c member => all c (by simp [member])

theorem reads_local {name : List Char} (form : NameForm name) (ends : NameEnds rest) :
    Reads readLocal (name ++ rest) s name rest s := by
  obtain ⟨dots,tail,rfl,all,stops⟩ := ends
  have scanned : ∀ c ∈ name ++ dots, isPnLocalChar c = true := by
    intro c member
    rcases List.mem_append.mp member with first | second
    · exact (form.1 c first).1
    · rw [all c second]
      rfl
  have trimmed := rdropWhile_name form.2 all
  refine reads_giveBack (fun scanned => scanned.length - (scanned.rdropWhile (· = '.')).length)
    (fun scanned => pure (scanned.rdropWhile (· = '.')))
    scanned stops ?_ ?_
  · rw [trimmed,List.length_append]
    omega
  · rw [trimmed]
    exact reads_pure

theorem label_chars {label : List Char} (chars : LabelChars label) : ∀ c ∈ label,
    (c ≠ ':' && isPnPrefixChar c) = true := by
  intro c member
  have kind := (chars c member).1
  have colon : c ≠ ':' := by
    rintro rfl
    exact absurd kind (by decide)
  simp [colon,kind]

theorem label_stops (rest : List Char) : Stops (fun c => c ≠ ':' && isPnPrefixChar c)
    (':' :: rest) := stops_cons rfl

theorem yields_prefixedName {label name : List Char} (chars : LabelChars label)
    (form : NameForm name) (ends : NameEnds rest) :
    Yields readPrefixedName (label ++ ':' :: (name ++ rest)) s
      ((s.prefixes.lookup (String.ofList label)).map fun iri => (iri ++ String.ofList name,s)) (· = rest) := by
  refine yields_after (reads_word (label_chars chars) (label_stops _)) (yields_after reads_peek ?_)
  simp only [List.head?_cons,if_neg (fun other : ':' ≠ ':' => other rfl)]
  refine yields_after (reads_expect ':') (yields_after (reads_local form ends) (yields_after reads_current ?_))
  cases s.prefixes.lookup (String.ofList label) with
  | none => exact fails_failAt _
  | some iri => exact yields_reads rfl reads_pure

theorem fails_unknownPrefix {label : List Char} (chars : LabelChars label)
    (unknown : s.prefixes.lookup (String.ofList label) = none)
    (text : List Char) : Fails readPrefixedName (label ++ ':' :: text) s := by
  refine fails_after (reads_word (label_chars chars) (label_stops _)) (fails_after reads_peek ?_)
  simp only [List.head?_cons,if_neg (fun other : ':' ≠ ':' => other rfl)]
  refine fails_after (reads_expect ':') (fails_following (fun _ => ⟨_,_,_,rfl⟩) fun name rest =>
    fails_after reads_current ?_)
  rw [unknown]
  exact fails_failAt _

theorem reads_prefixBinding {label raw : List Char} (label_form : LabelForm label) (gap_form : Gap gap)
    (spells : Spells (Free '>') (fun _ => none) raw body) :
    Reads readPrefixBinding (label ++ ':' :: (gap ++ ('<' :: body ++ '>' :: rest))) s
      (String.ofList label,resolveIri s.base raw) rest s := by
  have labels : ∀ c ∈ label, (c ≠ ':' && !isWhitespace c) = true := by
    intro c member
    have kind := label_chars label_form.1 c member
    simp only [Bool.and_eq_true] at kind
    simp [kind.1,(label_form.1 c member).2]
  have stops : Stops (fun c => c ≠ ':' && !isWhitespace c)
      (':' :: (gap ++ ('<' :: body ++ '>' :: rest))) := stops_cons rfl
  refine reads_bind (reads_word labels stops) (reads_bind reads_peek ?_)
  simp only [List.head?_cons,if_neg (fun other : ':' ≠ ':' => other rfl)]
  refine reads_bind (reads_expect ':') (reads_bind (reads_skipWs gap_form (visible_cons (by decide))) ?_)
  exact reads_bind (reads_iriRef spells) reads_pure

end Names
end ArangoDataTools.Turtle
