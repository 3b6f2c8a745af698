import ArangoDataTools.TurtleLiterals

namespace ArangoDataTools.Turtle
open TextScan TextReader

variable {rest : List Char} {s : Env} {c : Char}

section Numbers

variable {digits : List Char} {signed hasDot hasExp : Bool} {form : NumberForm}

theorem digit_kind (digit : isAsciiDigit c = true) : isSign c = false ∧ c ≠ '.' ∧ c ≠ 'e' ∧ c ≠ 'E' := by
  have other : ∀ d, isAsciiDigit d = false → c ≠ d := by
    rintro d no rfl
    rw [digit] at no
    cases no
  have plus : c ≠ '+' := other '+' rfl
  have minus : c ≠ '-' := other '-' rfl
  exact ⟨by simp [isSign,plus,minus],other '.' rfl,other 'e' rfl,other 'E' rfl⟩

theorem scan_digit (digit : isAsciiDigit c = true) :
    scanNumeral signed hasDot hasExp (c :: rest) = (scanNumeral false hasDot hasExp rest).prepend c := by
  rw [scanNumeral,(digit_kind digit).1,Bool.and_false,if_neg (by simp),if_pos digit]

theorem scan_sign (sign : isSign c = true) :
    scanNumeral true hasDot hasExp (c :: rest) = (scanNumeral false hasDot hasExp rest).prepend c := by
  rw [scanNumeral,sign,Bool.and_self,if_pos rfl]

def Numeral.prependAll (numeral : Numeral) (front : List Char) : Numeral :=
  { numeral with text := front ++ numeral.text }

theorem scan_digits (all : ∀ c ∈ digits, isAsciiDigit c = true) :
    scanNumeral false hasDot hasExp (digits ++ rest) =
    (scanNumeral false hasDot hasExp rest).prependAll digits := by
  induction digits with
  | nil => rfl
  | cons first digits ih =>
    rw [List.cons_append,scan_digit (all first (by simp)),ih fun c member =>
      all c (List.mem_cons_of_mem _ member)]
    rfl

theorem scan_digits_first (all : ∀ c ∈ digits, isAsciiDigit c = true) (nonempty : digits ≠ []) :
    scanNumeral signed hasDot hasExp (digits ++ rest) =
    (scanNumeral false hasDot hasExp rest).prependAll digits := by
  obtain ⟨first,digits,rfl⟩ := List.exists_cons_of_ne_nil nonempty
  rw [List.cons_append,scan_digit (all first (by simp)),scan_digits fun c member =>
    all c (List.mem_cons_of_mem _ member)]
  rfl

theorem scan_end (stops : Stops isAsciiDigit rest)
    (mark : hasExp = false → rest.head? ≠ some 'e' ∧ rest.head? ≠ some 'E')
    (dot : hasExp = false → hasDot = false → ∀ c tail, rest = '.' :: c :: tail → isAsciiDigit c = false) :
    scanNumeral false hasDot hasExp rest = ⟨[],hasDot,hasExp⟩ := by
  cases rest with
  | nil => rfl
  | cons c rest =>
    have no_digit : isAsciiDigit c = false := stops c rfl
    have no_dot : ¬(c = '.' ∧ (!hasDot) = true ∧ (!hasExp) = true ∧ rest.head?.any isAsciiDigit = true) := by
      rintro ⟨rfl,free,plain,next⟩
      simp only [Bool.not_eq_true'] at free plain
      cases rest with
      | nil => cases next
      | cons d rest =>
        have other := dot plain free d rest rfl
        simp only [List.head?_cons,Option.any_some,other] at next
        cases next
    have no_mark : ¬((c = 'e' ∨ c = 'E') ∧ (!hasExp) = true) := by
      rintro ⟨found,plain⟩
      simp only [Bool.not_eq_true'] at plain
      obtain ⟨lower,upper⟩ := mark plain
      rcases found with rfl | rfl
      · exact lower rfl
      · exact upper rfl
    rw [scanNumeral,Bool.false_and,if_neg (by simp),no_digit,if_neg (by simp),if_neg no_dot,if_neg no_mark]

theorem scan_dot {d : Char} (digit : isAsciiDigit d = true) :
    scanNumeral signed false false ('.' :: d :: rest) =
    (scanNumeral false true false (d :: rest)).prepend '.' := by
  have next : '.' = '.' ∧ (!false) = true ∧ (!false) = true ∧ (d :: rest).head?.any isAsciiDigit =
      true := ⟨rfl,rfl,rfl,digit⟩
  rw [scanNumeral,show isSign '.' = false from rfl,Bool.and_false,if_neg (by simp),
    show isAsciiDigit '.' = false from rfl,
    if_neg (by simp),if_pos next]

theorem scan_mark (mark : c = 'e' ∨ c = 'E') : scanNumeral false hasDot false (c :: rest) =
    (scanNumeral true hasDot true rest).prepend c := by
  rcases mark with rfl | rfl <;> simp [scanNumeral,isAsciiDigit]

theorem scan_exponent (ends : form.Ends rest) (dotted : hasDot = decide (form.fraction ≠ [])) :
    scanNumeral false hasDot false (form.exponentText ++ rest) =
    ⟨form.exponentText,hasDot,form.exponent.isSome⟩ := by
  obtain ⟨stops,mark,dot⟩ := ends
  cases exponent : form.exponent with
  | none =>
    rw [NumberForm.exponentText,exponent,List.nil_append]
    refine scan_end stops (fun _ => mark exponent) fun _ free => dot exponent ?_
    rw [dotted] at free
    simpa using free
  | some found =>
    obtain ⟨e,sign,digits⟩ := found
    obtain ⟨marks,signs,nonempty,all⟩ := form.exponents e sign digits exponent
    have ended : scanNumeral false hasDot true rest = ⟨[],hasDot,true⟩ :=
      scan_end stops (fun no => nomatch no) fun no => nomatch no
    rw [NumberForm.exponentText,exponent]
    show scanNumeral false hasDot false (e :: (sign ++ digits ++ rest)) = _
    rw [scan_mark marks,List.append_assoc]
    rcases signs with rfl | ⟨c,rfl,is_sign⟩
    · rw [List.nil_append,scan_digits_first all nonempty,ended]
      simp [Numeral.prepend,Numeral.prependAll]
    · rw [List.singleton_append,scan_sign is_sign,scan_digits all,ended]
      simp [Numeral.prepend,Numeral.prependAll]

theorem scan_fraction (ends : form.Ends rest) (first : signed = false ∨ form.fraction ≠ []) :
    scanNumeral signed false false (form.fractionText ++ (form.exponentText ++ rest)) =
      ⟨form.fractionText ++ form.exponentText,decide (form.fraction ≠ []),form.exponent.isSome⟩ := by
  by_cases empty : form.fraction = []
  · have unsigned := first.resolve_right (fun some => some empty)
    subst unsigned
    have exponent : scanNumeral false false false (form.exponentText ++ rest) =
        ⟨form.exponentText,false,form.exponent.isSome⟩ :=
      scan_exponent ends (by simp [empty])
    rw [NumberForm.fractionText,if_pos empty,List.nil_append,exponent]
    simp [empty]
  · obtain ⟨d,digits,shape⟩ := List.exists_cons_of_ne_nil empty
    have all := form.fractions
    have exponent : scanNumeral false true false (form.exponentText ++ rest) =
        ⟨form.exponentText,true,form.exponent.isSome⟩ :=
      scan_exponent ends (by simp [empty])
    rw [shape] at all
    rw [NumberForm.fractionText,if_neg empty,shape,List.cons_append,List.cons_append,
      scan_dot (all d (by simp)),← List.cons_append,
      scan_digits all,exponent]
    simp [Numeral.prepend,Numeral.prependAll]

theorem scan_form (ends : form.Ends rest) :
    scanNumeral true false false (form.text ++ rest) =
    ⟨form.text,decide (form.fraction ≠ []),form.exponent.isSome⟩ := by
  have whole : ∀ signed, scanNumeral signed false false
      (form.whole ++ (form.fractionText ++ (form.exponentText ++ rest))) =
      ⟨form.whole ++ (form.fractionText ++ form.exponentText),decide (form.fraction ≠ []),
      form.exponent.isSome⟩ := by
    intro signed
    by_cases empty : form.whole = []
    · rw [empty]
      exact scan_fraction ends (.inr (form.nonempty.resolve_left fun some => some empty))
    · rw [scan_digits_first form.wholes empty,scan_fraction ends (.inl rfl)]
      rfl
  simp only [NumberForm.text,List.append_assoc]
  rcases form.signs with none | ⟨c,shape,sign⟩
  · rw [none]
    exact whole true
  · rw [shape,List.singleton_append,scan_sign sign,whole false]
    rfl

theorem form_digit (form : NumberForm) : form.text.any isAsciiDigit = true := by
  have digit : ∃ c ∈ form.text, isAsciiDigit c = true := by
    simp only [NumberForm.text,NumberForm.fractionText,List.mem_append]
    rcases form.nonempty with some | some
    · obtain ⟨d,digits,shape⟩ := List.exists_cons_of_ne_nil some
      exact ⟨d,.inr (.inl (by simp [shape])),form.wholes d (by simp [shape])⟩
    · obtain ⟨d,digits,shape⟩ := List.exists_cons_of_ne_nil some
      exact ⟨d,.inr (.inr (.inl (by simp [shape]))),form.fractions d (by simp [shape])⟩
  exact List.any_eq_true.mpr digit

theorem reads_numeric (ends : form.Ends rest) :
    Reads numericLiteral (form.text ++ rest) s
      (.literal (String.ofList form.text) (some form.datatype) none) rest s := by
  refine reads_bind reads_ahead ?_
  simp only [scan_form ends,form_digit,Bool.not_true,Bool.false_eq_true,if_false]
  refine reads_bind (reads_advance _ rfl) ?_
  simp only [NumberForm.datatype,decide_eq_true_eq]
  exact reads_pure

end Numbers
end ArangoDataTools.Turtle
