import ModAlmanac.Proofs.Expr.Numerals
import ModAlmanac.Proofs.Expr.Parenthesised

/-!
# Numerals as expressions

An expression is searched for operators before it is read as a numeral. So only a numeral without
any sign evaluates to its number. A sign is taken for an operator, and whatever stands in front of
it is no number, which makes the whole nil (`evaluate_numeral`, `signed_not_evaluated`).

The texts in question hold no character that is searched for besides the two signs (`isPlainChar`),
so that a plus sign, or else a minus sign, decides how they are split (`parse_signed`).
-/

namespace ModAlmanac.Expr

open Number Text

/-! ## Plain texts -/

/-- Whether a character is none that a text is searched for, apart from the two signs. -/
def isPlainChar (c : Char) : Bool :=
  !(isBlank c || ['(', ')', '[', '*', '/'].contains c)

theorem of_isPlainChar {c : Char} (h : isPlainChar c = true) :
    isBlank c = false ∧ c ≠ ' ' ∧ (c ≠ '(' ∧ c ≠ ')') ∧ c ≠ '[' ∧ c ≠ '*' ∧ c ≠ '/' := by
  have hspace : c ≠ ' ' := by
    rintro rfl
    exact absurd h (by decide)
  simp only [isPlainChar, Bool.not_eq_true', Bool.or_eq_false_iff, List.contains_eq_mem,
    decide_eq_false_iff_not, List.mem_cons, List.not_mem_nil, or_false, not_or] at h
  exact ⟨h.1, hspace, ⟨h.2.1, h.2.2.1⟩, h.2.2.2⟩

theorem isPlainChar_of {p : Char → Bool}
    (hblank : blankCodes.all (fun n => !p (Char.ofNat n)) = true)
    (hmark : ['(', ')', '[', '*', '/'].all (fun c => !p c) = true) {c : Char} (h : p c = true) :
    isPlainChar c = true := by
  have hc : isBlank c = false := by
    cases hc : isBlank c with
    | false => rfl
    | true =>
      have := forall_isBlank (p := fun c => !p c) hblank hc
      simp [h] at this
  have hmem : c ∉ ['(', ')', '[', '*', '/'] := by
    intro hmem
    have := List.all_eq_true.1 hmark c hmem
    simp [h] at this
  simp [isPlainChar, hc, hmem]

theorem isPlainChar_of_isNumeralChar {c : Char} (h : isNumeralChar c = true) :
    isPlainChar c = true :=
  isPlainChar_of (by decide +kernel) (by decide) h

theorem isPlainChar_of_isHexDigit {c : Char} (h : isHexDigit c = true) : isPlainChar c = true :=
  isPlainChar_of (by decide +kernel) (by decide) h

section

variable {s : List Char} (hs : ∀ c ∈ s, isPlainChar c = true)
include hs

theorem isTrimmed_of_plain (hne : s ≠ []) : IsTrimmed s where
  ne_nil := hne
  head c hc := (of_isPlainChar (hs c (List.mem_of_mem_head? hc))).1
  last c hc := (of_isPlainChar (hs c (List.mem_of_getLast? hc))).1

theorem parse_plain (hne : s ≠ []) : parse s = parsePrepared s := by
  have htrim := (isTrimmed_of_plain hs hne).trim_eq
  have hhead : s.head? ≠ some '(' := fun h =>
    (of_isPlainChar (hs _ (List.mem_of_mem_head? h))).2.2.1.1 rfl
  have hindex : '[' ∉ s := fun h => (of_isPlainChar (hs _ h)).2.2.2.1 rfl
  rw [parse_eq, prepared, htrim, stripParens_of_head hhead, dotIndices_eq_self hindex, if_neg]
  simp [hne]

/-- Nothing is found that begins with a character that does not stand in the text. -/
theorem splitTopLevel?_plain {first : Char} (hfirst : first ∉ s) (more : List Char) :
    splitTopLevel? (first :: more) s = none :=
  splitTopLevel?_eq_none <| skips_of_head
    (fun c hc => ⟨(of_isPlainChar (hs c hc)).2.2.1, ne_of_mem_of_not_mem hc hfirst⟩) []

theorem splitTopLevel?_words :
    splitTopLevel? orWord s = none ∧ splitTopLevel? andWord s = none := by
  have hspace : ' ' ∉ s := fun h => (of_isPlainChar (hs _ h)).2.1 rfl
  rw [orWord_eq, andWord_eq]
  exact ⟨splitTopLevel?_plain hs hspace _, splitTopLevel?_plain hs hspace _⟩

theorem splitTopLevel?_factors :
    splitTopLevel? (spelling .times) s = none ∧ splitTopLevel? (spelling .over) s = none :=
  ⟨splitTopLevel?_plain hs (fun h => (of_isPlainChar (hs _ h)).2.2.2.2.1 rfl) _,
    splitTopLevel?_plain hs (fun h => (of_isPlainChar (hs _ h)).2.2.2.2.2 rfl) _⟩

/-- Without a sign a plain text is a numeral or a path. -/
theorem parse_unsigned (hne : s ≠ []) (hplus : '+' ∉ s) (hminus : '-' ∉ s) :
    parse s = match numeral? s with
      | some v => .number v
      | none => pathOf s := by
  obtain ⟨hor, hand⟩ := splitTopLevel?_words hs
  obtain ⟨htimes, hover⟩ := splitTopLevel?_factors hs
  have hsum : splitTopLevel? (spelling .plus) s = none := splitTopLevel?_plain hs hplus _
  have hdifference : splitTopLevel? (spelling .minus) s = none := splitTopLevel?_plain hs hminus _
  have harith : splitArithmetic? s = none := by
    simp [splitArithmetic?, htimes, hover, hsum, hdifference]
  have hparse := parse_plain hs hne
  rw [parsePrepared, hor, hand, harith] at hparse
  exact hparse

end

/-- A plain text is split at its first plus sign, or at its first minus sign if there is no plus
sign. -/
theorem parse_signed {left right : List Char} {operator : Operator} {sign : Char}
    (hoperator : operator = .plus ∧ sign = '+' ∨
      operator = .minus ∧ sign = '-' ∧ '+' ∉ left ++ '-' :: right)
    (hs : ∀ c ∈ left ++ sign :: right, isPlainChar c = true) (hleft : sign ∉ left) :
    parse (left ++ sign :: right) = .arith operator (parse left) (parse right) := by
  obtain ⟨hor, hand⟩ := splitTopLevel?_words hs
  obtain ⟨htimes, hover⟩ := splitTopLevel?_factors hs
  have hspelling : spelling operator = [sign] := by
    rcases hoperator with ⟨rfl, rfl⟩ | ⟨rfl, rfl, -⟩ <;> rfl
  have hsign : sign ≠ '(' ∧ sign ≠ ')' := (of_isPlainChar (hs sign (by simp))).2.2.1
  have hskips : Skips [sign] left ([sign] ++ right) := skips_of_head
    (fun c hc => ⟨(of_isPlainChar (hs c (by simp [hc]))).2.2.1, ne_of_mem_of_not_mem hc hleft⟩) _
  have hfound : splitTopLevel? (spelling operator) (left ++ sign :: right) =
      some (trim left, trim right) := by
    rw [hspelling]
    exact splitTopLevel?_joined hsign hskips
  have harith := splitArithmetic?_of_connective hfound fun other hother => by
    rcases hoperator with ⟨rfl, rfl⟩ | ⟨rfl, rfl, hplus⟩
    · rcases List.mem_pair.1 hother with rfl | rfl
      · exact htimes
      · exact hover
    · simp only [earlier, List.mem_cons, List.not_mem_nil, or_false] at hother
      rcases hother with rfl | rfl | rfl
      · exact htimes
      · exact hover
      · exact splitTopLevel?_plain hs hplus _
  rw [parse_plain hs (by simp), parsePrepared, hor, hand]
  simp only [harith, parse_trim]

/-! ## Evaluating numerals -/

theorem mem_of_mem_splitDots {s part : List Char} (h : part ∈ splitDots s) : ∀ c ∈ part, c ∈ s := by
  induction s generalizing part with
  | nil =>
    rw [splitDots, List.mem_singleton] at h
    simp [h]
  | cons d s ih =>
    rw [splitDots] at h
    split at h
    · rcases List.mem_cons.1 h with rfl | h
      · simp
      · exact fun c hc => List.mem_cons_of_mem d (ih h c hc)
    · cases hparts : splitDots s with
      | nil =>
        rw [hparts, consFirst, List.mem_singleton] at h
        simp [h]
      | cons first parts =>
        rw [hparts, consFirst] at h
        rw [hparts] at ih
        rcases List.mem_cons.1 h with rfl | h
        · intro c hc
          rcases List.mem_cons.1 hc with rfl | hc
          · exact List.mem_cons_self
          · exact List.mem_cons_of_mem d (ih List.mem_cons_self c hc)
        · exact fun c hc => List.mem_cons_of_mem d (ih (List.mem_cons_of_mem first h) c hc)

theorem not_mem_mantissa (m : Mantissa) : '+' ∉ m.text ∧ '-' ∉ m.text :=
  ⟨fun h => absurd (Mantissa.mem_text h) (by decide),
    fun h => absurd (Mantissa.mem_text h) (by decide)⟩

theorem mark_ne_sign (x : Exponent) : x.mark ≠ '+' ∧ x.mark ≠ '-' := by
  rcases x.mark_cases with h | h <;> rw [h] <;> decide

section

variable (scope : Scope)

/-- A text without the letters that the known roots begin with leads nowhere. -/
theorem eval_pathOf {s : List Char} (hstg : 's' ∉ s) (hcard : 'c' ∉ s) (hglobals : 'G' ∉ s) :
    (pathOf s).eval scope = .ok .nil := by
  unfold pathOf
  split
  · rfl
  · next root rest h =>
    have hroot : ∀ c ∈ root, c ∈ s :=
      mem_of_mem_splitDots (by rw [h]; exact List.mem_cons_self)
    rw [Expr.eval, Scope.resolve, if_neg, if_neg, if_neg]
    · rintro rfl
      exact hglobals (hroot _ (by decide))
    · rintro rfl
      exact hcard (hroot _ (by decide))
    · rintro rfl
      exact hstg (hroot _ (by decide))

theorem eval_blank : (parse []).eval scope = .ok .nil := by
  rw [parse_eq]
  rfl

/-- A split off exponent leaves a text that is no number. -/
theorem eval_marked (m : Mantissa) (x : Exponent) :
    (parse (m.text ++ [x.mark])).eval scope = .ok .nil := by
  have hchars : ∀ c ∈ m.text ++ [x.mark], isNumeralChar c = true := by
    intro c hc
    rcases List.mem_append.1 hc with hc | hc
    · exact isNumeralChar_mantissa c hc
    · rw [List.mem_singleton.1 hc]
      exact isNumeralChar_mark x
  have hnumeral : numeral? (m.text ++ [x.mark]) = none := by
    have hmark : exponentPart? [x.mark] = none := by simp [exponentPart?_eq, Sign.read]
    have hread := Sign.read_append .absent (m.unsigned [x.mark])
    rw [Sign.text, List.nil_append] at hread
    rw [numeral?_of_isNumeralChar hchars, floatOfText?, splitSign_eq, hread]
    dsimp only
    rw [m.decimalPart?_append true (x.endsMantissa []), hmark]
    rfl
  have hplain : ∀ c ∈ m.text ++ [x.mark], isPlainChar c = true :=
    fun c hc => isPlainChar_of_isNumeralChar (hchars c hc)
  rw [parse_unsigned hplain (by simp), hnumeral]
  · exact eval_pathOf scope (not_mem_of_forall hchars (by decide))
      (not_mem_of_forall hchars (by decide)) (not_mem_of_forall hchars (by decide))
  · simp [not_mem_mantissa m, (mark_ne_sign x).1.symm]
  · simp [not_mem_mantissa m, (mark_ne_sign x).2.symm]

/-- Without a sign a numeral is its number. -/
theorem eval_number {s : List Char} {v : Value} (h : numeral? s = some v)
    (hs : ∀ c ∈ s, isPlainChar c = true) (hne : s ≠ []) (hplus : '+' ∉ s) (hminus : '-' ∉ s) :
    (parse s).eval scope = .ok v := by
  rw [parse_unsigned hs hne hplus hminus, h]
  rfl

/-- A plain text is nil if what stands in front of its sign is, and what stands behind the sign has a
value. -/
theorem eval_signed {left right : List Char} {operator : Operator} {sign : Char} {v : Value}
    (hoperator : operator = .plus ∧ sign = '+' ∨
      operator = .minus ∧ sign = '-' ∧ '+' ∉ left ++ '-' :: right)
    (hs : ∀ c ∈ left ++ sign :: right, isPlainChar c = true) (hsign : sign ∉ left)
    (hleft : (parse left).eval scope = .ok .nil) (hright : (parse right).eval scope = .ok v) :
    (parse (left ++ sign :: right)).eval scope = .ok .nil := by
  rw [parse_signed hoperator hs hsign, Expr.eval, hleft, hright]
  rfl

theorem eval_signed_front {s : List Char} {operator : Operator} {sign : Char} {v : Value}
    (hoperator : operator = .plus ∧ sign = '+' ∨ operator = .minus ∧ sign = '-' ∧ '+' ∉ s)
    (hs : ∀ c ∈ sign :: s, isPlainChar c = true) (h : (parse s).eval scope = .ok v) :
    (parse (sign :: s)).eval scope = .ok .nil := by
  have hminus : operator = .plus ∧ sign = '+' ∨
      operator = .minus ∧ sign = '-' ∧ '+' ∉ [] ++ '-' :: s :=
    hoperator.imp_right fun ⟨ho, hc, hplus⟩ => ⟨ho, hc, by simp [hplus]⟩
  exact eval_signed scope hminus hs List.not_mem_nil (eval_blank scope) h

theorem eval_digits (x : Exponent) : ∃ v, (parse x.digits).eval scope = .ok v := by
  let m : Mantissa := {
    whole := x.digits
    fraction := none
    isDigit_whole := x.isDigit
    isDigit_fraction := by simp
    ne_nil := .inl x.ne_nil }
  have htext : Numeral.text (.decimal .absent m none) = x.digits := by
    simp [Numeral.text, Sign.text, Mantissa.text, Mantissa.pointText, powerText, m]
  have hnumeral := Numeral.numeral?_text (.decimal .absent m none)
  rw [htext] at hnumeral
  exact ⟨_, eval_number scope hnumeral
    (fun c hc => isPlainChar_of_isNumeralChar (isNumeralChar_of_isDecimalDigit (x.isDigit c hc)))
    x.ne_nil (not_mem_of_forall x.isDigit (by decide)) (not_mem_of_forall x.isDigit (by decide))⟩

theorem isPlainChar_decimal (sign : Sign) (m : Mantissa) (x : Option Exponent) :
    ∀ c ∈ sign.text ++ (m.text ++ powerText x), isPlainChar c = true :=
  fun c hc => isPlainChar_of_isNumeralChar (isNumeralChar_decimal c hc)

/-- A numeral without a sign in front. -/
theorem eval_unsignedDecimal (m : Mantissa) (x : Option Exponent) :
    (parse (m.text ++ powerText x)).eval scope =
      .ok (if x.any (fun x => x.sign ≠ .absent) then .nil
        else Numeral.value (.decimal .absent m x)) := by
  have hplain := isPlainChar_decimal .absent m x
  have hnumeral := Numeral.numeral?_text (.decimal .absent m x)
  have hne : m.text ++ powerText x ≠ [] := by simp [m.text_ne_nil]
  obtain ⟨hplus, hminus⟩ := not_mem_mantissa m
  rw [Sign.text, List.nil_append] at hplain
  rw [Numeral.text, Sign.text, List.nil_append] at hnumeral
  cases x with
  | none =>
    exact eval_number scope hnumeral hplain hne (by simpa [powerText] using hplus)
      (by simpa [powerText] using hminus)
  | some x =>
    obtain ⟨v, hdigits⟩ := eval_digits scope x
    obtain ⟨hmarkPlus, hmarkMinus⟩ := mark_ne_sign x
    have hdigitsPlus : '+' ∉ x.digits := not_mem_of_forall x.isDigit (by decide)
    have hdigitsMinus : '-' ∉ x.digits := not_mem_of_forall x.isDigit (by decide)
    cases hsign : x.sign with
    | absent =>
      have heval := eval_number scope hnumeral hplain hne
        (by simp [powerText, Exponent.text, hsign, Sign.text, hplus, hmarkPlus.symm, hdigitsPlus])
        (by simp [powerText, Exponent.text, hsign, Sign.text, hminus, hmarkMinus.symm, hdigitsMinus])
      simpa [hsign] using heval
    | plus =>
      have htext : m.text ++ powerText (some x) = m.text ++ [x.mark] ++ '+' :: x.digits := by
        simp [powerText, Exponent.text, hsign, Sign.text]
      rw [htext] at hplain ⊢
      have heval := eval_signed scope (.inl ⟨rfl, rfl⟩) hplain (by simp [hplus, hmarkPlus.symm])
        (eval_marked scope m x) hdigits
      simpa [hsign] using heval
    | minus =>
      have htext : m.text ++ powerText (some x) = m.text ++ [x.mark] ++ '-' :: x.digits := by
        simp [powerText, Exponent.text, hsign, Sign.text]
      rw [htext] at hplain ⊢
      have heval := eval_signed scope
        (.inr ⟨rfl, rfl, by simp [hplus, hmarkPlus.symm, hdigitsPlus]⟩) hplain
        (by simp [hminus, hmarkMinus.symm]) (eval_marked scope m x) hdigits
      simpa [hsign] using heval

theorem exists_of_plus {x : Option Exponent} (h : '+' ∈ powerText x) :
    ∃ y, x = some y ∧ y.sign = .plus := by
  cases x with
  | none => cases h
  | some x =>
    have hdigits : '+' ∉ x.digits := not_mem_of_forall x.isDigit (by decide)
    cases hsign : x.sign with
    | plus => exact ⟨x, rfl, hsign⟩
    | absent => simp [powerText, Exponent.text, hsign, Sign.text, (mark_ne_sign x).1.symm, hdigits] at h
    | minus => simp [powerText, Exponent.text, hsign, Sign.text, (mark_ne_sign x).1.symm, hdigits] at h

theorem eval_decimal (sign : Sign) (m : Mantissa) (x : Option Exponent) (hsign : sign ≠ .absent) :
    (parse (sign.text ++ (m.text ++ powerText x))).eval scope = .ok .nil := by
  have hplain := isPlainChar_decimal sign m x
  have hbehind := eval_unsignedDecimal scope m x
  cases sign with
  | absent => exact absurd rfl hsign
  | plus =>
    exact eval_signed_front scope (.inl ⟨rfl, rfl⟩) hplain hbehind
  | minus =>
    by_cases hplus : '+' ∈ powerText x
    · -- The sign of the exponent is found first, and the sign in front only in the left side.
      obtain ⟨x, rfl, hx⟩ := exists_of_plus hplus
      obtain ⟨hmarkPlus, hmarkMinus⟩ := mark_ne_sign x
      obtain ⟨v, hdigits⟩ := eval_digits scope x
      have htext : Sign.text .minus ++ (m.text ++ powerText (some x)) =
          '-' :: (m.text ++ [x.mark]) ++ '+' :: x.digits := by
        simp [powerText, Exponent.text, hx, Sign.text]
      rw [htext] at hplain ⊢
      have hleft : (parse ('-' :: (m.text ++ [x.mark]))).eval scope = .ok .nil :=
        eval_signed_front scope (.inr ⟨rfl, rfl, by simp [not_mem_mantissa m, hmarkPlus.symm]⟩)
          (fun c hc => hplain c (List.mem_append_left _ hc)) (eval_marked scope m x)
      exact eval_signed scope (.inl ⟨rfl, rfl⟩) hplain (by simp [not_mem_mantissa m, hmarkPlus.symm])
        hleft hdigits
    · exact eval_signed_front scope (.inr ⟨rfl, rfl, by simp [not_mem_mantissa m, hplus]⟩)
        hplain hbehind

theorem eval_numeral (n : Numeral) :
    (parse n.text).eval scope = .ok (if n.isSigned then .nil else n.value) := by
  have hnumeral := n.numeral?_text
  cases n with
  | hex numeral =>
    have hmark : ∀ c ∈ numeral.text, c = '0' ∨ c = 'x' ∨ c = 'X' ∨ isHexDigit c = true := by
      intro c hc
      rcases List.mem_cons.1 hc with rfl | hc
      · exact .inl rfl
      · rcases List.mem_cons.1 hc with rfl | hc
        · cases numeral.isUpper
          · exact .inr (.inl rfl)
          · exact .inr (.inr (.inl rfl))
        · exact .inr (.inr (.inr (numeral.isHex c hc)))
    refine eval_number scope hnumeral (fun c hc => ?_) (List.cons_ne_nil _ _) ?_ ?_
    · rcases hmark c hc with rfl | rfl | rfl | hc
      · decide
      · decide
      · decide
      · exact isPlainChar_of_isHexDigit hc
    · exact fun h => absurd (hmark _ h) (by decide)
    · exact fun h => absurd (hmark _ h) (by decide)
  | decimal sign m x =>
    by_cases hsign : sign = .absent
    · subst hsign
      simpa [Numeral.text, Sign.text, Numeral.isSigned] using eval_unsignedDecimal scope m x
    · simpa [Numeral.text, Numeral.isSigned, hsign] using eval_decimal scope sign m x hsign

end

/-- A numeral is read as its number, but it evaluates to its number only without a sign. With a sign,
be it in front or in the exponent, it evaluates to nil. -/
theorem evaluate_numeral (n : Numeral) (e : Entity) (context : Context) :
    numeral? n.text = some n.value ∧
      evaluate n.text e context = .ok (if n.isSigned then .nil else n.value) :=
  ⟨n.numeral?_text, eval_numeral (Scope.of e context) n⟩

/-- A sign in front of a numeral or in its exponent makes nil of it. -/
theorem signed_not_evaluated :
    (numeral? "-5".toList = some (.int (-5)) ∧
      evaluate "-5".toList default .standard = .ok .nil) ∧
    numeral? "1e+2".toList = some (.int 100) ∧
      evaluate "1e+2".toList default .standard = .ok .nil := by
  have hfive : evaluate "5".toList default .standard = .ok (.int 5) :=
    evaluate_of_head (by decide) _ _
  have hmantissa : evaluate "1e".toList default .standard = .ok .nil :=
    evaluate_of_head (by decide) _ _
  have hexponent : evaluate "2".toList default .standard = .ok (.int 2) :=
    evaluate_of_head (by decide) _ _
  refine ⟨⟨rfl, ?_⟩, rfl, ?_⟩
  · rw [evaluate_of_head (by decide)]
    change (do
      let a ← (parse []).eval (Scope.of default .standard)
      let b ← evaluate "5".toList default .standard
      Operator.minus.apply a b) = _
    rw [eval_blank, hfive]
    rfl
  · rw [evaluate_of_head (by decide)]
    change (do
      let a ← evaluate "1e".toList default .standard
      let b ← evaluate "2".toList default .standard
      Operator.plus.apply a b) = _
    rw [hmantissa, hexponent]
    rfl

end ModAlmanac.Expr
