import ModAlmanac.Proofs.Lua.ReadBack

/-!
# Scalars of a literal source

The scalars that a literal source can hold (`Scalar`): texts between quotes of either kind, with
their escapes, numerals in every notation, and the literal words. A double has to be finite and small
enough to be written without an exponent. A scalar is written anew as a text that is read back as its
value (`Scalar.exists_text`), wherever nothing goes on with it.
-/

namespace ModAlmanac.Lua

open Number Text

/-! ## The grammar -/

def signed (negative : Bool) (n : Nat) : Int :=
  if negative then -(n : Int) else n

/-- The scalars of a literal source, each with the value that it stands for. -/
inductive Scalar : Value → List Char → Prop
  | string {q : Char} {pieces : List Piece} (hq : isQuote q = true)
      (hpieces : ∀ piece ∈ pieces, piece.Fits q) :
      Scalar (.text (String.ofList (pieces.flatMap (Piece.value q))))
        (q :: pieces.flatMap Piece.source ++ [q])
  | hexadecimal (negative : Bool) (h : Hexadecimal) :
      Scalar (.int (signed negative (hexDigitsValue h.digits)))
        ((if negative then ['-'] else []) ++ h.text)
  | whole (negative : Bool) {digits : List Char} (hne : digits ≠ [])
      (hdigits : ∀ c ∈ digits, isDecimalDigit c = true) :
      Scalar (.int (signed negative (digitsValue digits)))
        ((if negative then ['-'] else []) ++ digits)
  | double (negative : Bool) {m : Mantissa} {x : Option Exponent} {p : Parts}
      (hx : x = none ∨ m.whole ≠ []) (hpoint : m.fraction ≠ none ∨ x ≠ none)
      (hparts : parts? (ofMagnitude negative (m.decimal x).magnitude) = some p)
      (hplain : 'e' ∉ p.text) :
      Scalar (.float (ofMagnitude negative (m.decimal x).magnitude))
        ((if negative then ['-'] else []) ++ (m.text ++ powerText x))
  | word {word : List Char} (h : isLiteralWord word = true) : Scalar (wordValue word) word

/-! ## Numerals in plain notation -/

theorem isWordChar_of_isHexDigit {c : Char} (h : isHexDigit c = true) : isWordChar c = true := by
  have halnum : c.isAlphanum = true := by
    unfold isHexDigit hexValue? at h
    split at h
    · next hdigit => rw [Char.isAlphanum, hdigit, Bool.or_true]
    · have hval : c.toNat = c.val.toNat := rfl
      simp only [Bool.and_eq_true, decide_eq_true_eq, Char.le_def, UInt32.le_iff_toNat_le] at h
      split at h
      · next hlower =>
        have ha : 'a'.val.toNat = 97 := rfl
        have hf : 'f'.val.toNat = 102 := rfl
        simp [Char.isAlphanum, Char.isAlpha, Char.isLower, UInt32.le_iff_toNat_le]
        omega
      · split at h
        · next hupper =>
          have hA : 'A'.val.toNat = 65 := rfl
          have hF : 'F'.val.toNat = 70 := rfl
          simp [Char.isAlphanum, Char.isAlpha, Char.isUpper, UInt32.le_iff_toNat_le]
          omega
        · cases h
  exact isWordChar_of_isAlphanum (by rw [halnum, Bool.true_or])

theorem Ends.stopsHex {rest : List Char} (h : Ends rest) : StopsBefore isHexDigit rest := by
  intro c hc
  by_contra hhex
  rw [Bool.not_eq_false] at hhex
  have hword := h.stopsWord c hc
  rw [isWordChar_of_isHexDigit hhex] at hword
  cases hword

theorem unsignedNumeral?_hexadecimal (h : Hexadecimal) {rest : List Char} (hrest : Ends rest) :
    unsignedNumeral? (h.text ++ rest) = some (h.text, rest) := by
  rw [unsignedNumeral?, h.hexPart?_text hrest.stopsHex]

theorem plainNumeral_hexadecimal (negative : Bool) (h : Hexadecimal) :
    plainNumeral negative h.text = .ok (intText (signed negative (hexDigitsValue h.digits))) := by
  have hread := h.hexPart?_text (stopsBefore_nil isHexDigit)
  rw [List.append_nil] at hread
  rw [plainNumeral, hread]
  rfl

/-- A numeral with a point or an exponent does not count as an integer. -/
theorem not_all_isDecimalDigit {m : Mantissa} {x : Option Exponent}
    (hpoint : m.fraction ≠ none ∨ x ≠ none) :
    (m.text ++ powerText x).all isDecimalDigit = false := by
  obtain ⟨c, hmem, hc⟩ : ∃ c ∈ m.text ++ powerText x, isDecimalDigit c = false := by
    rcases hpoint with hfraction | hx
    · obtain ⟨digits, hdigits⟩ := Option.ne_none_iff_exists'.1 hfraction
      exact ⟨'.', by simp [Mantissa.text, Mantissa.pointText, hdigits], by decide⟩
    · obtain ⟨x, rfl⟩ := Option.ne_none_iff_exists'.1 hx
      refine ⟨x.mark, by simp [powerText, Exponent.text], ?_⟩
      rcases x.mark_cases with h | h <;> rw [h] <;> decide
  exact List.all_eq_false.2 ⟨c, hmem, by simp [hc]⟩

/-- A double is written out unless it is infinite or needs an exponent. -/
theorem plainNumeral_decimal (negative : Bool) {m : Mantissa} {x : Option Exponent}
    (hpoint : m.fraction ≠ none ∨ x ≠ none) :
    plainNumeral negative (m.text ++ powerText x) =
      match parts? (ofMagnitude negative (m.decimal x).magnitude) with
      | none => .error (.outOfRange ((if negative then ['-'] else []) ++ (m.text ++ powerText x)))
      | some p =>
        if p.text.contains 'e' then
          .error (.needsExponent ((if negative then ['-'] else []) ++ (m.text ++ powerText x)))
        else .ok p.text := by
  have hhex := hexPart?_decimal m x (stopsBefore_nil _)
  have hwritten : (if negative then '-' :: (m.text ++ powerText x) else m.text ++ powerText x) =
      (if negative then ['-'] else []) ++ (m.text ++ powerText x) := by
    cases negative <;> rfl
  have hparts := congrArg (fun y => y.bind parts?) (floatOfText?_signed negative m x)
  rw [Option.bind_some] at hparts
  rw [List.append_nil] at hhex
  rw [plainNumeral, hhex]
  dsimp only
  rw [not_all_isDecimalDigit hpoint, if_neg Bool.false_ne_true, hwritten]
  generalize (floatOfText? _).bind parts? = found at hparts ⊢
  subst hparts
  rfl

theorem plainNumeral_double {negative : Bool} {m : Mantissa} {x : Option Exponent} {p : Parts}
    (hpoint : m.fraction ≠ none ∨ x ≠ none)
    (hparts : parts? (ofMagnitude negative (m.decimal x).magnitude) = some p)
    (hplain : 'e' ∉ p.text) : plainNumeral negative (m.text ++ powerText x) = .ok p.text := by
  rw [plainNumeral_decimal negative hpoint, hparts]
  dsimp only
  rw [if_neg (by simp [hplain])]

/-! ## Doubles without an exponent -/

theorem readsScalar_double {x : Float} {p : Parts} (hparts : parts? x = some p)
    (hplain : 'e' ∉ p.text) : ReadsScalar (.float x) p.text := by
  obtain ⟨w, hw, htext, hvalue⟩ := exists_written hparts
  have hexponent : w.exponent = none := by
    by_contra hne
    obtain ⟨e, he⟩ := Option.ne_none_iff_exists'.1 hne
    exact hplain (by simp [htext, Number.Written.text, he, exponentText])
  have hfraction : w.fraction ≠ [] := hw.behind.resolve_right fun h => h hexponent
  obtain ⟨d, more, hwhole⟩ := List.exists_cons_of_ne_nil hw.whole_ne_nil
  have hd := hw.isDigit_whole d (by rw [hwhole]; exact List.mem_cons_self)
  obtain ⟨behind, hbehind⟩ : ∃ behind, w.text = d :: behind := by
    rw [Number.Written.text, hwhole]
    exact ⟨_, rfl⟩
  have hread := fun rest (hrest : Ends rest) =>
    numberAt?_double p.negative hw.toIsNumeral hfraction hexponent hrest.stopsNumeral
  simp only [← List.append_assoc] at hread
  rw [hvalue, hbehind] at hread
  rw [htext, hbehind]
  exact readsScalar_number hd hread

/-! ## Scalars are read back -/

/-- A scalar is written anew as a text that is read back. -/
theorem Scalar.exists_text {v : Value} {s : List Char} (h : Scalar v s) :
    ∃ text, (∀ flag rest, Ends rest → Yields flag s text false rest) ∧ ReadsScalar v text := by
  cases h with
  | string hq hpieces =>
    exact ⟨_, fun flag rest _ => yields_string flag hq hpieces rest,
      readsScalar_string hq hpieces⟩
  | hexadecimal negative h =>
    have hne : h.text ≠ [] := List.cons_ne_nil _ _
    exact ⟨_, fun flag rest hrest => yields_numeral flag hne
      (unsignedNumeral?_hexadecimal h hrest) (plainNumeral_hexadecimal negative h),
      readsScalar_int _⟩
  | whole negative hne hdigits =>
    exact ⟨_, fun flag rest hrest => yields_numeral flag hne
      (unsignedNumeral?_digits hne hdigits hrest.stopsNumeral)
      (plainNumeral_digits negative hne hdigits), readsScalar_int _⟩
  | @double negative m x p hx hpoint hparts hplain =>
    have hne : m.text ++ powerText x ≠ [] := fun h => m.text_ne_nil (List.append_eq_nil_iff.1 h).1
    exact ⟨_, fun flag rest hrest => yields_numeral flag hne
      (unsignedNumeral?_decimal hx hrest.stopsNumeral) (plainNumeral_double hpoint hparts hplain),
      readsScalar_double hparts hplain⟩
  | word hword =>
    obtain ⟨c, more, rfl, hstart, hmore, -⟩ := exists_of_isLiteralWord hword
    exact ⟨_, fun flag rest hrest => yields_word flag hstart hmore hrest.stopsWord hrest.noSign
      hword, readsScalar_word hword⟩

theorem head?_ne_sign_of_numeral (negative : Bool) {m : Mantissa} {x : Option Exponent}
    (rest : List Char) :
    ((if negative then ['-'] else []) ++ (m.text ++ powerText x) ++ rest).head? ≠ some '=' := by
  cases negative with
  | true => exact fun heq => absurd (Option.some.inj heq) (by decide)
  | false =>
    obtain ⟨c, more, htext⟩ := List.exists_cons_of_ne_nil m.text_ne_nil
    have hc := isNumeralChar_mantissa (m := m) c (by rw [htext]; exact List.mem_cons_self)
    rw [htext]
    rintro ⟨⟩
    exact absurd hc (by decide)

/-- No scalar begins with an equality sign. -/
theorem Scalar.head?_ne_sign {v : Value} {s : List Char} (h : Scalar v s) (rest : List Char) :
    (s ++ rest).head? ≠ some '=' := by
  cases h with
  | string hq =>
    rintro ⟨⟩
    exact absurd hq (by decide)
  | hexadecimal negative h =>
    cases negative <;> exact fun heq => absurd (Option.some.inj heq) (by decide)
  | whole negative hne hdigits =>
    have hhead := head?_ne_sign_of_numeral negative (m := wholeMantissa _ hne hdigits) (x := none) rest
    rwa [powerText, List.append_nil, wholeMantissa_text] at hhead
  | double negative => exact head?_ne_sign_of_numeral negative rest
  | word hword =>
    obtain ⟨c, more, rfl, hstart, -⟩ := exists_of_isLiteralWord hword
    rintro ⟨⟩
    exact absurd hstart (by decide)

end ModAlmanac.Lua
