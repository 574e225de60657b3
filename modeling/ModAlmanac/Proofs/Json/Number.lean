import ModAlmanac.Json.Printer
import ModAlmanac.Json.Reader
import ModAlmanac.Proofs.Number.Written

/-!
# JSON numbers are read back

The reader takes a number apart as it was written: the digits in front of the point, the point with
digits, the exponent, as long as nothing behind it continues the number (`StopsBefore`). A numeral
without point and exponent is an integer (`numberBehind?_whole`), any other one a double
(`numberBehind?_double`).

With the three words for the doubles that have no numeral, every integer and every double is read
back as itself: `scalar?_intText` and `scalar?_doubleText`.
-/

namespace ModAlmanac.Json

open Number Text

/-- Whether a character can continue a number. -/
def continuesNumber (c : Char) : Bool :=
  c.isDigit || c = '.' || c = 'e' || c = 'E'

theorem not_continuesNumber {c : Char} (h : continuesNumber c = false) :
    c.isDigit = false ∧ c ≠ '.' ∧ c ≠ 'e' ∧ c ≠ 'E' := by
  unfold continuesNumber at h
  simpa [and_assoc] using h

theorem stopsBefore_digits {rest : List Char} (h : StopsBefore continuesNumber rest) :
    StopsBefore Char.isDigit rest :=
  fun c hc => (not_continuesNumber (h c hc)).1

/-! ## The parts of a number -/

theorem exponentPart_stop {rest : List Char} (h : StopsBefore continuesNumber rest) :
    exponentPart rest = ([], rest) := by
  cases rest with
  | nil => rfl
  | cons c rest =>
    obtain ⟨-, -, he, hE⟩ := not_continuesNumber (h c rfl)
    simp [exponentPart, he, hE]

theorem exponentPart_cons {sign : Char} (hsign : sign = '-' ∨ sign = '+') {run rest : List Char}
    (hne : run ≠ []) (hrun : ∀ c ∈ run, c.isDigit = true) (hrest : StopsBefore Char.isDigit rest) :
    exponentPart ('e' :: sign :: (run ++ rest)) = ('e' :: sign :: run, rest) := by
  have htake := takeWhile_append_of_stops hrun hrest
  have hdrop := dropWhile_append_of_stops hrun hrest
  obtain ⟨c, more, rfl⟩ := List.exists_cons_of_ne_nil hne
  rcases hsign with rfl | rfl
  · simp only [List.cons_append] at htake hdrop ⊢
    simp [exponentPart, htake, hdrop]
  · simp only [List.cons_append] at htake hdrop ⊢
    simp [exponentPart, htake, hdrop]

theorem exponentPart_exponentText (e : Option Int) {rest : List Char}
    (hrest : StopsBefore continuesNumber rest) :
    exponentPart (exponentText e ++ rest) = (exponentText e, rest) := by
  cases e with
  | none => exact exponentPart_stop hrest
  | some e =>
    apply exponentPart_cons _ (exponentDigits_ne_nil _) (fun _ => isDigit_of_mem_exponentDigits)
      (stopsBefore_digits hrest)
    split
    · exact .inl rfl
    · exact .inr rfl

theorem stopsBefore_exponentText_append (e : Option Int) {rest : List Char}
    (hrest : StopsBefore continuesNumber rest) :
    StopsBefore (fun c => c.isDigit || c = '.') (exponentText e ++ rest) := by
  cases e with
  | some e => exact stopsBefore_cons (by decide) _
  | none =>
    intro c hc
    obtain ⟨hdigit, hpoint, -⟩ := not_continuesNumber (hrest c hc)
    simp [hdigit, hpoint]

theorem fractionPart_pointText {fraction s : List Char} (hrun : ∀ c ∈ fraction, c.isDigit = true)
    (hs : StopsBefore (fun c => c.isDigit || c = '.') s) :
    fractionPart (pointText fraction ++ s) = (pointText fraction, s) := by
  have hdigits : StopsBefore Char.isDigit s := by
    intro c hc
    have := hs c hc
    rw [Bool.or_eq_false_iff] at this
    exact this.1
  cases fraction with
  | nil =>
    rw [pointText, List.nil_append]
    unfold fractionPart
    split
    · next more =>
      have := hs '.' rfl
      cases this
    · rfl
  | cons c fraction =>
    have htake := takeWhile_append_of_stops hrun hdigits
    have hdrop := dropWhile_append_of_stops hrun hdigits
    simp only [List.cons_append] at htake hdrop
    simp [fractionPart, pointText, htake, hdrop]

theorem wholeDigits?_append {whole s : List Char} (hne : whole ≠ [])
    (hrun : ∀ c ∈ whole, c.isDigit = true) (hwhole : whole = ['0'] ∨ whole.head? ≠ some '0')
    (hs : StopsBefore Char.isDigit s) : wholeDigits? (whole ++ s) = some (whole, s) := by
  have htake := takeWhile_append_of_stops hrun hs
  have hdrop := dropWhile_append_of_stops hrun hs
  obtain ⟨c, more, rfl⟩ := List.exists_cons_of_ne_nil hne
  rcases hwhole with h | h
  · rw [h]
    rfl
  · have hc : c ≠ '0' := fun heq => h (by rw [heq]; rfl)
    simp only [List.cons_append] at htake hdrop ⊢
    unfold wholeDigits?
    split
    · next heq =>
      cases heq
      exact absurd rfl hc
    · rw [htake, hdrop]

/-! ## Numbers -/

section

variable {w : Written} (h : w.IsNumeral) {rest : List Char}
  (hrest : StopsBefore continuesNumber rest)
include h hrest

theorem wholeDigits?_text :
    wholeDigits? (w.text ++ rest) =
      some (w.whole, pointText w.fraction ++ (exponentText w.exponent ++ rest)) := by
  rw [Written.text, List.append_assoc, List.append_assoc]
  apply wholeDigits?_append h.whole_ne_nil h.isDigit_whole h.whole_eq
  cases w.fraction with
  | cons c fraction => exact stopsBefore_cons (by decide) _
  | nil =>
    intro c hc
    have := stopsBefore_exponentText_append w.exponent hrest c hc
    rw [Bool.or_eq_false_iff] at this
    exact this.1

/-- A numeral with a point or an exponent is read as the double nearest to its decimal. -/
theorem numberBehind?_double (hbehind : w.fraction ≠ [] ∨ w.exponent ≠ none) (negative : Bool) :
    numberBehind? negative (w.text ++ rest) =
      some (.float (ofMagnitude negative w.decimal.magnitude), rest) := by
  have hparts : ((pointText w.fraction).isEmpty && (exponentText w.exponent).isEmpty) = false := by
    rcases hbehind with hf | he
    · rw [pointText_of_ne_nil hf]
      rfl
    · obtain ⟨e, he⟩ := Option.ne_none_iff_exists'.1 he
      rw [he, Bool.and_eq_false_iff]
      exact .inr rfl
  have hfloat := h.floatOfText?_text negative
  rw [Written.text, ← List.append_assoc, ← List.append_assoc] at hfloat
  unfold numberBehind?
  rw [wholeDigits?_text h hrest]
  simp only [Option.bind_eq_bind, Option.bind_some,
    fractionPart_pointText h.isDigit_fraction (stopsBefore_exponentText_append w.exponent hrest),
    exponentPart_exponentText w.exponent hrest, hfloat]
  rw [hparts]
  rfl

/-- A numeral without point and exponent is read as an integer. -/
theorem numberBehind?_whole (hf : w.fraction = []) (he : w.exponent = none) (negative : Bool) :
    numberBehind? negative (w.whole ++ rest) =
      some (.int (signedDigitsValue ((if negative then ['-'] else []) ++ w.whole)), rest) := by
  have htext : w.text = w.whole := by
    rw [Written.text, hf, he, pointText, exponentText, List.append_nil, List.append_nil]
  have hfraction :=
    fractionPart_pointText h.isDigit_fraction (stopsBefore_exponentText_append w.exponent hrest)
  have hexponent := exponentPart_exponentText w.exponent hrest
  have hwhole := wholeDigits?_text h hrest
  rw [htext] at hwhole
  unfold numberBehind?
  rw [hwhole]
  simp only [Option.bind_eq_bind, Option.bind_some, hfraction, hexponent]
  rw [hf, he]
  rfl

end

/-! ## Scalars -/

/-- What begins with a digit, or with a minus sign and a digit, is no word. -/
theorem scalar?_number (negative : Bool) {c : Char} (hc : c.isDigit = true) (s : List Char) :
    scalar? ((if negative then ['-'] else []) ++ c :: s) = numberBehind? negative (c :: s) := by
  have hne : ∀ d : Char, d.isDigit = false → (d == c) = false := by
    intro d hd
    rw [beq_eq_false_iff_ne]
    rintro rfl
    rw [hc] at hd
    cases hd
  have hminus : c ≠ '-' := by
    rintro rfl
    cases hc
  cases negative with
  | true =>
    have hwords : ∀ entry ∈ words, entry.1.isPrefixOf? ('-' :: c :: s) = none := by
      simp [words, List.isPrefixOf?, hne 'I' rfl]
    unfold scalar?
    simp only [if_true, List.singleton_append]
    rw [List.findSome?_eq_none_iff.2 fun entry hentry => by rw [hwords entry hentry]; rfl]
  | false =>
    have hwords : ∀ entry ∈ words, entry.1.isPrefixOf? (c :: s) = none := by
      simp [words, List.isPrefixOf?, hne 'n' rfl, hne 't' rfl, hne 'f' rfl, hne 'N' rfl,
        hne 'I' rfl, hne '-' rfl]
    unfold scalar?
    simp only [Bool.false_eq_true, if_false, List.nil_append]
    rw [List.findSome?_eq_none_iff.2 fun entry hentry => by rw [hwords entry hentry]; rfl]
    dsimp only
    split
    · next heq =>
      cases heq
      exact absurd rfl hminus
    · rfl

theorem scalar?_intText (n : Int) {rest : List Char} (hrest : StopsBefore continuesNumber rest) :
    scalar? (intText n ++ rest) = some (.int n, rest) := by
  have hnumeral : Written.IsNumeral
      { whole := Nat.toDigits 10 n.natAbs, fraction := [], exponent := none } :=
    { whole_ne_nil := Nat.toDigits_ne_nil
      isDigit_whole := fun _ => isDigit_of_mem_toDigits
      isDigit_fraction := fun _ hc => nomatch hc
      whole_eq := by
        rcases Nat.eq_zero_or_pos n.natAbs with hzero | hpos
        · rw [hzero]
          exact .inl rfl
        · exact .inr (head?_toDigits_ne hpos) }
  have hread := numberBehind?_whole hnumeral hrest rfl rfl (decide (n < 0))
  obtain ⟨c, more, hdigits⟩ :=
    List.exists_cons_of_ne_nil (Nat.toDigits_ne_nil (b := 10) (n := n.natAbs))
  have hc : c.isDigit = true :=
    isDigit_of_mem_toDigits (n := n.natAbs) (by rw [hdigits]; exact List.mem_cons_self)
  dsimp only at hread
  rw [← intText_eq, signedDigitsValue_intText, hdigits] at hread
  rw [intText_eq, hdigits, List.append_assoc, List.cons_append, scalar?_number _ hc]
  exact hread

theorem scalar?_doubleText (x : Float) {rest : List Char}
    (hrest : StopsBefore continuesNumber rest) :
    scalar? (doubleText x ++ rest) = some (.float x, rest) := by
  unfold doubleText floatText
  split
  · next p hp =>
    obtain ⟨w, hw, htext, hread⟩ := exists_written hp
    obtain ⟨c, more, hwhole⟩ := List.exists_cons_of_ne_nil hw.whole_ne_nil
    have hc : c.isDigit = true := hw.isDigit_whole c (by rw [hwhole]; exact List.mem_cons_self)
    have hnumber := numberBehind?_double hw.toIsNumeral hrest hw.behind p.negative
    rw [hread, Written.text, hwhole] at hnumber
    rw [htext, Written.text, hwhole, List.append_assoc]
    simp only [List.cons_append] at hnumber ⊢
    rw [scalar?_number _ hc]
    exact hnumber
  · next hp =>
    split
    · next hnan =>
      rw [eq_of_isNaN hnan]
      rfl
    · next hnan =>
      have hx := eq_of_parts?_eq_none hp (Bool.eq_false_iff.2 hnan)
      split
      · next hneg =>
        rw [if_pos hneg] at hx
        rw [hx]
        rfl
      · next hneg =>
        rw [if_neg hneg] at hx
        rw [hx]
        rfl

end ModAlmanac.Json
