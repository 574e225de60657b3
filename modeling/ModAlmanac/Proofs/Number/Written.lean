import ModAlmanac.Proofs.Number.Numerals
import ModAlmanac.Proofs.Number.Shortest

/-!
# Doubles as text

A double is written as a numeral in one of three layouts: with zeros in front of its digits, with
the point among or behind them, or with an exponent. All of them are a `Written` numeral, which is
a mantissa with an exponent or without one, so that the readers of numerals need one lemma each and
not one for each layout (`Written.IsNumeral.floatOfText?_text` for the reader of whole texts).

The layouts differ in where the point stands and in zeros at either end, which does not change what
the numeral is read as (`reading_placed`). With the choice of the decimal behind it, a finite double
is written as a numeral that is read back as the double (`exists_written`).
-/

namespace ModAlmanac.Number

open Text

/-! ## Numerals in parts -/

/-- A numeral in its parts: the digits in front of the point, the digits behind it, and the
exponent. -/
structure Written where
  whole : List Char
  fraction : List Char
  exponent : Option Int

/-- A point with digits behind it, where there are any. -/
def pointText : List Char → List Char
  | [] => []
  | c :: fraction => '.' :: c :: fraction

/-- An exponent with its sign, where there is one. -/
def exponentText : Option Int → List Char
  | none => []
  | some e => 'e' :: (if e < 0 then '-' else '+') :: exponentDigits e.natAbs

def Written.text (w : Written) : List Char :=
  w.whole ++ (pointText w.fraction ++ exponentText w.exponent)

def Written.decimal (w : Written) : Decimal :=
  { digits := digitsValue (w.whole ++ w.fraction)
    exponent := w.exponent.getD 0 - w.fraction.length }

/-- What every written number satisfies: there are digits in front of the point, with no superfluous
zero. -/
structure Written.IsNumeral (w : Written) : Prop where
  whole_ne_nil : w.whole ≠ []
  isDigit_whole : ∀ c ∈ w.whole, c.isDigit = true
  isDigit_fraction : ∀ c ∈ w.fraction, c.isDigit = true
  whole_eq : w.whole = ['0'] ∨ w.whole.head? ≠ some '0'

/-- What tells a written double from an integer: it has a point or an exponent. -/
structure Written.IsDouble (w : Written) : Prop extends w.IsNumeral where
  behind : w.fraction ≠ [] ∨ w.exponent ≠ none

theorem pointText_of_ne_nil {fraction : List Char} (h : fraction ≠ []) :
    pointText fraction = '.' :: fraction := by
  cases fraction with
  | nil => exact absurd rfl h
  | cons c fraction => rfl

theorem intText_eq (n : Int) :
    intText n = (if decide (n < 0) then ['-'] else []) ++ Nat.toDigits 10 n.natAbs := by
  unfold intText
  split
  · next h =>
    rw [if_pos (decide_eq_true h)]
    rfl
  · next h =>
    rw [if_neg (fun hc => h (of_decide_eq_true hc))]
    rfl

theorem signedDigitsValue_intText (n : Int) : signedDigitsValue (intText n) = n := by
  obtain ⟨d, more, hmore, hd⟩ := exists_toDigits_cons n.natAbs
  have hunsigned := unsigned_cons (isDecimalDigit_of_isDigit hd) more
  rw [← hmore] at hunsigned
  rw [intText_eq]
  rcases Int.lt_or_le n 0 with h | h
  · rw [if_pos (decide_eq_true h)]
    refine (signedDigitsValue_append .minus hunsigned).trans ?_
    rw [digitsValue_toDigits, Sign.apply, if_pos rfl]
    omega
  · rw [if_neg (by simpa using h)]
    refine (signedDigitsValue_append .absent hunsigned).trans ?_
    rw [digitsValue_toDigits, Sign.apply, if_neg (by decide)]
    omega

/-! ## Reading a whole numeral -/

/-- The exponent that a number is written as. -/
def writtenExponent (e : Int) : Exponent where
  isUpper := false
  sign := if e < 0 then .minus else .plus
  digits := exponentDigits e.natAbs
  ne_nil := exponentDigits_ne_nil _
  isDigit _ hc := isDecimalDigit_of_isDigit (isDigit_of_mem_exponentDigits hc)

theorem powerText_writtenExponent (e : Option Int) :
    powerText (e.map writtenExponent) = exponentText e := by
  cases e with
  | none => rfl
  | some e =>
    rw [Option.map_some, powerText, Exponent.text, exponentText, writtenExponent]
    by_cases h : e < 0 <;> simp [h, Sign.text, Exponent.mark]

theorem value_writtenExponent (e : Int) : (writtenExponent e).value = e := by
  rw [Exponent.value, writtenExponent, digitsValue_exponentDigits, Sign.apply]
  by_cases h : e < 0
  · rw [if_pos h, if_pos rfl]
    omega
  · rw [if_neg h, if_neg (show Sign.plus ≠ .minus by decide)]
    omega

section

variable {w : Written} (h : w.IsNumeral)

/-- The digits of a written numeral and its point. -/
def Written.IsNumeral.mantissa : Mantissa where
  whole := w.whole
  fraction := if w.fraction = [] then none else some w.fraction
  isDigit_whole c hc := isDecimalDigit_of_isDigit (h.isDigit_whole c hc)
  isDigit_fraction c hc := by
    split at hc
    · cases hc
    · exact isDecimalDigit_of_isDigit (h.isDigit_fraction c hc)
  ne_nil := .inl h.whole_ne_nil

theorem Written.IsNumeral.getD_fraction : h.mantissa.fraction.getD [] = w.fraction := by
  unfold mantissa
  dsimp only
  split
  · next hnil => rw [hnil]; rfl
  · rfl

theorem Written.IsNumeral.pointText_mantissa : h.mantissa.pointText = pointText w.fraction := by
  unfold mantissa Mantissa.pointText
  dsimp only
  rcases Decidable.em (w.fraction = []) with hnil | hne
  · rw [if_pos hnil, hnil]
    rfl
  · rw [if_neg hne, pointText_of_ne_nil hne]

include h

/-- A numeral with a sign is read as the double nearest to its decimal. -/
theorem Written.IsNumeral.floatOfText?_text (negative : Bool) :
    floatOfText? ((if negative then ['-'] else []) ++ w.text) =
      some (ofMagnitude negative w.decimal.magnitude) := by
  have htext : h.mantissa.text ++ powerText (w.exponent.map writtenExponent) = w.text := by
    rw [Mantissa.text, h.pointText_mantissa, powerText_writtenExponent, List.append_assoc]
    rfl
  have hpower : ((w.exponent.map writtenExponent).map Exponent.value).getD 0 =
      w.exponent.getD 0 := by
    cases w.exponent with
    | none => rfl
    | some e => exact value_writtenExponent e
  have hdecimal : h.mantissa.decimal (w.exponent.map writtenExponent) = w.decimal := by
    rw [Mantissa.decimal, h.getD_fraction, hpower]
    rfl
  rw [← htext, floatOfText?_signed, hdecimal]

end

/-! ## The layouts -/

/-- The numeral that some significant digits make with the point behind the first `point` of
them. -/
def placed (digits : List Char) (point : Int) : Written :=
  if -4 < point && point ≤ 0 then
    { whole := ['0'], fraction := List.replicate (-point).toNat '0' ++ digits, exponent := none }
  else if 0 < point && point ≤ 16 then
    if digits.length ≤ point.toNat then
      { whole := digits ++ List.replicate (point.toNat - digits.length) '0'
        fraction := ['0']
        exponent := none }
    else { whole := digits.take point.toNat, fraction := digits.drop point.toNat, exponent := none }
  else { whole := digits.take 1, fraction := digits.drop 1, exponent := some (point - 1) }

section

variable {digits : List Char} (hne : digits ≠ [])
include hne

theorem placePoint_eq (point : Int) : placePoint digits point = (placed digits point).text := by
  obtain ⟨c, more, rfl⟩ := List.exists_cons_of_ne_nil hne
  unfold placePoint placed
  split
  · obtain ⟨d, fraction, hfraction⟩ := List.exists_cons_of_ne_nil
      (List.append_ne_nil_of_right_ne_nil (List.replicate (-point).toNat '0') hne)
    simp [Written.text, hfraction, pointText, exponentText]
  · split
    · dsimp only
      split
      · simp [Written.text, pointText, exponentText]
      · next hlen =>
        have hdrop : (c :: more).drop point.toNat ≠ [] := by
          rw [ne_eq, List.drop_eq_nil_iff]
          exact hlen
        rw [Written.text, pointText_of_ne_nil hdrop, exponentText, List.append_nil]
    · cases more with
      | nil => simp [Written.text, pointText, exponentText]
      | cons d more => simp [Written.text, pointText, exponentText]

theorem isDouble_placed (hdigits : ∀ c ∈ digits, c.isDigit = true)
    (hhead : digits.head? ≠ some '0') (point : Int) : (placed digits point).IsDouble := by
  have hzeros : ∀ n, ∀ c ∈ List.replicate n '0', c.isDigit = true := by
    intro n c hc
    rw [List.eq_of_mem_replicate hc]
    rfl
  obtain ⟨c, more, rfl⟩ := List.exists_cons_of_ne_nil hne
  unfold placed
  split
  · exact
      { whole_ne_nil := List.cons_ne_nil _ _
        isDigit_whole := hzeros 1
        isDigit_fraction := List.forall_mem_append.2 ⟨hzeros _, hdigits⟩
        whole_eq := .inl rfl
        behind := .inl (List.append_ne_nil_of_right_ne_nil _ hne) }
  · split
    · next hpoint =>
      have hpos : 0 < point.toNat := by
        rw [Bool.and_eq_true, decide_eq_true_iff] at hpoint
        omega
      split
      · exact
          { whole_ne_nil := List.append_ne_nil_of_left_ne_nil hne _
            isDigit_whole := List.forall_mem_append.2 ⟨hdigits, hzeros _⟩
            isDigit_fraction := hzeros 1
            whole_eq := .inr hhead
            behind := .inl (List.cons_ne_nil _ _) }
      · next hlen =>
        obtain ⟨n, hn⟩ := Nat.exists_eq_succ_of_ne_zero hpos.ne'
        exact
          { whole_ne_nil := by rw [hn]; exact List.cons_ne_nil _ _
            isDigit_whole := fun d hd => hdigits d (List.mem_of_mem_take hd)
            isDigit_fraction := fun d hd => hdigits d (List.mem_of_mem_drop hd)
            whole_eq := .inr (by rw [hn]; exact hhead)
            behind := .inl (by rw [ne_eq, List.drop_eq_nil_iff]; exact hlen) }
    · exact
        { whole_ne_nil := List.cons_ne_nil _ _
          isDigit_whole := fun d hd => hdigits d (List.mem_of_mem_take hd)
          isDigit_fraction := fun d hd => hdigits d (List.mem_of_mem_drop hd)
          whole_eq := .inr hhead
          behind := .inr (Option.some_ne_none _) }

/-- Wherever the point is placed, the numeral is read as its digits with the point there. -/
theorem reading_placed (point : Int) :
    (placed digits point).decimal.reading =
      Decimal.reading { digits := digitsValue digits, exponent := point - digits.length } := by
  obtain ⟨c, more, rfl⟩ := List.exists_cons_of_ne_nil hne
  unfold placed
  split
  · next hpoint =>
    rw [Bool.and_eq_true, decide_eq_true_iff, decide_eq_true_iff] at hpoint
    unfold Written.decimal
    dsimp only
    rw [← List.append_assoc, digitsValue_append, ← List.replicate_one (a := '0'),
      List.replicate_append_replicate, digitsValue_zeros, Nat.zero_mul, Nat.zero_add,
      List.length_append, List.length_replicate]
    congr 2
    rw [Option.getD_none]
    omega
  · split
    · next hpoint =>
      rw [Bool.and_eq_true, decide_eq_true_iff, decide_eq_true_iff] at hpoint
      split
      · next hlen =>
        rw [← Decimal.reading_shift (digitsValue (c :: more)) (point.toNat - (c :: more).length + 1)
          (point - (c :: more).length)]
        unfold Written.decimal
        dsimp only
        rw [List.append_assoc, ← List.replicate_one (a := '0'), List.replicate_append_replicate,
          digitsValue_append_zeros]
        congr 2
        rw [Option.getD_none, List.length_replicate]
        omega
      · next hlen =>
        unfold Written.decimal
        dsimp only
        rw [List.take_append_drop, List.length_drop]
        congr 2
        rw [Option.getD_none]
        omega
    · unfold Written.decimal
      dsimp only
      rw [List.take_append_drop, List.length_drop]
      congr 2
      rw [Option.getD_some, List.length_cons]
      omega

end

/-! ## Doubles -/

/-- The text of a decimal above zero is a numeral that is read as the decimal. -/
theorem Decimal.exists_written {d : Decimal} (h : d.digits ≠ 0) :
    ∃ w : Written, w.IsDouble ∧ d.text = w.text ∧ w.decimal.reading = d.reading := by
  have hpos : 0 < d.digits := Nat.pos_of_ne_zero h
  have hne := significantDigits_ne_nil hpos
  refine ⟨placed (significantDigits d.digits) (d.exponent + (Nat.toDigits 10 d.digits).length),
    isDouble_placed hne (fun _ => isDigit_of_mem_significantDigits)
      (head?_significantDigits_ne hpos) _, placePoint_eq hne _, ?_⟩
  rw [reading_placed hne, ← Decimal.reading_shift _ (trailingZeros d.digits),
    digitsValue_significantDigits, length_toDigits]
  obtain ⟨digits, exponent⟩ := d
  dsimp only
  congr 2
  omega

/-- A finite double is written as a numeral with its sign, and the numeral is read back as the
double. -/
theorem exists_written {x : Float} {p : Parts} (h : parts? x = some p) :
    ∃ w : Written, w.IsDouble ∧ p.text = (if p.negative then ['-'] else []) ++ w.text ∧
      ofMagnitude p.negative w.decimal.magnitude = x := by
  have htext : ∀ {size : List Char}, p.text = (if p.negative then '-' :: size else size) →
      p.text = (if p.negative then ['-'] else []) ++ size := by
    intro size hsize
    rw [hsize]
    split <;> rfl
  rcases Nat.eq_zero_or_pos p.significand with hzero | hpos
  · refine ⟨{ whole := ['0'], fraction := ['0'], exponent := none },
      { whole_ne_nil := List.cons_ne_nil _ _
        isDigit_whole := List.forall_mem_singleton.2 rfl
        isDigit_fraction := List.forall_mem_singleton.2 rfl
        whole_eq := .inl rfl
        behind := .inl (List.cons_ne_nil _ _) }, htext ?_, ?_⟩
    · rw [Parts.text, if_pos hzero]
      rfl
    · have hread := ofMagnitude_of_parts? h
      rw [(parts?_eq_some h).2.2.1 hzero] at hread
      exact hread
  · obtain ⟨w, hw, hdecimal, hreading⟩ :=
      Decimal.exists_written (shortest_digits_ne_zero h hpos.ne')
    refine ⟨w, hw, htext ?_, ?_⟩
    · rw [Parts.text, if_neg hpos.ne', hdecimal]
    · rw [ofMagnitude_reading, hreading, reading_shortest_of_parts? h hpos.ne']
      exact ofMagnitude_of_parts? h

end ModAlmanac.Number
