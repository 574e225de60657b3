import Mathlib
import ModAlmanac.Number.Decimal

/-!
# Rows of digits

The digits of a number are read back as the number (`digitsValue_toDigits`), whatever zeros are put
in front of them. What the printers and readers of numerals do to a row of digits comes down to
cutting it in two (`digitsValue_append`) and to putting zeros behind it or taking them away
(`digitsValue_append_zeros`).

A number above zero has digits that begin with no zero. They lose their zeros at the end before they
are printed, and what is left is never empty (`significantDigits`).
-/

namespace ModAlmanac.Number

open Text

/-! ## Values -/

theorem digitValue?_of_isDigit {c : Char} (h : c.isDigit = true) :
    digitValue? c = some (c.toNat - 48) :=
  if_pos h

theorem isDecimalDigit_of_isDigit {c : Char} (h : c.isDigit = true) : isDecimalDigit c = true := by
  rw [isDecimalDigit, digitValue?_of_isDigit h]
  rfl

theorem foldl_digits (digits : List Char) (value : Nat) :
    digits.foldl (fun value c => 10 * value + (digitValue? c).getD 0) value =
      value * 10 ^ digits.length + digitsValue digits := by
  unfold digitsValue
  induction digits generalizing value with
  | nil => simp
  | cons c digits ih =>
    rw [List.foldl_cons, List.foldl_cons, ih, ih (10 * 0 + _), List.length_cons, Nat.pow_succ]
    ring_nf

theorem digitsValue_append (a b : List Char) :
    digitsValue (a ++ b) = digitsValue a * 10 ^ b.length + digitsValue b := by
  rw [digitsValue, List.foldl_append, foldl_digits]
  rfl

theorem digitsValue_zeros (n : Nat) : digitsValue (List.replicate n '0') = 0 := by
  induction n with
  | zero => rfl
  | succ n ih =>
    rw [List.replicate_succ', digitsValue_append, ih]
    rfl

theorem digitsValue_append_zeros (a : List Char) (n : Nat) :
    digitsValue (a ++ List.replicate n '0') = digitsValue a * 10 ^ n := by
  rw [digitsValue_append, digitsValue_zeros, List.length_replicate, Nat.add_zero]

theorem digitsValue_zeros_append (n : Nat) (a : List Char) :
    digitsValue (List.replicate n '0' ++ a) = digitsValue a := by
  rw [digitsValue_append, digitsValue_zeros, Nat.zero_mul, Nat.zero_add]

/-- Digits of the ASCII kind alone. -/
theorem digitsValue_eq_ofDigitChars {digits : List Char} (h : ∀ c ∈ digits, c.isDigit = true) :
    digitsValue digits = Nat.ofDigitChars 10 digits 0 := by
  have hgen : ∀ (value : Nat) (row : List Char), (∀ c ∈ row, c.isDigit = true) →
      row.foldl (fun value c => 10 * value + (digitValue? c).getD 0) value =
        Nat.ofDigitChars 10 row value := by
    intro value row
    induction row generalizing value with
    | nil => intro _; rfl
    | cons c row ih =>
      intro hrow
      obtain ⟨hc, hrest⟩ := List.forall_mem_cons.1 hrow
      rw [List.foldl_cons, Nat.ofDigitChars_cons, digitValue?_of_isDigit hc]
      exact ih _ hrest
  exact hgen 0 digits h

/-! ## Digits of a number -/

theorem isDigit_of_mem_toDigits {n : Nat} {c : Char} (h : c ∈ Nat.toDigits 10 n) :
    c.isDigit = true :=
  Nat.isDigit_of_mem_toDigits (by decide) (by decide) h

theorem exists_toDigits_cons (n : Nat) :
    ∃ d more, Nat.toDigits 10 n = d :: more ∧ d.isDigit = true := by
  obtain ⟨d, more, hmore⟩ := List.exists_cons_of_ne_nil (Nat.toDigits_ne_nil (n := n) (b := 10))
  refine ⟨d, more, hmore, isDigit_of_mem_toDigits (n := n) ?_⟩
  rw [hmore]
  exact List.mem_cons_self

theorem digitsValue_toDigits (n : Nat) : digitsValue (Nat.toDigits 10 n) = n := by
  rw [digitsValue_eq_ofDigitChars fun _ => isDigit_of_mem_toDigits, Nat.ofDigitChars_ten_toDigits]

theorem head?_toDigits_ne {n : Nat} (h : 0 < n) : (Nat.toDigits 10 n).head? ≠ some '0' := by
  induction n using Nat.strongRecOn with
  | ind n ih =>
    rcases Nat.lt_or_ge n 10 with hlt | hge
    · rw [Nat.toDigits_of_lt_base hlt, List.head?_cons, ne_eq, Option.some_inj,
        Nat.digitChar_eq_zero]
      omega
    · rw [Nat.toDigits_of_base_le (by decide) hge,
        List.head?_append_of_ne_nil _ Nat.toDigits_ne_nil]
      exact ih (n / 10) (by omega) (by omega)

/-- The digits of a number without the zeros at their end. -/
def significantDigits (n : Nat) : List Char :=
  ((Nat.toDigits 10 n).reverse.dropWhile (· = '0')).reverse

/-- The zeros that are missing from the significant digits. -/
def trailingZeros (n : Nat) : Nat :=
  ((Nat.toDigits 10 n).reverse.takeWhile (· = '0')).length

theorem toDigits_eq_significantDigits (n : Nat) :
    Nat.toDigits 10 n = significantDigits n ++ List.replicate (trailingZeros n) '0' := by
  have hzeros : (Nat.toDigits 10 n).reverse.takeWhile (· = '0') =
      List.replicate (trailingZeros n) '0' := by
    refine List.eq_replicate_iff.2 ⟨rfl, fun c hc => ?_⟩
    exact of_decide_eq_true (List.mem_takeWhile_imp (p := fun c : Char => decide (c = '0')) hc)
  have hsplit := List.takeWhile_append_dropWhile
    (p := fun c : Char => decide (c = '0')) (l := (Nat.toDigits 10 n).reverse)
  rw [hzeros] at hsplit
  have hrev := congrArg List.reverse hsplit
  rw [List.reverse_append, List.reverse_reverse, List.reverse_replicate] at hrev
  exact hrev.symm

theorem length_toDigits (n : Nat) :
    (Nat.toDigits 10 n).length = (significantDigits n).length + trailingZeros n := by
  rw [toDigits_eq_significantDigits, List.length_append, List.length_replicate]

theorem isDigit_of_mem_significantDigits {n : Nat} {c : Char} (h : c ∈ significantDigits n) :
    c.isDigit = true := by
  apply isDigit_of_mem_toDigits (n := n)
  rw [toDigits_eq_significantDigits]
  exact List.mem_append_left _ h

/-- The number that the significant digits and the missing zeros make. -/
theorem digitsValue_significantDigits (n : Nat) :
    digitsValue (significantDigits n) * 10 ^ trailingZeros n = n := by
  rw [← digitsValue_append_zeros, ← toDigits_eq_significantDigits, digitsValue_toDigits]

theorem significantDigits_ne_nil {n : Nat} (h : 0 < n) : significantDigits n ≠ [] := by
  intro hnil
  have hvalue := digitsValue_significantDigits n
  rw [hnil] at hvalue
  have : digitsValue [] = 0 := rfl
  rw [this, Nat.zero_mul] at hvalue
  omega

theorem head?_significantDigits_ne {n : Nat} (h : 0 < n) :
    (significantDigits n).head? ≠ some '0' := by
  have hhead := head?_toDigits_ne h
  rwa [toDigits_eq_significantDigits,
    List.head?_append_of_ne_nil _ (significantDigits_ne_nil h)] at hhead

/-! ## Exponents and integers -/

theorem isDigit_of_mem_exponentDigits {n : Nat} {c : Char} (h : c ∈ exponentDigits n) :
    c.isDigit = true := by
  rcases List.mem_append.1 h with hzero | hdigit
  · rw [(List.mem_replicate.1 hzero).2]
    rfl
  · exact isDigit_of_mem_toDigits hdigit

theorem exponentDigits_ne_nil (n : Nat) : exponentDigits n ≠ [] :=
  List.append_ne_nil_of_right_ne_nil _ Nat.toDigits_ne_nil

theorem digitsValue_exponentDigits (n : Nat) : digitsValue (exponentDigits n) = n := by
  rw [exponentDigits, digitsValue_zeros_append, digitsValue_toDigits]

end ModAlmanac.Number
