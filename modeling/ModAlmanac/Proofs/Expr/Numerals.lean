import ModAlmanac.Expr.Syntax
import ModAlmanac.Proofs.Number.Numerals

/-!
# Numerals of expressions

A numeral is hexadecimal without a sign, or decimal with an optional sign and an optional exponent,
which may have a sign of its own (`Numeral`). Its text is read as the number that it denotes
(`Numeral.numeral?_text`), and no other text is, a line end behind it apart
(`numeral?_eq_some_iff`).
-/

namespace ModAlmanac.Expr

open Number Text

inductive Numeral where
  | hex (numeral : Hexadecimal)
  | decimal (sign : Sign) (mantissa : Mantissa) (exponent : Option Exponent)

def Numeral.text : Numeral → List Char
  | .hex numeral => numeral.text
  | .decimal sign m x => sign.text ++ (m.text ++ powerText x)

/-- The number that a numeral denotes: an integer, or the double nearest to its decimal, which counts
as an integer where it is equal to one. -/
def Numeral.value : Numeral → Value
  | .hex numeral => .int (hexDigitsValue numeral.digits)
  | .decimal sign m x =>
    wholeOrFloat (ofMagnitude (decide (sign = .minus)) (m.decimal x).magnitude)

/-- Whether a sign stands anywhere in a numeral. -/
def Numeral.isSigned : Numeral → Bool
  | .hex _ => false
  | .decimal sign _ x => sign ≠ .absent || x.any fun x => x.sign ≠ .absent

/-! ## Reading numerals -/

theorem numeral?_of_isNumeralChar {s : List Char} (hs : ∀ c ∈ s, isNumeralChar c = true) :
    numeral? s = (floatOfText? s).map wholeOrFloat := by
  have hend : dropLineEnd s = s :=
    if_neg fun h => not_mem_of_forall hs (by decide) (List.mem_of_getLast? h)
  have hhex : hexPart? s = none := by
    cases s with
    | nil => rfl
    | cons c s =>
      have hnone : hexPart? (c :: s ++ []) = none :=
        hexPart?_of_isNumeralChar (List.cons_ne_nil c s) hs (by simp)
      rwa [List.append_nil] at hnone
  rw [numeral?, hend, hhex]

theorem Numeral.dropLineEnd_text (n : Numeral) : dropLineEnd n.text = n.text := by
  have hline : '\n' ∉ n.text := by
    cases n with
    | decimal sign m x => exact not_mem_of_forall isNumeralChar_decimal (by decide)
    | hex numeral =>
      have hmem : '\n' ∉ numeral.digits := not_mem_of_forall numeral.isHex (by decide)
      rw [text, Hexadecimal.text]
      cases numeral.isUpper <;> simp [hmem]
  exact if_neg fun h => hline (List.mem_of_getLast? h)

/-- A numeral is read as the number that it denotes. -/
theorem Numeral.numeral?_text (n : Numeral) : numeral? n.text = some n.value := by
  cases n with
  | decimal sign m x =>
    rw [text, numeral?_of_isNumeralChar isNumeralChar_decimal, floatOfText?_text]
    rfl
  | hex numeral =>
    have hread := numeral.hexPart?_text (stopsBefore_nil _)
    rw [List.append_nil] at hread
    rw [numeral?, dropLineEnd_text, text, hread]
    rfl

/-- The accepted texts are the numerals, a line end behind them apart. -/
theorem numeral?_eq_some_iff {s : List Char} {v : Value} :
    numeral? s = some v ↔ ∃ n : Numeral, dropLineEnd s = n.text ∧ v = n.value := by
  have hread : ∀ n : Numeral, dropLineEnd s = n.text → numeral? s = some n.value := by
    intro n hn
    rw [← n.numeral?_text, numeral?, numeral?, hn, n.dropLineEnd_text]
  constructor
  · intro h
    have hn : ∃ n : Numeral, dropLineEnd s = n.text := by
      rw [numeral?] at h
      split at h
      · next hhex =>
        obtain ⟨numeral, hrun, hs⟩ := exists_hexadecimal hhex
        exact ⟨.hex numeral, by rw [hs, List.append_nil, hrun, Numeral.text]⟩
      · obtain ⟨x, hx, -⟩ := Option.map_eq_some_iff.1 h
        obtain ⟨sign, m, power, hs⟩ := exists_of_floatOfText? hx
        exact ⟨.decimal sign m power, hs⟩
    obtain ⟨n, hn⟩ := hn
    exact ⟨n, hn, Option.some.inj (h.symm.trans (hread n hn))⟩
  · rintro ⟨n, hn, rfl⟩
    exact hread n hn

end ModAlmanac.Expr
