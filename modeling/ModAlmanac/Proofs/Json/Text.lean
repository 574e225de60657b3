import Mathlib
import ModAlmanac.Json.Printer
import ModAlmanac.Json.Reader
import ModAlmanac.Proofs.Text.Utf8

/-!
# JSON strings are read back

A string between its quotes is read back as the string (`stringBehind?_stringText`), whether or not
everything but printable ASCII is escaped. The reader undoes one character at a time
(`stringBehind?_stringChar`): a character stands for itself, has an escape of its own, or is written
by its code units, and a code unit is four hexadecimal digits that give it back
(`codeUnit?_hexPadded`).
-/

namespace ModAlmanac.Json

open Text

/-! ## Code units -/

theorem hexValue?_digitChar {n : Nat} (h : n < 16) : hexValue? n.digitChar = some n := by
  have hall : ∀ n, n < 16 → hexValue? n.digitChar = some n := by decide
  exact hall n h

/-- The four hexadecimal digits of a code unit. -/
theorem hexPadded_four {n : Nat} (h : n < 0x10000) :
    hexPadded 4 n =
      [(n / 0x1000).digitChar, (n / 0x100 % 16).digitChar, (n / 0x10 % 16).digitChar,
        (n % 16).digitChar] := by
  have hbase : ∀ {m}, 16 ≤ m →
      Nat.toDigits 16 m = Nat.toDigits 16 (m / 16) ++ [(m % 16).digitChar] :=
    Nat.toDigits_of_base_le (by decide)
  have hlast : ∀ {m}, m < 16 → Nat.toDigits 16 m = [m.digitChar] := Nat.toDigits_of_lt_base
  have hzero : '0' = (0 : Nat).digitChar := rfl
  unfold hexPadded
  dsimp only
  rcases Nat.lt_or_ge n 0x10 with h1 | h1
  · rw [hlast h1, show n / 0x1000 = 0 by omega, show n / 0x100 % 16 = 0 by omega,
      show n / 0x10 % 16 = 0 by omega, Nat.mod_eq_of_lt h1]
    rfl
  rcases Nat.lt_or_ge n 0x100 with h2 | h2
  · rw [hbase h1, hlast (show n / 16 < 16 by omega), show n / 0x1000 = 0 by omega,
      show n / 0x100 % 16 = 0 by omega, Nat.mod_eq_of_lt (show n / 0x10 < 16 by omega)]
    rfl
  rcases Nat.lt_or_ge n 0x1000 with h3 | h3
  · rw [hbase h1, hbase (show 16 ≤ n / 16 by omega), hlast (show n / 16 / 16 < 16 by omega),
      show n / 0x1000 = 0 by omega, show n / 16 / 16 = n / 0x100 % 16 by omega]
    rfl
  · rw [hbase h1, hbase (show 16 ≤ n / 16 by omega), hbase (show 16 ≤ n / 16 / 16 by omega),
      hlast (show n / 16 / 16 / 16 < 16 by omega), show n / 16 / 16 / 16 = n / 0x1000 by omega,
      show n / 16 / 16 % 16 = n / 0x100 % 16 by omega]
    rfl

theorem codeUnit?_hexPadded {n : Nat} (h : n < 0x10000) (rest : List Char) :
    codeUnit? (hexPadded 4 n ++ rest) = some (n, rest) := by
  rw [hexPadded_four h]
  simp only [List.cons_append, List.nil_append, codeUnit?]
  rw [hexValue?_digitChar (show n / 0x1000 < 16 by omega),
    hexValue?_digitChar (show n / 0x100 % 16 < 16 by omega),
    hexValue?_digitChar (show n / 0x10 % 16 < 16 by omega),
    hexValue?_digitChar (show n % 16 < 16 by omega)]
  simp only [Option.bind_eq_bind, Option.bind_some, Option.pure_def, Option.some.injEq,
    Prod.mk.injEq, and_true]
  omega

/-! ## Characters by their code units -/

theorem escape?_unit {s after : List Char} {unit : Nat} (h : codeUnit? s = some (unit, after))
    (hhigh : isHighSurrogate unit = false) :
    escape? ('u' :: s) = some (Utf8.charOfCode unit, after) := by
  simp [escape?, h, hhigh]

theorem escape?_pair {s after behind : List Char} {high low : Nat}
    (h : codeUnit? s = some (high, after)) (hhigh : isHighSurrogate high = true)
    (hlow : lowUnit? after = some (low, behind)) :
    escape? ('u' :: s) = some (pairChar high low, behind) := by
  simp [escape?, h, hhigh, hlow]

theorem lowUnit?_of_codeUnit? {s behind : List Char} {low : Nat}
    (h : codeUnit? s = some (low, behind)) (hlow : isLowSurrogate low = true) :
    lowUnit? ('\\' :: 'u' :: s) = some (low, behind) := by
  simp [lowUnit?, h, hlow]

/-- A character of the basic plane is read back from its code unit. -/
theorem escape?_basic {c : Char} (h : c.toNat < 0x10000) (rest : List Char) :
    escape? ('u' :: (hexPadded 4 c.toNat ++ rest)) = some (c, rest) := by
  have hhigh : isHighSurrogate c.toNat = false := by
    have := Utf8.toNat_lt_or_gt c
    unfold isHighSurrogate
    rw [Bool.and_eq_false_iff, decide_eq_false_iff_not, decide_eq_false_iff_not]
    omega
  rw [escape?_unit (codeUnit?_hexPadded h rest) hhigh, Utf8.charOfCode_toNat]

/-- Any other character is read back from its pair of code units. -/
theorem escape?_beyond {c : Char} (h : 0x10000 ≤ c.toNat) (rest : List Char) :
    escape? ('u' :: (hexPadded 4 (0xD800 + (c.toNat - 0x10000) / 0x400) ++
      ('\\' :: 'u' :: (hexPadded 4 (0xDC00 + (c.toNat - 0x10000) % 0x400) ++ rest)))) =
        some (c, rest) := by
  have hlt : c.toNat < 0x110000 := by
    have := Utf8.toNat_lt_or_gt c
    omega
  obtain ⟨high, hhigh⟩ : ∃ high, high = 0xD800 + (c.toNat - 0x10000) / 0x400 := ⟨_, rfl⟩
  obtain ⟨low, hlow⟩ : ∃ low, low = 0xDC00 + (c.toNat - 0x10000) % 0x400 := ⟨_, rfl⟩
  rw [← hhigh, ← hlow]
  have hisHigh : isHighSurrogate high = true := by
    unfold isHighSurrogate
    rw [Bool.and_eq_true, decide_eq_true_iff, decide_eq_true_iff]
    omega
  have hisLow : isLowSurrogate low = true := by
    unfold isLowSurrogate
    rw [Bool.and_eq_true, decide_eq_true_iff, decide_eq_true_iff]
    omega
  have hpair : pairChar high low = c := by
    unfold pairChar
    rw [show 0x10000 + (high - 0xD800) * 0x400 + (low - 0xDC00) = c.toNat by omega,
      Char.ofNat_toNat]
  rw [escape?_pair (codeUnit?_hexPadded (by omega) _) hisHigh
    (lowUnit?_of_codeUnit? (codeUnit?_hexPadded (by omega) rest) hisLow), hpair]

/-! ## Strings -/

/-- An escape is one character to the reader. -/
theorem stringBehind?_escape {s after : List Char} {c : Char} (h : escape? s = some (c, after))
    (fuel : Nat) :
    stringBehind? (fuel + 1) ('\\' :: s) =
      (stringBehind? fuel after).map fun (inner, behind) => (c :: inner, behind) := by
  rw [stringBehind?, if_neg (by decide), if_pos rfl, h, Option.bind_eq_bind, Option.bind_some]
  dsimp only
  cases stringBehind? fuel after with
  | none => rfl
  | some found => rfl

/-- The reader of strings takes a written character off and gives it back. -/
theorem stringBehind?_stringChar (ascii : Bool) (c : Char) (fuel : Nat) (rest : List Char) :
    stringBehind? (fuel + 1) (stringChar ascii c ++ rest) =
      (stringBehind? fuel rest).map fun (inner, behind) => (c :: inner, behind) := by
  unfold stringChar
  split
  · next h => rw [h]; exact stringBehind?_escape rfl fuel
  split
  · next h => rw [h]; exact stringBehind?_escape rfl fuel
  split
  · next h => rw [h]; exact stringBehind?_escape rfl fuel
  split
  · next h => rw [h]; exact stringBehind?_escape rfl fuel
  split
  · next h => rw [h]; exact stringBehind?_escape rfl fuel
  split
  · next h => rw [h]; exact stringBehind?_escape rfl fuel
  split
  · next h => rw [h]; exact stringBehind?_escape rfl fuel
  split
  · next h => exact stringBehind?_escape (escape?_basic (by omega) rest) fuel
  split
  · unfold escapedUnits
    dsimp only
    split
    · next h => exact stringBehind?_escape (escape?_basic h rest) fuel
    · next h =>
      have hunits := escape?_beyond (c := c) (by omega) rest
      unfold escapedUnit
      rw [List.append_assoc, List.cons_append, List.cons_append, List.cons_append,
        List.cons_append]
      exact stringBehind?_escape hunits fuel
  · next hquote hslash _ _ _ _ _ hcontrol _ =>
    rw [List.singleton_append, stringBehind?, if_neg hquote, if_neg hslash, if_neg hcontrol]
    cases stringBehind? fuel rest with
    | none => rfl
    | some found => rfl

theorem stringBehind?_stringText (ascii : Bool) {s : List Char} {fuel : Nat}
    (hfuel : s.length < fuel) (rest : List Char) :
    stringBehind? fuel (s.flatMap (stringChar ascii) ++ '\x22' :: rest) = some (s, rest) := by
  induction s generalizing fuel with
  | nil =>
    cases fuel with
    | zero => cases hfuel
    | succ n => rfl
  | cons c s ih =>
    cases fuel with
    | zero => cases hfuel
    | succ n =>
      rw [List.flatMap_cons, List.append_assoc, stringBehind?_stringChar,
        ih (Nat.lt_of_succ_lt_succ hfuel)]
      rfl

theorem stringChar_ne_nil (ascii : Bool) (c : Char) : stringChar ascii c ≠ [] := by
  unfold stringChar escapedUnits
  dsimp only
  repeat' split
  all_goals exact List.cons_ne_nil _ _

theorem length_le_flatMap_stringChar (ascii : Bool) (s : List Char) :
    s.length ≤ (s.flatMap (stringChar ascii)).length := by
  induction s with
  | nil => exact Nat.le_refl _
  | cons c s ih =>
    have hchar := List.length_pos_iff.2 (stringChar_ne_nil ascii c)
    rw [List.flatMap_cons, List.length_append, List.length_cons]
    omega

end ModAlmanac.Json
