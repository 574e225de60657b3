import Mathlib
import ModAlmanac.Number.Decimal
import ModAlmanac.Proofs.Number.Bits

/-!
# Rounding to the nearest magnitude

`nearestMagnitude` works on a numerator and a denominator. What it gives depends on their quotient
alone (`nearestMagnitude_mul`), since it is put together from two things that do: the exponent of
the unit in which the quotient is measured, which is a binary logarithm (`ratioLog2_eq`), and the
number of units rounded (`inUnits`).

Three cases are used by the readers and printers of numerals: a quotient that is a double's exact
value rounds to that double (`nearestMagnitude_ratio`), a huge one is out of range
(`infiniteMagnitude_le`), and a tiny one rounds to zero (`nearestMagnitude_eq_zero`).
-/

namespace ModAlmanac.Number

/-! ## The binary logarithm of a quotient -/

theorem reachesPowerOfTwo_iff {num den : Nat} (hden : 0 < den) (k : Int) :
    reachesPowerOfTwo num den k = true ↔ (2 : ℚ) ^ k ≤ num / den := by
  have hd : (0 : ℚ) < den := by exact_mod_cast hden
  rw [le_div_iff₀ hd]
  unfold reachesPowerOfTwo
  split
  · next h =>
    obtain ⟨n, rfl⟩ := Int.eq_ofNat_of_zero_le h
    rw [decide_eq_true_iff, zpow_natCast, mul_comm]
    exact_mod_cast Iff.rfl
  · next h =>
    obtain ⟨n, hn⟩ := Int.eq_ofNat_of_zero_le (show 0 ≤ -k by omega)
    have hp : (0 : ℚ) < 2 ^ n := by positivity
    rw [decide_eq_true_iff, hn, Int.toNat_natCast, show k = -(n : Int) by omega, zpow_neg,
      zpow_natCast, inv_mul_le_iff₀ hp, mul_comm]
    exact_mod_cast Iff.rfl

/-- A quotient lies between two powers of two that the lengths of its parts give. -/
theorem zpow_le_div_lt_zpow {num den : Nat} (hnum : 0 < num) (hden : 0 < den) :
    (2 : ℚ) ^ ((num.log2 : Int) - den.log2 - 1) ≤ num / den ∧
      (num / den : ℚ) < 2 ^ ((num.log2 : Int) - den.log2 + 1) := by
  have hd : (0 : ℚ) < den := by exact_mod_cast hden
  have htwo : (2 : ℚ) ≠ 0 := by norm_num
  have hpos : ∀ k : Int, (0 : ℚ) ≤ 2 ^ k := fun k => zpow_nonneg (by norm_num) k
  have hpow : ∀ n : Nat, ((2 ^ n : Nat) : ℚ) = 2 ^ (n : Int) := fun n => by
    rw [zpow_natCast]
    push_cast
    rfl
  constructor
  · have h1 : ((2 ^ num.log2 : Nat) : ℚ) ≤ num := by exact_mod_cast Nat.log2_self_le hnum.ne'
    have h2 : (den : ℚ) ≤ ((2 ^ (den.log2 + 1) : Nat) : ℚ) := by
      exact_mod_cast Nat.lt_log2_self.le
    rw [le_div_iff₀ hd]
    calc (2 : ℚ) ^ ((num.log2 : Int) - den.log2 - 1) * den
        ≤ 2 ^ ((num.log2 : Int) - den.log2 - 1) * ((2 ^ (den.log2 + 1) : Nat) : ℚ) :=
          mul_le_mul_of_nonneg_left h2 (hpos _)
      _ = ((2 ^ num.log2 : Nat) : ℚ) := by
          rw [hpow, hpow, ← zpow_add₀ htwo]
          congr 1
          omega
      _ ≤ num := h1
  · have h1 : (num : ℚ) < ((2 ^ (num.log2 + 1) : Nat) : ℚ) := by exact_mod_cast Nat.lt_log2_self
    have h2 : ((2 ^ den.log2 : Nat) : ℚ) ≤ den := by exact_mod_cast Nat.log2_self_le hden.ne'
    rw [div_lt_iff₀ hd]
    calc (num : ℚ) < ((2 ^ (num.log2 + 1) : Nat) : ℚ) := h1
      _ = 2 ^ ((num.log2 : Int) - den.log2 + 1) * ((2 ^ den.log2 : Nat) : ℚ) := by
          rw [hpow, hpow, ← zpow_add₀ htwo]
          congr 1
          omega
      _ ≤ 2 ^ ((num.log2 : Int) - den.log2 + 1) * den := mul_le_mul_of_nonneg_left h2 (hpos _)

/-- The greatest power of two that a quotient reaches. -/
theorem ratioLog2_eq {num den : Nat} (hnum : 0 < num) (hden : 0 < den) :
    ratioLog2 num den = Int.log 2 (num / den : ℚ) := by
  have hq : (0 : ℚ) < num / den := div_pos (by exact_mod_cast hnum) (by exact_mod_cast hden)
  have hle : ∀ k : Int, (2 : ℚ) ^ k ≤ num / den ↔ k ≤ Int.log 2 (num / den : ℚ) :=
    fun k => Int.zpow_le_iff_le_log (b := 2) one_lt_two hq
  have hlt : ∀ k : Int, (num / den : ℚ) < 2 ^ k ↔ Int.log 2 (num / den : ℚ) < k :=
    fun k => Int.lt_zpow_iff_log_lt (b := 2) one_lt_two hq
  obtain ⟨hlow, hhigh⟩ := zpow_le_div_lt_zpow hnum hden
  rw [hle] at hlow
  rw [hlt] at hhigh
  have hreach := @reachesPowerOfTwo_iff num den hden ((num.log2 : Int) - den.log2)
  rw [hle] at hreach
  unfold ratioLog2
  dsimp only
  split
  · next h =>
    have := hreach.1 h
    omega
  · next h =>
    have : ¬(num.log2 : Int) - den.log2 ≤ Int.log 2 (num / den : ℚ) := fun hc => h (hreach.2 hc)
    omega

/-- The binary logarithm against a difference of two exponents, in natural numbers. -/
theorem ratioLog2_lt_iff {num den : Nat} (hnum : 0 < num) (hden : 0 < den) (a b : Nat) :
    ratioLog2 num den < (a : Int) - b ↔ num * 2 ^ b < den * 2 ^ a := by
  have hd : (0 : ℚ) < den := by exact_mod_cast hden
  have hq : (0 : ℚ) < num / den := div_pos (by exact_mod_cast hnum) hd
  have hb : (0 : ℚ) < 2 ^ b := by positivity
  rw [ratioLog2_eq hnum hden, ← Int.lt_zpow_iff_log_lt (b := 2) one_lt_two hq, div_lt_iff₀ hd,
    Nat.cast_ofNat, zpow_sub₀ two_ne_zero, zpow_natCast, zpow_natCast, div_mul_eq_mul_div,
    lt_div_iff₀ hb, mul_comm ((2 : ℚ) ^ a)]
  exact_mod_cast Iff.rfl

theorem le_ratioLog2_iff {num den : Nat} (hnum : 0 < num) (hden : 0 < den) (a b : Nat) :
    (a : Int) - b ≤ ratioLog2 num den ↔ den * 2 ^ a ≤ num * 2 ^ b := by
  rw [← not_lt, ratioLog2_lt_iff hnum hden, not_lt]

theorem pow_le_iff_le_ratioLog2 {num den : Nat} (hnum : 0 < num) (hden : 0 < den) (n : Nat) :
    den * 2 ^ n ≤ num ↔ (n : Int) ≤ ratioLog2 num den := by
  have h := le_ratioLog2_iff hnum hden n 0
  rw [Nat.pow_zero, Nat.mul_one, Nat.cast_zero, sub_zero] at h
  exact h.symm

/-! ## Rounding in units -/

/-- The exponent of the unit in which a quotient is measured: 53 digits of it are kept, and no unit
is smaller than that of the least double. -/
def unitExponent (num den : Nat) : Int :=
  max (ratioLog2 num den - 52) (-1074)

/-- A quotient in units `2 ^ e`, rounded. -/
def inUnits (num den : Nat) (e : Int) : Nat :=
  roundDiv (num * 2 ^ (-e).toNat) (den * 2 ^ e.toNat)

def magnitudeOfUnits (e : Int) (units : Nat) : Nat :=
  if units < 2 ^ 52 then units else (e + 1075).toNat * 2 ^ 52 + (units - 2 ^ 52)

theorem nearestMagnitude_eq {num : Nat} (hnum : 0 < num) (den : Nat) :
    nearestMagnitude num den =
      magnitudeOfUnits (unitExponent num den) (inUnits num den (unitExponent num den)) := by
  have hunits : ∀ e : Int, (if 0 ≤ e then roundDiv num (den * 2 ^ e.toNat)
      else roundDiv (num * 2 ^ (-e).toNat) den) = inUnits num den e := by
    intro e
    unfold inUnits
    split
    · next h => rw [show (-e).toNat = 0 by omega, Nat.pow_zero, Nat.mul_one]
    · next h => rw [show e.toNat = 0 by omega, Nat.pow_zero, Nat.mul_one]
  unfold nearestMagnitude magnitudeOfUnits
  rw [if_neg hnum.ne']
  dsimp only [Nat.pow_eq]
  rw [hunits]
  rfl

theorem roundDiv_mul {c : Nat} (hc : 0 < c) (num den : Nat) :
    roundDiv (num * c) (den * c) = roundDiv num den := by
  unfold roundDiv
  dsimp only
  rw [Nat.mul_div_mul_right _ _ hc, Nat.mul_mod_mul_right, ← Nat.mul_assoc]
  simp only [Nat.mul_lt_mul_right hc]

theorem roundDiv_mul_self {den : Nat} (hden : 0 < den) (q : Nat) : roundDiv (q * den) den = q := by
  unfold roundDiv
  dsimp only
  rw [Nat.mul_div_cancel _ hden, Nat.mul_mod_left, if_pos (by omega)]

theorem le_roundDiv {num den q : Nat} (hden : 0 < den) (h : q * den ≤ num) :
    q ≤ roundDiv num den := by
  have hq : q ≤ num / den := (Nat.le_div_iff_mul_le hden).2 h
  unfold roundDiv
  dsimp only
  split
  · exact hq
  · split <;> omega

theorem unitExponent_mul {num den c : Nat} (hnum : 0 < num) (hden : 0 < den) (hc : 0 < c) :
    unitExponent (num * c) (den * c) = unitExponent num den := by
  have hc' : (c : ℚ) ≠ 0 := by exact_mod_cast hc.ne'
  unfold unitExponent
  rw [ratioLog2_eq (Nat.mul_pos hnum hc) (Nat.mul_pos hden hc), ratioLog2_eq hnum hden]
  push_cast
  rw [mul_div_mul_right _ _ hc']

theorem inUnits_mul {c : Nat} (hc : 0 < c) (num den : Nat) (e : Int) :
    inUnits (num * c) (den * c) e = inUnits num den e := by
  unfold inUnits
  rw [Nat.mul_right_comm num, Nat.mul_right_comm den, roundDiv_mul hc]

theorem nearestMagnitude_zero (den : Nat) : nearestMagnitude 0 den = 0 :=
  if_pos rfl

/-- The nearest magnitude depends on the quotient alone. -/
theorem nearestMagnitude_mul {den c : Nat} (hden : 0 < den) (hc : 0 < c) (num : Nat) :
    nearestMagnitude (num * c) (den * c) = nearestMagnitude num den := by
  rcases Nat.eq_zero_or_pos num with rfl | hnum
  · rw [Nat.zero_mul, nearestMagnitude_zero, nearestMagnitude_zero]
  · rw [nearestMagnitude_eq (Nat.mul_pos hnum hc), nearestMagnitude_eq hnum,
      unitExponent_mul hnum hden hc, inUnits_mul hc]

/-! ## Quotients out of range -/

/-- A quotient from `2 ^ 1024` on is out of range. -/
theorem infiniteMagnitude_le {num den : Nat} (hden : 0 < den) (h : den * 2 ^ 1024 ≤ num) :
    infiniteMagnitude ≤ nearestMagnitude num den := by
  have hnum : 0 < num := Nat.lt_of_lt_of_le (Nat.mul_pos hden (Nat.two_pow_pos _)) h
  have hle := pow_le_iff_le_ratioLog2 hnum hden
  have hlog := (hle 1024).1 h
  obtain ⟨n, hn⟩ := Int.eq_ofNat_of_zero_le (show 0 ≤ ratioLog2 num den by omega)
  have hnum' := (hle n).2 hn.ge
  -- the unit is that of the 53 leading digits, so at least `2 ^ 52` of them are counted
  have hunit : unitExponent num den = ((n - 52 : Nat) : Int) := by
    unfold unitExponent
    omega
  have hcount : 2 ^ 52 ≤ inUnits num den ((n - 52 : Nat) : Int) := by
    unfold inUnits
    apply le_roundDiv (Nat.mul_pos hden (Nat.two_pow_pos _))
    have hsplit : (2 : Nat) ^ 52 * 2 ^ (n - 52) = 2 ^ n := by
      rw [← Nat.pow_add]
      congr 1
      omega
    rw [Int.toNat_natCast, show (-((n - 52 : Nat) : Int)).toNat = 0 by omega, Nat.pow_zero,
      Nat.mul_one, Nat.mul_left_comm, hsplit]
    exact hnum'
  rw [nearestMagnitude_eq hnum, hunit]
  unfold magnitudeOfUnits infiniteMagnitude
  rw [Nat.pow_eq, if_neg (by omega)]
  have : 2047 ≤ (((n - 52 : Nat) : Int) + 1075).toNat := by omega
  omega

/-- A quotient below half of the least double rounds to zero. -/
theorem nearestMagnitude_eq_zero {num den : Nat} (h : 2 * (num * 2 ^ 1074) < den) :
    nearestMagnitude num den = 0 := by
  rcases Nat.eq_zero_or_pos num with rfl | hnum
  · exact nearestMagnitude_zero den
  have hden : 0 < den := by omega
  have hlog : ratioLog2 num den < (0 : Nat) - (1075 : Nat) := by
    have hpow : (2 : Nat) ^ 1075 = 2 * 2 ^ 1074 := by rw [← Nat.pow_succ']
    rw [ratioLog2_lt_iff hnum hden, Nat.pow_zero, Nat.mul_one, hpow, Nat.mul_left_comm]
    exact h
  have hunit : unitExponent num den = -1074 := by
    unfold unitExponent
    omega
  have hcount : inUnits num den (-1074) = 0 := by
    unfold inUnits roundDiv
    rw [show (-(-1074 : Int)).toNat = 1074 by rfl, show (-1074 : Int).toNat = 0 by rfl,
      Nat.pow_zero, Nat.mul_one]
    dsimp only
    rw [Nat.mod_eq_of_lt (by omega), if_pos h]
    exact Nat.div_eq_of_lt (by omega)
  rw [nearestMagnitude_eq hnum, hunit, hcount]
  rfl

/-! ## Quotients that are doubles -/

/-- What the parts of a double satisfy: the significand has at most 53 digits, and it has fewer only
in the smallest unit. -/
structure Parts.IsNormal (p : Parts) : Prop where
  pos : 0 < p.significand
  lt : p.significand < 2 ^ 53
  le : -1074 ≤ p.exponent
  eq : p.significand < 2 ^ 52 → p.exponent = -1074

theorem Parts.ratio_eq (p : Parts) :
    p.ratio = (p.significand * 2 ^ p.exponent.toNat, 2 ^ (-p.exponent).toNat) := by
  unfold Parts.ratio
  split
  · next h => rw [Nat.pow_eq, show (-p.exponent).toNat = 0 by omega, Nat.pow_zero]
  · next h => rw [Nat.pow_eq, show p.exponent.toNat = 0 by omega, Nat.pow_zero, Nat.mul_one]

theorem Parts.ratioLog2_ratio {p : Parts} (hpos : 0 < p.significand) :
    ratioLog2 p.ratio.1 p.ratio.2 = p.significand.log2 + p.exponent := by
  rw [Parts.ratio_eq]
  dsimp only
  have hnum := Nat.mul_pos hpos (Nat.two_pow_pos p.exponent.toNat)
  have hden := Nat.two_pow_pos (-p.exponent).toNat
  have hscale : ∀ n : Nat, 2 ^ (-p.exponent).toNat * 2 ^ (n + p.exponent.toNat) =
      2 ^ n * (2 ^ p.exponent.toNat * 2 ^ (-p.exponent).toNat) := fun n => by ring
  have hpow := Nat.mul_pos (Nat.two_pow_pos p.exponent.toNat) hden
  have hlow := (le_ratioLog2_iff hnum hden (p.significand.log2 + p.exponent.toNat)
    (-p.exponent).toNat).2 (by
      rw [hscale, Nat.mul_assoc]
      exact Nat.mul_le_mul_right _ (Nat.log2_self_le hpos.ne'))
  have hhigh := (ratioLog2_lt_iff hnum hden (p.significand.log2 + 1 + p.exponent.toNat)
    (-p.exponent).toNat).2 (by
      rw [hscale, Nat.mul_assoc]
      exact Nat.mul_lt_mul_of_pos_right Nat.lt_log2_self hpow)
  omega

/-- The exact value of a double rounds to the double. -/
theorem nearestMagnitude_ratio {p : Parts} (h : p.IsNormal) :
    nearestMagnitude p.ratio.1 p.ratio.2 = magnitudeOfUnits p.exponent p.significand := by
  have hpos := h.pos
  have hunit : unitExponent p.ratio.1 p.ratio.2 = p.exponent := by
    have hlt := h.lt
    have hle := h.le
    have heq := h.eq
    unfold unitExponent
    rw [Parts.ratioLog2_ratio hpos]
    rcases Nat.lt_or_ge p.significand (2 ^ 52) with hs | hs
    · have : p.significand.log2 < 52 := (Nat.log2_lt hpos.ne').2 hs
      have := heq hs
      omega
    · have : p.significand.log2 = 52 := (Nat.log2_eq_iff hpos.ne').2 ⟨hs, hlt⟩
      omega
  have hcount : inUnits p.ratio.1 p.ratio.2 p.exponent = p.significand := by
    unfold inUnits
    rw [Parts.ratio_eq, Nat.mul_assoc, Nat.mul_comm (2 ^ p.exponent.toNat)]
    exact roundDiv_mul_self (Nat.mul_pos (Nat.two_pow_pos _) (Nat.two_pow_pos _)) _
  have hnum : 0 < p.ratio.1 := by
    rw [Parts.ratio_eq]
    exact Nat.mul_pos hpos (Nat.two_pow_pos _)
  rw [nearestMagnitude_eq hnum, hunit, hcount]

end ModAlmanac.Number
