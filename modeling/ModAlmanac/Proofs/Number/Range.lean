import Mathlib
import ModAlmanac.Proofs.Number.Rounding

/-!
# The range of doubles

A quotient is out of range from `overflowBound` on, the number half way between the largest double
and the power of two above it (`infiniteMagnitude_le_iff`). The proof goes by the binary logarithm
of the quotient: above 1023 the quotient is at least that power of two, below 1023 it is less than
half of it, and at 1023 the quotient is counted in units of `2 ^ 971`, where the bound is the tie
that goes to the even neighbour (`le_roundDiv_iff`).
-/

namespace ModAlmanac.Number

/-- The least number that has no nearest double. -/
def overflowBound : Nat := (2 ^ 54 - 1) * 2 ^ 970

theorem overflowBound_pos : 0 < overflowBound := by
  rw [overflowBound]
  generalize 970 = n
  exact Nat.mul_pos (by norm_num) (Nat.two_pow_pos n)

/-! ## Rounding from below and from above -/

/-- A quotient rounds to an even number or above it from half a unit below that number on. -/
theorem le_roundDiv_iff {num den q : Nat} (hden : 0 < den) (heven : q % 2 = 0) :
    q ≤ roundDiv num den ↔ 2 * q * den ≤ 2 * num + den := by
  have hsplit := Nat.div_add_mod num den
  have hrest := Nat.mod_lt num hden
  unfold roundDiv
  dsimp only
  generalize num / den = k at hsplit ⊢
  generalize num % den = r at hsplit hrest ⊢
  subst hsplit
  -- both sides compare `q` with `k` and `k + 1`, by the size of the rest
  have hbelow : q ≤ k → 2 * q * den ≤ 2 * (den * k) := fun h => by nlinarith
  have hnext : q = k + 1 → 2 * q * den = 2 * (den * k) + 2 * den := fun h => by subst h; ring
  have hbeyond : k + 2 ≤ q → 2 * (den * k) + 4 * den ≤ 2 * q * den := fun h => by nlinarith
  rcases Nat.lt_trichotomy q (k + 1) with h | h | h
  · have := hbelow (by omega)
    split
    · omega
    · split <;> omega
  · have := hnext h
    split
    · omega
    · split <;> omega
  · have := hbeyond h
    split
    · omega
    · split <;> omega

theorem roundDiv_le {num den q : Nat} (hden : 0 < den) (h : num < q * den) :
    roundDiv num den ≤ q := by
  have hq : num / den < q := (Nat.div_lt_iff_lt_mul hden).2 h
  unfold roundDiv
  dsimp only
  split
  · omega
  · split <;> omega

/-- A quotient counts at most `2 ^ 53` of its units. -/
theorem inUnits_le {num den : Nat} (hnum : 0 < num) (hden : 0 < den) :
    inUnits num den (unitExponent num den) ≤ 2 ^ 53 := by
  have hlog : ratioLog2 num den < unitExponent num den + 53 := by
    unfold unitExponent
    omega
  generalize unitExponent num den = e at hlog ⊢
  rw [show e + 53 = ((53 + e.toNat : Nat) : Int) - ((-e).toNat : Nat) by omega,
    ratioLog2_lt_iff hnum hden] at hlog
  refine roundDiv_le (Nat.mul_pos hden (Nat.two_pow_pos _)) ?_
  calc num * 2 ^ (-e).toNat
      < den * 2 ^ (53 + e.toNat) := hlog
    _ = 2 ^ 53 * (den * 2 ^ e.toNat) := by ring

/-! ## Out of range -/

theorem magnitudeOfUnits_lt {e : Int} {units : Nat} (he : e ≤ 970) (hunits : units ≤ 2 ^ 53) :
    magnitudeOfUnits e units < infiniteMagnitude := by
  unfold magnitudeOfUnits infiniteMagnitude
  rw [Nat.pow_eq]
  split <;> omega

theorem infiniteMagnitude_le_magnitudeOfUnits_iff (units : Nat) :
    infiniteMagnitude ≤ magnitudeOfUnits 971 units ↔ 2 ^ 53 ≤ units := by
  unfold magnitudeOfUnits infiniteMagnitude
  rw [Nat.pow_eq]
  split <;> omega

/-- A quotient is out of range exactly from the bound on. -/
theorem infiniteMagnitude_le_iff {num den : Nat} (hden : 0 < den) :
    infiniteMagnitude ≤ nearestMagnitude num den ↔ overflowBound * den ≤ num := by
  rcases Nat.eq_zero_or_pos num with rfl | hnum
  · rw [nearestMagnitude_zero]
    have hpos := Nat.mul_pos overflowBound_pos hden
    exact iff_of_false (by unfold infiniteMagnitude; rw [Nat.pow_eq]; omega) (by omega)
  have hlow := pow_le_iff_le_ratioLog2 hnum hden 1023
  have hhigh := pow_le_iff_le_ratioLog2 hnum hden 1024
  have hunit : (2 : Nat) ^ 971 = 2 * 2 ^ 970 := by rw [← Nat.pow_succ']
  have hpow : (2 : Nat) ^ 1023 = 2 ^ 53 * 2 ^ 970 := by rw [← Nat.pow_add]
  have hpow' : (2 : Nat) ^ 1024 = 2 ^ 54 * 2 ^ 970 := by rw [← Nat.pow_add]
  have hbound : overflowBound * den = (2 ^ 54 - 1) * (den * 2 ^ 970) := by
    rw [overflowBound, Nat.mul_assoc, Nat.mul_comm (2 ^ 970)]
  have hbig := @infiniteMagnitude_le num den hden
  have hpos : ∀ n, 0 < den * 2 ^ n := fun n => Nat.mul_pos hden (Nat.two_pow_pos n)
  rw [hpow, Nat.mul_left_comm] at hlow
  rw [hpow', Nat.mul_left_comm] at hhigh hbig
  rw [hbound]
  rcases Int.lt_trichotomy (ratioLog2 num den) 1023 with h | h | h
  · -- the quotient is less than the power of two below the bound
    have hsmall : unitExponent num den ≤ 970 := by
      unfold unitExponent
      omega
    have hless : num < 2 ^ 53 * (den * 2 ^ 970) := by
      by_contra hle
      have := hlow.1 (Nat.not_lt.1 hle)
      omega
    rw [nearestMagnitude_eq hnum]
    have := magnitudeOfUnits_lt hsmall (inUnits_le hnum hden)
    exact iff_of_false (by omega) (by omega)
  · have hmiddle : unitExponent num den = 971 := by
      unfold unitExponent
      omega
    have hscaled : den * 2 ^ 971 = 2 * (den * 2 ^ 970) := by rw [hunit, Nat.mul_left_comm]
    rw [nearestMagnitude_eq hnum, hmiddle, infiniteMagnitude_le_magnitudeOfUnits_iff]
    unfold inUnits
    rw [show (971 : Int).toNat = 971 by rfl, show (-971 : Int).toNat = 0 by rfl, Nat.pow_zero,
      Nat.mul_one, le_roundDiv_iff (hpos 971) (by norm_num), hscaled]
    generalize den * 2 ^ 970 = units
    omega
  · -- the quotient reaches the power of two above the bound
    have hreach := hhigh.2 (by omega)
    exact iff_of_true (hbig hreach) (by omega)

theorem nearest?_eq_none_iff {negative : Bool} {num den : Nat} (hden : 0 < den) :
    nearest? negative num den = none ↔ overflowBound * den ≤ num := by
  rw [← infiniteMagnitude_le_iff hden]
  unfold nearest?
  dsimp only
  split
  · next h => exact iff_of_false (fun hnone => by cases hnone) (Nat.not_le.2 h)
  · next h => exact iff_of_true rfl (Nat.not_lt.1 h)

/-- An integer has no nearest double exactly if it is as large as the bound. -/
theorem floatOfInt?_eq_none_iff {n : Int} : floatOfInt? n = none ↔ overflowBound ≤ n.natAbs := by
  rw [floatOfInt?, nearest?_eq_none_iff Nat.one_pos, Nat.mul_one]

/-- A quotient of integers has no nearest double exactly if it is as large as the bound. -/
theorem floatOfQuotient?_eq_none_iff {m n : Int} (hn : n ≠ 0) :
    floatOfQuotient? m n = none ↔ overflowBound * n.natAbs ≤ m.natAbs := by
  rw [floatOfQuotient?, nearest?_eq_none_iff (Int.natAbs_pos.2 hn)]

end ModAlmanac.Number
