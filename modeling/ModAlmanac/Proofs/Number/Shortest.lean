import ModAlmanac.Proofs.Number.Rounding

/-!
# Decimals that are read back as a double

Reading a decimal gives the magnitude nearest to it, as far as that is in range
(`Decimal.reading_eq`). Exponents far out of range are settled by size alone, and rightly so
(`le_nearestMagnitude_of_large`, `nearestMagnitude_of_small`). A decimal written with more zeros is
read as the same double (`Decimal.reading_shift`).

Whatever decimal is chosen for a double, it is read back as the double
(`Parts.reading_shortest`): a neighbour on some grid is taken only if it is, and the exact expansion
is the double itself.
-/

namespace ModAlmanac.Number

/-! ## Reading a decimal -/

def Decimal.num (d : Decimal) : Nat :=
  d.digits * 10 ^ d.exponent.toNat

def Decimal.den (d : Decimal) : Nat :=
  10 ^ (-d.exponent).toNat

theorem Decimal.den_pos (d : Decimal) : 0 < d.den :=
  Nat.pow_pos (by decide)

/-- The magnitude that a decimal is read as: that of infinity for all that is out of range. -/
def Decimal.reading (d : Decimal) : Nat :=
  min d.magnitude infiniteMagnitude

theorem nearestMagnitude_congr {num den num' den' : Nat} (hden : 0 < den) (hden' : 0 < den')
    (h : num * den' = num' * den) : nearestMagnitude num den = nearestMagnitude num' den' := by
  rw [← nearestMagnitude_mul hden hden' num, ← nearestMagnitude_mul hden' hden num', h,
    Nat.mul_comm den den']

theorem le_nearestMagnitude_of_large {d : Decimal} (hdigits : d.digits ≠ 0)
    (h : 400 < d.exponent) : infiniteMagnitude ≤ nearestMagnitude d.num d.den := by
  have hden : d.den = 1 := by
    unfold Decimal.den
    rw [show (-d.exponent).toNat = 0 by omega, Nat.pow_zero]
  have hsize : 2 ^ 1024 ≤ 10 ^ d.exponent.toNat :=
    calc (2 : Nat) ^ 1024 ≤ 10 ^ 400 := by decide +kernel
      _ ≤ 10 ^ d.exponent.toNat := Nat.pow_le_pow_right (by decide) (by omega)
  apply infiniteMagnitude_le d.den_pos
  rw [hden, Nat.one_mul]
  exact hsize.trans (Nat.le_mul_of_pos_left _ (Nat.pos_of_ne_zero hdigits))

theorem nearestMagnitude_of_small {d : Decimal}
    (h : d.exponent + (d.digits.log2 / 3 : Nat) < -400) : nearestMagnitude d.num d.den = 0 := by
  -- three binary digits are less than one decimal digit
  have hdig : d.digits < 10 ^ (d.digits.log2 / 3 + 1) :=
    calc d.digits < 2 ^ (d.digits.log2 + 1) := Nat.lt_log2_self
      _ ≤ 2 ^ (3 * (d.digits.log2 / 3 + 1)) := Nat.pow_le_pow_right (by decide) (by omega)
      _ = 8 ^ (d.digits.log2 / 3 + 1) := Nat.pow_mul 2 3 _
      _ ≤ 10 ^ (d.digits.log2 / 3 + 1) := Nat.pow_le_pow_left (by decide) _
  have hnum : d.num = d.digits := by
    unfold Decimal.num
    rw [show d.exponent.toNat = 0 by omega, Nat.pow_zero, Nat.mul_one]
  have hden : 10 ^ (d.digits.log2 / 3 + 1) * 10 ^ 400 ≤ d.den := by
    unfold Decimal.den
    rw [← Nat.pow_add]
    exact Nat.pow_le_pow_right (by decide) (by omega)
  have hhalf : 2 * 2 ^ 1074 ≤ 10 ^ 400 := by decide +kernel
  generalize 10 ^ 400 = scale at hden hhalf
  apply nearestMagnitude_eq_zero
  rw [hnum]
  calc 2 * (d.digits * 2 ^ 1074) = d.digits * (2 * 2 ^ 1074) := Nat.mul_left_comm _ _ _
    _ ≤ d.digits * scale := Nat.mul_le_mul_left _ hhalf
    _ < 10 ^ (d.digits.log2 / 3 + 1) * scale :=
        Nat.mul_lt_mul_of_pos_right hdig (by omega)
    _ ≤ d.den := hden

/-- A decimal is read as the nearest magnitude in range. -/
theorem Decimal.reading_eq (d : Decimal) :
    d.reading = min (nearestMagnitude d.num d.den) infiniteMagnitude := by
  unfold Decimal.reading Decimal.magnitude
  split
  · next h =>
    unfold Decimal.num
    rw [h, Nat.zero_mul, nearestMagnitude_zero]
  · next hdigits =>
    split
    · next h => rw [Nat.min_self, Nat.min_eq_right (le_nearestMagnitude_of_large hdigits h)]
    · split
      · next h => rw [nearestMagnitude_of_small h]
      · unfold Decimal.num Decimal.den
        split
        · next h => rw [Nat.pow_eq, show (-d.exponent).toNat = 0 by omega, Nat.pow_zero]
        · next h => rw [Nat.pow_eq, show d.exponent.toNat = 0 by omega, Nat.pow_zero, Nat.mul_one]

/-- Writing a decimal with more zeros does not change what it is read as. -/
theorem Decimal.reading_shift (digits n : Nat) (exponent : Int) :
    Decimal.reading { digits := digits * 10 ^ n, exponent := exponent - n } =
      Decimal.reading { digits, exponent } := by
  rw [Decimal.reading_eq, Decimal.reading_eq]
  congr 1
  apply nearestMagnitude_congr (Decimal.den_pos _) (Decimal.den_pos _)
  unfold Decimal.num Decimal.den
  dsimp only
  have hexp : n + (exponent - n).toNat + (-exponent).toNat =
      exponent.toNat + (-(exponent - n)).toNat := by omega
  rw [Nat.mul_assoc, Nat.mul_assoc, Nat.mul_assoc, ← Nat.pow_add, ← Nat.pow_add, ← Nat.pow_add,
    ← hexp, Nat.add_assoc]

/-- The sign and the reading of a decimal make the double. -/
theorem ofMagnitude_reading (negative : Bool) (d : Decimal) :
    ofMagnitude negative d.magnitude = ofMagnitude negative d.reading := by
  unfold ofMagnitude Decimal.reading
  rw [Nat.min_assoc, Nat.min_self]

/-! ## The decimal of a double -/

theorem neighbour?_magnitude {magnitude num den : Nat} {exponent : Int} {d : Decimal}
    (h : neighbour? magnitude num den exponent = some d) : d.magnitude = magnitude := by
  unfold neighbour? at h
  dsimp only at h
  split at h
  · next hboth =>
    rw [Bool.and_eq_true, decide_eq_true_iff, decide_eq_true_iff] at hboth
    split at h
    · cases h
      exact hboth.1
    · cases h
      exact hboth.2
  · split at h
    · next hlow =>
      cases h
      exact hlow
    · split at h
      · next hhigh =>
        cases h
        exact hhigh
      · cases h

theorem Parts.ratio_den_pos (p : Parts) : 0 < p.ratio.2 := by
  rw [Parts.ratio_eq]
  exact Nat.two_pow_pos _

/-- The exact expansion is read as the exact value. -/
theorem Parts.reading_expansion (p : Parts) :
    p.expansion.reading = min (nearestMagnitude p.ratio.1 p.ratio.2) infiniteMagnitude := by
  rw [Decimal.reading_eq]
  congr 1
  apply nearestMagnitude_congr (Decimal.den_pos _) p.ratio_den_pos
  rw [Parts.ratio_eq]
  unfold Parts.expansion Decimal.num Decimal.den
  dsimp only
  split
  · next h => simp [show (-p.exponent).toNat = 0 by omega]
  · next h =>
    dsimp only [Nat.pow_eq]
    rw [show p.exponent.toNat = 0 by omega, Nat.pow_zero, Nat.pow_zero, Nat.mul_one, Nat.mul_one,
      Nat.mul_assoc, ← Nat.mul_pow]

theorem shortestNeighbour?_magnitude {num den : Nat} {d : Decimal}
    (h : shortestNeighbour? num den = some d) : d.magnitude = nearestMagnitude num den := by
  obtain ⟨more, -, hmore⟩ := List.exists_of_findSome?_eq_some h
  exact neighbour?_magnitude hmore

/-- The decimal chosen for a double is read as the double's exact value. -/
theorem Parts.reading_shortest (p : Parts) :
    p.shortest.reading = min (nearestMagnitude p.ratio.1 p.ratio.2) infiniteMagnitude := by
  unfold Parts.shortest
  cases h : shortestNeighbour? p.ratio.1 p.ratio.2 with
  | none => exact p.reading_expansion
  | some d =>
    rw [Option.getD_some, Decimal.reading, shortestNeighbour?_magnitude h]

/-! ## Doubles and their parts -/

theorem parts?_eq_some {x : Float} {p : Parts} (h : parts? x = some p) :
    p.negative = isNegative x ∧ magnitudeOf x < infiniteMagnitude ∧
      (p.significand = 0 → magnitudeOf x = 0) ∧
      (p.significand ≠ 0 →
        p.IsNormal ∧ magnitudeOfUnits p.exponent p.significand = magnitudeOf x) := by
  have hmag : magnitudeOf x < 2 ^ 63 := Nat.mod_lt _ (by decide)
  unfold parts? at h
  dsimp only [Nat.pow_eq] at h
  rw [show x.toBits.toNat % 2 ^ 63 = magnitudeOf x from rfl] at h
  unfold infiniteMagnitude
  rw [Nat.pow_eq]
  split at h
  · cases h
  · split at h
    · next hfield =>
      cases h
      refine ⟨rfl, by omega, fun hzero => ?_, fun hpos => ⟨⟨?_, ?_, ?_, ?_⟩, ?_⟩⟩
      · dsimp only at hzero
        omega
      · exact Nat.pos_of_ne_zero hpos
      · dsimp only
        omega
      · exact Int.le_refl _
      · exact fun _ => rfl
      · unfold magnitudeOfUnits
        dsimp only
        rw [if_pos (by omega)]
        omega
    · next hfield =>
      cases h
      refine ⟨rfl, by omega, fun hzero => ?_, fun hpos => ⟨⟨?_, ?_, ?_, ?_⟩, ?_⟩⟩
      · dsimp only at hzero
        omega
      · exact Nat.pos_of_ne_zero hpos
      · dsimp only
        omega
      · dsimp only
        omega
      · intro hlt
        dsimp only at hlt
        omega
      · unfold magnitudeOfUnits
        dsimp only
        rw [if_neg (by omega)]
        omega

/-- The decimal chosen for a double above zero is read as its magnitude. -/
theorem reading_shortest_of_parts? {x : Float} {p : Parts} (h : parts? x = some p)
    (hpos : p.significand ≠ 0) : p.shortest.reading = magnitudeOf x := by
  obtain ⟨-, hlt, -, hnormal⟩ := parts?_eq_some h
  obtain ⟨hnorm, hmag⟩ := hnormal hpos
  rw [p.reading_shortest, nearestMagnitude_ratio hnorm, hmag, Nat.min_eq_left hlt.le]

theorem magnitudeOf_pos_of_parts? {x : Float} {p : Parts} (h : parts? x = some p)
    (hpos : p.significand ≠ 0) : 0 < magnitudeOf x := by
  obtain ⟨-, -, -, hnormal⟩ := parts?_eq_some h
  obtain ⟨hnorm, hmag⟩ := hnormal hpos
  have hle := hnorm.le
  rw [← hmag]
  unfold magnitudeOfUnits
  split <;> omega

theorem shortest_digits_ne_zero {x : Float} {p : Parts} (h : parts? x = some p)
    (hpos : p.significand ≠ 0) : p.shortest.digits ≠ 0 := by
  intro hzero
  have hread := reading_shortest_of_parts? h hpos
  have := magnitudeOf_pos_of_parts? h hpos
  unfold Decimal.reading Decimal.magnitude at hread
  rw [if_pos hzero] at hread
  omega

theorem ofMagnitude_of_parts? {x : Float} {p : Parts} (h : parts? x = some p) :
    ofMagnitude p.negative (magnitudeOf x) = x := by
  obtain ⟨hsign, hlt, -, -⟩ := parts?_eq_some h
  rw [hsign]
  exact ofMagnitude_magnitudeOf hlt.le

end ModAlmanac.Number
