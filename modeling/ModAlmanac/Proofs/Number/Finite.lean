import ModAlmanac.Number.Numeral
import ModAlmanac.Proofs.Number.Bits
import ModAlmanac.Proofs.Number.Range
import ModAlmanac.Proofs.Number.Shortest

/-!
# Finite doubles

The finite doubles are those with parts (`isFinite_eq_false_iff`). Rounding to the nearest double
gives a finite one or none (`isFinite_of_nearest?`), while a decimal numeral is read as an infinity
from the bound on: `isFinite_floatOfText?_iff` says so of the decimal that the numeral writes.
-/

namespace ModAlmanac.Number

open Float.Model (Format)
open Float.Model.UnpackedFloat
open Text

/-! ## Doubles with parts -/

theorem isFinite_iff (x : Float) : x.isFinite = true ↔ unpackExponent (bitsOf x) ≠ -1#11 := by
  change (Float.Model.UnpackedFloat.unpack .binary64 (bitsOf x)).isFinite = true ↔ _
  simp only [Float.Model.UnpackedFloat.unpack]
  split
  · next hinf =>
    refine iff_of_false ?_ (not_not.2 hinf)
    split <;> exact Bool.false_ne_true
  · next hinf =>
    refine iff_of_true ?_ hinf
    split
    · split <;> rfl
    · rfl

/-- A double is infinite or undefined exactly if it has no parts. -/
theorem isFinite_eq_false_iff (x : Float) : x.isFinite = false ↔ parts? x = none := by
  have hexp := toNat_unpackExponent (bitsOf x)
  have hlt : x.toBits.toNat < 2 ^ 64 := x.toBits.toNat_lt
  have hones : (-1#11).toNat = 2047 := by decide
  have hfield : unpackExponent (bitsOf x) = -1#11 ↔ magnitudeOf x / 2 ^ 52 = 2047 := by
    rw [← BitVec.toNat_inj, hones, hexp, toNat_bitsOf]
    unfold magnitudeOf
    omega
  rw [parts?_eq_none_iff, ← hfield, ← Bool.not_eq_true, isFinite_iff, Decidable.not_not]

/-! ## Rounded doubles -/

/-- A bit pattern that is no undefined number is the bits of a double. -/
theorem toBits_ofBits {bits : UInt64} (h : Format.binary64.Valid bits.toBitVec) :
    (Float.ofBits bits).toBits = bits :=
  UInt64.eq_of_toBitVec_eq (pack_unpack h)

theorem magnitudeOf_ofMagnitude (negative : Bool) (magnitude : Nat) :
    magnitudeOf (ofMagnitude negative magnitude) = min magnitude infiniteMagnitude := by
  have hmax : infiniteMagnitude = 2047 * 2 ^ 52 := rfl
  have hle := Nat.min_le_right magnitude infiniteMagnitude
  unfold ofMagnitude magnitudeOf
  dsimp only [Nat.pow_eq]
  generalize min magnitude infiniteMagnitude = size at hle
  have hlt : (if negative then 2 ^ 63 + size else size) < 2 ^ 64 := by
    split <;> omega
  have hmod : (if negative then 2 ^ 63 + size else size) % 2 ^ 63 = size := by
    split <;> omega
  generalize (if negative then 2 ^ 63 + size else size) = bits at hlt hmod
  have hbits : (UInt64.ofNat bits).toBitVec.toNat = bits := by
    rw [UInt64.toBitVec_ofNat', BitVec.toNat_ofNat, Nat.mod_eq_of_lt hlt]
  have hvalid : Format.binary64.Valid (UInt64.ofNat bits).toBitVec := by
    -- a fraction beside the exponent of infinity would make the magnitude too large
    refine ⟨fun hones hfraction => absurd (BitVec.eq_of_toNat_eq ?_) hfraction⟩
    have hexp := congrArg BitVec.toNat hones
    rw [toNat_unpackExponent, hbits, show (-1#11).toNat = 2047 by decide] at hexp
    rw [toNat_unpackMantissa, hbits, show (0#52).toNat = 0 by rfl]
    omega
  rw [toBits_ofBits hvalid, ← UInt64.toNat_toBitVec, hbits, hmod]

theorem isFinite_ofMagnitude {negative : Bool} {magnitude : Nat} :
    (ofMagnitude negative magnitude).isFinite = false ↔ infiniteMagnitude ≤ magnitude := by
  have hmax : infiniteMagnitude = 2047 * 2 ^ 52 := rfl
  rw [isFinite_eq_false_iff, parts?_eq_none_iff, magnitudeOf_ofMagnitude]
  omega

theorem isFinite_of_nearest? {negative : Bool} {num den : Nat} {x : Float}
    (h : nearest? negative num den = some x) : x.isFinite = true := by
  unfold nearest? at h
  dsimp only at h
  split at h
  · next hlt =>
    cases h
    rw [← Bool.not_eq_false, isFinite_ofMagnitude]
    omega
  · cases h

/-! ## Numerals -/

/-- Whether a decimal is as large as the bound. -/
def Decimal.OutOfRange (d : Decimal) : Prop :=
  overflowBound * d.den ≤ d.num

instance (d : Decimal) : Decidable d.OutOfRange :=
  inferInstanceAs (Decidable (overflowBound * d.den ≤ d.num))

/-- A decimal is read as infinity exactly if it is out of range. -/
theorem Decimal.infiniteMagnitude_le_magnitude_iff (d : Decimal) :
    infiniteMagnitude ≤ d.magnitude ↔ d.OutOfRange := by
  have hreading := d.reading_eq
  unfold Decimal.reading at hreading
  rw [Decimal.OutOfRange, ← infiniteMagnitude_le_iff d.den_pos]
  omega

/-- The sign and the decimal of a whole text that is a signed decimal numeral. -/
def signedDecimal? (s : List Char) : Option (Bool × Decimal) :=
  let (negative, unsigned) := splitSign s
  match decimalPart? true unsigned with
  | some (_, []) =>
    let whole := unsigned.takeWhile isDecimalDigit
    let behind := unsigned.dropWhile isDecimalDigit
    let fraction :=
      match behind with
      | '.' :: more => more.takeWhile isDecimalDigit
      | _ => []
    let power :=
      match (behind.dropWhile fun c => c ≠ 'e' && c ≠ 'E') with
      | _ :: exponent => signedDigitsValue exponent
      | [] => 0
    some (negative,
      { digits := digitsValue (whole ++ fraction), exponent := power - fraction.length })
  | _ => none

/-- A numeral is read as the double nearest to its decimal. -/
theorem floatOfText?_eq (s : List Char) :
    floatOfText? s = (signedDecimal? s).map fun p => ofMagnitude p.1 p.2.magnitude := by
  unfold floatOfText? signedDecimal?
  dsimp only
  rcases decimalPart? true (splitSign s).2 with _ | ⟨_, _ | ⟨_, _⟩⟩
  · rfl
  · rfl
  · rfl

/-- Whether a text is a numeral whose decimal is out of range. -/
def WritesOutOfRange (s : List Char) : Prop :=
  ∃ p, signedDecimal? s = some p ∧ p.2.OutOfRange

/-- A numeral is read as a double that is not finite exactly if it is out of range. -/
theorem isFinite_floatOfText?_iff {s : List Char} {x : Float} (h : floatOfText? s = some x) :
    x.isFinite = false ↔ WritesOutOfRange s := by
  rw [floatOfText?_eq] at h
  obtain ⟨p, hp, rfl⟩ := Option.map_eq_some_iff.1 h
  rw [isFinite_ofMagnitude, Decimal.infiniteMagnitude_le_magnitude_iff]
  constructor
  · intro hrange
    exact ⟨p, hp, hrange⟩
  · rintro ⟨q, hq, hrange⟩
    cases hp.symm.trans hq
    exact hrange

end ModAlmanac.Number
