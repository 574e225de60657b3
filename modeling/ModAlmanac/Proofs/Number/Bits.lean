import Mathlib
import ModAlmanac.Number.Binary64

/-!
# Doubles and their bits

A double is nothing but its bits: `ofBits_toBits`. The logic reads a double by unpacking its bits
into a sign, a significand and an exponent and packing them again, and all undefined numbers have
one bit pattern, so that packing what was unpacked gives the bits back (`pack_unpack`).

For the reader of numerals this says that a finite double is determined by its sign and its
magnitude (`ofMagnitude_magnitudeOf`), and that a double without parts is one of three
(`eq_of_parts?_eq_none`).
-/

namespace ModAlmanac.Number

open Float.Model (Format UnpackedFloat)
open Float.Model.UnpackedFloat

/-! ## Fields of a bit pattern -/

theorem toNat_append {v w : Nat} (a : BitVec v) (b : BitVec w) :
    (a ++ b).toNat = a.toNat * 2 ^ w + b.toNat := by
  rw [BitVec.toNat_append, ← Nat.shiftLeft_add_eq_or_of_lt b.isLt, Nat.shiftLeft_eq]

theorem toNat_unpackMantissa (b : BitVec Format.binary64.numBits) :
    (unpackMantissa b).toNat = b.toNat % 2 ^ 52 := by
  simp [unpackMantissa, BitVec.extractLsb]

theorem toNat_unpackExponent (b : BitVec Format.binary64.numBits) :
    (unpackExponent b).toNat = b.toNat / 2 ^ 52 % 2 ^ 11 := by
  simp [unpackExponent, BitVec.extractLsb, Nat.shiftRight_eq_div_pow]

theorem toNat_unpackSign (b : BitVec Format.binary64.numBits) :
    (unpackSign b).toNat = b.toNat / 2 ^ 63 := by
  have h : b.toNat < 2 ^ 64 := b.isLt
  simp [unpackSign, BitVec.extractLsb, Nat.shiftRight_eq_div_pow]
  omega

/-- The number that packed fields make: each field in its place. -/
theorem toNat_packComponents (s : Sign) (e : BitVec 11) (m : BitVec 52) :
    (packComponents .binary64 s e m).toNat =
      s.toBitVec.toNat * 2 ^ 63 + e.toNat * 2 ^ 52 + m.toNat := by
  have h : (packComponents .binary64 s e m).toNat = ((s.toBitVec ++ e) ++ m).toNat := rfl
  rw [h, toNat_append, toNat_append]
  omega

theorem toBitVec_ofBitVec (v : BitVec 1) : (Sign.ofBitVec v).toBitVec = v := by
  revert v
  decide

/-- The fields of a bit pattern, packed again, are the bit pattern. -/
theorem packComponents_unpack (b : BitVec Format.binary64.numBits) :
    packComponents .binary64 (Sign.ofBitVec (unpackSign b)) (unpackExponent b)
      (unpackMantissa b) = b := by
  have hb : b.toNat < 2 ^ 64 := b.isLt
  apply BitVec.eq_of_toNat_eq
  rw [toNat_packComponents, toBitVec_ofBitVec, toNat_unpackSign, toNat_unpackMantissa]
  have he := toNat_unpackExponent b
  omega

/-! ## Packing what was unpacked -/

/-- A fraction without the leading bit is packed as a subnormal number. -/
theorem pack_subnormal (s : Sign) {m : BitVec 52} (h : 0 < m.toNat) :
    UnpackedFloat.pack .binary64 (.finite s m.toNat (-1074) h) =
      packComponents .binary64 s 0#11 m := by
  have hlog : m.toNat.log2 < 52 := (Nat.log2_lt (by omega)).2 m.isLt
  have hbits : Format.binary64.mantissaBits = 53 := rfl
  have hexp : ((-1074 : Int) + (Format.binary64.exponentBias : Nat) +
      (Format.binary64.mantissaBitsWithoutImplicit : Nat)).toNat = 1 := by decide
  simp only [UnpackedFloat.pack, hexp]
  rw [if_neg (by decide), if_neg (by omega), BitVec.ofNat_toNat, BitVec.setWidth_eq]

/-- A fraction with the leading bit is packed without it. -/
theorem pack_normal (s : Sign) {e : BitVec 11} {m : BitVec 52} (hinf : e ≠ -1#11)
    (h : 0 < (1#1 ++ m).toNat) :
    UnpackedFloat.pack .binary64 (.finite s (1#1 ++ m).toNat ((e.toNat : Int) - 1075) h) =
      packComponents .binary64 s e m := by
  have hm := m.isLt
  have he := e.isLt
  have happ : (1#1 ++ m).toNat = 2 ^ 52 + m.toNat := toNat_append 1#1 m
  have hlog : (2 ^ 52 + m.toNat).log2 = 52 :=
    (Nat.log2_eq_iff (by omega)).2 ⟨by omega, by omega⟩
  have hbits : Format.binary64.mantissaBits = 53 := rfl
  have hbias : ((Format.binary64.exponentBias : Nat) : Int) = 1023 := rfl
  have hwidth : ((Format.binary64.mantissaBitsWithoutImplicit : Nat) : Int) = 52 := rfl
  have hexp : ((e.toNat : Int) - 1075 + (Format.binary64.exponentBias : Nat) +
      (Format.binary64.mantissaBitsWithoutImplicit : Nat)).toNat = e.toNat := by
    rw [hbias, hwidth]
    omega
  have hlt : e.toNat ≠ 2047 := fun hc => hinf (BitVec.eq_of_toNat_eq (by rw [hc]; rfl))
  simp only [UnpackedFloat.pack, happ, hlog, hexp]
  rw [if_neg (by omega), if_pos hbits.symm, BitVec.ofNat_toNat, BitVec.setWidth_eq]
  congr 1
  apply BitVec.eq_of_toNat_eq
  rw [BitVec.toNat_ofNat]
  omega

/-- Packing the unpacked bits of a double gives the bits. -/
theorem pack_unpack {b : BitVec Format.binary64.numBits} (hb : Format.binary64.Valid b) :
    UnpackedFloat.pack .binary64 (UnpackedFloat.unpack .binary64 b) = b := by
  have hfields := packComponents_unpack b
  have hbias : ((Format.binary64.exponentBias : Nat) : Int) +
      (Format.binary64.mantissaBitsWithoutImplicit : Nat) = 1075 := by decide
  simp only [UnpackedFloat.unpack, hbias]
  split
  · next hinf =>
    rw [hinf] at hfields
    split
    · next hzero =>
      rw [hzero] at hfields
      exact hfields
    · next hzero => exact (hb.eq_packedNaN hinf hzero).symm
  · next hinf =>
    split
    · next hsub =>
      rw [hsub] at hfields
      split
      · next hzero =>
        rw [hzero] at hfields
        exact hfields
      · next hzero =>
        have hexp : ((unpackExponent b).toNat : Int) - 1075 + 1 = -1074 := by
          rw [hsub]
          rfl
        simp only [hexp]
        rw [pack_subnormal]
        exact hfields
    · rw [pack_normal _ hinf]
      exact hfields

theorem ofBits_toBits (x : Float) : Float.ofBits x.toBits = x := by
  obtain ⟨bits, hvalid⟩ := x
  have h := pack_unpack hvalid
  simp only [Float.ofBits, Float.toBits, Float.Model.ofBits, Float.Model.pack, h]

theorem eq_of_toBits_eq {x y : Float} (h : x.toBits = y.toBits) : x = y := by
  rw [← ofBits_toBits x, h, ofBits_toBits]

/-! ## Finite doubles -/

/-- The bits of a double without its sign. -/
def magnitudeOf (x : Float) : Nat :=
  x.toBits.toNat % 2 ^ 63

theorem isNegative_iff (x : Float) : isNegative x = true ↔ 2 ^ 63 ≤ x.toBits.toNat :=
  decide_eq_true_iff

theorem parts?_eq_none_iff (x : Float) : parts? x = none ↔ magnitudeOf x / 2 ^ 52 = 2047 := by
  unfold parts? magnitudeOf
  dsimp only [Nat.pow_eq]
  split
  · next hfull => exact iff_of_true rfl hfull
  · next hfull =>
    split
    · exact iff_of_false (Option.some_ne_none _) hfull
    · exact iff_of_false (Option.some_ne_none _) hfull

/-- A double whose magnitude is in range is made of its sign and its magnitude. -/
theorem ofMagnitude_magnitudeOf {x : Float} (h : magnitudeOf x ≤ infiniteMagnitude) :
    ofMagnitude (isNegative x) (magnitudeOf x) = x := by
  have hlt : x.toBits.toNat < 2 ^ 64 := x.toBits.toNat_lt
  have hbits : (if isNegative x then 2 ^ 63 + magnitudeOf x else magnitudeOf x) =
      x.toBits.toNat := by
    unfold magnitudeOf
    split
    · next hn =>
      have := (isNegative_iff x).1 hn
      omega
    · next hn =>
      have := (isNegative_iff x).not.1 hn
      omega
  unfold ofMagnitude
  dsimp only [Nat.pow_eq]
  rw [Nat.min_eq_left h, hbits, UInt64.ofNat_toNat, ofBits_toBits]

/-! ## The other doubles -/

/-- The bits of a double as the logic unpacks them. -/
def bitsOf (x : Float) : BitVec Format.binary64.numBits :=
  x.toBits.toBitVec

theorem toNat_bitsOf (x : Float) : (bitsOf x).toNat = x.toBits.toNat :=
  x.toBits.toNat_toBitVec

theorem isNaN_iff (x : Float) :
    x.isNaN = true ↔ unpackExponent (bitsOf x) = -1#11 ∧ unpackMantissa (bitsOf x) ≠ 0#52 := by
  change (UnpackedFloat.unpack .binary64 (bitsOf x)).isNaN = true ↔ _
  simp only [UnpackedFloat.unpack]
  split
  · next hinf =>
    split
    · next hzero => simp [UnpackedFloat.isNaN, hzero]
    · next hzero => simp only [UnpackedFloat.isNaN, hinf, hzero, ne_eq, not_false_iff, and_self]
  · next hinf =>
    simp only [hinf, false_and, iff_false]
    split
    · split <;> simp [UnpackedFloat.isNaN]
    · simp [UnpackedFloat.isNaN]

/-- There is one undefined number. -/
theorem eq_of_isNaN {x : Float} (h : x.isNaN = true) : x = 0.0 / 0.0 := by
  obtain ⟨hinf, hzero⟩ := (isNaN_iff x).1 h
  have hnan : bitsOf x = packedNaN .binary64 := x.toModel.valid.eq_packedNaN hinf hzero
  have hbits : bitsOf (0.0 / 0.0) = packedNaN .binary64 := by decide
  apply eq_of_toBits_eq
  apply UInt64.eq_of_toBitVec_eq
  exact hnan.trans hbits.symm

/-- A double without parts that is not undefined is an infinity. -/
theorem eq_of_parts?_eq_none {x : Float} (h : parts? x = none) (hn : x.isNaN = false) :
    x = if isNegative x then -1.0 / 0.0 else 1.0 / 0.0 := by
  have hfield := (parts?_eq_none_iff x).1 h
  have hexp := toNat_unpackExponent (bitsOf x)
  have hman := toNat_unpackMantissa (bitsOf x)
  have hlt : x.toBits.toNat < 2 ^ 64 := x.toBits.toNat_lt
  rw [toNat_bitsOf] at hexp hman
  unfold magnitudeOf at hfield
  have hinf : unpackExponent (bitsOf x) = -1#11 := by
    apply BitVec.eq_of_toNat_eq
    have : (-1#11).toNat = 2047 := by decide
    omega
  have hzero : unpackMantissa (bitsOf x) = 0#52 := by
    refine Decidable.byContradiction fun hc => ?_
    have := (isNaN_iff x).2 ⟨hinf, hc⟩
    exact absurd (hn.symm.trans this) (by decide)
  rw [hzero] at hman
  have h0 : (0#52).toNat = 0 := rfl
  have hpos : (1.0 / 0.0 : Float).toBits.toNat = 0x7FF0000000000000 := by decide
  have hneg : (-1.0 / 0.0 : Float).toBits.toNat = 0xFFF0000000000000 := by decide
  apply eq_of_toBits_eq
  apply UInt64.toNat_inj.1
  split
  · next hs =>
    have := (isNegative_iff x).1 hs
    omega
  · next hs =>
    have := (isNegative_iff x).not.1 hs
    omega

end ModAlmanac.Number
