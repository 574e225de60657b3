/-!
Rounding to double precision in exact arithmetic. A magnitude is the bit pattern of a non-negative
double read as a natural number: magnitudes are ordered as the numbers they stand for, the finite
ones lie below `infiniteMagnitude`, and a ratio rounds to the nearest of them, a tie to the even one.
-/

namespace ModAlmanac.Number

/-- The integer nearest to a quotient; a tie goes to the even neighbour. -/
def roundDiv (num den : Nat) : Nat :=
  let q := num / den
  let r := num % den
  if 2 * r < den then q
  else if den < 2 * r then q + 1
  else q + q % 2

/-- Whether `2 ^ k ≤ num / den`. -/
def reachesPowerOfTwo (num den : Nat) (k : Int) : Bool :=
  if 0 ≤ k then den * Nat.pow 2 k.toNat ≤ num else den ≤ num * Nat.pow 2 (-k).toNat

/-- The greatest `k` with `2 ^ k ≤ num / den`, for positive numbers. -/
def ratioLog2 (num den : Nat) : Int :=
  let k : Int := (num.log2 : Int) - (den.log2 : Int)
  if reachesPowerOfTwo num den k then k else k - 1

/-- The magnitude of infinity. -/
def infiniteMagnitude : Nat := 2047 * Nat.pow 2 52

/-- The magnitude nearest to a ratio. From `infiniteMagnitude` on the ratio is out of range. -/
def nearestMagnitude (num den : Nat) : Nat :=
  if num = 0 then 0
  else
    let exponent := max (ratioLog2 num den - 52) (-1074)
    let significand :=
      if 0 ≤ exponent then roundDiv num (den * Nat.pow 2 exponent.toNat)
      else roundDiv (num * Nat.pow 2 (-exponent).toNat) den
    if significand < Nat.pow 2 52 then significand
    else (exponent + 1075).toNat * Nat.pow 2 52 + (significand - Nat.pow 2 52)

/-- The double with a sign and a magnitude; a magnitude out of range gives infinity. -/
def ofMagnitude (negative : Bool) (magnitude : Nat) : Float :=
  let bits := min magnitude infiniteMagnitude
  Float.ofBits (UInt64.ofNat (if negative then Nat.pow 2 63 + bits else bits))

/-- The double nearest to a signed ratio, unless it is out of range. -/
def nearest? (negative : Bool) (num den : Nat) : Option Float :=
  let magnitude := nearestMagnitude num den
  if magnitude < infiniteMagnitude then some (ofMagnitude negative magnitude) else none

/-- The double nearest to an integer, unless it is out of range. -/
def floatOfInt? (n : Int) : Option Float :=
  nearest? (n < 0) n.natAbs 1

/-- The double nearest to a quotient of integers, unless it is out of range. -/
def floatOfQuotient? (num den : Int) : Option Float :=
  nearest? ((num < 0) != (den < 0)) num.natAbs den.natAbs

/-- A finite double as `± significand * 2 ^ exponent`. -/
structure Parts where
  negative : Bool
  significand : Nat
  exponent : Int
  deriving Repr, DecidableEq

/-- The parts of a finite double; infinities and the undefined number have none. -/
def parts? (x : Float) : Option Parts :=
  let bits := x.toBits.toNat
  let negative : Bool := Nat.pow 2 63 ≤ bits
  let magnitude : Nat := bits % Nat.pow 2 63
  let field : Nat := magnitude / Nat.pow 2 52
  let fraction : Nat := magnitude % Nat.pow 2 52
  if field = 2047 then none
  else if field = 0 then some { negative, significand := fraction, exponent := -1074 }
  else
    some { negative, significand := Nat.pow 2 52 + fraction, exponent := (field : Int) - 1075 }

/-- Whether a double is negative, by its sign alone. -/
def isNegative (x : Float) : Bool :=
  Nat.pow 2 63 ≤ x.toBits.toNat

def Parts.truncated (p : Parts) : Int :=
  let size : Nat :=
    if 0 ≤ p.exponent then p.significand * Nat.pow 2 p.exponent.toNat
    else p.significand / Nat.pow 2 (-p.exponent).toNat
  if p.negative then -(size : Int) else size

def Parts.isIntegral (p : Parts) : Bool :=
  0 ≤ p.exponent || p.significand % Nat.pow 2 (-p.exponent).toNat == 0

def integer? (x : Float) : Option Int :=
  (parts? x).bind fun p => if p.isIntegral then some p.truncated else none

end ModAlmanac.Number
