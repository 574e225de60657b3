import ModAlmanac.Number.Binary64
import ModAlmanac.Text.Digit

/-!
Decimal numbers and doubles: the double nearest to a decimal, and the shortest decimal that is read
back as a given double. The shortest one is found by trying the two neighbours of the double on the
grids of one, two, up to seventeen digits in exact arithmetic.
-/

namespace ModAlmanac.Number

open Text

/-- The decimal `digits * 10 ^ exponent`. -/
structure Decimal where
  digits : Nat
  exponent : Int
  deriving Repr, DecidableEq

/-- The magnitude nearest to a decimal. Exponents far out of range are settled by size alone. -/
def Decimal.magnitude (d : Decimal) : Nat :=
  if d.digits = 0 then 0
  else if 400 < d.exponent then infiniteMagnitude
  else if d.exponent + (d.digits.log2 / 3 : Nat) < -400 then 0
  else if 0 ≤ d.exponent then nearestMagnitude (d.digits * Nat.pow 10 d.exponent.toNat) 1
  else nearestMagnitude d.digits (Nat.pow 10 (-d.exponent).toNat)

def Parts.ratio (p : Parts) : Nat × Nat :=
  if 0 ≤ p.exponent then (p.significand * Nat.pow 2 p.exponent.toNat, 1)
  else (p.significand, Nat.pow 2 (-p.exponent).toNat)

/-- The exponent of the leading decimal digit of a positive double. Every such double is at least
`10 ^ -340`, so that it keeps its leading digit when scaled by `10 ^ 340` and cut. -/
def leadingExponent (num den : Nat) : Int :=
  ((Nat.toDigits 10 (num * Nat.pow 10 340 / den)).length : Int) - 341

/-- The neighbour of a ratio on the grid `10 ^ exponent` that has the given magnitude; of two the
nearer one, and of two equally near ones the even one. -/
def neighbour? (magnitude num den : Nat) (exponent : Int) : Option Decimal :=
  let scaledNum := num * Nat.pow 10 (-exponent).toNat
  let scaledDen := den * Nat.pow 10 exponent.toNat
  let below := scaledNum / scaledDen
  let rest := scaledNum % scaledDen
  let low : Decimal := { digits := below, exponent }
  let high : Decimal := { digits := below + 1, exponent }
  if low.magnitude = magnitude && high.magnitude = magnitude then
    if 2 * rest < scaledDen || (2 * rest = scaledDen && below % 2 = 0) then some low else some high
  else if low.magnitude = magnitude then some low
  else if high.magnitude = magnitude then some high
  else none

def Parts.expansion (p : Parts) : Decimal :=
  if 0 ≤ p.exponent then { digits := p.significand * Nat.pow 2 p.exponent.toNat, exponent := 0 }
  else { digits := p.significand * Nat.pow 5 (-p.exponent).toNat, exponent := p.exponent }

/-- The shortest neighbour of a ratio that has the ratio's magnitude, on the grids of up to seventeen
digits. -/
def shortestNeighbour? (num den : Nat) : Option Decimal :=
  let magnitude := nearestMagnitude num den
  let leading := leadingExponent num den
  (List.range 17).findSome? fun (more : Nat) =>
    neighbour? magnitude num den (leading - (more : Int))

/-- The shortest decimal that is read back as a positive double, the nearest one of that length. -/
def Parts.shortest (p : Parts) : Decimal :=
  (shortestNeighbour? p.ratio.1 p.ratio.2).getD p.expansion

/-! ## Written decimals -/

/-- The digits of an exponent, at least two of them. -/
def exponentDigits (n : Nat) : List Char :=
  let digits := Nat.toDigits 10 n
  List.replicate (2 - digits.length) '0' ++ digits

/-- Significant digits with the decimal point behind the first `point` of them. Numbers from
`10 ^ -4` up to `10 ^ 16` are written out with at least one place behind the point, all others with
an exponent. -/
def placePoint (digits : List Char) (point : Int) : List Char :=
  if -4 < point && point ≤ 0 then
    ['0', '.'] ++ List.replicate (-point).toNat '0' ++ digits
  else if 0 < point && point ≤ 16 then
    let width := point.toNat
    if digits.length ≤ width then
      digits ++ List.replicate (width - digits.length) '0' ++ ['.', '0']
    else digits.take width ++ '.' :: digits.drop width
  else
    let exponent := point - 1
    let mantissa :=
      match digits with
      | lead :: more@(_ :: _) => lead :: '.' :: more
      | short => short
    mantissa ++ 'e' :: (if exponent < 0 then '-' else '+') :: exponentDigits exponent.natAbs

def Decimal.text (d : Decimal) : List Char :=
  let all := Nat.toDigits 10 d.digits
  let significant := (all.reverse.dropWhile (· = '0')).reverse
  placePoint significant (d.exponent + all.length)

/-- A finite double as text: its shortest decimal, and a zero with its sign. -/
def Parts.text (p : Parts) : List Char :=
  let size := if p.significand = 0 then ['0', '.', '0'] else p.shortest.text
  if p.negative then '-' :: size else size

/-- A double as text, with the given words for infinity and for the undefined number. -/
def floatText (infinity undefined : String) (x : Float) : List Char :=
  match parts? x with
  | some p => p.text
  | none =>
    if x.isNaN then undefined.toList
    else if isNegative x then '-' :: infinity.toList
    else infinity.toList

def intText (n : Int) : List Char :=
  if n < 0 then '-' :: Nat.toDigits 10 n.natAbs else Nat.toDigits 10 n.natAbs

end ModAlmanac.Number
