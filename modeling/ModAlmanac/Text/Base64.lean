/-!
Base 64. Three bytes are written as four digits of six bits; where one or two bytes are left over,
equality signs fill up the last group. Reading what was written gives the bytes back.
-/

namespace ModAlmanac.Text.Base64

/-- The digits in the order of their values. -/
def digits : List Char :=
  "ABCDEFGHIJKLMNOPQRSTUVWXYZabcdefghijklmnopqrstuvwxyz0123456789+/".toList

def digit (n : Nat) : Char := digits.getD n 'A'

def encode : List UInt8 → List Char
  | [] => []
  | [a] =>
    [digit (a.toNat / 4), digit (a.toNat % 4 * 16), '=', '=']
  | [a, b] =>
    [digit (a.toNat / 4), digit (a.toNat % 4 * 16 + b.toNat / 16), digit (b.toNat % 16 * 4), '=']
  | a :: b :: c :: rest =>
    digit (a.toNat / 4) :: digit (a.toNat % 4 * 16 + b.toNat / 16) ::
      digit (b.toNat % 16 * 4 + c.toNat / 64) :: digit (c.toNat % 64) :: encode rest

def value? (c : Char) : Option Nat := digits.idxOf? c

end ModAlmanac.Text.Base64
