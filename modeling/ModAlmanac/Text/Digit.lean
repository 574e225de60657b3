/-!
Decimal digits and their values. A digit character of any script stands for its value, so the
numerals of every script are read alike; signs such as superscripts and circled numbers are digits
in the wider sense only, since they take no place in positional notation.
-/

namespace ModAlmanac.Text

/-- The zero of every script's decimal digits beyond the ASCII ones; the nine digits after each
zero follow it in order. -/
def scriptZeros : List Nat :=
  [0x660, 0x6F0, 0x7C0, 0x966, 0x9E6, 0xA66, 0xAE6, 0xB66, 0xBE6, 0xC66, 0xCE6, 0xD66, 0xDE6,
   0xE50, 0xED0, 0xF20, 0x1040, 0x1090, 0x17E0, 0x1810, 0x1946, 0x19D0, 0x1A80, 0x1A90, 0x1B50,
   0x1BB0, 0x1C40, 0x1C50, 0xA620, 0xA8D0, 0xA900, 0xA9D0, 0xA9F0, 0xAA50, 0xABF0, 0xFF10,
   0x104A0, 0x10D30, 0x11066, 0x110F0, 0x11136, 0x111D0, 0x112F0, 0x11450, 0x114D0, 0x11650,
   0x116C0, 0x11730, 0x118E0, 0x11950, 0x11C50, 0x11D50, 0x11DA0, 0x16A60, 0x16AC0, 0x16B50,
   0x1D7CE, 0x1D7D8, 0x1D7E2, 0x1D7EC, 0x1D7F6, 0x1E140, 0x1E2F0, 0x1E950, 0x1FBF0]

def digitValue? (c : Char) : Option Nat :=
  if c.isDigit then some (c.toNat - 48)
  else if c.toNat < 0x80 then none
  else (scriptZeros.find? fun base => base ≤ c.toNat && c.toNat ≤ base + 9).map (c.toNat - ·)

def isDecimalDigit (c : Char) : Bool :=
  (digitValue? c).isSome

/-- Digit signs without a place value: superscripts, subscripts, circled and dotted numbers. -/
def signDigits : List (Nat × Nat) :=
  [(0xB2, 0xB3), (0xB9, 0xB9), (0x1369, 0x1371), (0x19DA, 0x19DA), (0x2070, 0x2070),
   (0x2074, 0x2079), (0x2080, 0x2089), (0x2460, 0x2468), (0x2474, 0x247C), (0x2488, 0x2490),
   (0x24EA, 0x24EA), (0x24F5, 0x24FD), (0x24FF, 0x24FF), (0x2776, 0x277E), (0x2780, 0x2788),
   (0x278A, 0x2792), (0x10A40, 0x10A43), (0x10E60, 0x10E68), (0x11052, 0x1105A),
   (0x1F100, 0x1F10A)]

/-- Whether a character is a digit, with or without a place value. -/
def isAnyDigit (c : Char) : Bool :=
  isDecimalDigit c ||
    (0x80 ≤ c.toNat && signDigits.any fun run => run.1 ≤ c.toNat && c.toNat ≤ run.2)

/-- The number written by a row of digits, most significant first; a character that is no decimal
digit counts as zero. -/
def digitsValue (digits : List Char) : Nat :=
  digits.foldl (fun value c => 10 * value + (digitValue? c).getD 0) 0

/-- Splits a non-empty run of decimal digits off the front and gives its value. -/
def natural? (s : List Char) : Option (Nat × List Char) :=
  match s.takeWhile isDecimalDigit with
  | [] => none
  | digits => some (digitsValue digits, s.dropWhile isDecimalDigit)

def hexValue? (c : Char) : Option Nat :=
  if c.isDigit then some (c.toNat - 48)
  else if 'a' ≤ c && c ≤ 'f' then some (c.toNat - 87)
  else if 'A' ≤ c && c ≤ 'F' then some (c.toNat - 55)
  else none

def isHexDigit (c : Char) : Bool :=
  (hexValue? c).isSome

def hexDigitsValue (digits : List Char) : Nat :=
  digits.foldl (fun value c => 16 * value + (hexValue? c).getD 0) 0

/-- The value of a hexadecimal digit where the digits up to nine may be of any script. -/
def scriptHexValue? (c : Char) : Option Nat :=
  (hexValue? c).or (digitValue? c)

/-- The number written by a row of hexadecimal digits of any script, if all of them have a value. -/
def scriptHexValue (digits : List Char) : Option Nat :=
  digits.foldl (fun value c => do return 16 * (← value) + (← scriptHexValue? c)) (some 0)

end ModAlmanac.Text
