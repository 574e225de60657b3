import ModAlmanac.Json.Reader

/-!
JSON in bytes. A document comes in UTF-8, UTF-16 or UTF-32, in either byte order. A byte order mark
tells in which; without one the zeros among the first bytes do, since a document begins with ASCII
characters.
-/

namespace ModAlmanac.Json

open Text

/-- An encoding of text in bytes. -/
inductive Encoding where
  | utf8
  | utf16 (bigEndian : Bool)
  | utf32 (bigEndian : Bool)
  deriving Repr, DecidableEq

/-- The byte order marks. That of UTF-32 begins with that of UTF-16 and is looked for first. -/
def Encoding.marks : List (List UInt8 × Encoding) :=
  [([0x00, 0x00, 0xFE, 0xFF], .utf32 true), ([0xFF, 0xFE, 0x00, 0x00], .utf32 false),
    ([0xFE, 0xFF], .utf16 true), ([0xFF, 0xFE], .utf16 false), ([0xEF, 0xBB, 0xBF], .utf8)]

/-- The encoding that a mark at the front names, and the bytes behind the mark. -/
def Encoding.ofMark? (bytes : List UInt8) : Option (Encoding × List UInt8) :=
  marks.findSome? fun (mark, encoding) =>
    (mark.isPrefixOf? bytes).map fun rest => (encoding, rest)

/-- The encoding that the places of the zeros among the first bytes point to. -/
def Encoding.ofZeros : List UInt8 → Encoding
  | a :: b :: c :: d :: _ =>
    if a = 0 then if b = 0 then .utf32 true else .utf16 true
    else if b = 0 then if c = 0 && d = 0 then .utf32 false else .utf16 false
    else .utf8
  | [a, b] => if a = 0 then .utf16 true else if b = 0 then .utf16 false else .utf8
  | _ => .utf8

def unitOf (bigEndian : Bool) (a b : UInt8) : Nat :=
  if bigEndian then a.toNat * 0x100 + b.toNat else b.toNat * 0x100 + a.toNat

/-- The numbers of the pairs of bytes, unless a byte is left over. -/
def units? (bigEndian : Bool) : List UInt8 → Option (List Nat)
  | [] => some []
  | [_] => none
  | a :: b :: rest => (units? bigEndian rest).map (unitOf bigEndian a b :: ·)

/-- The numbers of the pairs of units, unless a unit is left over. -/
def codes? (bigEndian : Bool) : List Nat → Option (List Nat)
  | [] => some []
  | [_] => none
  | m :: n :: rest =>
    let code := if bigEndian then m * 0x10000 + n else n * 0x10000 + m
    (codes? bigEndian rest).map (code :: ·)

/-- The characters of some code units. Half a pair of surrogates gives a replacement character. -/
def unitChars : List Nat → List Char
  | high :: low :: rest =>
    if isHighSurrogate high && isLowSurrogate low then pairChar high low :: unitChars rest
    else Utf8.charOfCode high :: unitChars (low :: rest)
  | [unit] => [Utf8.charOfCode unit]
  | [] => []

/-- The text that some bytes encode. Surrogates are read as replacement characters. -/
def Encoding.text? (encoding : Encoding) (bytes : List UInt8) : Option (List Char) :=
  match encoding with
  | .utf8 => Utf8.text? true bytes
  | .utf16 bigEndian => (units? bigEndian bytes).map unitChars
  | .utf32 bigEndian =>
    ((units? bigEndian bytes).bind (codes? bigEndian)).bind fun codes =>
      if codes.all (· ≤ 0x10FFFF) then some (codes.map Utf8.charOfCode) else none

def parseBytes? (bytes : ByteArray) : Option Value :=
  let all := bytes.data.toList
  let (encoding, rest) := (Encoding.ofMark? all).getD (Encoding.ofZeros all, all)
  (encoding.text? rest).bind parse?

end ModAlmanac.Json
