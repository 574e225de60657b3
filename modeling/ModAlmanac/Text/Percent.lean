import ModAlmanac.Text.Digit
import ModAlmanac.Text.Utf8

/-!
Percent coding. Letters, digits and four marks stand for themselves, and so does what a reader of
the text tells apart from them by its place; every byte of any other character is written as two
hexadecimal digits behind a percent sign.
-/

namespace ModAlmanac.Text.Percent

def hexDigits : List Char := "0123456789ABCDEF".toList

def hexDigit (n : Nat) : Char := hexDigits.getD n '0'

def encodeByte (b : UInt8) : List Char :=
  ['%', hexDigit (b.toNat / 16), hexDigit (b.toNat % 16)]

def isUnreserved (c : Char) : Bool :=
  c.isAlphanum || c = '_' || c = '.' || c = '-' || c = '~'

/-- A character in its coded form, where those for which `safe` holds stand for themselves. -/
def encodeChar (safe : Char → Bool) (c : Char) : List Char :=
  if isUnreserved c || safe c then [c] else (String.utf8EncodeChar c).flatMap encodeByte

def encode (safe : Char → Bool) (s : List Char) : List Char :=
  s.flatMap (encodeChar safe)

def segment (s : List Char) : List Char :=
  encode (fun _ => false) s

def path (s : List Char) : List Char :=
  encode (· = '/') s

/-- A text as a value of a query, where a plus sign stands for a space. -/
def queryValue (s : List Char) : List Char :=
  s.flatMap fun c => if c = ' ' then ['+'] else encodeChar (fun _ => false) c

/-- The bytes that a coded text stands for. A percent sign without two hexadecimal digits behind it
stands for itself. -/
def decodeBytes (s : List Char) : List UInt8 :=
  match s with
  | [] => []
  | '%' :: a :: b :: rest =>
    match hexValue? a, hexValue? b with
    | some high, some low => UInt8.ofNat (high * 16 + low) :: decodeBytes rest
    | _, _ => Utf8.encode ['%'] ++ decodeBytes (a :: b :: rest)
  | c :: rest => Utf8.encode [c] ++ decodeBytes rest
termination_by s.length

/-- The text that a coded text stands for. Damaged bytes stay in their coded form. -/
def decode (s : List Char) : List Char :=
  (Utf8.parts false (decodeBytes s)).flatMap fun
    | .char c => [c]
    | .damaged bytes => bytes.flatMap encodeByte

end ModAlmanac.Text.Percent
