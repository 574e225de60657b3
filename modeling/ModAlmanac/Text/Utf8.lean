/-!
UTF-8 that may be damaged. Bytes are read part by part: a part is a character, or the longest run
of bytes that begins a character without completing it, or a byte that begins none. What becomes of
the damaged parts is up to the reader: `text?` refuses them and `replaced` puts the replacement
character in the place of each.
-/

namespace ModAlmanac.Text.Utf8

/-- A part of a sequence of bytes. -/
inductive Part where
  | char (c : Char)
  | damaged (bytes : List UInt8)
  deriving Repr, DecidableEq

/-- The character that stands for whatever is none. -/
def replacement : Char := Char.ofNat 0xFFFD

/-- The character of a code point; surrogates have none. -/
def charOfCode (n : Nat) : Char :=
  if n.isValidChar then Char.ofNat n else replacement

/-- A character that has been begun: the bytes so far, the code point that they make, the number of
bytes still missing, and the bounds of the next one. -/
structure Pending where
  bytes : List UInt8
  code : Nat
  missing : Nat
  low : UInt8
  high : UInt8
  deriving Repr, DecidableEq

/-- A part that a byte completes, or the character that it begins. Only with `surrogates` may a
surrogate be begun. -/
def start (surrogates : Bool) (b : UInt8) : Part ⊕ Pending :=
  let begun (code missing : Nat) (low high : UInt8) : Part ⊕ Pending :=
    .inr { bytes := [b], code, missing, low, high }
  let n := b.toNat
  if b < 0x80 then .inl (.char (charOfCode n))
  else if b < 0xC2 then .inl (.damaged [b])
  else if b < 0xE0 then begun (n - 0xC0) 1 0x80 0xBF
  else if b = 0xE0 then begun 0 2 0xA0 0xBF
  else if b = 0xED then begun 0xD 2 0x80 (if surrogates then 0xBF else 0x9F)
  else if b < 0xF0 then begun (n - 0xE0) 2 0x80 0xBF
  else if b = 0xF0 then begun 0 3 0x90 0xBF
  else if b < 0xF4 then begun (n - 0xF0) 3 0x80 0xBF
  else if b = 0xF4 then begun 4 3 0x80 0x8F
  else .inl (.damaged [b])

/-- The character that a further byte completes, or the longer beginning; nothing if the byte does
not continue the character. -/
def Pending.continue? (p : Pending) (b : UInt8) : Option (Part ⊕ Pending) :=
  if p.low ≤ b && b ≤ p.high then
    let code := p.code * 0x40 + (b.toNat - 0x80)
    if p.missing = 1 then some (.inl (.char (charOfCode code)))
    else
      some (.inr
        { bytes := p.bytes ++ [b], code, missing := p.missing - 1, low := 0x80, high := 0xBF })
  else none

/-- The parts of some bytes that come behind the beginning of a character. -/
def partsFrom (surrogates : Bool) : Option Pending → List UInt8 → List Part
  | none, [] => []
  | some p, [] => [.damaged p.bytes]
  | none, b :: rest =>
    match start surrogates b with
    | .inl part => part :: partsFrom surrogates none rest
    | .inr p => partsFrom surrogates (some p) rest
  | some p, b :: rest =>
    match p.continue? b with
    | some (.inl part) => part :: partsFrom surrogates none rest
    | some (.inr q) => partsFrom surrogates (some q) rest
    | none =>
      match start surrogates b with
      | .inl part => .damaged p.bytes :: part :: partsFrom surrogates none rest
      | .inr q => .damaged p.bytes :: partsFrom surrogates (some q) rest

def parts (surrogates : Bool) (bytes : List UInt8) : List Part :=
  partsFrom surrogates none bytes

def Part.char? : Part → Option Char
  | .char c => some c
  | .damaged _ => none

/-- The text of some bytes, unless a part is damaged. With `surrogates`, surrogates are read as
replacement characters. -/
def text? (surrogates : Bool) (bytes : List UInt8) : Option (List Char) :=
  (parts surrogates bytes).mapM Part.char?

/-- The text of some bytes with a replacement character for every damaged part. -/
def replaced (bytes : List UInt8) : List Char :=
  (parts false bytes).map fun part => part.char?.getD replacement

def encode (s : List Char) : List UInt8 :=
  s.flatMap String.utf8EncodeChar

end ModAlmanac.Text.Utf8
