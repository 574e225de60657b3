import ModAlmanac.Number.Numeral
import ModAlmanac.Text.Utf8
import ModAlmanac.Value

/-!
Reading JSON. A number with a point or an exponent is a double, any other number an integer; the
words `NaN`, `Infinity` and `-Infinity` are doubles as well. Of several fields with one name the
last value counts, at the first one's place.
-/

namespace ModAlmanac.Json

open Number Text

def isSpace (c : Char) : Bool :=
  c = ' ' || c = '\t' || c = '\n' || c = '\r'

def skipSpace (s : List Char) : List Char :=
  s.dropWhile isSpace

/-! ## Strings -/

/-- A code unit of four hexadecimal digits, and the text behind it. -/
def codeUnit? : List Char → Option (Nat × List Char)
  | a :: b :: c :: d :: rest => do
    let a ← hexValue? a
    let b ← hexValue? b
    let c ← hexValue? c
    let d ← hexValue? d
    pure (((a * 16 + b) * 16 + c) * 16 + d, rest)
  | _ => none

def isHighSurrogate (n : Nat) : Bool := 0xD800 ≤ n && n ≤ 0xDBFF

def isLowSurrogate (n : Nat) : Bool := 0xDC00 ≤ n && n ≤ 0xDFFF

def pairChar (high low : Nat) : Char :=
  Char.ofNat (0x10000 + (high - 0xD800) * 0x400 + (low - 0xDC00))

/-- The second half of a pair at the front, as an escape, and the text behind it. -/
def lowUnit? : List Char → Option (Nat × List Char)
  | '\\' :: 'u' :: rest => do
    let (low, after) ← codeUnit? rest
    if isLowSurrogate low then pure (low, after) else none
  | _ => none

/-- The character of an escape whose backslash has been passed, and the text behind it. -/
def escape? : List Char → Option (Char × List Char)
  | [] => none
  | c :: rest =>
    if c = '\x22' || c = '\\' || c = '/' then some (c, rest)
    else if c = 'b' then some ('\x08', rest)
    else if c = 'f' then some ('\x0c', rest)
    else if c = 'n' then some ('\n', rest)
    else if c = 'r' then some ('\r', rest)
    else if c = 't' then some ('\t', rest)
    else if c = 'u' then
      match codeUnit? rest with
      | none => none
      | some (unit, after) =>
        match if isHighSurrogate unit then lowUnit? after else none with
        | some (low, behind) => some (pairChar unit low, behind)
        | none => some (Utf8.charOfCode unit, after)
    else none

/-- A string whose opening quote has been passed, and the text behind the closing one. Control
characters are refused. The fuel bounds the number of characters. -/
def stringBehind? : Nat → List Char → Option (List Char × List Char)
  | 0, _ => none
  | _ + 1, [] => none
  | fuel + 1, c :: rest =>
    if c = '\x22' then some ([], rest)
    else if c = '\\' then do
      let (d, after) ← escape? rest
      let (inner, behind) ← stringBehind? fuel after
      pure (d :: inner, behind)
    else if c.toNat < 0x20 then none
    else do
      let (inner, behind) ← stringBehind? fuel rest
      pure (c :: inner, behind)

/-! ## Numbers -/

/-- The digits of a whole number at the front: a single zero, or digits that begin with none. -/
def wholeDigits? (s : List Char) : Option (List Char × List Char) :=
  match s with
  | '0' :: rest => some (['0'], rest)
  | s =>
    match s.takeWhile Char.isDigit with
    | [] => none
    | run => some (run, s.dropWhile Char.isDigit)

/-- A point with digits behind it, where there is one; nothing is taken otherwise. -/
def fractionPart (s : List Char) : List Char × List Char :=
  match s with
  | '.' :: rest =>
    match rest.takeWhile Char.isDigit with
    | [] => ([], s)
    | run => ('.' :: run, rest.dropWhile Char.isDigit)
  | s => ([], s)

/-- An exponent with digits, where there is one; nothing is taken otherwise. -/
def exponentPart (s : List Char) : List Char × List Char :=
  match s with
  | e :: rest =>
    if e = 'e' || e = 'E' then
      let (sign, digits) :=
        match rest with
        | '-' :: more => (['-'], more)
        | '+' :: more => (['+'], more)
        | more => ([], more)
      match digits.takeWhile Char.isDigit with
      | [] => ([], s)
      | run => (e :: sign ++ run, digits.dropWhile Char.isDigit)
    else ([], s)
  | [] => ([], s)

/-- A number whose sign has been passed, and the text behind it. -/
def numberBehind? (negative : Bool) (s : List Char) : Option (Value × List Char) := do
  let (whole, rest) ← wholeDigits? s
  let (fraction, rest) := fractionPart rest
  let (exponent, rest) := exponentPart rest
  let sign := if negative then ['-'] else []
  if fraction.isEmpty && exponent.isEmpty then
    pure (.int (signedDigitsValue (sign ++ whole)), rest)
  else
    let x ← floatOfText? (sign ++ whole ++ fraction ++ exponent)
    pure (.float x, rest)

/-! ## Values -/

def words : List (List Char × Value) :=
  [("null".toList, .nil), ("true".toList, .bool true), ("false".toList, .bool false),
    ("NaN".toList, .float (0.0 / 0.0)), ("Infinity".toList, .float (1.0 / 0.0)),
    ("-Infinity".toList, .float (-1.0 / 0.0))]

/-- A word or a number at the front, and the text behind it. -/
def scalar? (s : List Char) : Option (Value × List Char) :=
  match words.findSome? fun (word, value) => (word.isPrefixOf? s).map fun rest => (value, rest) with
  | some found => some found
  | none =>
    match s with
    | '-' :: rest => numberBehind? true rest
    | s => numberBehind? false s

mutual

/-- A value at the front, and the text behind it. The fuel bounds the number of steps. -/
def value? : Nat → List Char → Option (Value × List Char)
  | 0, _ => none
  | fuel + 1, s =>
    match s with
    | '\x22' :: rest =>
      (stringBehind? fuel rest).map fun (text, after) => (.text (String.ofList text), after)
    | '[' :: rest =>
      match skipSpace rest with
      | ']' :: after => some (.list [], after)
      | inner => (items? fuel inner).map fun (items, after) => (.list items, after)
    | '{' :: rest =>
      match skipSpace rest with
      | '}' :: after => some (.table [], after)
      | inner =>
        (fields? fuel inner).map fun (fields, after) => (.table (OrderedMap.ofList fields), after)
    | s => scalar? s

/-- The items of a list from one of them on, and the text behind the closing bracket. -/
def items? : Nat → List Char → Option (List Value × List Char)
  | 0, _ => none
  | fuel + 1, s => do
    let (item, rest) ← value? fuel s
    match skipSpace rest with
    | ']' :: after => pure ([item], after)
    | ',' :: more =>
      let (items, after) ← items? fuel (skipSpace more)
      pure (item :: items, after)
    | _ => none

/-- The fields of an object from one of them on, and the text behind the closing brace. -/
def fields? : Nat → List Char → Option (List (Key × Value) × List Char)
  | 0, _ => none
  | fuel + 1, s =>
    match s with
    | '\x22' :: rest => do
      let (name, rest) ← stringBehind? fuel rest
      match skipSpace rest with
      | ':' :: rest =>
        let (value, rest) ← value? fuel (skipSpace rest)
        let field := (Key.text (String.ofList name), value)
        match skipSpace rest with
        | '}' :: after => pure ([field], after)
        | ',' :: more =>
          let (fields, after) ← fields? fuel (skipSpace more)
          pure (field :: fields, after)
        | _ => none
      | _ => none
    | _ => none

end

/-- The value of a document: a single value with white space around it. Every step takes a
character, so the fuel is never used up. -/
def parse? (s : List Char) : Option Value :=
  match value? (2 * s.length + 2) (skipSpace s) with
  | some (value, rest) => if (skipSpace rest).isEmpty then some value else none
  | none => none

end ModAlmanac.Json
