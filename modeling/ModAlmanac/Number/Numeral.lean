import ModAlmanac.Number.Decimal
import ModAlmanac.Text.Blank

/-!
Numerals. A decimal numeral has an optional sign, digits with an optional point among them and an
optional exponent; an integer numeral has an optional sign and digits that single underscores may
group. The digits may be of any script.
-/

namespace ModAlmanac.Number

open Text

/-- Splits an optional sign off the front; the flag tells a minus. -/
def splitSign : List Char → Bool × List Char
  | '-' :: rest => (true, rest)
  | '+' :: rest => (false, rest)
  | s => (false, s)

/-- The exponent `e`, optional sign, digits at the front: its text and the text behind it. -/
def exponentPart? : List Char → Option (List Char × List Char)
  | [] => none
  | e :: rest =>
    if e = 'e' || e = 'E' then
      let (sign, digits) :=
        match rest with
        | '-' :: more => (['-'], more)
        | '+' :: more => (['+'], more)
        | more => ([], more)
      match digits.takeWhile isDecimalDigit with
      | [] => none
      | run => some (e :: sign ++ run, digits.dropWhile isDecimalDigit)
    else none

/-- An unsigned decimal numeral at the front, with its text and the text behind it: digits with an
optional point behind or among them, or a point with digits behind it. The exponent of a numeral
that begins with its point is taken only if `pointExponent` says so. -/
def decimalPart? (pointExponent : Bool) (s : List Char) : Option (List Char × List Char) :=
  match s.takeWhile isDecimalDigit with
  | [] =>
    match s with
    | '.' :: more =>
      match more.takeWhile isDecimalDigit with
      | [] => none
      | fraction =>
        let rest := more.dropWhile isDecimalDigit
        match exponentPart? rest with
        | some (exponent, after) =>
          if pointExponent then some ('.' :: fraction ++ exponent, after)
          else some ('.' :: fraction, rest)
        | none => some ('.' :: fraction, rest)
    | _ => none
  | whole =>
    let (mantissa, rest) :=
      match s.dropWhile isDecimalDigit with
      | '.' :: more =>
        (whole ++ '.' :: more.takeWhile isDecimalDigit, more.dropWhile isDecimalDigit)
      | rest => (whole, rest)
    match exponentPart? rest with
    | some (exponent, after) => some (mantissa ++ exponent, after)
    | none => some (mantissa, rest)

/-- `0x` with hexadecimal digits at the front: its text and the text behind it. -/
def hexPart? : List Char → Option (List Char × List Char)
  | '0' :: x :: rest =>
    if x = 'x' || x = 'X' then
      match rest.takeWhile isHexDigit with
      | [] => none
      | run => some ('0' :: x :: run, rest.dropWhile isHexDigit)
    else none
  | _ => none

def signedDigitsValue (s : List Char) : Int :=
  let (negative, digits) := splitSign s
  if negative then -(digitsValue digits : Int) else digitsValue digits

/-- The double nearest to a whole text that is a signed decimal numeral. -/
def floatOfText? (s : List Char) : Option Float :=
  let (negative, unsigned) := splitSign s
  match decimalPart? true unsigned with
  | some (_, []) =>
    let whole := unsigned.takeWhile isDecimalDigit
    let behind := unsigned.dropWhile isDecimalDigit
    let fraction :=
      match behind with
      | '.' :: more => more.takeWhile isDecimalDigit
      | _ => []
    let power :=
      match (behind.dropWhile fun c => c ≠ 'e' && c ≠ 'E') with
      | _ :: exponent => signedDigitsValue exponent
      | [] => 0
    let decimal : Decimal :=
      { digits := digitsValue (whole ++ fraction), exponent := power - fraction.length }
    some (ofMagnitude negative decimal.magnitude)
  | _ => none

/-- The digits of a numeral whose single underscores stand between digits. -/
def groupedDigits? : List Char → Option (List Char)
  | [] => none
  | [c] => if isDecimalDigit c then some [c] else none
  | c :: '_' :: rest => if isDecimalDigit c then (groupedDigits? rest).map (c :: ·) else none
  | c :: rest => if isDecimalDigit c then (groupedDigits? rest).map (c :: ·) else none

/-- Whether a character may stand around an integer numeral: white space other than the
separators from file to unit separator. -/
def isNumeralBlank (c : Char) : Bool :=
  isBlank c && !(0x1C ≤ c.toNat && c.toNat ≤ 0x1F)

/-- The integer that a text writes, with white space allowed around it. -/
def intOfText? (s : List Char) : Option Int :=
  let (negative, digits) := splitSign (trimOf isNumeralBlank s)
  (groupedDigits? digits).map fun run =>
    if negative then -(digitsValue run : Int) else digitsValue run

end ModAlmanac.Number
