import ModAlmanac.Number.Numeral
import ModAlmanac.Text.Scan
import ModAlmanac.Text.Word

/-!
Tokens of a table's source. Every character of a source belongs to exactly one token; what fits no
other token is a token of its own.
-/

namespace ModAlmanac.Lua

open Text Number

/-- A piece of source text. A name is told from other words by the single equality sign that
follows it. -/
inductive Token where
  | string (text : List Char)
  | comment
  | number (negative : Bool) (digits : List Char)
  | name (text : List Char)
  | word (text : List Char)
  | mark (c : Char)
  | space (text : List Char)
  | other (c : Char)
  deriving Repr, DecidableEq

/-- The text of a string literal up to its closing quote `q`, escapes kept, and the text behind the
quote. A line end is allowed only behind a backslash. -/
def stringBody? (q : Char) : List Char → Option (List Char × List Char)
  | [] => none
  | [c] => if c = q then some ([], []) else none
  | c :: d :: rest =>
    if c = q then some ([], d :: rest)
    else if c = '\\' then
      (stringBody? q rest).map fun (inner, after) => (c :: d :: inner, after)
    else if c = '\n' then none
    else (stringBody? q (d :: rest)).map fun (inner, after) => (c :: inner, after)

/-- A numeral without its sign: hexadecimal, or decimal. -/
def unsignedNumeral? (s : List Char) : Option (List Char × List Char) :=
  match hexPart? s with
  | some found => some found
  | none => decimalPart? false s

def isSingleSign : List Char → Bool
  | '=' :: '=' :: _ => false
  | '=' :: _ => true
  | _ => false

def isNameStart (c : Char) : Bool :=
  c.isAlpha || c = '_'

/-- The token at the front of a source, and the source behind it. -/
def Token.read? : List Char → Option (Token × List Char)
  | [] => none
  | c :: rest =>
    let literal :=
      if c = '\x22' || c = '\x27' then
        (stringBody? c rest).map fun (inner, after) => (Token.string (c :: inner ++ [c]), after)
      else none
    let comment :=
      match c, rest with
      | '-', '-' :: more => some (Token.comment, more.dropWhile (· ≠ '\n'))
      | _, _ => none
    let number :=
      if c = '-' then (unsignedNumeral? rest).map fun (digits, after) =>
        (Token.number true digits, after)
      else (unsignedNumeral? (c :: rest)).map fun (digits, after) =>
        (Token.number false digits, after)
    match literal, comment, number with
    | some found, _, _ => some found
    | none, some found, _ => some found
    | none, none, some found => some found
    | none, none, none =>
      if isNameStart c then
        let text := c :: rest.takeWhile isWordChar
        let after := rest.dropWhile isWordChar
        some (if isSingleSign (dropBlank after) then .name text else .word text, after)
      else if "\x7b\x7d[],;".toList.contains c || isSingleSign (c :: rest) then
        some (.mark c, rest)
      else if isBlank c then
        some (.space (c :: rest.takeWhile isBlank), rest.dropWhile isBlank)
      else some (.other c, rest)

def tokens (source : List Char) : List Token :=
  collect Token.read? source

end ModAlmanac.Lua
