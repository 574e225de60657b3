import ModAlmanac.Lua.Token
import ModAlmanac.Text.Quoted

/-!
Literal sources. A table is read only when its source is made of literals: words other than the
three literal ones, operators and unfinished strings are refused. What is left is written anew
without comments, with commas between fields, and with every numeral in plain decimal notation.
-/

namespace ModAlmanac.Lua

open Text Number

/-- Why a source is not read as a table. -/
inductive TableError where
  | unsupported (word : List Char)
  | unexpected (c : Char)
  | signWithoutKey
  | outOfRange (numeral : List Char)
  | needsExponent (numeral : List Char)
  | notATable
  | notLiteral
  deriving Repr, DecidableEq

def TableError.message : TableError → String
  | .unsupported word => "unsupported expression " ++ String.ofList (quoted word)
  | .unexpected c => "unexpected character " ++ String.ofList (quoted [c])
  | .signWithoutKey => "assignment without a key"
  | .outOfRange numeral => "number out of range " ++ String.ofList (quoted numeral)
  | .needsExponent numeral =>
    "number too large or small for a literal " ++ String.ofList (quoted numeral)
  | .notATable => "not a table"
  | .notLiteral => "not a literal table"

def isLiteralWord (word : List Char) : Bool :=
  word = "true".toList || word = "false".toList || word = "nil".toList

/-- The plain decimal notation of a numeral. A hexadecimal or whole number is written as an integer,
any other as a double, which has to be finite and to need no exponent. -/
def plainNumeral (negative : Bool) (digits : List Char) : Except TableError (List Char) :=
  let written := if negative then '-' :: digits else digits
  let signed := fun n : Nat => intText (if negative then -(n : Int) else n)
  match hexPart? digits with
  | some (_ :: _ :: run, []) => .ok (signed (hexDigitsValue run))
  | _ =>
    if digits.all isDecimalDigit then .ok (signed (digitsValue digits))
    else
      match (floatOfText? written).bind parts? with
      | none => .error (.outOfRange written)
      | some parts =>
        if parts.text.contains 'e' then .error (.needsExponent written) else .ok parts.text

/-- The source that some tokens stand for; the flag tells whether an equality sign may come next,
which is behind a name or a closing bracket only. -/
def plainSource (maySign : Bool) : List Token → Except TableError (List Char)
  | [] => .ok []
  | .comment :: rest => plainSource maySign rest
  | .space text :: rest => (plainSource maySign rest).map (text ++ ·)
  | .string text :: rest => (plainSource false rest).map (text ++ ·)
  | .name text :: rest => (plainSource true rest).map (text ++ ·)
  | .word text :: rest =>
    if isLiteralWord text then (plainSource false rest).map (text ++ ·)
    else .error (.unsupported text)
  | .other c :: _ => .error (.unexpected c)
  | .number negative digits :: rest =>
    match plainNumeral negative digits with
    | .error e => .error e
    | .ok text => (plainSource false rest).map (text ++ ·)
  | .mark c :: rest =>
    if c = '=' && !maySign then .error .signWithoutKey
    else (plainSource (c = ']') rest).map ((if c = ';' then ',' else c) :: ·)

theorem plainSource_nil (maySign : Bool) : plainSource maySign [] = .ok [] := by
  rw [plainSource]

def literalSource (source : List Char) : Except TableError (List Char) :=
  (plainSource false (tokens source)).map trim

end ModAlmanac.Lua
