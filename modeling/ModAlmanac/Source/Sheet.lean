import ModAlmanac.Lua.Field
import ModAlmanac.OrderedMap
import ModAlmanac.Text.Digit

/-!
Declared sprite sheets: `SMODS.Atlas { … }`, with or without parentheses around the braces. The body
of a sheet is flat and ends at its first closing brace. A sheet without a quoted key or path is left
out, and of two sheets with one key the later one counts.
-/

namespace ModAlmanac.Source

open Text Lua

/-- A sprite sheet as declared in a source file; a missing tile size is zero. -/
structure Sheet where
  key : String
  path : String
  tileWidth : Nat
  tileHeight : Nat
  deriving Repr, DecidableEq

def dropParen : List Char → List Char
  | '(' :: rest => rest
  | s => s

/-- The body of a sheet declared at the front, and the text behind its closing brace. -/
def sheetBody? (s : List Char) : Option (List Char × List Char) := do
  let rest ← "SMODS.Atlas".toList.isPrefixOf? s
  let inside ← afterBrace? (dropBlank (dropParen (dropBlank rest)))
  match inside.dropWhile (· ≠ '}') with
  | [] => none
  | _ :: after => some (inside.takeWhile (· ≠ '}'), after)

def isQuote (c : Char) : Bool :=
  c = '\x22' || c = '\x27'

/-- A non-empty text between two quotes at the front; the two need not be of one kind, and there are
no escapes. -/
def plainQuoted? : List Char → Option (List Char)
  | [] => none
  | c :: rest =>
    if isQuote c then
      match rest.takeWhile (!isQuote ·), rest.dropWhile (!isQuote ·) with
      | [], _ => none
      | _, [] => none
      | inner, _ :: _ => some inner
    else none

/-- The first plainly quoted value of a field. -/
def findPlainQuoted? (name : String) (body : List Char) : Option (List Char) :=
  search (fun s => (fieldValue? name s).bind plainQuoted?) body

/-- The first number of a field, zero when there is none. -/
def findNumberD (name : String) (body : List Char) : Nat :=
  ((search (fun s => (fieldValue? name s).bind natural?) body).map (·.1)).getD 0

/-- The sheet with a body, if the body has a quoted key and a quoted path. -/
def Sheet.ofBody? (body : List Char) : Option Sheet := do
  let key ← findPlainQuoted? "key" body
  let path ← findPlainQuoted? "path" body
  pure
    { key := String.ofList key
      path := String.ofList path
      tileWidth := findNumberD "px" body
      tileHeight := findNumberD "py" body }

def sheets (s : List Char) : List (String × Sheet) :=
  OrderedMap.ofList (((collect sheetBody? s).filterMap Sheet.ofBody?).map fun sheet =>
    (sheet.key, sheet))

end ModAlmanac.Source
