import ModAlmanac.Value

/-!
Writing values as JSON. A document is written on one line, or with every item on a line of its own
and two spaces of indentation for each level. Numbers that JSON has no notation for are written as
words.
-/

namespace ModAlmanac.Json

open Number Text

def escapedUnit (n : Nat) : List Char :=
  '\\' :: 'u' :: hexPadded 4 n

/-- A character by its code units: one, or a pair of surrogates. -/
def escapedUnits (c : Char) : List Char :=
  let n := c.toNat
  if n < 0x10000 then escapedUnit n
  else escapedUnit (0xD800 + (n - 0x10000) / 0x400) ++ escapedUnit (0xDC00 + (n - 0x10000) % 0x400)

/-- A character inside a string. Controls are escaped in any case, and all that is not printable
ASCII if `ascii` asks for it. -/
def stringChar (ascii : Bool) (c : Char) : List Char :=
  if c = '\x22' then ['\\', '\x22']
  else if c = '\\' then ['\\', '\\']
  else if c = '\n' then ['\\', 'n']
  else if c = '\r' then ['\\', 'r']
  else if c = '\t' then ['\\', 't']
  else if c = '\x0c' then ['\\', 'f']
  else if c = '\x08' then ['\\', 'b']
  else if c.toNat < 0x20 then escapedUnit c.toNat
  else if ascii && 0x7E < c.toNat then escapedUnits c
  else [c]

def stringText (ascii : Bool) (s : String) : List Char :=
  '\x22' :: s.toList.flatMap (stringChar ascii) ++ ['\x22']

/-- A double, with words for what is no JSON number. -/
def doubleText (x : Float) : List Char :=
  floatText "Infinity" "NaN" x

def keyName : Key → String
  | .nil => "null"
  | .bool true => "true"
  | .bool false => "false"
  | .int n => String.ofList (intText n)
  | .float x => String.ofList (doubleText x)
  | .text s => s

/-- What stands between the brackets of a list and the items in it. -/
structure Layout where
  /-- Whether every item has a line of its own. -/
  lines : Bool
  /-- Whether all but printable ASCII is escaped. -/
  ascii : Bool

/-- The line end and indentation of a level, where items have lines of their own. -/
def Layout.newLine (layout : Layout) (level : Nat) : List Char :=
  if layout.lines then '\n' :: List.replicate (2 * level) ' ' else []

def Layout.separator (layout : Layout) (level : Nat) : List Char :=
  if layout.lines then ',' :: layout.newLine level else [',', ' ']

mutual

/-- A value as JSON, where `level` counts the lists and objects around it. -/
def valueText (layout : Layout) (level : Nat) : Value → List Char
  | .nil => "null".toList
  | .bool true => "true".toList
  | .bool false => "false".toList
  | .int n => intText n
  | .float x => doubleText x
  | .text s => stringText layout.ascii s
  | .list [] => ['[', ']']
  | .list (item :: rest) =>
    '[' :: layout.newLine (level + 1) ++ valueText layout (level + 1) item ++
      itemsText layout (level + 1) rest ++ layout.newLine level ++ [']']
  | .table [] => ['{', '}']
  | .table ((key, value) :: rest) =>
    '{' :: layout.newLine (level + 1) ++ stringText layout.ascii (keyName key) ++
      ':' :: ' ' :: valueText layout (level + 1) value ++
      fieldsText layout (level + 1) rest ++ layout.newLine level ++ ['}']

/-- The items behind the first one, each with its separator in front. -/
def itemsText (layout : Layout) (level : Nat) : List Value → List Char
  | [] => []
  | item :: rest =>
    layout.separator level ++ valueText layout level item ++ itemsText layout level rest

/-- The fields behind the first one, each with its separator in front. -/
def fieldsText (layout : Layout) (level : Nat) : List (Key × Value) → List Char
  | [] => []
  | (key, value) :: rest =>
    layout.separator level ++ stringText layout.ascii (keyName key) ++
      ':' :: ' ' :: valueText layout level value ++ fieldsText layout level rest

end

/-- A document with every item on a line of its own. -/
def document (v : Value) : String :=
  String.ofList (valueText { lines := true, ascii := false } 0 v)

/-- A document on one line. -/
def line (v : Value) : String :=
  String.ofList (valueText { lines := false, ascii := false } 0 v)

/-- A document on one line in printable ASCII. -/
def asciiLine (v : Value) : String :=
  String.ofList (valueText { lines := false, ascii := true } 0 v)

end ModAlmanac.Json
