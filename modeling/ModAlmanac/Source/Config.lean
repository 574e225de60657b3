import ModAlmanac.Lua.NamedBlock
import ModAlmanac.Lua.Table

/-!
Config tables. The config of a declaration is its first `config` field with a table, as long as the
table is a keyed literal. A `config` behind a letter or a dot is a reference and no field.
-/

namespace ModAlmanac.Source

open Text Lua

/-- The text inside the first config table; the flag tells whether the character in front of the
text rules out a field. -/
def configInside? (inName : Bool) : List Char → Option (List Char)
  | [] => none
  | c :: rest =>
    let here := if inName then none else fieldTable? "config" (c :: rest)
    match here with
    | some inside => some inside
    | none => configInside? (isWordChar c || c = '.') rest

/-- The source of the first config table, from its opening to its closing brace. -/
def configSource? (body : List Char) : Option (List Char) := do
  let inside ← configInside? false body
  let (content, _) ← closeBrace inside
  pure ('{' :: content ++ ['}'])

/-- The config of a declaration body. Without a table, or with one that is not a keyed literal, it
is empty. -/
def decodeConfig (body : List Char) : List (Key × Value) :=
  match configSource? body with
  | none => []
  | some source =>
    match decodeTable source with
    | .ok (.table fields) => fields
    | _ => []

end ModAlmanac.Source
