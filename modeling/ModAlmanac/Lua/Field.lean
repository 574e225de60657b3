import ModAlmanac.Text.Blank
import ModAlmanac.Text.Scan
import ModAlmanac.Lua.Quote

/-!
Fields. A field is a name, an equality sign and a value, with white space around the sign. A field
is looked for by its name's letters alone: a longer name that ends in them counts as well.
-/

namespace ModAlmanac.Lua

open Text

def afterSign? (s : List Char) : Option (List Char) :=
  match dropBlank s with
  | '=' :: rest => some (dropBlank rest)
  | _ => none

def afterBrace? : List Char → Option (List Char)
  | '{' :: rest => some rest
  | _ => none

def fieldValue? (name : String) (s : List Char) : Option (List Char) :=
  (name.toList.isPrefixOf? s).bind afterSign?

def fieldTable? (name : String) (s : List Char) : Option (List Char) :=
  (fieldValue? name s).bind afterBrace?

/-- The first quoted value of a field, its escapes resolved. -/
def findQuoted? (name : String) (s : List Char) : Option (List Char) :=
  (search (fun t => (fieldValue? name t).bind quotedText?) s).map fun (inner, _) => unescape inner

end ModAlmanac.Lua
