/-!
Quoted text. A quoted text stands between two quotes of one kind on one line; a backslash takes the
next character with it, unless that leaves no closing quote, in which case it stands for itself.
-/

namespace ModAlmanac.Lua

/-- The text up to the closing quote `q`, and the text behind it. -/
def closeQuote (q : Char) : List Char → Option (List Char × List Char)
  | [] => none
  | [c] => if c = q then some ([], []) else none
  | c :: d :: rest =>
    if c = q then some ([], d :: rest)
    else if c = '\n' then none
    else if c = '\\' && d ≠ '\n' then
      match closeQuote q rest with
      | some (inner, after) => some (c :: d :: inner, after)
      | none => (closeQuote q (d :: rest)).map fun (inner, after) => (c :: inner, after)
    else (closeQuote q (d :: rest)).map fun (inner, after) => (c :: inner, after)

/-- A quoted text at the front: what stands between the quotes, still escaped, and the text behind
the closing one. -/
def quotedText? : List Char → Option (List Char × List Char)
  | [] => none
  | c :: rest => if c = '\x22' || c = '\x27' then closeQuote c rest else none

def escaped (c : Char) : Char :=
  if c = 'b' then '\x08'
  else if c = 'f' then '\x0c'
  else if c = 'n' then '\n'
  else if c = 'r' then '\r'
  else if c = 't' then '\t'
  else c

/-- Resolves the escapes of a quoted text; a backslash at the very end is kept. -/
def unescape : List Char → List Char
  | [] => []
  | [c] => [c]
  | c :: d :: rest => if c = '\\' then escaped d :: unescape rest else c :: unescape (d :: rest)

end ModAlmanac.Lua
