import ModAlmanac.Text.Nesting

/-!
Brace blocks. A block runs from an opening brace to the brace that closes it. Braces are counted
wherever they stand, also inside quotes and comments, so that display text with formatting braces
is kept whole as long as its braces balance.
-/

namespace ModAlmanac.Lua

open Text

/-- The content of a block whose opening brace has been passed, and the text behind its closing
brace. -/
def closeBrace (s : List Char) : Option (List Char × List Char) :=
  closeNested '{' '}' 0 s

theorem length_lt_of_closeBrace {s inner after : List Char}
    (h : closeBrace s = some (inner, after)) : after.length < s.length :=
  length_lt_of_closeNested h

/-- A block found in a text: what stands between its braces and where its closing brace is. -/
structure Block where
  content : List Char
  stop : Nat
  deriving Repr, DecidableEq

/-- The block that begins with the first opening brace at or after `start`. There is none before
the text begins, and none when that brace is never closed. -/
def Block.extract? (text : List Char) (start : Int) : Option Block :=
  if start < 0 then none
  else
    let tail := text.drop start.toNat
    match tail.dropWhile (· ≠ '{') with
    | [] => none
    | _ :: body =>
      (closeBrace body).map fun (content, _) =>
        { content
          stop := start.toNat + (tail.takeWhile (· ≠ '{')).length + 1 + content.length }

end ModAlmanac.Lua
