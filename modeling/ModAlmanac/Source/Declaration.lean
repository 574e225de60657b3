import ModAlmanac.Lua.Block
import ModAlmanac.Lua.Field
import ModAlmanac.Text.Digit

/-!
Declared game objects. A declaration is a dotted name in the `SMODS` namespace, such as
`SMODS.Joker`, with the next brace block behind it as its body. Its fields are found in the body by
name alone. A declaration whose braces never close, or whose body has no quoted key, is left out.
-/

namespace ModAlmanac.Source

open Text Lua

/-- A game object as declared in a source file. -/
structure Declaration where
  kind : String
  key : String
  atlasKey : Option String
  position : Option (Nat × Nat)
  body : String
  deriving Repr, DecidableEq

/-- The kind of a declaration that begins at the front, and the text behind its name. -/
def declaredKind? (s : List Char) : Option (List Char × List Char) :=
  match "SMODS.".toList.isPrefixOf? s with
  | some (c :: rest) =>
    if c.isUpper then
      let part := fun c : Char => c.isAlphanum || c = '_'
      some (c :: rest.takeWhile part, rest.dropWhile part)
    else none
  | _ => none

/-- The number behind a field's equality sign, and the text behind the number. -/
def numberField? (name : String) (s : List Char) : Option (Nat × List Char) :=
  (fieldValue? name s).bind natural?

/-- The grid position in the table of a `pos` field, in the text up to the table's first closing
brace: the last `x` with a `y` behind it, and the last such `y`. -/
def positionIn? (table : List Char) : Option (Nat × Nat) :=
  searchLast
    (fun s => do
      let (x, rest) ← numberField? "x" s
      let (y, _) ← searchLast (numberField? "y") rest
      pure (x, y))
    (table.takeWhile (· ≠ '}'))

/-- The grid position of a body: that of the first `pos` field that has one. -/
def findPosition? (body : List Char) : Option (Nat × Nat) :=
  search (fun s => (fieldTable? "pos" s).bind positionIn?) body

/-- The declaration of a kind with a body, if the body has a quoted key. -/
def Declaration.ofBody? (kind body : List Char) : Option Declaration :=
  (findQuoted? "key" body).map fun key =>
    { kind := String.ofList kind
      key := String.ofList key
      atlasKey := (findQuoted? "atlas" body).map String.ofList
      position := findPosition? body
      body := String.ofList (trim body) }

theorem length_lt_of_declaredKind? {s kind rest : List Char}
    (h : declaredKind? s = some (kind, rest)) : rest.length < s.length := by
  unfold declaredKind? at h
  split at h
  · next c tail heq =>
    split at h
    · cases h
      have hs := eq_append_of_isPrefixOf? heq
      have hrest := (List.dropWhile_sublist (fun c : Char => c.isAlphanum || c = '_')
        (l := tail)).length_le
      rw [hs, List.length_append, List.length_cons]
      omega
    · cases h
  · cases h

/-- All declarations of a text in order. After a declaration the search goes on behind its body;
where the braces never close it goes on behind the opening one. -/
def declarations (s : List Char) : List Declaration :=
  match hkind : search declaredKind? s with
  | none => []
  | some (kind, rest) =>
    match hbrace : rest.dropWhile (· ≠ '{') with
    | [] => []
    | _ :: inside =>
      have hlt : inside.length < s.length := by
        obtain ⟨skipped, tail, hs, hread⟩ := exists_suffix_of_search hkind
        have h1 := length_lt_of_declaredKind? hread
        have h2 := (List.dropWhile_sublist (· ≠ '{') (l := rest)).length_le
        rw [hbrace, List.length_cons] at h2
        rw [hs, List.length_append]
        omega
      match hclose : closeBrace inside with
      | none => declarations inside
      | some (body, after) =>
        have := length_lt_of_closeBrace hclose
        (Declaration.ofBody? kind body).toList ++ declarations after
termination_by s.length

end ModAlmanac.Source
