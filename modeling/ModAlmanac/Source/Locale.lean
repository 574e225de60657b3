import ModAlmanac.Lua.NamedBlock
import ModAlmanac.OrderedMap

/-!
Locale files. A locale file returns a table with the sections `descriptions`, which holds categories
of entries with a name and lines of text, and `misc`, which holds groups of single values. A later
description of a key replaces an earlier record; a value of `misc` counts only under a key that has
no record yet.
-/

namespace ModAlmanac.Source

open Text Lua

/-- The display text of a key. -/
structure LocaleEntry where
  displayName : String
  lines : List String
  category : String
  deriving Repr, DecidableEq

abbrev Locale := List (String × LocaleEntry)

/-! ## Descriptions -/

/-- The quoted texts of an entry's first `text` table, escapes resolved. -/
def textLines (content : List Char) : List (List Char) :=
  match search (fieldTable? "text") content with
  | none => []
  | some inside =>
    match closeBrace inside with
    | none => []
    | some (table, _) => (collect quotedText? table).map unescape

def LocaleEntry.ofBlock (category : String) (block : NamedBlock) : LocaleEntry :=
  { displayName := String.ofList ((findQuoted? "name" block.content).getD [])
    lines := (textLines block.content).map String.ofList
    category }

/-- Whether a block has the shape of an entry and not of a category: it holds no other block than
`text`, and it holds that one or a quoted name. -/
def NamedBlock.isEntry (block : NamedBlock) : Bool :=
  let inner := namedBlocks block.content
  inner.all (·.name = "text".toList) && (!inner.isEmpty || (findQuoted? "name" block.content).isSome)

/-- The records of a `descriptions` section in order. An entry that stands directly in the section
has the section for its category. -/
def descriptionRecords (content : List Char) : List (String × LocaleEntry) :=
  (namedBlocks content).flatMap fun block =>
    if NamedBlock.isEntry block then
      [(String.ofList block.name, LocaleEntry.ofBlock "descriptions" block)]
    else
      (namedBlocks block.content).map fun entry =>
        (String.ofList entry.name, LocaleEntry.ofBlock (String.ofList block.name) entry)

/-! ## Single values -/

def emptyBlocks (s : List Char) : List Char :=
  replaceAll
    (fun t => (NamedBlock.read? 0 t).map fun (block, after) =>
      (block.name ++ " = \x7b\x7d".toList, after))
    s

/-- A value without quotes: it begins with neither white space, comma, opening brace nor quote, and
runs to the next comma or brace. -/
def bareValue? : List Char → Option (List Char × List Char)
  | [] => none
  | c :: rest =>
    if isBlank c || c = ',' || c = '{' || c = '\x22' || c = '\x27' then none
    else
      let more := fun c : Char => c ≠ ',' && c ≠ '{' && c ≠ '}'
      some (c :: rest.takeWhile more, rest.dropWhile more)

/-- A pair `name = value` at the front, the value quoted or bare, and the text behind it. -/
def pair? (s : List Char) : Option ((List Char × List Char) × List Char) :=
  match s.takeWhile isWordChar with
  | [] => none
  | name => do
    let value ← afterSign? (s.dropWhile isWordChar)
    match quotedText? value with
    | some (inner, rest) => pure ((name, unescape inner), rest)
    | none =>
      let (bare, rest) ← bareValue? value
      pure ((name, trim bare), rest)

/-- The records of a `misc` section in order. Values inside a named block of a group do not count. -/
def miscRecords (content : List Char) : List (String × LocaleEntry) :=
  (namedBlocks content).flatMap fun group =>
    (collect pair? (emptyBlocks group.content)).map fun (name, value) =>
      (String.ofList name,
        { displayName := String.ofList value, lines := [], category := String.ofList group.name })

/-! ## Locales -/

def Locale.addSection (locale : Locale) (block : NamedBlock) : Locale :=
  if block.name = "descriptions".toList then
    (descriptionRecords block.content).foldl (fun l r => OrderedMap.insert r.1 r.2 l) locale
  else if block.name = "misc".toList then
    (miscRecords block.content).foldl (fun l r => OrderedMap.insertNew r.1 r.2 l) locale
  else locale

/-- The locale that a text describes. -/
def Locale.parse (s : List Char) : Locale :=
  (namedBlocks s).foldl Locale.addSection []

end ModAlmanac.Source
