import ModAlmanac.Source.Declaration
import ModAlmanac.Source.Locale
import ModAlmanac.Source.Sheet
import ModAlmanac.Value

/-!
Snapshots: what is kept of a mod for one release. Text fields are values, because a snapshot that
was read from a file holds whatever stands there; numbers are converted on reading and are numbers.
-/

namespace ModAlmanac

/-- The display text of a key. -/
structure Entry where
  displayName : Value
  textLines : List Value
  category : Value
  deriving Inhabited

/-- A sprite sheet: its image as declared, where the image lies in the repository, and the path
under which a copy of it is served. -/
structure Atlas where
  key : Value
  path : Value
  tileWidth : Int
  tileHeight : Int
  remotePath : Value
  servedPath : Value
  deriving Inhabited

/-- A game object with its config and its substitution values. -/
structure Entity where
  kind : Value
  key : Value
  atlasKey : Value
  position : Option (Int × Int)
  body : Value
  config : List (Key × Value)
  vars : List Value
  infoQueue : List Value
  deriving Inhabited

abbrev EntryMap := List (String × Entry)

abbrev AtlasMap := List (String × Atlas)

/-- What is known of a mod in one version. -/
structure Snapshot where
  entries : EntryMap
  atlases : AtlasMap
  entities : List Entity
  version : String
  deriving Inhabited

def Entry.ofLocale (e : Source.LocaleEntry) : Entry :=
  { displayName := .text e.displayName
    textLines := e.lines.map .text
    category := .text e.category }

def EntryMap.ofLocale (locale : Source.Locale) : EntryMap :=
  locale.map fun (key, entry) => (key, Entry.ofLocale entry)

/-- The record of a declared sheet, whose image has not been looked for yet. -/
def Atlas.ofSheet (s : Source.Sheet) : Atlas :=
  { key := .text s.key
    path := .text s.path
    tileWidth := s.tileWidth
    tileHeight := s.tileHeight
    remotePath := .nil
    servedPath := .nil }

def AtlasMap.ofSource (text : List Char) : AtlasMap :=
  (Source.sheets text).map fun (key, sheet) => (key, Atlas.ofSheet sheet)

/-- The record of a declaration, which has not been evaluated yet. -/
def Entity.ofDeclaration (d : Source.Declaration) : Entity :=
  { kind := .text d.kind
    key := .text d.key
    atlasKey := match d.atlasKey with
      | some key => .text key
      | none => .nil
    position := d.position.map fun (x, y) => ((x : Int), (y : Int))
    body := .text d.body
    config := []
    vars := []
    infoQueue := [] }

def Entity.ofSource (text : List Char) : List Entity :=
  (Source.declarations text).map Entity.ofDeclaration

end ModAlmanac
