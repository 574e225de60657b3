import ModAlmanac.Expr.Substitution
import ModAlmanac.Snapshot.Linking

/-!
Compiling a snapshot from texts: the locale file gives the display texts; the other source files, in
order, give the sheets and the objects, which are evaluated against the display texts.
-/

namespace ModAlmanac

/-- Some cards evaluated, unless one of them has no value. -/
def evaluateAll (entries : EntryMap) (context : Context) :
    List Entity → Except EvalError (List Entity)
  | [] => .ok []
  | e :: rest => do
    let evaluated ← e.evaluated entries context
    let more ← evaluateAll entries context rest
    pure (evaluated :: more)

/-- The sheets of some texts by their keys. A later text wins. -/
def sheetsOfAll (texts : List String) : List (String × Source.Sheet) :=
  texts.foldl (fun sheets text => OrderedMap.union sheets (Source.sheets text.toList)) []

/-- The objects declared in some texts, one text after the other. -/
def entitiesOfAll (texts : List String) : List Entity :=
  texts.flatMap fun text => Entity.ofSource text.toList

/-- What a snapshot is made of: the text of the locale file, the texts of the other source files,
the images that have been saved, and the paths of all files. -/
structure Material where
  locale : String
  texts : List String
  images : List SavedImage
  files : List String

/-- The snapshot of a version that some material makes. -/
def Snapshot.compile (context : Context) (version : String) (material : Material) :
    Except EvalError Snapshot := do
  let entries := EntryMap.ofLocale (Source.Locale.parse material.locale.toList)
  let entities ← evaluateAll entries context (entitiesOfAll material.texts)
  pure
    { entries
      atlases := AtlasMap.link material.images material.files (sheetsOfAll material.texts)
      entities
      version }

/-! ## Source files -/

/-- The text of the locale file among the source files at some paths, empty where it was not
fetched. -/
def localeText (paths : List String) (texts : List (String × String)) : String :=
  ((Repository.findLocale? paths).bind fun path => OrderedMap.find? path texts).getD ""

/-- The texts of the other source files, in the order of their paths. -/
def declaringTexts (paths : List String) (texts : List (String × String)) : List String :=
  (paths.filter fun path => Repository.findLocale? paths != some path).filterMap fun path =>
    OrderedMap.find? path texts

end ModAlmanac
