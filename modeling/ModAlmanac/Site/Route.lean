import ModAlmanac.Text.Scan

/-!
Routes of the site: the snapshot of a mod under `/wiki-data/<key>.json`, and the saved images of a
version under `/wiki-data/<key>/<version>/<file>`.
-/

namespace ModAlmanac.Site

open Text

/-- What a path asks for. -/
inductive Route where
  | snapshot (key : String)
  | image (key version file : String)
  deriving Repr, DecidableEq

def snapshotEnding : List Char := ".json".toList

/-- The route that a decoded path takes. No segment of a route is empty. -/
def Route.ofPath? (path : List Char) : Option Route := do
  let rest ← "/wiki-data/".toList.isPrefixOf? path
  match partsAt '/' rest with
  | [file] =>
    let key := file.take (file.length - snapshotEnding.length)
    if snapshotEnding.isSuffixOf file && !key.isEmpty then pure (.snapshot (String.ofList key))
    else none
  | [key, version, file] =>
    if key.isEmpty || version.isEmpty || file.isEmpty then none
    else pure (.image (String.ofList key) (String.ofList version) (String.ofList file))
  | _ => none

end ModAlmanac.Site
