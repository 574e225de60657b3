/-!
Versions. A mod is kept once for each of its release tags; a mod without a release is kept under a
name of its own.
-/

namespace ModAlmanac

/-- What stands for the tag of a mod without a release. -/
def noTag : String := "no-tag"

/-- The text with slashes of either kind made into underscores. -/
def flattened (s : List Char) : List Char :=
  s.map fun c => if c = '/' || c = '\\' then '_' else c

/-- The folder of a tag. A tag whose folder would be no folder of its own shares that of a mod
without a release. -/
def versionFolder (tag : String) : String :=
  let folder := flattened tag.toList
  if folder = [] || folder = ['.'] || folder = ['.', '.'] then noTag else String.ofList folder

end ModAlmanac
