import ModAlmanac.Repository.Path
import ModAlmanac.Snapshot.Basic

/-!
Linking sheets to images. A sheet names its image by a path of which only the last part counts, in
letters of either case. If an image of that name has been saved, the sheet is linked to the last
such one; otherwise it is linked to a path of the repository and is not served.
-/

namespace ModAlmanac

open Repository Text

/-- The name of the image that a sheet asks for, in small letters; backslashes separate like
slashes. -/
def imageName (path : String) : List Char :=
  lower (lastSegment (path.toList.map fun c => if c = '\\' then '/' else c))

/-- Whether a path of the repository ends with a file of some name in small letters. -/
def isPathOf (name : List Char) (path : String) : Bool :=
  let lowered := lower path.toList
  lowered == name || ('/' :: name).isSuffixOf lowered

def isInImageFolder (path : String) : Bool :=
  occursIn ('/' :: imageFolder) ('/' :: lower path.toList)

/-- Where in the repository the image of a sheet lies: preferably in a folder of images to be kept,
else anywhere, else at the path that the sheet names. -/
def locateImage (path : String) (files : List String) : String :=
  let name := imageName path
  match files.find? fun file => isInImageFolder file && isPathOf name file with
  | some file => file
  | none => (files.find? (isPathOf name)).getD path

/-- An image that has been saved: its path in the repository, the name of the saved copy, and the
address under which that is served. -/
structure SavedImage where
  path : String
  name : String := fileName path
  address : String
  deriving Repr, DecidableEq

/-! ## One sheet -/

/-- Whether an image has the name that a sheet asks for. -/
def Atlas.asksFor (atlas : Atlas) (image : SavedImage) : Bool :=
  imageName atlas.path.plain == lower image.name.toList

def Atlas.serve (atlas : Atlas) (image : SavedImage) : Atlas :=
  { atlas with remotePath := .text image.path, servedPath := .text image.address }

/-- The sheet with its image located in the repository, unless that is done already. -/
def Atlas.locate? (files : List String) (atlas : Atlas) : Option Atlas :=
  match atlas.remotePath with
  | .nil => some { atlas with remotePath := .text (locateImage atlas.path.plain files) }
  | _ => none

/-! ## All sheets -/

/-- Links all sheets that ask for an image to it, in place of what they were linked to. -/
def AtlasMap.offer (atlases : AtlasMap) (image : SavedImage) : AtlasMap :=
  OrderedMap.updateEach
    (fun atlas => if atlas.asksFor image then some (atlas.serve image) else none) atlases

/-- Offers the saved images to the sheets in order, and locates the images of the other sheets. -/
def AtlasMap.linkAll (saved : List SavedImage) (files : List String) (atlases : AtlasMap) :
    AtlasMap :=
  OrderedMap.updateEach (Atlas.locate? files) (saved.foldl AtlasMap.offer atlases)

def AtlasMap.link (saved : List SavedImage) (files : List String)
    (sheets : List (String × Source.Sheet)) : AtlasMap :=
  AtlasMap.linkAll saved files (sheets.map fun (key, sheet) => (key, Atlas.ofSheet sheet))

end ModAlmanac
