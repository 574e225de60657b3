import ModAlmanac.Text.Lowercase
import ModAlmanac.Text.Scan

/-!
Paths in a repository. What a file is used for is told from its path: source files and images by
their endings, the locale file by its name.
-/

namespace ModAlmanac.Repository

open Text

def occursIn (part s : List Char) : Bool :=
  (search (fun rest => part.isPrefixOf? rest) s).isSome

def isSource (path : String) : Bool :=
  ".lua".toList.isSuffixOf path.toList

/-- The folder of the images that are kept, wherever it lies. -/
def imageFolder : List Char := "assets/2x/".toList

/-- Whether a path is that of an image to be kept, in letters of either case. -/
def isImage (path : String) : Bool :=
  let lowered := lower path.toList
  occursIn imageFolder lowered && ".png".toList.isSuffixOf lowered

def lastSegment (path : List Char) : List Char :=
  (path.reverse.takeWhile (· ≠ '/')).reverse

def fileName (path : String) : String :=
  String.ofList (lastSegment path.toList)

/-- The endings by which a locale file is known, the preferred one first. -/
def localeNames : List String := ["en-us.lua", "default.lua"]

def findLocale? (paths : List String) : Option String :=
  localeNames.findSome? fun name => paths.find? fun path => name.toList.isSuffixOf path.toList

end ModAlmanac.Repository
