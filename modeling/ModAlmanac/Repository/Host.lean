import ModAlmanac.OrderedMap
import ModAlmanac.Value

/-!
Hosts of repositories. A host answers five kinds of questions about a repository; an answer may be
an error. A shelf is a host that holds one repository in memory.
-/

namespace ModAlmanac.Repository

/-- Why a host gives no answer. -/
inductive HostError where
  | badAddress
  | missingPath
  | folderNotText
  /-- A folder is listed inside itself. -/
  | endless
  | unavailable
  deriving Repr, DecidableEq

/-- A question to a host. -/
inductive Call where
  | latestTag (owner repo : String)
  | defaultBranch (owner repo : String)
  | listFiles (owner repo branch : String)
  | rawText (owner repo path branch : String)
  | rawBytes (owner repo path branch : String)
  deriving Repr, DecidableEq

/-- The answers of a host. The arguments are those of the questions. The paths of a listing are
values, since a host may list whatever it likes; a file whose content cannot be had has an empty
text and no bytes. -/
structure Host where
  latestTag : (owner repo : String) → Except HostError (Option String)
  defaultBranch : (owner repo : String) → Except HostError String
  listFiles : (owner repo branch : String) → Except HostError (List Value)
  rawText : (owner repo path branch : String) → Except HostError String
  rawBytes : (owner repo path branch : String) → Except HostError (Option ByteArray)

/-! ## Shelves -/

/-- A repository held in memory. The latest tag may be missing or fail to be told, and so may the
content of some paths. -/
structure Shelf where
  files : List (String × ByteArray)
  tag : Option String
  tagFails : Bool
  branch : String
  failing : List String

/-- The text of a file on a shelf. Bytes that are no text fail. -/
def Shelf.rawText (shelf : Shelf) (path : String) : Except HostError String :=
  if shelf.failing.contains path then .error .unavailable
  else
    match OrderedMap.find? path shelf.files with
    | none => .ok ""
    | some content =>
      match String.fromUTF8? content with
      | some text => .ok text
      | none => .error .unavailable

def Shelf.rawBytes (shelf : Shelf) (path : String) : Except HostError (Option ByteArray) :=
  if shelf.failing.contains path then .error .unavailable
  else .ok (OrderedMap.find? path shelf.files)

def Shelf.host (shelf : Shelf) : Host :=
  { latestTag := fun _ _ => if shelf.tagFails then .error .unavailable else .ok shelf.tag
    defaultBranch := fun _ _ => .ok shelf.branch
    listFiles := fun _ _ _ => .ok (shelf.files.map fun file => .text file.1)
    rawText := fun _ _ path _ => shelf.rawText path
    rawBytes := fun _ _ path _ => shelf.rawBytes path }

end ModAlmanac.Repository
