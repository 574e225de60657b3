import ModAlmanac.ModKey
import ModAlmanac.OrderedMap
import ModAlmanac.Version

/-!
The cache: files and folders below one root. The files of a mod in one version lie in a folder of
their own, `key/version`, and its snapshot is the file `metadata.json` there, which is saved aside
and then moved into its place. Saving a file refuses what no file system would take and leaves all
other files alone. A folder stays when the last file in it goes.
-/

namespace ModAlmanac

/-- The path of a file or folder below the root, segment by segment. -/
abbrev CachePath := List String

/-- Contents are the same if their bytes are. -/
instance (priority := high) decidableEqContent : DecidableEq ByteArray := ByteArray.decEq

/-- What stands at a path. -/
inductive Node where
  | folder
  | file (content : ByteArray)
  deriving DecidableEq

/-- A cache: what stands at which paths. -/
structure Cache where
  nodes : List (CachePath × Node)

def Cache.empty : Cache := { nodes := [] }

def Cache.node? (cache : Cache) (path : CachePath) : Option Node :=
  OrderedMap.find? path cache.nodes

def Node.content? : Node → Option ByteArray
  | .folder => none
  | .file content => some content

def Cache.read? (cache : Cache) (path : CachePath) : Option ByteArray :=
  (cache.node? path).bind Node.content?

def Cache.put (cache : Cache) (path : CachePath) (node : Node) : Cache :=
  { nodes := OrderedMap.insert path node cache.nodes }

def Cache.remove (cache : Cache) (path : CachePath) : Cache :=
  { nodes := cache.nodes.filter fun (other, node) => other != path || node.content?.isNone }

def Cache.files (cache : Cache) : List (CachePath × ByteArray) :=
  cache.nodes.filterMap fun (path, node) => node.content?.map (path, ·)

/-- The paths of all files, in the order of their texts. -/
def Cache.paths (cache : Cache) : List String :=
  (cache.files.map fun file => "/".intercalate file.1).mergeSort fun a b => decide (a ≤ b)

/-! ## Looking -/

/-- Why nothing can be done at a path. -/
inductive StorageError where
  | badName
  /-- A name has more bytes than a name may have, or the path has more than a path may have. -/
  | nameTooLong
  | notAFolder
  | noFolder
  /-- A file stands where the folder is to be made. -/
  | fileInTheWay
  /-- A folder stands where the file is to be saved. -/
  | folderInTheWay
  deriving Repr, DecidableEq

/-- The number of bytes that a name may have. -/
def nameLimit : Nat := 255

/-- The number of bytes that a path may have. -/
def pathLimit : Nat := 4095

/-- What forbids a path whatever stands in the cache. -/
def pathFault? (path : CachePath) : Option StorageError :=
  if path.any fun name => name.toList.contains '\x00' then some .badName
  else if pathLimit < ("/".intercalate path).utf8ByteSize then some .nameTooLong
  else none

/-- What is seen at the end of a path whose beginning leads to something. A name is read only if it
would stand in a folder that there is. -/
def Cache.lookFrom (cache : Cache) (start : CachePath) (here : Node) :
    CachePath → Except StorageError (Option Node)
  | [] => .ok (some here)
  | name :: rest =>
    match here with
    | .file _ => .error .notAFolder
    | .folder =>
      if nameLimit < name.utf8ByteSize then .error .nameTooLong
      else
        match cache.node? (start ++ [name]) with
        | none => .ok none
        | some node => cache.lookFrom (start ++ [name]) node rest

/-- What is seen at a path. -/
def Cache.look (cache : Cache) (path : CachePath) : Except StorageError (Option Node) :=
  match pathFault? path with
  | some e => .error e
  | none => cache.lookFrom [] .folder path

/-! ## Saving -/

/-- The cache with the folders on a path made, as far as they can be made. -/
def Cache.makeFoldersFrom (start : CachePath) :
    CachePath → Cache → Cache × Except StorageError Unit
  | [], cache => (cache, .ok ())
  | name :: rest, cache =>
    let here := start ++ [name]
    if nameLimit < name.utf8ByteSize then (cache, .error .nameTooLong)
    else
      match cache.node? here with
      | some .folder => makeFoldersFrom here rest cache
      | some (.file _) => (cache, .error (if rest.isEmpty then .fileInTheWay else .notAFolder))
      | none => makeFoldersFrom here rest (cache.put here .folder)

/-- The cache with a folder and all folders on the way to it made, and whether they could be made.
Some of them may have been made if not. -/
def Cache.makeFolder (cache : Cache) (path : CachePath) : Cache × Except StorageError Unit :=
  match pathFault? path with
  | some e => (cache, .error e)
  | none => Cache.makeFoldersFrom [] path cache

def Cache.hasFolder (cache : Cache) (path : CachePath) : Bool :=
  path.isEmpty || cache.node? path == some .folder

/-- The cache with a file saved at a path. -/
def Cache.save (cache : Cache) (path : CachePath) (content : ByteArray) :
    Except StorageError Cache :=
  match cache.look path with
  | .error e => .error e
  | .ok (some .folder) => .error .folderInTheWay
  | .ok (some (.file _)) => .ok (cache.put path (.file content))
  | .ok none =>
    if cache.hasFolder path.dropLast then .ok (cache.put path (.file content))
    else .error .noFolder

/-- The cache with a file saved aside and moved into its place from there, and whether that could be
done, so that whoever reads the place never finds half a file. Where it cannot be moved it stays
aside. -/
def Cache.saveAside (cache : Cache) (aside path : CachePath) (content : ByteArray) :
    Cache × Except StorageError Unit :=
  match cache.save aside content with
  | .error e => (cache, .error e)
  | .ok written =>
    match written.look path with
    | .error e => (written, .error e)
    | .ok (some .folder) => (written, .error .folderInTheWay)
    | .ok _ => ((written.remove aside).put path (.file content), .ok ())

/-- The cache with a file saved at a path, its folder being made first where there is none. -/
def Cache.store (cache : Cache) (path : CachePath) (content : ByteArray) :
    Cache × Except StorageError Unit :=
  match cache.makeFolder path.dropLast with
  | (made, .error e) => (made, .error e)
  | (made, .ok ()) =>
    match made.save path content with
    | .error e => (made, .error e)
    | .ok saved => (saved, .ok ())

/-! ## Places -/

def versionPath (key : ModKey) (tag : String) : CachePath :=
  [key.text, versionFolder tag]

def snapshotPath (key : ModKey) (tag : String) : CachePath :=
  versionPath key tag ++ ["metadata.json"]

/-- The name that a worker gives a snapshot's file before it is moved into its place. -/
def partName (worker : Nat) : String :=
  ".metadata.json." ++ toString worker ++ ".part"

def partPath (key : ModKey) (tag : String) (worker : Nat) : CachePath :=
  versionPath key tag ++ [partName worker]

/-! ## Contents -/

/-- A file that has been put is read back. -/
theorem Cache.read?_put_self (cache : Cache) (path : CachePath) (content : ByteArray) :
    (cache.put path (.file content)).read? path = some content := by
  simp [Cache.read?, Cache.node?, Cache.put, OrderedMap.find?_insert_self, Node.content?]

/-- Putting something leaves all other paths alone. -/
theorem Cache.node?_put_of_ne {path other : CachePath} (h : other ≠ path) (cache : Cache)
    (node : Node) : (cache.put path node).node? other = cache.node? other :=
  OrderedMap.find?_insert_of_ne h node cache.nodes

/-- Putting something leaves all other files alone. -/
theorem Cache.read?_put_of_ne {path other : CachePath} (h : other ≠ path) (cache : Cache)
    (node : Node) : (cache.put path node).read? other = cache.read? other := by
  rw [Cache.read?, Cache.node?_put_of_ne h]
  rfl

/-- A save that succeeds puts the file. -/
theorem Cache.eq_put_of_save {cache saved : Cache} {path : CachePath} {content : ByteArray}
    (h : cache.save path content = .ok saved) : saved = cache.put path (.file content) := by
  unfold Cache.save at h
  split at h
  · cases h
  · cases h
  · cases h
    rfl
  · split at h
    · cases h
      rfl
    · cases h

end ModAlmanac
