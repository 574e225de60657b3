import ModAlmanac.Almanac.Configured
import ModAlmanac.Command.Fetch

/-!
The command line. Settings come from the environment, and so does the place of the cache,
`WIKI_DATA_ROOT`. What the network would answer is read from the document named by
`ALMANAC_REPLIES`.
-/

namespace ModAlmanac

def diskPath (root : String) (path : CachePath) : String :=
  "/".intercalate (root :: path)

/-- The content of a file, if it can be read. -/
def readFile? (path : String) : IO (Option ByteArray) := do
  try
    let content ← IO.FS.readBinFile path
    pure (some content)
  catch _ => pure none

def readVariables (names : List String) : IO (List (String × String)) := do
  let mut found := []
  for name in names do
    if let some value ← IO.getEnv name then
      found := (name, value) :: found
  pure found

def readCache (root : String) (paths : List CachePath) : IO Cache := do
  let mut cache := Cache.empty
  for path in paths do
    if let some content ← readFile? (diskPath root path) then
      cache := (cache.store path content).1
  pure cache

def writeChanges (root : String) (before now : Cache) : IO Unit := do
  for (path, content) in now.files do
    if before.read? path ≠ some content then
      IO.FS.createDirAll (diskPath root path.dropLast)
      IO.FS.writeBinFile (diskPath root path) content

def readReplies (path : Option String) : IO Http.Replies := do
  match path with
  | none => pure []
  | some path =>
    let content ← readFile? path
    pure (Http.Replies.ofDocument ((content.bind Json.parseBytes?).getD .nil))

def runCommand (texts : List String) : IO UInt32 := do
  let root := (← IO.getEnv "WIKI_DATA_ROOT").getD "wiki-data"
  let replies ← readReplies (← IO.getEnv "ALMANAC_REPLIES")
  let found ← readVariables Settings.variables
  match Settings.read fun name => OrderedMap.find? name found with
  | .error .notAnInteger =>
    IO.eprintln "A setting is not an integer."
    pure 1
  | .ok settings =>
    let host := (GitHub.Client.ofSettings settings).host replies
    let almanac := Almanac.ofSettings settings host replies
    let cache ← readCache root (Command.wantedPaths almanac texts)
    let run := Command.run almanac cache texts
    writeChanges root cache run.cache
    IO.print run.value.output
    match run.value.error with
    | none => pure 0
    | some (.usage (.final _)) => pure 0
    | some e =>
      IO.eprintln (e.message?.getD "No snapshot could be made.")
      pure 1

end ModAlmanac

def main (texts : List String) : IO UInt32 :=
  ModAlmanac.runCommand texts
