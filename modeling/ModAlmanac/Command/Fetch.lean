import ModAlmanac.Almanac.Lookup
import ModAlmanac.Command.Arguments

/-!
The command that fills the cache. With `--check` it tells for every key whether the snapshot of the
latest version is stored; with `--write` it builds what is not stored. It takes the keys in order and
stops at the first one that fails.
-/

namespace ModAlmanac.Command

/-- Why the command stops. -/
inductive CommandError where
  | usage (e : UsageError)
  | bothModes
  | noMode
  | lookup (key : String) (failure : Failure)

def CommandError.message? : CommandError → Option String
  | .usage e => e.message?
  | .bothModes => some "Use either --check or --write, not both."
  | .noMode => some "Refusing to write without explicit intent; pass --check or --write."
  | .lookup key failure =>
    match failure with
    | .invalidKey e => some e.message
    | .noFiles _ _ => failure.message?.map fun text => key ++ ": " ++ text
    | _ => none

/-- What the command printed, line by line, and why it stopped if it did not come to its end. -/
structure Report where
  lines : List String
  error : Option CommandError

def Report.output (report : Report) : String :=
  String.join (report.lines.map (· ++ "\n"))

def checkLine (key : String) : String × Option Snapshot → String
  | (tag, stored) =>
    "[CHECK] mod=" ++ key ++ " version=" ++ tag ++ " status=" ++
      (if stored.isSome then "cached" else "missing")

def count {α : Type} (items : List α) : String :=
  String.ofList (Number.intText items.length)

def writeLine (key : String) (snapshot : Snapshot) : String :=
  "[WRITE] mod=" ++ key ++ " version=" ++ snapshot.version ++ " entities=" ++
    count snapshot.entities ++ " atlases=" ++ count snapshot.atlases ++ " loc_entries=" ++
    count snapshot.entries

/-- Goes through some keys in order, up to the first one that fails. -/
def forKeys (line : Cache → String → Outcome String) : Cache → List String → Run Report
  | cache, [] => { value := { lines := [], error := none }, cache, events := [] }
  | cache, key :: rest =>
    let first := line cache key
    match first.value with
    | .error failure =>
      { value := { lines := [], error := some (.lookup key failure) }
        cache := first.cache
        events := first.events }
    | .ok text =>
      ((forKeys line first.cache rest).map fun report =>
        { report with lines := text :: report.lines }).after first.events

def checkKeys (almanac : Almanac) (cache : Cache) (keys : List String) : Run Report :=
  forKeys (fun cache key => (almanac.peek cache (.text key)).map (·.map (checkLine key))) cache keys

def writeKeys (almanac : Almanac) (cache : Cache) (keys : List String) : Run Report :=
  forKeys (fun cache key => (almanac.get cache (.text key)).map (·.map (writeLine key))) cache keys

/-- A report of nothing but an error. -/
def stopped (cache : Cache) (error : CommandError) : Run Report :=
  { value := { lines := [], error := some error }, cache, events := [] }

/-- Runs the command. -/
def run (almanac : Almanac) (cache : Cache) (texts : List String) : Run Report :=
  match Arguments.parse texts with
  | .error e => stopped cache (.usage e)
  | .ok arguments =>
    match arguments.check, arguments.write with
    | true, true => stopped cache .bothModes
    | false, false => stopped cache .noMode
    | true, false => checkKeys almanac cache arguments.keys
    | false, true => writeKeys almanac cache arguments.keys

/-- The files of the cache that the command looks at first: the stored snapshots of its keys. -/
def wantedPaths (almanac : Almanac) (texts : List String) : List CachePath :=
  match Arguments.parse texts with
  | .error _ => []
  | .ok arguments =>
    arguments.keys.filterMap fun text =>
      (ModKey.ofText? text.toList).map fun key => snapshotPath key (almanac.resolveTag key)

end ModAlmanac.Command
