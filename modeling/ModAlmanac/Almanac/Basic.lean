import ModAlmanac.Cache
import ModAlmanac.Repository.Host
import ModAlmanac.Snapshot.Compile
import ModAlmanac.Snapshot.Decode
import ModAlmanac.Text.Percent

/-!
The almanac: what is known of every mod, kept in a cache. Each operation takes the cache as it is
and gives the cache as it leaves it, together with what it did on the way: the questions that it put
to the host and the backups that it started, in order.
-/

namespace ModAlmanac

open Repository Text

/-- A snapshot's file that has been written: for which mod and tag, and its content. -/
structure Publication where
  key : String
  tag : String
  content : ByteArray
  deriving DecidableEq

/-- What an operation does besides reading and writing the cache. -/
inductive Event where
  | call (call : Call)
  | backup (publication : Publication) (stored : Bool)
  deriving DecidableEq

def Event.call? : Event → Option Call
  | .call c => some c
  | .backup _ _ => none

def Event.backup? : Event → Option Publication
  | .call _ => none
  | .backup publication _ => some publication

/-- What an operation gives and leaves behind. -/
structure Run (α : Type) where
  value : α
  cache : Cache
  events : List Event

def Run.after {α : Type} (events : List Event) (run : Run α) : Run α :=
  { run with events := events ++ run.events }

def Run.map {α β : Type} (f : α → β) (run : Run α) : Run β :=
  { value := f run.value, cache := run.cache, events := run.events }

/-- Why there is no snapshot. -/
inductive Failure where
  | invalidKey (e : InvalidModKey)
  | noFiles (key : ModKey) (branch : String)
  | host (e : HostError)
  | pathNotText
  | storage (e : StorageError)
  | evaluation (e : EvalError)
  /-- The stored snapshot holds a number that is out of range. -/
  | stored (e : DecodeError)

/-- The message of a failure, where it has one of its own. -/
def Failure.message? : Failure → Option String
  | .invalidKey e => some e.message
  | .noFiles key branch =>
    some ("No files found in " ++ key.owner ++ "/" ++ key.repo ++ " on branch " ++ branch)
  | _ => none

abbrev Outcome (α : Type) := Run (Except Failure α)

/-- What an almanac works with: the host of the repositories, the constants of evaluation, the
address below which images are served, a way to store backups, which may fail, and the number of
the worker that it works on. -/
structure Almanac where
  host : Host
  context : Context
  imageRoot : String
  backup? : Option (Publication → Bool)
  worker : Nat := 0

def Almanac.imageAddress (almanac : Almanac) (key : ModKey) (tag path : String) : String :=
  String.ofList
    ('/' :: trimOf (· = '/') almanac.imageRoot.toList ++
      '/' :: Percent.encode (· = '@') key.text.toList ++
      '/' :: Percent.segment (versionFolder tag).toList ++
      '/' :: Percent.segment (fileName path).toList)

/-- The tag of a mod: that of its latest release, or the one that stands for no release if there is
none or the host does not tell. -/
def Almanac.resolveTag (almanac : Almanac) (key : ModKey) : String :=
  match almanac.host.latestTag key.owner key.repo with
  | .ok (some tag) => if tag.isEmpty then noTag else tag
  | .ok none => noTag
  | .error _ => noTag

def Cache.snapshot? (cache : Cache) (key : ModKey) (tag : String) :
    Except DecodeError (Option Snapshot) :=
  match cache.read? (snapshotPath key tag) with
  | some content => Snapshot.load content
  | none => .ok none

end ModAlmanac
