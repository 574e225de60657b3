import ModAlmanac.Almanac.Build

/-!
Looking mods up. Both ways of looking ask for the latest tag first. `get` gives the stored snapshot
of that tag and builds it where there is none; `peek` only tells what is stored.
-/

namespace ModAlmanac

def askTag (key : ModKey) : Event :=
  .call (.latestTag key.owner key.repo)

/-- The snapshot of a mod in one version, stored or built. -/
def Almanac.getVersion (almanac : Almanac) (cache : Cache) (key : ModKey) (tag : String) :
    Outcome Snapshot :=
  match cache.snapshot? key tag with
  | .error e => { value := .error (.stored e), cache, events := [] }
  | .ok (some snapshot) => { value := .ok snapshot, cache, events := [] }
  | .ok none => almanac.build cache key tag

/-- The snapshot of the latest version of a mod. -/
def Almanac.get (almanac : Almanac) (cache : Cache) (given : Value) : Outcome Snapshot :=
  match ModKey.parse given with
  | .error e => { value := .error (.invalidKey e), cache, events := [] }
  | .ok key => (almanac.getVersion cache key (almanac.resolveTag key)).after [askTag key]

/-- The latest tag of a mod and the snapshot that is stored for it. -/
def Almanac.peek (almanac : Almanac) (cache : Cache) (given : Value) :
    Outcome (String × Option Snapshot) :=
  match ModKey.parse given with
  | .error e => { value := .error (.invalidKey e), cache, events := [] }
  | .ok key =>
    let tag := almanac.resolveTag key
    match cache.snapshot? key tag with
    | .error e => { value := .error (.stored e), cache, events := [askTag key] }
    | .ok stored => { value := .ok (tag, stored), cache, events := [askTag key] }

end ModAlmanac
