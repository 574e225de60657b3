import ModAlmanac.Command.Fetch
import ModAlmanac.Proofs.Almanac.Stored
import ModAlmanac.Site.Respond

/-!
# Runs

A run is a sequence of uses of an almanac over one cache, whose host may answer differently each
time. Snapshots are looked up by some uses and not by others: by a question for one, by a visit of
its address, and by a command that stores snapshots, which looks up one key after the other. All
that a use does to the cache, and all that it asks besides tags, is done by its lookups
(`Step.doneBy_lookups`), so that a run is a chain of lookups (`chained_lookups`).
-/

namespace ModAlmanac

open Repository

/-! ## Uses -/

/-- A use of an almanac. -/
inductive Use where
  /-- A snapshot is asked for. -/
  | get (given : Value)
  /-- The stored snapshot is asked for. -/
  | peek (given : Value)
  /-- The site is visited. -/
  | visit (method address : String)
  /-- The command is run. -/
  | command (texts : List String)

/-- One step of a run: a use, with the almanac as it stands then. -/
structure Step where
  almanac : Almanac
  use : Use

def Step.run (step : Step) (cache : Cache) : Run Unit :=
  match step.use with
  | .get given => (step.almanac.get cache given).map fun _ => ()
  | .peek given => (step.almanac.peek cache given).map fun _ => ()
  | .visit method address =>
    match Site.visit step.almanac cache method address with
    | .ok run => run.map fun _ => ()
    | .error _ => { value := (), cache, events := [] }
  | .command texts => (Command.run step.almanac cache texts).map fun _ => ()

def cacheAfter (cache : Cache) : List Step → Cache
  | [] => cache
  | step :: rest => cacheAfter (step.run cache).cache rest

/-! ## Lookups -/

/-- A lookup of a snapshot: in which almanac and over which cache, and the key that was given. -/
structure Lookup where
  almanac : Almanac
  cache : Cache
  given : Value

def Lookup.outcome (lookup : Lookup) : Outcome Snapshot :=
  lookup.almanac.get lookup.cache lookup.given

/-- The mod that is looked up and its tag, if the key is one. -/
def Lookup.target? (lookup : Lookup) : Option (ModKey × String) :=
  match ModKey.parse lookup.given with
  | .ok key => some (key, lookup.almanac.resolveTag key)
  | .error _ => none

/-- The lookup of a mod with its tag gives a snapshot. -/
def Lookup.Gives (lookup : Lookup) (key : ModKey) (tag : String) (s : Snapshot) : Prop :=
  lookup.target? = some (key, tag) ∧ lookup.outcome.value = .ok s

/-- The key whose snapshot a visit asks for. -/
def visitedKey? (method address : String) : Option String :=
  match Http.pathOf address.toList with
  | .error _ => none
  | .ok path =>
    match Site.Route.ofPath? (Text.Percent.decode path) with
    | some (.snapshot key) => if method.toUpper = "GET" then some key else none
    | _ => none

/-- The keys whose snapshots a command is to store. -/
def writtenKeys (texts : List String) : List String :=
  match Command.Arguments.parse texts with
  | .error _ => []
  | .ok arguments => if !arguments.check && arguments.write then arguments.keys else []

/-- The lookups of some keys in order, up to the first one that fails. -/
def keyLookups (almanac : Almanac) : Cache → List String → List Lookup
  | _, [] => []
  | cache, key :: rest =>
    let lookup : Lookup := { almanac, cache, given := .text key }
    match lookup.outcome.value with
    | .error _ => [lookup]
    | .ok _ => lookup :: keyLookups almanac lookup.outcome.cache rest

def Step.lookups (step : Step) (cache : Cache) : List Lookup :=
  match step.use with
  | .get given => [{ almanac := step.almanac, cache, given }]
  | .peek _ => []
  | .visit method address =>
    (visitedKey? method address).toList.map fun key =>
      { almanac := step.almanac, cache, given := .text key }
  | .command texts => keyLookups step.almanac cache (writtenKeys texts)

/-- The lookups of a run, in order. -/
def lookups (cache : Cache) : List Step → List Lookup
  | [] => []
  | step :: rest => step.lookups cache ++ lookups (step.run cache).cache rest

/-! ## The cache between lookups -/

/-- Each of some lookups starts with the cache that the one before it left, from a first cache to a
last one. -/
def Chained (first : Cache) : List Lookup → Cache → Prop
  | [], last => last = first
  | lookup :: rest, last => lookup.cache = first ∧ Chained lookup.outcome.cache rest last

theorem Chained.append {first middle last : Cache} {front back : List Lookup}
    (h : Chained first front middle) (h' : Chained middle back last) :
    Chained first (front ++ back) last := by
  induction front generalizing first with
  | nil =>
    cases h
    exact h'
  | cons lookup front ih => exact ⟨h.1, ih h.2⟩

theorem Chained.before {first last : Cache} {front back : List Lookup} {lookup : Lookup}
    (h : Chained first (front ++ lookup :: back) last) : Chained first front lookup.cache := by
  induction front generalizing first with
  | nil => exact h.1
  | cons other front ih => exact ⟨h.1, ih h.2⟩

/-! ## What uses do -/

/-- What is done over a cache is done by some lookups: they lead to the cache that is left behind,
and unless there are none their events are all that happens; without lookups only tags are asked
for. -/
structure DoneBy {α : Type} (lookups : List Lookup) (cache : Cache) (run : Run α) : Prop where
  chained : Chained cache lookups run.cache
  events : run.events = lookups.flatMap (·.outcome.events) ∨
    lookups = [] ∧ ∀ event ∈ run.events, ∃ key, event = askTag key

theorem DoneBy.quiet {α : Type} (cache : Cache) (value : α) :
    DoneBy [] cache { value, cache, events := [] } where
  chained := rfl
  events := .inl rfl

theorem DoneBy.map {α β : Type} {lookups : List Lookup} {cache : Cache} {run : Run α}
    (h : DoneBy lookups cache run) (f : α → β) : DoneBy lookups cache (run.map f) where
  chained := h.chained
  events := h.events

theorem DoneBy.single (lookup : Lookup) : DoneBy [lookup] lookup.cache lookup.outcome where
  chained := ⟨rfl, rfl⟩
  events := .inl (List.append_nil _).symm

theorem Almanac.doneBy_peek (almanac : Almanac) (cache : Cache) (given : Value) :
    DoneBy [] cache (almanac.peek cache given) := by
  unfold Almanac.peek
  split
  · exact DoneBy.quiet cache _
  · next key _ =>
    have hasked : ∀ event ∈ [askTag key], ∃ key, event = askTag key :=
      List.forall_mem_singleton.2 ⟨key, rfl⟩
    dsimp only
    split
    · exact ⟨rfl, .inr ⟨rfl, hasked⟩⟩
    · exact ⟨rfl, .inr ⟨rfl, hasked⟩⟩

theorem Site.doneBy_visit {almanac : Almanac} {cache : Cache} {method address : String}
    {run : Run Site.Response} (h : Site.visit almanac cache method address = .ok run) :
    DoneBy ((visitedKey? method address).toList.map fun key =>
      { almanac, cache, given := .text key }) cache run := by
  obtain ⟨path, hpath, h⟩ := bind_eq_ok_iff.1 h
  cases h
  unfold visitedKey? Site.respond
  rw [hpath]
  dsimp only
  cases Site.Route.ofPath? (Text.Percent.decode path) with
  | none => exact DoneBy.quiet cache _
  | some route =>
    cases route with
    | image key version file =>
      dsimp only
      split
      · exact DoneBy.quiet cache _
      · exact DoneBy.quiet cache _
    | snapshot key =>
      dsimp only
      split
      · exact (DoneBy.single { almanac, cache, given := .text key }).map Site.Response.ofLookup
      · exact DoneBy.quiet cache _

/-- Storing the snapshots of some keys is looking them up one after the other. -/
theorem Command.writeKeys_eq (almanac : Almanac) (cache : Cache) (keys : List String) :
    Chained cache (keyLookups almanac cache keys) (Command.writeKeys almanac cache keys).cache ∧
      (Command.writeKeys almanac cache keys).events =
        (keyLookups almanac cache keys).flatMap (·.outcome.events) := by
  induction keys generalizing cache with
  | nil => exact ⟨rfl, rfl⟩
  | cons key keys ih =>
    obtain ⟨hchained, hevents⟩ := ih (almanac.get cache (.text key)).cache
    unfold Command.writeKeys at hchained hevents ⊢
    rw [keyLookups, Command.forKeys]
    simp only [Lookup.outcome, Run.map]
    cases (almanac.get cache (.text key)).value with
    | error e => exact ⟨⟨rfl, rfl⟩, (List.append_nil _).symm⟩
    | ok s =>
      exact ⟨⟨rfl, hchained⟩, congrArg ((almanac.get cache (.text key)).events ++ ·) hevents⟩

theorem Command.doneBy_checkKeys (almanac : Almanac) (cache : Cache) (keys : List String) :
    DoneBy [] cache (Command.checkKeys almanac cache keys) := by
  suffices h : (Command.checkKeys almanac cache keys).cache = cache ∧
      ∀ event ∈ (Command.checkKeys almanac cache keys).events, ∃ key, event = askTag key from
    ⟨h.1, .inr ⟨rfl, h.2⟩⟩
  unfold Command.checkKeys
  induction keys with
  | nil => exact ⟨rfl, fun _ he => absurd he List.not_mem_nil⟩
  | cons key keys ih =>
    have hpeek := almanac.doneBy_peek cache (.text key)
    have hcache : (almanac.peek cache (.text key)).cache = cache := hpeek.chained
    have hevents : ∀ event ∈ (almanac.peek cache (.text key)).events,
        ∃ key, event = askTag key := by
      rcases hpeek.events with h | ⟨-, h⟩
      · rw [h]
        exact fun _ he => absurd he List.not_mem_nil
      · exact h
    rw [Command.forKeys]
    simp only [Run.map]
    cases (almanac.peek cache (.text key)).value with
    | error e => exact ⟨hcache, hevents⟩
    | ok found =>
      simp only [Run.after, Except.map, hcache]
      refine ⟨ih.1, fun event he => ?_⟩
      rcases List.mem_append.1 he with he | he
      · exact hevents event he
      · exact ih.2 event he

theorem Command.doneBy_run (almanac : Almanac) (cache : Cache) (texts : List String) :
    DoneBy (keyLookups almanac cache (writtenKeys texts)) cache
      (Command.run almanac cache texts) := by
  unfold writtenKeys Command.run
  cases Command.Arguments.parse texts with
  | error e => exact DoneBy.quiet cache _
  | ok arguments =>
    dsimp only
    cases arguments.check with
    | true =>
      cases arguments.write with
      | true => exact DoneBy.quiet cache _
      | false => exact Command.doneBy_checkKeys almanac cache arguments.keys
    | false =>
      cases arguments.write with
      | true =>
        obtain ⟨hchained, hevents⟩ := Command.writeKeys_eq almanac cache arguments.keys
        exact ⟨hchained, .inl hevents⟩
      | false => exact DoneBy.quiet cache _

/-- Every step is done by its lookups. -/
theorem Step.doneBy_lookups (step : Step) (cache : Cache) :
    DoneBy (step.lookups cache) cache (step.run cache) := by
  obtain ⟨almanac, use⟩ := step
  cases use with
  | get given => exact (DoneBy.single { almanac, cache, given }).map fun _ => ()
  | peek given => exact (almanac.doneBy_peek cache given).map fun _ => ()
  | command texts => exact (Command.doneBy_run almanac cache texts).map fun _ => ()
  | visit method address =>
    simp only [Step.lookups, Step.run]
    cases hvisit : Site.visit almanac cache method address with
    | ok run => exact (Site.doneBy_visit hvisit).map fun _ => ()
    | error e =>
      have hnone : visitedKey? method address = none := by
        unfold visitedKey?
        cases hpath : Http.pathOf address.toList with
        | error _ => rfl
        | ok path =>
          rw [Site.visit, hpath] at hvisit
          cases hvisit
      rw [hnone]
      exact DoneBy.quiet cache _

theorem chained_lookups (cache : Cache) (steps : List Step) :
    Chained cache (lookups cache steps) (cacheAfter cache steps) := by
  induction steps generalizing cache with
  | nil => rfl
  | cons step steps ih =>
    exact (step.doneBy_lookups cache).chained.append (ih (step.run cache).cache)

theorem almanac_of_mem_keyLookups {almanac : Almanac} {cache : Cache} {keys : List String}
    {lookup : Lookup} (h : lookup ∈ keyLookups almanac cache keys) : lookup.almanac = almanac := by
  induction keys generalizing cache with
  | nil => cases h
  | cons key keys ih =>
    rw [keyLookups] at h
    split at h
    · rw [List.mem_singleton.1 h]
    · rcases List.mem_cons.1 h with rfl | h
      · rfl
      · exact ih h

theorem Step.almanac_of_mem_lookups {step : Step} {cache : Cache} {lookup : Lookup}
    (h : lookup ∈ step.lookups cache) : lookup.almanac = step.almanac := by
  unfold Step.lookups at h
  split at h
  · rw [List.mem_singleton.1 h]
  · cases h
  · obtain ⟨key, -, rfl⟩ := List.mem_map.1 h
    rfl
  · exact almanac_of_mem_keyLookups h

theorem exists_step_of_mem_lookups {cache : Cache} {steps : List Step} {lookup : Lookup}
    (h : lookup ∈ lookups cache steps) : ∃ step ∈ steps, lookup.almanac = step.almanac := by
  induction steps generalizing cache with
  | nil => cases h
  | cons step steps ih =>
    rcases List.mem_append.1 h with h | h
    · exact ⟨step, List.mem_cons_self, Step.almanac_of_mem_lookups h⟩
    · obtain ⟨later, hlater, halmanac⟩ := ih h
      exact ⟨later, List.mem_cons_of_mem _ hlater, halmanac⟩

end ModAlmanac
