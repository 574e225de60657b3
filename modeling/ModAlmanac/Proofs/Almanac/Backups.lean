import ModAlmanac.Proofs.Almanac.Confined

/-!
# Backups

A backup is started for every snapshot that is published and for nothing else
(`backups_are_publications`): one lookup starts at most one (`Lookup.backups_outcome`), a lookup that
gives what is stored, or fails, starts none, and a run starts those of its lookups in their order.
What comes of a backup is told to nobody: with other ways to store them a run gives the same answers
and leaves the same caches (`trace_withBackup`).
-/

namespace ModAlmanac

open Repository

/-! ## Publications -/

/-- The backups that an operation started, in order. -/
def Run.backups {α : Type} (run : Run α) : List Publication :=
  run.events.filterMap Event.backup?

section

variable {α : Type}

@[simp] theorem Run.backups_after (run : Run α) (events : List Event) :
    (run.after events).backups = events.filterMap Event.backup? ++ run.backups :=
  List.filterMap_append

@[simp] theorem Run.value_after (run : Run α) (events : List Event) :
    (run.after events).value = run.value :=
  rfl

theorem filterMap_backup?_of_quiet {events : List Event}
    (h : ∀ event ∈ events, event.backup? = none) : events.filterMap Event.backup? = [] :=
  List.filterMap_eq_nil_iff.2 h

end

/-- What a lookup published: where no snapshot was stored for the mod in its version and the lookup
succeeded, the file that is the snapshot's afterwards. -/
def Lookup.published? (lookup : Lookup) : Option Publication :=
  match lookup.target?, lookup.outcome.value with
  | some (key, tag), .ok _ =>
    match lookup.cache.snapshot? key tag with
    | .ok none =>
      (lookup.outcome.cache.read? (snapshotPath key tag)).map fun content =>
        { key := key.text, tag, content }
    | _ => none
  | _, _ => none

/-! ## Backups of one lookup -/

section

variable {almanac : Almanac} {cache : Cache} {key : ModKey} {tag branch : String} {s : Snapshot}

theorem Almanac.backups_backupEvents (hbackup : almanac.backup?.isSome = true)
    (publication : Publication) :
    (almanac.backupEvents publication).filterMap Event.backup? = [publication] := by
  obtain ⟨store, hstore⟩ := Option.isSome_iff_exists.1 hbackup
  rw [Almanac.backupEvents, hstore]
  rfl

theorem Almanac.backups_publish (hbackup : almanac.backup?.isSome = true) {given : Snapshot}
    (h : (almanac.publish cache key tag given).value = .ok s) :
    (almanac.publish cache key tag given).backups =
      [{ key := key.text, tag, content := s.fileText.toUTF8 }] := by
  unfold Almanac.publish at h ⊢
  dsimp only at h ⊢
  split at h
  · cases h
  · cases h
    exact Almanac.backups_backupEvents hbackup _

theorem Almanac.backups_buildFrom (hbackup : almanac.backup?.isSome = true) {files : List String}
    (h : (almanac.buildFrom cache key tag branch files).value = .ok s) :
    (almanac.buildFrom cache key tag branch files).backups =
      [{ key := key.text, tag, content := s.fileText.toUTF8 }] := by
  rw [Almanac.buildFrom_eq] at h ⊢
  split at h
  · cases h
  · rw [Run.value_after] at h
    rw [Run.backups_after, filterMap_backup?_of_quiet (quiet_fetchCalls key branch files),
      List.nil_append]
    exact Almanac.backups_publish hbackup h

/-- A build that succeeds starts the backup of the file that it wrote. -/
theorem Almanac.backups_build (hbackup : almanac.backup?.isSome = true)
    (h : (almanac.build cache key tag).value = .ok s) :
    (almanac.build cache key tag).backups =
      [{ key := key.text, tag, content := s.fileText.toUTF8 }] := by
  have hlisting : ∀ {branch : String} {listing : List Value},
      (almanac.buildListing cache key tag branch listing).value = .ok s →
        (almanac.buildListing cache key tag branch listing).backups =
          [{ key := key.text, tag, content := s.fileText.toUTF8 }] := by
    intro branch listing h
    unfold Almanac.buildListing at h ⊢
    split at h
    · cases h
    · next hsome =>
      rw [if_neg hsome]
      split at h
      · cases h
      · split at h
        · cases h
        · exact Almanac.backups_buildFrom hbackup h
  unfold Almanac.build at h ⊢
  dsimp only at h ⊢
  split at h
  · cases h
  · split at h
    · cases h
    · rw [Run.value_after] at h
      rw [Run.backups_after]
      exact hlisting h

/-- The file of a build that succeeds is that of its snapshot, and every other one called
`metadata.json` is as it was. -/
theorem BuildEnd.of_ok {run : Outcome Snapshot} (hend : BuildEnd almanac cache key tag run)
    (h : run.value = .ok s) :
    run.cache.read? (snapshotPath key tag) = some s.fileText.toUTF8 ∧
      ∀ path, path.getLast? = some "metadata.json" → path ≠ snapshotPath key tag →
        run.cache.read? path = cache.read? path := by
  cases hend with
  | refused e keyed value cache_eq quiet => cases h.symm.trans value
  | broken e late value beside names cache_eq quiet => cases h.symm.trans value
  | published branch listing files made s' answered listed texts folder compiled value stored others
      calls =>
    cases h.symm.trans value
    refine ⟨by rw [Cache.read?, stored]; rfl, fun path hpath hne => ?_⟩
    have hpart := isBesideName_partName almanac.worker
    have hfetched := almanac.isBesideName_of_mem_fetched made key tag branch files
    have hmade : made.read? path = cache.read? path := by
      have hfolder := cache.read?_makeFolder (versionPath key tag) path
      rwa [folder] at hfolder
    rw [Cache.read?, others path hne (hpart.ne_of_getLast? hpath _), ← hmade]
    exact Cache.read?_putFiles_metadata hfetched hpath made

end

/-- What a lookup does, by what it publishes: the file that is the snapshot's from then on, of which
a backup is started, or nothing. -/
inductive Lookup.PublicationEnd (lookup : Lookup) : Prop
  | published (key : ModKey) (tag : String) (s : Snapshot)
    (target : lookup.target? = some (key, tag))
    (missing : lookup.cache.snapshot? key tag = .ok none)
    (value : lookup.outcome.value = .ok s)
    (stored : lookup.outcome.cache.read? (snapshotPath key tag) = some s.fileText.toUTF8)
    (others : ∀ path, path.getLast? = some "metadata.json" → path ≠ snapshotPath key tag →
      lookup.outcome.cache.read? path = lookup.cache.read? path)
    (backups : lookup.almanac.backup?.isSome = true → lookup.outcome.backups =
      [{ key := key.text, tag, content := s.fileText.toUTF8 }])
  | unpublished (published : lookup.published? = none)
    (unchanged : ∀ path, path.getLast? = some "metadata.json" →
      lookup.outcome.cache.read? path = lookup.cache.read? path)
    (backups : lookup.outcome.backups = [])

section

variable {lookup : Lookup} {key : ModKey} {tag : String} {s : Snapshot}

theorem Lookup.published?_of_missing (htarget : lookup.target? = some (key, tag))
    (hmissing : lookup.cache.snapshot? key tag = .ok none) (hvalue : lookup.outcome.value = .ok s)
    {content : ByteArray}
    (hstored : lookup.outcome.cache.read? (snapshotPath key tag) = some content) :
    lookup.published? = some { key := key.text, tag, content } := by
  simp only [Lookup.published?, htarget, hvalue, hmissing, hstored, Option.map_some]

/-- Only a lookup of a mod that succeeds, although nothing was stored, publishes something. -/
theorem Lookup.missing_of_published? {p : Publication} (h : lookup.published? = some p) :
    ∃ key s, lookup.target? = some (key, p.tag) ∧ p.key = key.text ∧
      lookup.cache.snapshot? key p.tag = .ok none ∧ lookup.outcome.value = .ok s ∧
        lookup.outcome.cache.read? (snapshotPath key p.tag) = some p.content := by
  unfold Lookup.published? at h
  split at h
  · next key tag s htarget hvalue =>
    split at h
    · next hmissing =>
      obtain ⟨content, hcontent, rfl⟩ := Option.map_eq_some_iff.1 h
      exact ⟨key, s, htarget, rfl, hmissing, hvalue, hcontent⟩
    · cases h
  · cases h

theorem Lookup.published?_eq_none_of_target? (htarget : lookup.target? = some (key, tag))
    (h : lookup.cache.snapshot? key tag ≠ .ok none ∨ ∃ e, lookup.outcome.value = .error e) :
    lookup.published? = none := by
  rw [Option.eq_none_iff_forall_ne_some]
  intro p hp
  obtain ⟨key', s, htarget', -, hmissing, hvalue, -⟩ := Lookup.missing_of_published? hp
  rw [htarget] at htarget'
  cases htarget'
  rcases h with h | ⟨e, he⟩
  · exact h hmissing
  · rw [he] at hvalue
    cases hvalue

/-- A lookup that finds something stored publishes nothing. -/
theorem Lookup.publicationEnd_of_stored (htarget : lookup.target? = some (key, tag))
    (hstored : lookup.cache.snapshot? key tag ≠ .ok none) : lookup.PublicationEnd := by
  have houtcome := Lookup.outcome_of_target? htarget
  have hquiet : lookup.outcome.cache = lookup.cache ∧ lookup.outcome.backups = [] := by
    rw [houtcome]
    unfold Almanac.getVersion
    split
    · exact ⟨rfl, rfl⟩
    · exact ⟨rfl, rfl⟩
    · next hmissing => exact absurd hmissing hstored
  exact .unpublished (Lookup.published?_eq_none_of_target? htarget (.inl hstored))
    (fun _ _ => by rw [hquiet.1]) hquiet.2

/-- A lookup that finds nothing stored publishes what it builds. -/
theorem Lookup.publicationEnd_of_missing (htarget : lookup.target? = some (key, tag))
    (hmissing : lookup.cache.snapshot? key tag = .ok none) : lookup.PublicationEnd := by
  have houtcome := Lookup.outcome_of_target? htarget
  simp only [Almanac.getVersion, hmissing] at houtcome
  have hend := lookup.almanac.end_build lookup.cache key tag
  have hvalue : lookup.outcome.value =
      (lookup.almanac.build lookup.cache key tag).value := by rw [houtcome]; rfl
  have hcache : lookup.outcome.cache =
      (lookup.almanac.build lookup.cache key tag).cache := by rw [houtcome]; rfl
  have hbackups : lookup.outcome.backups =
      (lookup.almanac.build lookup.cache key tag).backups := by rw [houtcome]; rfl
  cases hbuilt : (lookup.almanac.build lookup.cache key tag).value with
  | error e =>
    obtain ⟨hsame, hquiet, -, -⟩ := hend.of_error hbuilt
    refine .unpublished
      (Lookup.published?_eq_none_of_target? htarget (.inr ⟨e, hvalue.trans hbuilt⟩))
      (fun path hpath => ?_) ?_
    · rw [hcache]
      exact hsame path hpath
    · rw [hbackups]
      exact filterMap_backup?_of_quiet hquiet
  | ok s =>
    obtain ⟨hstored, hothers⟩ := hend.of_ok hbuilt
    rw [← hcache] at hstored hothers
    refine .published key tag s htarget hmissing (hvalue.trans hbuilt) hstored hothers
      fun hbackup => ?_
    rw [hbackups]
    exact Almanac.backups_build hbackup hbuilt

theorem Lookup.publicationEnd (lookup : Lookup) : lookup.PublicationEnd := by
  cases htarget : lookup.target? with
  | none =>
    obtain ⟨e, houtcome⟩ := Lookup.outcome_of_target?_eq_none htarget
    refine .unpublished ?_ (fun _ _ => by rw [houtcome]) (by rw [houtcome]; rfl)
    simp only [Lookup.published?, htarget]
  | some target =>
    by_cases hmissing : lookup.cache.snapshot? target.1 target.2 = .ok none
    · exact Lookup.publicationEnd_of_missing htarget hmissing
    · exact Lookup.publicationEnd_of_stored htarget hmissing

/-- A lookup starts the backup of what it publishes. -/
theorem Lookup.backups_outcome (hbackup : lookup.almanac.backup?.isSome = true) :
    lookup.outcome.backups = lookup.published?.toList := by
  cases lookup.publicationEnd with
  | unpublished published unchanged backups =>
    rw [backups, published]
    rfl
  | published key tag s target missing value stored others backups =>
    rw [backups hbackup, Lookup.published?_of_missing target missing value stored]
    rfl

/-- A file called `metadata.json` changes only by being published. -/
theorem Lookup.published?_of_changed {path : CachePath}
    (hpath : path.getLast? = some "metadata.json")
    (h : lookup.outcome.cache.read? path ≠ lookup.cache.read? path) :
    ∃ key p, lookup.published? = some p ∧ p.key = key.text ∧ path = snapshotPath key p.tag := by
  cases lookup.publicationEnd with
  | unpublished published unchanged backups => exact absurd (unchanged path hpath) h
  | published key tag s target missing value stored others backups =>
    refine ⟨key, _, Lookup.published?_of_missing target missing value stored, rfl, ?_⟩
    by_contra hne
    exact h (others path hpath hne)

/-- What is published is the file of the snapshot that is given. -/
theorem Lookup.published?_eq_some_iff {p : Publication} :
    lookup.published? = some p ↔
      ∃ key s, lookup.target? = some (key, p.tag) ∧ p.key = key.text ∧
        lookup.cache.snapshot? key p.tag = .ok none ∧ lookup.outcome.value = .ok s ∧
          p.content = s.fileText.toUTF8 ∧
            lookup.outcome.cache.read? (snapshotPath key p.tag) = some p.content := by
  constructor
  · intro h
    obtain ⟨key, s, htarget, hkey, hmissing, hvalue, hcontent⟩ := Lookup.missing_of_published? h
    cases lookup.publicationEnd with
    | unpublished published unchanged backups =>
      rw [published] at h
      cases h
    | published key' tag s' target missing value stored others backups =>
      rw [target] at htarget
      cases htarget
      rw [stored] at hcontent
      exact ⟨key, s', target, hkey, missing, value, (Option.some.inj hcontent).symm,
        stored.trans hcontent⟩
  · rintro ⟨key, s, htarget, hkey, hmissing, hvalue, -, hstored⟩
    rw [Lookup.published?_of_missing htarget hmissing hvalue hstored, ← hkey]

end

/-! ## Backups of a run -/

/-- The backups that a run starts, in order. -/
def startedBackups (cache : Cache) : List Step → List Publication
  | [] => []
  | step :: rest => (step.run cache).backups ++ startedBackups (step.run cache).cache rest

theorem DoneBy.backups {α : Type} {lookups : List Lookup} {cache : Cache} {run : Run α}
    (h : DoneBy lookups cache run) : run.backups = lookups.flatMap (·.outcome.backups) := by
  rcases h.events with hevents | ⟨rfl, hasked⟩
  · rw [Run.backups, hevents, List.filterMap_flatMap]
    rfl
  · refine filterMap_backup?_of_quiet fun event hevent => ?_
    obtain ⟨key, rfl⟩ := hasked event hevent
    rfl

theorem startedBackups_eq_flatMap (cache : Cache) (steps : List Step) :
    startedBackups cache steps = (lookups cache steps).flatMap (·.outcome.backups) := by
  induction steps generalizing cache with
  | nil => rfl
  | cons step steps ih =>
    rw [startedBackups, lookups, List.flatMap_append, (step.doneBy_lookups cache).backups, ih]

/-! ## Answers of a run -/

/-- What a use of an almanac is answered. -/
inductive Answer where
  | snapshot (value : Except Failure Snapshot)
  | stored (value : Except Failure (String × Option Snapshot))
  | response (value : Except Http.AddressError Site.Response)
  | report (value : Command.Report)

def Step.answer (step : Step) (cache : Cache) : Answer :=
  match step.use with
  | .get given => .snapshot (step.almanac.get cache given).value
  | .peek given => .stored (step.almanac.peek cache given).value
  | .visit method address =>
    .response ((Site.visit step.almanac cache method address).map Run.value)
  | .command texts => .report (Command.run step.almanac cache texts).value

/-- The answers of a run, each with the cache that is left behind. -/
def trace (cache : Cache) : List Step → List (Answer × Cache)
  | [] => []
  | step :: rest =>
    (step.answer cache, (step.run cache).cache) :: trace (step.run cache).cache rest

def Almanac.withBackup (almanac : Almanac) (store? : Option (Publication → Bool)) : Almanac :=
  { almanac with backup? := store? }

/-- The step with another way to store backups, or none. -/
def Step.withBackup (step : Step) (store? : Option (Publication → Bool)) : Step :=
  { step with almanac := step.almanac.withBackup store? }

/-- What can be seen of an operation: what it gives and the cache that it leaves. -/
def Run.result {α : Type} (run : Run α) : α × Cache :=
  (run.value, run.cache)

section

variable {α β : Type}

@[simp] theorem Run.result_after (run : Run α) (events : List Event) :
    (run.after events).result = run.result :=
  rfl

theorem Run.result_map (run : Run α) (f : α → β) :
    (run.map f).result = (f run.result.1, run.result.2) :=
  rfl

end

section

variable (almanac : Almanac) (store? : Option (Publication → Bool)) (cache : Cache)

theorem Almanac.result_publish_withBackup (key : ModKey) (tag : String) (s : Snapshot) :
    ((almanac.withBackup store?).publish cache key tag s).result =
      (almanac.publish cache key tag s).result := by
  unfold Almanac.publish
  dsimp only [Almanac.withBackup]
  split
  · rfl
  · rfl

theorem Almanac.result_buildFrom_withBackup (key : ModKey) (tag branch : String)
    (files : List String) :
    ((almanac.withBackup store?).buildFrom cache key tag branch files).result =
      (almanac.buildFrom cache key tag branch files).result := by
  have hmaterial : (almanac.withBackup store?).material cache key tag branch files =
      almanac.material cache key tag branch files := rfl
  have hkept : (almanac.withBackup store?).keptImages cache key tag branch files =
      almanac.keptImages cache key tag branch files := rfl
  have hcontext : (almanac.withBackup store?).context = almanac.context := rfl
  rw [Almanac.buildFrom_eq, Almanac.buildFrom_eq, hmaterial, hkept, hcontext]
  split
  · rfl
  · rw [Run.result_after, Run.result_after]
    exact almanac.result_publish_withBackup store? _ _ _ _

theorem Almanac.result_build_withBackup (key : ModKey) (tag : String) :
    ((almanac.withBackup store?).build cache key tag).result =
      (almanac.build cache key tag).result := by
  have hhost : (almanac.withBackup store?).host = almanac.host := rfl
  have hlisting : ∀ (branch : String) (listing : List Value),
      ((almanac.withBackup store?).buildListing cache key tag branch listing).result =
        (almanac.buildListing cache key tag branch listing).result := by
    intro branch listing
    unfold Almanac.buildListing
    split
    · rfl
    · split
      · rfl
      · split
        · rfl
        · exact almanac.result_buildFrom_withBackup store? _ _ _ _ _
  unfold Almanac.build
  rw [hhost]
  dsimp only
  split
  · rfl
  · split
    · rfl
    · rw [Run.result_after, Run.result_after]
      exact hlisting _ _

/-- What a lookup gives and leaves behind does not depend on how backups are stored. -/
theorem Almanac.result_get_withBackup (given : Value) :
    ((almanac.withBackup store?).get cache given).result = (almanac.get cache given).result := by
  cases hkey : ModKey.parse given with
  | error e => rw [Almanac.get_of_invalid hkey, Almanac.get_of_invalid hkey]
  | ok key =>
    have htag : (almanac.withBackup store?).resolveTag key = almanac.resolveTag key := rfl
    rw [Almanac.get_of_parse hkey, Almanac.get_of_parse hkey, htag, Run.result_after,
      Run.result_after]
    unfold Almanac.getVersion
    split
    · rfl
    · rfl
    · exact almanac.result_build_withBackup store? cache key _

/-- Going through keys gives the same if every key does. -/
theorem Command.result_forKeys_congr {line other : Cache → String → Outcome String}
    (h : ∀ cache key, (line cache key).result = (other cache key).result) (keys : List String) :
    (Command.forKeys line cache keys).result = (Command.forKeys other cache keys).result := by
  induction keys generalizing cache with
  | nil => rfl
  | cons key keys ih =>
    obtain ⟨hvalue, hcache⟩ := Prod.mk.inj (h cache key)
    rw [Command.forKeys, Command.forKeys, ← hvalue, ← hcache]
    split
    · rfl
    · rw [Run.result_after, Run.result_after, Run.result_map, Run.result_map, ih]

theorem Command.result_run_withBackup (texts : List String) :
    (Command.run (almanac.withBackup store?) cache texts).result =
      (Command.run almanac cache texts).result := by
  unfold Command.run
  split
  · rfl
  · split
    · rfl
    · rfl
    · rfl
    · refine Command.result_forKeys_congr cache (fun cache key => ?_) _
      rw [Run.result_map, Run.result_map, almanac.result_get_withBackup store?]

theorem Site.result_respond_withBackup (method : String) (path : List Char) :
    (Site.respond (almanac.withBackup store?) cache method path).result =
      (Site.respond almanac cache method path).result := by
  unfold Site.respond
  cases Site.Route.ofPath? path with
  | none => rfl
  | some route =>
    dsimp only
    split
    · cases route with
      | snapshot key =>
        dsimp only
        rw [Run.result_map, Run.result_map, almanac.result_get_withBackup store?]
      | image key version file => rfl
    · rfl

end

/-- A step is answered the same, and leaves the same cache, however backups are stored. -/
theorem Step.answer_withBackup (step : Step) (store? : Option (Publication → Bool))
    (cache : Cache) :
    ((step.withBackup store?).answer cache, ((step.withBackup store?).run cache).cache) =
      (step.answer cache, (step.run cache).cache) := by
  obtain ⟨almanac, use⟩ := step
  unfold Step.withBackup Step.answer Step.run
  cases use with
  | get given =>
    obtain ⟨hvalue, hcache⟩ := Prod.mk.inj (almanac.result_get_withBackup store? cache given)
    exact Prod.ext (congrArg Answer.snapshot hvalue) hcache
  | peek given => rfl
  | visit method address =>
    dsimp only
    unfold Site.visit
    cases Http.pathOf address.toList with
    | error e => simp only [bind, Except.bind, Except.map]
    | ok path =>
      simp only [bind, Except.bind, pure, Except.pure, Except.map]
      obtain ⟨hvalue, hcache⟩ := Prod.mk.inj (Site.result_respond_withBackup almanac store? cache
        method (Text.Percent.decode path))
      exact Prod.ext (congrArg (fun value => Answer.response (.ok value)) hvalue) hcache
  | command texts =>
    obtain ⟨hvalue, hcache⟩ :=
      Prod.mk.inj (Command.result_run_withBackup almanac store? cache texts)
    exact Prod.ext (congrArg Answer.report hvalue) hcache

/-- A run is answered the same, and leaves the same caches, however backups are stored. -/
theorem trace_withBackup (store? : Option (Publication → Bool)) (cache : Cache)
    (steps : List Step) :
    trace cache (steps.map (·.withBackup store?)) = trace cache steps := by
  induction steps generalizing cache with
  | nil => rfl
  | cons step steps ih =>
    obtain ⟨hanswer, hcache⟩ := Prod.mk.inj (step.answer_withBackup store? cache)
    rw [List.map_cons, trace, trace, hanswer, hcache, ih]

/-! ## Backups are publications -/

/-- A run whose almanacs can store backups starts those of the files that its lookups publish, in
their order, and no other one. A lookup publishes a file if nothing was stored for its mod in its
version and it succeeds: the one of the snapshot that it gives, which lies in its place afterwards.
No other file called `metadata.json` changes. Asking for what is stored starts nothing. With any
other way to store backups, such as one that always fails, the run has the same answers and the same
caches. -/
theorem backups_are_publications (cache : Cache) {steps : List Step}
    (hbackup : ∀ step ∈ steps, step.almanac.backup?.isSome = true) :
    startedBackups cache steps = (lookups cache steps).filterMap Lookup.published? ∧
    (∀ lookup ∈ lookups cache steps,
      lookup.outcome.backups = lookup.published?.toList ∧
      (∀ p, lookup.published? = some p ↔
        ∃ key s, lookup.target? = some (key, p.tag) ∧ p.key = key.text ∧
          lookup.cache.snapshot? key p.tag = .ok none ∧ lookup.outcome.value = .ok s ∧
            p.content = s.fileText.toUTF8 ∧
              lookup.outcome.cache.read? (snapshotPath key p.tag) = some p.content) ∧
      ∀ path, path.getLast? = some "metadata.json" →
        lookup.outcome.cache.read? path ≠ lookup.cache.read? path →
          ∃ key p, lookup.published? = some p ∧ p.key = key.text ∧
            path = snapshotPath key p.tag) ∧
    (∀ (almanac : Almanac) (before : Cache) (given : Value),
      (almanac.peek before given).backups = []) ∧
    ∀ store? : Option (Publication → Bool),
      trace cache (steps.map (·.withBackup store?)) = trace cache steps := by
  have hstarted : ∀ lookup ∈ lookups cache steps,
      lookup.outcome.backups = lookup.published?.toList := by
    intro lookup hlookup
    obtain ⟨step, hstep, halmanac⟩ := exists_step_of_mem_lookups hlookup
    refine Lookup.backups_outcome ?_
    rw [halmanac]
    exact hbackup step hstep
  refine ⟨?_, fun lookup hlookup => ⟨hstarted lookup hlookup,
    fun p => Lookup.published?_eq_some_iff, fun path => Lookup.published?_of_changed⟩,
    fun almanac before given => (almanac.doneBy_peek before given).backups,
    fun store? => trace_withBackup store? cache steps⟩
  rw [startedBackups_eq_flatMap, List.filterMap_eq_flatMap_toList]
  exact List.flatMap_congr hstarted

/-- The question for the snapshot of the repository without source files, where every backup
fails. -/
def unbackedStep : Step :=
  (readmeStep "v1/0").withBackup (some fun _ => false)

/-- The lookup that this question is. -/
def unbackedLookup : Lookup :=
  { almanac := unbackedStep.almanac, cache := Cache.empty, given := .text "demo@studio" }

/-- The first question starts a backup, and without it the answer is the same. -/
theorem readme_backed_up :
    (∀ step ∈ [unbackedStep], step.almanac.backup?.isSome = true) ∧
      startedBackups Cache.empty [unbackedStep] =
        [{ key := "demo@studio", tag := "v1/0"
           content := (bareSnapshot "v1/0").fileText.toUTF8 }] ∧
        trace Cache.empty ([unbackedStep].map (·.withBackup none)) =
          trace Cache.empty [unbackedStep] := by
  have hbackup : ∀ step ∈ [unbackedStep], step.almanac.backup?.isSome = true :=
    List.forall_mem_singleton.2 rfl
  obtain ⟨hstarted, -, -, htrace⟩ := backups_are_publications Cache.empty hbackup
  refine ⟨hbackup, ?_, htrace none⟩
  have houtcome : (readmeLookup "v1/0" Cache.empty).outcome.result =
      (.ok (bareSnapshot "v1/0"), readmeCache) := by
    rw [outcome_readmeLookup_empty]
    rfl
  have htarget : unbackedLookup.target? = some (sampleKey, "v1/0") := rfl
  have hresult : unbackedLookup.outcome.result = (.ok (bareSnapshot "v1/0"), readmeCache) :=
    ((readmeAlmanac "v1/0").result_get_withBackup _ Cache.empty _).trans houtcome
  obtain ⟨hvalue, hcache⟩ := Prod.mk.inj hresult
  have hstored : unbackedLookup.outcome.cache.read? (snapshotPath sampleKey "v1/0") =
      some (bareSnapshot "v1/0").fileText.toUTF8 := by
    rw [hcache, readmeCache]
    generalize (bareSnapshot "v1/0").fileText.toUTF8 = content
    rfl
  have hpublished : unbackedLookup.published? =
      some { key := "demo@studio", tag := "v1/0"
             content := (bareSnapshot "v1/0").fileText.toUTF8 } :=
    Lookup.published?_of_missing htarget rfl hvalue hstored
  have hlookups : lookups Cache.empty [unbackedStep] = [unbackedLookup] := rfl
  rw [hstarted, hlookups, List.filterMap_cons_some hpublished, List.filterMap_nil]

end ModAlmanac
