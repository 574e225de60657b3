import ModAlmanac.Proofs.Almanac.Runs

/-!
# What is given once is kept

The invariant of a run (`Consistent`) relates the cache to the lookups so far. Every stored snapshot
was built by one of them, for the mod and the folder that it is stored under; and every snapshot
that one of them gave is still stored, or is what is read back of the stored one. A lookup keeps the
invariant (`Consistent.lookup`), so that it holds all along a run from the empty cache
(`consistent_before`, `consistent_after`).

Two results follow. What has been given once for a mod and a tag is given ever after, without a
question besides that for the tag, and its file stays as it is (`snapshot_given_once_is_kept`). And
every lookup gives a snapshot of the tag that it has been told exactly if no two tags for which
snapshots of one mod are given share a folder (`versions_right_iff`); tags do that if one has a
slash where the other has an underscore (`slashed_version_wrong`).
-/

namespace ModAlmanac

/-! ## The invariant -/

/-- A lookup builds a snapshot of a mod: it compiles it for the tag, which has the folder, and gives
it. -/
def Lookup.Builds (lookup : Lookup) (key : ModKey) (folder : String) (s : Snapshot) : Prop :=
  ∃ tag material, lookup.Gives key tag s ∧ versionFolder tag = folder ∧
    Snapshot.compile lookup.almanac.context tag material = .ok s

/-- A snapshot is still there: it is the one that a past lookup has built and that is stored, or
what is read back of that one. -/
def Recalls (past : List Lookup) (cache : Cache) (key : ModKey) (tag : String) (s : Snapshot) :
    Prop :=
  ∃ builder ∈ past, ∃ stored, builder.Builds key (versionFolder tag) stored ∧
    cache.Stores key tag stored ∧ (s = stored ∨ s = stored.reread)

/-- The cache is what the past lookups have made of an empty one. -/
structure Consistent (past : List Lookup) (cache : Cache) : Prop where
  /-- Whatever is stored has been built. -/
  built : ∀ key tag content, cache.read? (snapshotPath key tag) = some content →
    ∃ builder ∈ past, ∃ s, builder.Builds key (versionFolder tag) s ∧
      content = s.fileText.toUTF8
  /-- Whatever has been given is still there. -/
  kept : ∀ lookup ∈ past, ∀ key tag s, lookup.Gives key tag s → Recalls past cache key tag s

theorem consistent_empty : Consistent [] Cache.empty where
  built := fun _ _ _ h => by cases h
  kept := fun _ h => absurd h List.not_mem_nil

theorem Lookup.Builds.isTyped_reread {lookup : Lookup} {key : ModKey} {folder : String}
    {s : Snapshot} (h : lookup.Builds key folder s) : s.reread.isTyped = true := by
  obtain ⟨tag, material, -, -, hcompile⟩ := h
  exact Snapshot.isTyped_reread_of_compile hcompile

theorem Recalls.mono {past more : List Lookup} {cache other : Cache} {key : ModKey} {tag : String}
    {s : Snapshot} (h : Recalls past cache key tag s)
    (hread : other.read? (snapshotPath key tag) = cache.read? (snapshotPath key tag)) :
    Recalls (past ++ more) other key tag s := by
  obtain ⟨builder, hbuilder, stored, hbuilds, hstores, hs⟩ := h
  exact ⟨builder, List.mem_append_left _ hbuilder, stored, hbuilds, hread.trans hstores, hs⟩

/-! ## One lookup -/

theorem Lookup.outcome_of_target? {lookup : Lookup} {key : ModKey} {tag : String}
    (h : lookup.target? = some (key, tag)) :
    lookup.outcome =
      (lookup.almanac.getVersion lookup.cache key tag).after [askTag key] := by
  unfold Lookup.target? at h
  unfold Lookup.outcome Almanac.get
  split at h
  · next parsed hparse =>
    cases h
    rw [hparse]
  · cases h

theorem Lookup.outcome_of_target?_eq_none {lookup : Lookup} (h : lookup.target? = none) :
    ∃ e, lookup.outcome = { value := .error e, cache := lookup.cache, events := [] } := by
  unfold Lookup.target? at h
  unfold Lookup.outcome Almanac.get
  split at h
  · cases h
  · next e hparse => exact ⟨.invalidKey e, by rw [hparse]⟩

/-- A lookup that succeeds gives the snapshot of a mod for the tag that it is told. -/
theorem Lookup.exists_gives {lookup : Lookup} {s : Snapshot} (h : lookup.outcome.value = .ok s) :
    ∃ key, ModKey.parse lookup.given = .ok key ∧
      lookup.Gives key (lookup.almanac.resolveTag key) s := by
  cases hkey : ModKey.parse lookup.given with
  | error e =>
    rw [Lookup.outcome, Almanac.get, hkey] at h
    cases h
  | ok key =>
    refine ⟨key, rfl, ?_, h⟩
    rw [Lookup.target?, hkey]

/-- A lookup of what is stored gives what is read back of it, and does no more than ask for the
tag. -/
theorem Lookup.outcome_of_stored {lookup : Lookup} {key : ModKey} {tag : String} {s : Snapshot}
    (h : lookup.target? = some (key, tag)) (hs : s.reread.isTyped = true)
    (hstores : lookup.cache.Stores key tag s) :
    lookup.outcome = { value := .ok s.reread, cache := lookup.cache, events := [askTag key] } := by
  rw [Lookup.outcome_of_target? h, Almanac.getVersion_of_stored hs hstores]
  rfl

/-- A lookup that leaves the stored snapshots alone keeps the invariant if what it gives is still
there. -/
theorem Consistent.append_of_same {past : List Lookup} {cache other : Cache} {lookup : Lookup}
    (h : Consistent past cache) (hsame : cache.SameSnapshots other)
    (hgives : ∀ key tag s, lookup.Gives key tag s → Recalls past cache key tag s) :
    Consistent (past ++ [lookup]) other where
  built := by
    intro key tag content hread
    rw [hsame] at hread
    obtain ⟨builder, hbuilder, hbuilt⟩ := h.built key tag content hread
    exact ⟨builder, List.mem_append_left _ hbuilder, hbuilt⟩
  kept := by
    intro other hother key tag s hother'
    rcases List.mem_append.1 hother with hother | hother
    · exact (h.kept other hother key tag s hother').mono (hsame key tag)
    · rw [List.mem_singleton.1 hother] at hother'
      exact (hgives key tag s hother').mono (hsame key tag)

/-- A lookup that stores a snapshot where there was none keeps the invariant. -/
theorem Consistent.append_of_built {past : List Lookup} {cache other : Cache} {lookup : Lookup}
    {key : ModKey} {tag : String} {s : Snapshot} {material : Material}
    (h : Consistent past cache) (hnone : cache.read? (snapshotPath key tag) = none)
    (hgives : lookup.Gives key tag s)
    (hcompile : Snapshot.compile lookup.almanac.context tag material = .ok s)
    (hstores : other.Stores key tag s)
    (hothers : ∀ (key' : ModKey) (tag' : String), snapshotPath key' tag' ≠ snapshotPath key tag →
      other.read? (snapshotPath key' tag') = cache.read? (snapshotPath key' tag')) :
    Consistent (past ++ [lookup]) other where
  built := by
    intro key' tag' content hread
    by_cases hpath : snapshotPath key' tag' = snapshotPath key tag
    · obtain ⟨rfl, hfolder⟩ := snapshotPath_eq_iff.1 hpath
      rw [hpath, hstores] at hread
      exact ⟨lookup, List.mem_append_right _ List.mem_cons_self, s,
        ⟨tag, material, hgives, hfolder.symm, hcompile⟩, (Option.some.inj hread).symm⟩
    · rw [hothers key' tag' hpath] at hread
      obtain ⟨builder, hbuilder, hbuilt⟩ := h.built key' tag' content hread
      exact ⟨builder, List.mem_append_left _ hbuilder, hbuilt⟩
  kept := by
    intro past' hpast key' tag' s' hgives'
    rcases List.mem_append.1 hpast with hpast | hpast
    · -- a snapshot given before is still stored, so that its file cannot be the missing one
      have hne : snapshotPath key' tag' ≠ snapshotPath key tag := by
        intro hpath
        obtain ⟨-, -, stored, -, hstored, -⟩ := h.kept past' hpast key' tag' s' hgives'
        rw [Cache.Stores, hpath, hnone] at hstored
        cases hstored
      exact (h.kept past' hpast key' tag' s' hgives').mono (hothers key' tag' hne)
    · rw [List.mem_singleton.1 hpast] at hgives'
      cases hgives.1.symm.trans hgives'.1
      cases hgives.2.symm.trans hgives'.2
      exact ⟨lookup, List.mem_append_right _ List.mem_cons_self, s,
        ⟨tag, material, hgives, rfl, hcompile⟩, hstores, .inl rfl⟩

/-- A lookup keeps the invariant. -/
theorem Consistent.lookup {past : List Lookup} {lookup : Lookup}
    (h : Consistent past lookup.cache) : Consistent (past ++ [lookup]) lookup.outcome.cache := by
  cases htarget : lookup.target? with
  | none =>
    obtain ⟨e, houtcome⟩ := Lookup.outcome_of_target?_eq_none htarget
    rw [houtcome]
    refine h.append_of_same (Cache.SameSnapshots.refl _) fun key tag s hgives => ?_
    rw [Lookup.Gives, htarget] at hgives
    cases hgives.1
  | some target =>
    obtain ⟨key, tag⟩ := target
    cases hread : lookup.cache.read? (snapshotPath key tag) with
    | some content =>
      -- a stored file was written by a past lookup, and what is read back of it is given
      obtain ⟨builder, hbuilder, stored, hbuilds, rfl⟩ := h.built key tag content hread
      have houtcome := Lookup.outcome_of_stored htarget hbuilds.isTyped_reread hread
      rw [houtcome]
      refine h.append_of_same (Cache.SameSnapshots.refl _) fun key' tag' s hgives => ?_
      cases htarget.symm.trans hgives.1
      have hvalue := hgives.2
      rw [houtcome] at hvalue
      cases hvalue
      exact ⟨builder, hbuilder, stored, hbuilds, hread, .inr rfl⟩
    | none =>
      have houtcome := Lookup.outcome_of_target? htarget
      rw [Almanac.getVersion_of_read?_eq_none hread] at houtcome
      cases lookup.almanac.effect_build lookup.cache key tag with
      | failed e value same =>
        rw [houtcome]
        refine h.append_of_same same fun key' tag' s hgives => ?_
        have hvalue := hgives.2
        rw [houtcome] at hvalue
        cases value.symm.trans hvalue
      | stored material s compiled value stores others =>
        have hgives : lookup.Gives key tag s := ⟨htarget, by rw [houtcome]; exact value⟩
        rw [houtcome]
        exact h.append_of_built hread hgives compiled stores others

/-! ## Runs -/

/-- A chain of lookups keeps the invariant. -/
theorem Consistent.chained {past lookups : List Lookup} {first last : Cache}
    (h : Consistent past first) (hchain : Chained first lookups last) :
    Consistent (past ++ lookups) last := by
  induction lookups generalizing past first with
  | nil =>
    cases hchain
    rwa [List.append_nil]
  | cons lookup rest ih =>
    obtain ⟨rfl, hrest⟩ := hchain
    rw [List.append_cons]
    exact ih h.lookup hrest

/-- At its end a run is consistent. -/
theorem consistent_after (steps : List Step) :
    Consistent (lookups Cache.empty steps) (cacheAfter Cache.empty steps) :=
  consistent_empty.chained (chained_lookups Cache.empty steps)

/-- Before every lookup a run is consistent. -/
theorem consistent_before {steps : List Step} {front back : List Lookup} {lookup : Lookup}
    (h : lookups Cache.empty steps = front ++ lookup :: back) : Consistent front lookup.cache := by
  have hchain := chained_lookups Cache.empty steps
  rw [h] at hchain
  exact consistent_empty.chained hchain.before

/-- What is stored has been built, so that it can be read back. -/
theorem Consistent.exists_snapshot? {past : List Lookup} {cache : Cache} (h : Consistent past cache)
    (key : ModKey) (tag : String) : ∃ stored, cache.snapshot? key tag = .ok stored := by
  cases hread : cache.read? (snapshotPath key tag) with
  | none => exact ⟨none, by rw [Cache.snapshot?, hread]⟩
  | some content =>
    obtain ⟨builder, -, s, hbuilds, rfl⟩ := h.built key tag content hread
    refine ⟨some s.reread, ?_⟩
    rw [Cache.snapshot?, hread]
    exact Snapshot.load_fileText_reread hbuilds.isTyped_reread

/-- What has been given is stored, up to what is replaced when it is read back. -/
theorem Consistent.snapshot?_of_gives {past : List Lookup} {cache : Cache}
    (h : Consistent past cache) {lookup : Lookup} (hlookup : lookup ∈ past) {key : ModKey}
    {tag : String} {s : Snapshot} (hgives : lookup.Gives key tag s) :
    s.reread.isTyped = true ∧ cache.snapshot? key tag = .ok (some s.reread) := by
  obtain ⟨builder, -, stored, hbuilds, hstores, hs⟩ := h.kept lookup hlookup key tag s hgives
  have htyped := hbuilds.isTyped_reread
  have hsame : s.reread = stored.reread := by
    rcases hs with rfl | rfl
    · rfl
    · exact Snapshot.reread_eq_self htyped
  rw [hsame, Cache.snapshot?, hstores]
  exact ⟨htyped, Snapshot.load_fileText_reread htyped⟩

/-- What holds of every entry of a list with those in front of it holds of its pairs. -/
theorem pairwise_of_front {α : Type} {R : α → α → Prop} {items : List α}
    (h : ∀ front item back, items = front ++ item :: back → ∀ other ∈ front, R other item) :
    items.Pairwise R := by
  induction items using List.reverseRecOn with
  | nil => exact List.Pairwise.nil
  | append_singleton items last ih =>
    refine List.pairwise_append.2 ⟨ih fun front item back hitems => ?_, List.pairwise_singleton _ _,
      fun other hother item hitem => ?_⟩
    · exact h front item (back ++ [last]) (by rw [hitems]; simp)
    · rw [List.mem_singleton.1 hitem]
      exact h items last [] rfl other hother

/-- In a run with plain constants, whatever has been given is what is stored. -/
theorem Consistent.stores_of_gives {past : List Lookup} {cache : Cache} (h : Consistent past cache)
    (hcontext : ∀ lookup ∈ past, lookup.almanac.context.HasTextKeys) {lookup : Lookup}
    (hlookup : lookup ∈ past) {key : ModKey} {tag : String} {s : Snapshot}
    (hgives : lookup.Gives key tag s) : s.isTyped = true ∧ cache.Stores key tag s := by
  obtain ⟨builder, hbuilder, stored, ⟨tag', material, -, -, hcompile⟩, hstores, hs⟩ :=
    h.kept lookup hlookup key tag s hgives
  have htyped := Snapshot.isTyped_of_compile (hcontext builder hbuilder) hcompile
  rw [Snapshot.reread_eq_self htyped, or_self] at hs
  rw [hs]
  exact ⟨htyped, hstores⟩

theorem hasTextKeys_of_mem_lookups {steps : List Step}
    (hcontext : ∀ step ∈ steps, step.almanac.context.HasTextKeys) (cache : Cache) :
    ∀ lookup ∈ lookups cache steps, lookup.almanac.context.HasTextKeys := by
  intro lookup hlookup
  obtain ⟨step, hstep, halmanac⟩ := exists_step_of_mem_lookups hlookup
  rw [halmanac]
  exact hcontext step hstep

/-- Along a run from an empty cache with constants whose tables have text keys: once a lookup of a
mod has given a snapshot for a tag, every later lookup of the mod with this tag gives the same
snapshot and asks for nothing but the tag; and from then on the file of the mod under the tag is the
file of this snapshot, after the lookup itself, after every later one and at the end. -/
theorem snapshot_given_once_is_kept {steps : List Step}
    (hcontext : ∀ step ∈ steps, step.almanac.context.HasTextKeys) :
    (lookups Cache.empty steps).Pairwise (fun first second =>
      ∀ key tag s, first.Gives key tag s →
        second.outcome.cache.Stores key tag s ∧
          (second.target? = some (key, tag) →
            second.outcome.value = .ok s ∧ second.outcome.events = [askTag key])) ∧
      ∀ lookup ∈ lookups Cache.empty steps, ∀ key tag s, lookup.Gives key tag s →
        lookup.outcome.cache.Stores key tag s ∧
          (cacheAfter Cache.empty steps).Stores key tag s := by
  have hall := hasTextKeys_of_mem_lookups hcontext Cache.empty
  have hupTo : ∀ {front back lookup}, lookups Cache.empty steps = front ++ lookup :: back →
      ∀ other ∈ front ++ [lookup], other.almanac.context.HasTextKeys := by
    intro front back lookup hsplit other hother
    refine hall other ?_
    rw [hsplit, List.append_cons]
    exact List.mem_append_left back hother
  constructor
  · refine pairwise_of_front fun front second back hsplit first hfirst key tag s hgives => ?_
    have hbefore := consistent_before hsplit
    have hafter := hbefore.lookup.stores_of_gives (hupTo hsplit)
      (List.mem_append_left _ hfirst) hgives
    refine ⟨hafter.2, fun htarget => ?_⟩
    obtain ⟨htyped, hstored⟩ := hbefore.stores_of_gives
      (fun lookup hlookup => hupTo hsplit lookup (List.mem_append_left _ hlookup)) hfirst hgives
    have hself := Snapshot.reread_eq_self htyped
    rw [Lookup.outcome_of_stored htarget (by rw [hself, htyped]) hstored, hself]
    exact ⟨rfl, rfl⟩
  · intro lookup hlookup key tag s hgives
    obtain ⟨front, back, hsplit⟩ := List.append_of_mem hlookup
    have hthen := (consistent_before hsplit).lookup.stores_of_gives (hupTo hsplit)
      (List.mem_append_right _ List.mem_cons_self) hgives
    exact ⟨hthen.2, ((consistent_after steps).stores_of_gives hall hlookup hgives).2⟩

/-! ## A repository without source files -/

/-- The snapshot of a repository in which nothing is declared. -/
def bareSnapshot (version : String) : Snapshot :=
  { entries := [], atlases := [], entities := [], version }

/-- An almanac over a repository with one file, which is neither a source file nor an image. -/
def readmeAlmanac (tag : String) : Almanac :=
  { host := Repository.Shelf.host
      { files := [("README.md", "x".toUTF8)]
        tag := some tag
        tagFails := false
        branch := "main"
        failing := [] }
    context := Context.standard
    imageRoot := "/wiki-data/"
    backup? := none }

/-- A question for the snapshot of the repository. -/
def readmeStep (tag : String) : Step :=
  { almanac := readmeAlmanac tag, use := .get (.text "demo@studio") }

/-- The lookup that such a question is. -/
def readmeLookup (tag : String) (cache : Cache) : Lookup :=
  { almanac := readmeAlmanac tag, cache, given := .text "demo@studio" }

/-- The cache in which the snapshot has been stored for the tag `v1/0`. -/
def readmeCache : Cache :=
  { nodes :=
      [(["demo@studio"], .folder),
        (["demo@studio", "v1_0"], .folder),
        (["demo@studio", "v1_0", "metadata.json"],
          .file (bareSnapshot "v1/0").fileText.toUTF8)] }

theorem compile_bare (context : Context) (version : String) (files : List String) :
    Snapshot.compile context version { locale := "", texts := [], images := [], files } =
      .ok (bareSnapshot version) := by
  have hparse : Source.Locale.parse "".toList = [] := by
    change Source.Locale.parse [] = []
    rw [Source.Locale.parse, Lua.namedBlocks, Lua.NamedBlock.siblings]
    rfl
  rw [Snapshot.compile, hparse]
  rfl

theorem buildFrom_readme (cache : Cache) (key : ModKey) (tag : String) :
    (readmeAlmanac tag).buildFrom cache key tag "main" ["README.md"] =
      ((readmeAlmanac tag).publish cache key tag (bareSnapshot tag)).after [] := by
  have hsources : ["README.md"].filter Repository.isSource = [] := by decide
  have himages : ["README.md"].filter Repository.isImage = [] := by decide +kernel
  have hlocale : localeText [] [] = "" := rfl
  have htexts : declaringTexts [] [] = [] := rfl
  unfold Almanac.buildFrom
  rw [hsources, himages]
  simp only [keepAll, List.map_nil, List.append_nil]
  rw [hlocale, htexts, compile_bare]

/-- The first lookup builds the snapshot and stores it. -/
theorem outcome_readmeLookup_empty :
    (readmeLookup "v1/0" Cache.empty).outcome =
      { value := .ok (bareSnapshot "v1/0")
        cache := readmeCache
        events :=
          [askTag sampleKey, .call (.defaultBranch "studio" "demo"),
            .call (.listFiles "studio" "demo" "main")] } := by
  have hbuild : (readmeAlmanac "v1/0").build Cache.empty sampleKey "v1/0" =
      ((readmeAlmanac "v1/0").buildFrom (Cache.empty.makeFolder ["demo@studio", "v1_0"]).1
        sampleKey "v1/0" "main" ["README.md"]).after
          [.call (.defaultBranch "studio" "demo"), .call (.listFiles "studio" "demo" "main")] := by
    rfl
  have htarget : (readmeLookup "v1/0" Cache.empty).target? = some (sampleKey, "v1/0") := rfl
  rw [Lookup.outcome_of_target? htarget, Almanac.getVersion_of_read?_eq_none rfl]
  change ((readmeAlmanac "v1/0").build Cache.empty sampleKey "v1/0").after _ = _
  rw [hbuild, buildFrom_readme, Almanac.publish, readmeCache]
  generalize (bareSnapshot "v1/0").fileText.toUTF8 = content
  rfl

/-- Along two questions the first lookup starts with the empty cache and the second with the one in
which the snapshot has been stored. -/
theorem lookups_readmeSteps (tag : String) :
    lookups Cache.empty [readmeStep "v1/0", readmeStep tag] =
      [readmeLookup "v1/0" Cache.empty, readmeLookup tag readmeCache] := by
  have hcache : ((readmeStep "v1/0").run Cache.empty).cache = readmeCache :=
    congrArg Run.cache outcome_readmeLookup_empty
  rw [lookups, lookups, hcache]
  rfl

theorem gives_readmeLookup_empty :
    (readmeLookup "v1/0" Cache.empty).Gives sampleKey "v1/0" (bareSnapshot "v1/0") :=
  ⟨rfl, congrArg Run.value outcome_readmeLookup_empty⟩

/-- What has been given for a tag is given for it again. -/
theorem readme_given_again :
    (∀ step ∈ [readmeStep "v1/0", readmeStep "v1/0"], step.almanac.context.HasTextKeys) ∧
      (readmeLookup "v1/0" Cache.empty).outcome.value = .ok (bareSnapshot "v1/0") ∧
        (readmeLookup "v1/0" readmeCache).outcome.value = .ok (bareSnapshot "v1/0") ∧
          (readmeLookup "v1/0" readmeCache).outcome.events = [askTag sampleKey] := by
  have hcontext : ∀ step ∈ [readmeStep "v1/0", readmeStep "v1/0"],
      step.almanac.context.HasTextKeys := by
    intro step hstep
    rcases List.mem_cons.1 hstep with rfl | hstep
    · change (Value.table Context.standard.constants).hasTextKeys = true
      decide
    · rw [List.mem_singleton.1 hstep]
      change (Value.table Context.standard.constants).hasTextKeys = true
      decide
  obtain ⟨hpairs, -⟩ := snapshot_given_once_is_kept hcontext
  rw [lookups_readmeSteps] at hpairs
  have hpair := (List.pairwise_cons.1 hpairs).1 _ List.mem_cons_self sampleKey "v1/0"
    (bareSnapshot "v1/0") gives_readmeLookup_empty
  exact ⟨hcontext, gives_readmeLookup_empty.2, hpair.2 rfl⟩

/-! ## Versions -/

/-- A snapshot that is still there has the version for which it was built. -/
theorem Recalls.exists_version {past : List Lookup} {cache : Cache} {key : ModKey} {tag : String}
    {s : Snapshot} (h : Recalls past cache key tag s) :
    ∃ builder ∈ past, ∃ stored, builder.Gives key s.version stored ∧
      versionFolder s.version = versionFolder tag := by
  obtain ⟨builder, hbuilder, stored, ⟨tag', material, hgives, hfolder, hcompile⟩, -, hs⟩ := h
  obtain ⟨-, -, -, hversion⟩ := Snapshot.compile_eq_ok hcompile
  have hsame : s.version = tag' := by
    rcases hs with rfl | rfl
    · exact hversion
    · exact hversion
  rw [hsame]
  exact ⟨builder, hbuilder, stored, hgives, hfolder⟩

/-- What is still there of one mod in one folder has one version. -/
theorem Recalls.version_eq {past : List Lookup} {cache : Cache} {key : ModKey} {tag tag' : String}
    {s s' : Snapshot} (h : Recalls past cache key tag s) (h' : Recalls past cache key tag' s')
    (hfolder : versionFolder tag = versionFolder tag') : s.version = s'.version := by
  obtain ⟨builder, -, stored, hbuilds, hstores, hs⟩ := h
  obtain ⟨builder', -, stored', hbuilds', hstores', hs'⟩ := h'
  have hpath : snapshotPath key tag = snapshotPath key tag' :=
    snapshotPath_eq_iff.2 ⟨rfl, hfolder⟩
  rw [Cache.Stores, hpath, hstores'] at hstores
  have hload := Snapshot.load_fileText_reread hbuilds.isTyped_reread
  have hload' := Snapshot.load_fileText_reread hbuilds'.isTyped_reread
  rw [← Option.some.inj hstores, hload'] at hload
  have hreread : stored'.reread = stored.reread := by
    injection hload with hload
    exact Option.some.inj hload
  have hversion := congrArg Snapshot.version hreread
  rw [Snapshot.reread_version, Snapshot.reread_version] at hversion
  have hs : s.version = stored.version := by
    rcases hs with rfl | rfl
    · rfl
    · rfl
  have hs' : s'.version = stored'.version := by
    rcases hs' with rfl | rfl
    · rfl
    · rfl
  rw [hs, hs', hversion]

/-- Along a run from an empty cache every lookup gives a snapshot of the very tag that it has been
told, exactly if no two lookups of one mod give snapshots for different tags with one folder. -/
theorem versions_right_iff (steps : List Step) :
    (∀ lookup ∈ lookups Cache.empty steps, ∀ key tag s,
      lookup.Gives key tag s → s.version = tag) ↔
    ∀ first ∈ lookups Cache.empty steps, ∀ second ∈ lookups Cache.empty steps,
      ∀ key tag tag' s s', first.Gives key tag s → second.Gives key tag' s' →
        versionFolder tag = versionFolder tag' → tag = tag' := by
  have hend := consistent_after steps
  constructor
  · -- both snapshots are still there at the end, in one folder
    intro hright first hfirst second hsecond key tag tag' s s' hgives hgives' hfolder
    have hversion := (hend.kept first hfirst key tag s hgives).version_eq
      (hend.kept second hsecond key tag' s' hgives') hfolder
    rw [← hright first hfirst key tag s hgives, ← hright second hsecond key tag' s' hgives',
      hversion]
  · -- the snapshot was given for its own version to the lookup that built it
    intro hapart lookup hlookup key tag s hgives
    obtain ⟨builder, hbuilder, stored, hbuilt, hfolder⟩ :=
      (hend.kept lookup hlookup key tag s hgives).exists_version
    exact hapart builder hbuilder lookup hlookup key s.version tag stored s hbuilt hgives hfolder

/-- A tag that can be a segment of a path names its own folder. -/
theorem versionFolder_of_isSegment {tag : String} (h : isSegment tag.toList = true) :
    versionFolder tag = tag := by
  obtain ⟨hempty, hdot, hdots, hslash, hback⟩ := isSegment_iff.1 h
  have hflat : flattened tag.toList = tag.toList := by
    refine (List.map_congr_left fun c hc => ?_).trans (List.map_id _)
    have hne : ¬(c = '/' || c = '\\') = true := by
      simp only [Bool.or_eq_true, decide_eq_true_eq, not_or]
      exact ⟨fun heq => hslash (heq ▸ hc), fun heq => hback (heq ▸ hc)⟩
    rw [if_neg hne, id]
  simp [versionFolder, hflat, hempty, hdot, hdots]

/-- Along a run in which only such tags are told, every lookup gives a snapshot of its tag. -/
theorem version_eq_of_isSegment {steps : List Step}
    (h : ∀ lookup ∈ lookups Cache.empty steps, ∀ key tag,
      lookup.target? = some (key, tag) → isSegment tag.toList = true) :
    ∀ lookup ∈ lookups Cache.empty steps, ∀ key tag s,
      lookup.Gives key tag s → s.version = tag := by
  intro lookup hlookup key tag s hgives
  obtain ⟨builder, hbuilder, stored, hbuilt, hfolder⟩ :=
    ((consistent_after steps).kept lookup hlookup key tag s hgives).exists_version
  have htag := versionFolder_of_isSegment (h lookup hlookup key tag hgives.1)
  have hversion := versionFolder_of_isSegment (h builder hbuilder key s.version hbuilt.1)
  rw [← htag, ← hfolder, hversion]

/-- A tag with a slash and one with an underscore share a folder, and the snapshot of the first one
is given for the second one. -/
theorem slashed_version_wrong :
    ¬∀ lookup ∈ lookups Cache.empty [readmeStep "v1/0", readmeStep "v1_0"], ∀ key tag s,
      lookup.Gives key tag s → s.version = tag := by
  intro h
  have htyped : (bareSnapshot "v1/0").isTyped = true := by decide
  have hself := Snapshot.reread_eq_self htyped
  have hstores : readmeCache.Stores sampleKey "v1_0" (bareSnapshot "v1/0") := by
    rw [Cache.Stores, readmeCache]
    generalize (bareSnapshot "v1/0").fileText.toUTF8 = content
    rfl
  have htarget : (readmeLookup "v1_0" readmeCache).target? = some (sampleKey, "v1_0") := rfl
  have houtcome := Lookup.outcome_of_stored htarget (by rw [hself, htyped]) hstores
  rw [hself] at houtcome
  have hmem : readmeLookup "v1_0" readmeCache ∈
      lookups Cache.empty [readmeStep "v1/0", readmeStep "v1_0"] := by
    rw [lookups_readmeSteps]
    exact List.mem_cons_of_mem _ List.mem_cons_self
  have hversion := h _ hmem sampleKey "v1_0" (bareSnapshot "v1/0")
    ⟨rfl, congrArg Run.value houtcome⟩
  exact absurd hversion (by decide)

end ModAlmanac
