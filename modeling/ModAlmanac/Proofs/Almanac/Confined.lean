import ModAlmanac.Proofs.Almanac.Consistency

/-!
# What a lookup touches

A lookup writes into one folder only, that of the version of its mod, whatever key it is given, tag
it is told and paths are listed (`get_confined`). The parts of that folder's path cannot lead
anywhere else, and it is the folder of no other mod. A lookup that fails leaves every snapshot in
the cache as it was and starts no backup; one that fails before anything is fetched leaves the whole
cache as it was (`failed_get_keeps_snapshots`).
-/

namespace ModAlmanac

open Repository

/-! ## Parts of the path -/

/-- The folder of a tag is a folder of its own, whatever the tag. -/
theorem isSegment_versionFolder (tag : String) : isSegment (versionFolder tag).toList = true := by
  have hclean : ∀ c ∈ flattened tag.toList, c ≠ '/' ∧ c ≠ '\\' := by
    intro c hc
    obtain ⟨d, -, rfl⟩ := List.mem_map.1 hc
    split
    · decide
    · next hd => simpa using hd
  unfold versionFolder
  dsimp only
  split
  · decide
  · next hfolder =>
    simp only [Bool.or_eq_true, decide_eq_true_eq, not_or] at hfolder
    rw [String.toList_ofList]
    exact isSegment_iff.2 ⟨hfolder.1.1, hfolder.1.2, hfolder.2,
      fun h => (hclean _ h).1 rfl, fun h => (hclean _ h).2 rfl⟩

/-- Both parts of a key are segments, and so is the whole of it. -/
theorem ModKey.isSegment_text (key : ModKey) : isSegment key.text.toList = true := by
  have hpart : ∀ {s : List Char}, isKeyPart s = true → '/' ∉ s ∧ '\\' ∉ s := by
    intro s h
    simp only [isKeyPart, Bool.and_eq_true] at h
    exact (isSegment_iff.1 h.1).2.2.2
  have hrepo := hpart key.isKeyPart_repo
  have howner := hpart key.isKeyPart_owner
  have hat : '@' ∈ key.text.toList := by simp [ModKey.text]
  refine isSegment_iff.2 ⟨?_, ?_, ?_, ?_, ?_⟩
  · exact List.ne_nil_of_mem hat
  · intro h
    rw [h] at hat
    revert hat
    decide
  · intro h
    rw [h] at hat
    revert hat
    decide
  · simp [ModKey.text, hrepo.1, howner.1]
  · simp [ModKey.text, hrepo.2, howner.2]

/-- A key is written as the text that it was read from. -/
theorem ModKey.text_of_parse {given : Value} {key : ModKey} (h : ModKey.parse given = .ok key) :
    key.text = given.plain := by
  have hread : ModKey.ofText? given.plain.toList = some key := by
    unfold ModKey.parse at h
    split at h
    · next hkey =>
      cases h
      exact hkey
    · cases h
  have hsplit := List.takeWhile_append_dropWhile (p := (· ≠ '@')) (l := given.plain.toList)
  have hhead := List.head?_dropWhile_not (· ≠ '@') given.plain.toList
  unfold ModKey.ofText? at hread
  split at hread
  · cases hread
  · next c owner hdrop =>
    rw [hdrop] at hsplit hhead
    simp at hhead
    rw [hhead] at hsplit
    unfold ModKey.ofParts? at hread
    split at hread
    · cases hread
      rw [ModKey.text, String.toList_ofList, String.toList_ofList, hsplit, String.ofList_toList]
    · cases hread

/-! ## Lookups -/

/-- A lookup does what looking the mod up in its latest version does, the tag being asked for
first. -/
theorem Almanac.get_of_parse {given : Value} {key : ModKey} (h : ModKey.parse given = .ok key)
    (almanac : Almanac) (cache : Cache) :
    almanac.get cache given =
      (almanac.getVersion cache key (almanac.resolveTag key)).after [askTag key] := by
  rw [Almanac.get, h]

theorem Almanac.get_of_invalid {given : Value} {e : InvalidModKey}
    (h : ModKey.parse given = .error e) (almanac : Almanac) (cache : Cache) :
    almanac.get cache given = { value := .error (.invalidKey e), cache, events := [] } := by
  rw [Almanac.get, h]

/-- Where no build is started nothing is done. -/
theorem Almanac.getVersion_cases (almanac : Almanac) (cache : Cache) (key : ModKey)
    (tag : String) :
    (∃ value, almanac.getVersion cache key tag = { value, cache, events := [] } ∧
        ∀ e, value = .error e → e.isEarly = false) ∨
      almanac.getVersion cache key tag = almanac.build cache key tag := by
  unfold Almanac.getVersion
  split
  · next e _ => exact .inl ⟨_, rfl, fun e' h => by cases h; rfl⟩
  · next s _ => exact .inl ⟨_, rfl, fun e' h => by cases h⟩
  · exact .inr rfl

theorem isEntry_metadata : IsEntry "metadata.json" := by decide

/-- What does not stand in the folder of the version is as it was, or as it was when that folder had
been made. -/
theorem Almanac.node?_get {given : Value} {key : ModKey} (h : ModKey.parse given = .ok key)
    (almanac : Almanac) (cache : Cache) {path : CachePath}
    (hentry : ∀ name, IsEntry name → path ≠ versionPath key (almanac.resolveTag key) ++ [name]) :
    (almanac.get cache given).cache.node? path = cache.node? path ∨
      (almanac.get cache given).cache.node? path =
        (cache.makeFolder (versionPath key (almanac.resolveTag key))).1.node? path := by
  rw [Almanac.get_of_parse h]
  generalize almanac.resolveTag key = tag at hentry ⊢
  have hbeside : ∀ {files : List (String × ByteArray)}, (∀ file ∈ files, IsBesideName file.1) →
      ∀ file ∈ files, path ≠ versionPath key tag ++ [file.1] :=
    fun hfiles file hfile => hentry file.1 (hfiles file hfile).isEntry
  rcases almanac.getVersion_cases cache key tag with ⟨value, hnone, -⟩ | hbuild
  · rw [hnone]
    exact .inl rfl
  · rw [hbuild]
    change (almanac.build cache key tag).cache.node? path = _ ∨
      (almanac.build cache key tag).cache.node? path = _
    cases almanac.end_build cache key tag with
    | refused e keyed value cache_eq quiet =>
      rw [cache_eq]
      exact .inl rfl
    | broken e late value beside names cache_eq quiet =>
      rw [cache_eq]
      exact .inr (Cache.node?_putFiles_of_ne (hbeside names) _)
    | published branch listing files made s answered listed texts folder compiled value stored
        others calls =>
      have hfetched := almanac.isBesideName_of_mem_fetched made key tag branch files
      rw [others path (hentry _ isEntry_metadata)
        (hentry _ (isBesideName_partName almanac.worker).isEntry), folder]
      exact .inr (Cache.node?_putFiles_of_ne (hbeside hfetched) _)

/-- Nothing changes but the two folders on the way and the entries of the second one. -/
theorem Almanac.node?_get_of_ne {given : Value} {key : ModKey} (h : ModKey.parse given = .ok key)
    (almanac : Almanac) (cache : Cache) {path : CachePath} (hfirst : path ≠ [key.text])
    (hsecond : path ≠ versionPath key (almanac.resolveTag key))
    (hentry : ∀ name, IsEntry name → path ≠ versionPath key (almanac.resolveTag key) ++ [name]) :
    (almanac.get cache given).cache.node? path = cache.node? path := by
  rcases almanac.node?_get h cache hentry with hsame | hmade
  · exact hsame
  · rw [hmade]
    refine Cache.node?_makeFolder_of_ne fun front hfront hne => ?_
    -- the folders on the way to `[a, b]` are `[a]` and `[a, b]`
    rcases List.prefix_cons_iff.1 hfront with rfl | ⟨more, rfl, hmore⟩
    · exact absurd rfl hne
    · rcases List.prefix_cons_iff.1 hmore with rfl | ⟨rest, rfl, hrest⟩
      · exact hfirst
      · rw [List.prefix_nil.1 hrest]
        exact hsecond

/-- No file changes but the entries of the folder of the version. -/
theorem Almanac.read?_get_of_ne {given : Value} {key : ModKey} (h : ModKey.parse given = .ok key)
    (almanac : Almanac) (cache : Cache) {path : CachePath}
    (hentry : ∀ name, IsEntry name → path ≠ versionPath key (almanac.resolveTag key) ++ [name]) :
    (almanac.get cache given).cache.read? path = cache.read? path := by
  rcases almanac.node?_get h cache hentry with hsame | hmade
  · rw [Cache.read?, hsame]
    rfl
  · rw [Cache.read?, hmade]
    exact cache.read?_makeFolder _ path

/-- What is kept under names beside the snapshot's one leaves all files called `metadata.json`
alone. -/
theorem read?_keepAll_metadata {α : Type} (folder : CachePath) (bytes : α → ByteArray)
    (find? : String → Option α) {paths : List String}
    (h : ∀ path ∈ paths, IsBesideName (fileName path)) (cache : Cache) {path : CachePath}
    (hpath : path.getLast? = some "metadata.json") :
    (keepAll folder bytes find? paths cache).1.read? path = cache.read? path := by
  rw [keepAll_cache]
  refine Cache.read?_putFiles_metadata (fun file hfile => ?_) hpath cache
  obtain ⟨⟨kept, found⟩, hkept, rfl⟩ := List.mem_map.1 hfile
  exact h kept (of_mem_keepAll hkept).1

/-- Where a lookup changes something, its key is one and the place is on the way to the folder of
the version or an entry of it. -/
theorem Almanac.exists_key_of_changed {almanac : Almanac} {cache : Cache} {given : Value}
    {path : CachePath} (h : (almanac.get cache given).cache.node? path ≠ cache.node? path) :
    ∃ key, ModKey.parse given = .ok key ∧
      (path = [key.text] ∨ path = [key.text, versionFolder (almanac.resolveTag key)] ∨
        ∃ name, IsEntry name ∧
          path = [key.text, versionFolder (almanac.resolveTag key), name]) := by
  cases hkey : ModKey.parse given with
  | error e =>
    rw [Almanac.get_of_invalid hkey] at h
    exact absurd rfl h
  | ok key =>
    refine Classical.byContradiction fun hnone => h ?_
    exact almanac.node?_get_of_ne hkey cache
      (fun heq => hnone ⟨key, rfl, .inl heq⟩)
      (fun heq => hnone ⟨key, rfl, .inr (.inl heq)⟩)
      (fun name hname heq => hnone ⟨key, rfl, .inr (.inr ⟨name, hname, heq⟩)⟩)

/-- Where a lookup changes a file, it is an entry of the folder of the version. -/
theorem Almanac.exists_entry_of_changed {almanac : Almanac} {cache : Cache} {given : Value}
    {path : CachePath} (h : (almanac.get cache given).cache.read? path ≠ cache.read? path) :
    ∃ key name, ModKey.parse given = .ok key ∧ key.text = given.plain ∧ IsEntry name ∧
      path = [key.text, versionFolder (almanac.resolveTag key), name] := by
  cases hkey : ModKey.parse given with
  | error e =>
    rw [Almanac.get_of_invalid hkey] at h
    exact absurd rfl h
  | ok key =>
    refine Classical.byContradiction fun hnone => h ?_
    refine almanac.read?_get_of_ne hkey cache fun name hname heq => hnone ?_
    exact ⟨key, name, rfl, ModKey.text_of_parse hkey, hname, heq⟩

/-- A lookup for one key changes nothing below the folder of another one. -/
theorem Almanac.node?_get_of_other {given other : Value} {key key' : ModKey}
    (hkey : ModKey.parse given = .ok key) (hkey' : ModKey.parse other = .ok key')
    (hne : other.plain ≠ given.plain) (almanac : Almanac) (cache : Cache) :
    key'.text ≠ key.text ∧ ∀ rest,
      (almanac.get cache given).cache.node? (key'.text :: rest) =
        cache.node? (key'.text :: rest) := by
  have htext : key'.text ≠ key.text := by
    rw [ModKey.text_of_parse hkey, ModKey.text_of_parse hkey']
    exact hne
  have hhead : ∀ rest more, key'.text :: rest ≠ key.text :: more :=
    fun rest more heq => htext (List.cons.inj heq).1
  exact ⟨htext, fun rest => almanac.node?_get_of_ne hkey cache (hhead rest _) (hhead rest _)
    fun name _ => hhead rest _⟩

/-- Every key and the folder of every tag are segments of a path. A lookup writes files only into
the folder of its mod's version, as direct entries, and makes no folder but that one and the one it
lies in. Keys that differ as texts have different folders, so that a lookup for one changes nothing
below the other. What is fetched never takes the place of a snapshot. -/
theorem get_confined (almanac : Almanac) (cache : Cache) (given : Value) :
    (∀ (key : ModKey) (tag : String),
      isSegment key.text.toList = true ∧ isSegment (versionFolder tag).toList = true) ∧
    (∀ path, (almanac.get cache given).cache.read? path ≠ cache.read? path →
      ∃ key name, ModKey.parse given = .ok key ∧ key.text = given.plain ∧ IsEntry name ∧
        path = [key.text, versionFolder (almanac.resolveTag key), name]) ∧
    (∀ path, (almanac.get cache given).cache.node? path ≠ cache.node? path →
      ∃ key, ModKey.parse given = .ok key ∧
        (path = [key.text] ∨ path = [key.text, versionFolder (almanac.resolveTag key)] ∨
          ∃ name, IsEntry name ∧
            path = [key.text, versionFolder (almanac.resolveTag key), name])) ∧
    (∀ other key key', ModKey.parse given = .ok key → ModKey.parse other = .ok key' →
      other.plain ≠ given.plain → key'.text ≠ key.text ∧
        ∀ rest, (almanac.get cache given).cache.node? (key'.text :: rest) =
          cache.node? (key'.text :: rest)) ∧
    ∀ (key : ModKey) (tag branch : String) (files : List String) (before : Cache)
      (path : CachePath), path.getLast? = some "metadata.json" →
        (keepAll (versionPath key tag) String.toUTF8 (almanac.source? key branch)
          (files.filter isSource) before).1.read? path = before.read? path ∧
        (keepAll (versionPath key tag) id (almanac.image? key branch)
          (files.filter isImage) before).1.read? path = before.read? path := by
  refine ⟨fun key tag => ⟨key.isSegment_text, isSegment_versionFolder tag⟩,
    fun path => Almanac.exists_entry_of_changed, fun path => Almanac.exists_key_of_changed,
    fun other key key' hkey hkey' hne => almanac.node?_get_of_other hkey hkey' hne cache,
    fun key tag branch files before path hpath => ⟨?_, ?_⟩⟩
  · refine read?_keepAll_metadata _ _ _ (fun path hmem => ?_) before hpath
    exact isBesideName_of_isSource (List.mem_filter.1 hmem).2
  · refine read?_keepAll_metadata _ _ _ (fun path hmem => ?_) before hpath
    exact isBesideName_of_isImage (List.mem_filter.1 hmem).2

/-- The first lookup of a mod writes its snapshot, into a folder of its own, and nothing of another
mod. -/
theorem readme_confined :
    readmeCache.read? ["demo@studio", "v1_0", "metadata.json"] ≠
        Cache.empty.read? ["demo@studio", "v1_0", "metadata.json"] ∧
      (∃ key name, ModKey.parse (.text "demo@studio") = .ok key ∧ IsEntry name ∧
        ["demo@studio", "v1_0", "metadata.json"] =
          [key.text, versionFolder ((readmeAlmanac "v1/0").resolveTag key), name]) ∧
      ∀ rest, readmeCache.node? ("demo@other" :: rest) =
        Cache.empty.node? ("demo@other" :: rest) := by
  have hcache : ((readmeAlmanac "v1/0").get Cache.empty (.text "demo@studio")).cache =
      readmeCache := congrArg Run.cache outcome_readmeLookup_empty
  obtain ⟨-, hfiles, -, hothers, -⟩ :=
    get_confined (readmeAlmanac "v1/0") Cache.empty (.text "demo@studio")
  rw [hcache] at hfiles hothers
  have hwritten : readmeCache.read? ["demo@studio", "v1_0", "metadata.json"] ≠
      Cache.empty.read? ["demo@studio", "v1_0", "metadata.json"] := by
    rw [readmeCache]
    generalize (bareSnapshot "v1/0").fileText.toUTF8 = content
    intro h
    cases h
  obtain ⟨key, name, hkey, -, hname, hpath⟩ := hfiles _ hwritten
  have hother : ModKey.parse (.text "demo@other") =
      .ok { repo := "demo", owner := "other", isKeyPart_repo := by decide,
            isKeyPart_owner := by decide } := rfl
  refine ⟨hwritten, ⟨key, name, hkey, hname, hpath⟩, ?_⟩
  exact (hothers (.text "demo@other") key _ hkey hother (by decide)).2

/-! ## Failures -/

/-- A build that fails leaves all files called `metadata.json` as they were and starts no backup. -/
theorem BuildEnd.of_error {almanac : Almanac} {cache : Cache} {key : ModKey} {tag : String}
    {run : Outcome Snapshot} {e : Failure} (h : BuildEnd almanac cache key tag run)
    (hvalue : run.value = .error e) :
    (∀ path, path.getLast? = some "metadata.json" → run.cache.read? path = cache.read? path) ∧
      (∀ event ∈ run.events, event.backup? = none) ∧ (∀ e', e ≠ .invalidKey e') ∧
        (e.isEarly = true → run.cache = cache) := by
  cases h with
  | refused e' keyed value cache_eq quiet =>
    cases hvalue.symm.trans value
    exact ⟨fun path _ => by rw [cache_eq], quiet, keyed, fun _ => cache_eq⟩
  | broken e' late value beside names cache_eq quiet =>
    cases hvalue.symm.trans value
    refine ⟨fun path hpath => ?_, quiet, fun e' heq => ?_, fun hearly => ?_⟩
    · rw [cache_eq, Cache.read?_putFiles_metadata names hpath, Cache.read?_makeFolder]
    · rw [heq] at late
      cases late
    · rw [hearly] at late
      cases late
  | published branch listing files made s answered listed texts folder compiled value stored others
      calls =>
    cases hvalue.symm.trans value

/-- A lookup that fails leaves all files called `metadata.json` as they were and starts no backup.
With a key that is none it asks nothing, and if it fails before anything is fetched it leaves the
whole cache as it was. -/
theorem failed_get_keeps_snapshots {almanac : Almanac} {cache : Cache} {given : Value} {e : Failure}
    (h : (almanac.get cache given).value = .error e) :
    (∀ path, path.getLast? = some "metadata.json" →
      (almanac.get cache given).cache.read? path = cache.read? path) ∧
    (∀ event ∈ (almanac.get cache given).events, event.backup? = none) ∧
    (∀ e', e = .invalidKey e' → (almanac.get cache given).events = []) ∧
    (e.isEarly = true → (almanac.get cache given).cache = cache) := by
  cases hkey : ModKey.parse given with
  | error e' =>
    rw [Almanac.get_of_invalid hkey]
    exact ⟨fun _ _ => rfl, fun _ hevent => absurd hevent List.not_mem_nil, fun _ _ => rfl,
      fun _ => rfl⟩
  | ok key =>
    rw [Almanac.get_of_parse hkey] at h ⊢
    have hasked : ∀ event ∈ [askTag key], event.backup? = none := by
      intro event hevent
      rw [List.mem_singleton.1 hevent]
      rfl
    rcases almanac.getVersion_cases cache key (almanac.resolveTag key) with
      ⟨value, hnone, hlate⟩ | hbuild
    · rw [hnone] at h ⊢
      have hnot := hlate e h
      refine ⟨fun _ _ => rfl, hasked, fun e' heq => ?_, fun _ => rfl⟩
      rw [heq] at hnot
      cases hnot
    · rw [hbuild] at h ⊢
      obtain ⟨hfiles, hquiet, hkeyed, hearly⟩ := (almanac.end_build cache key _).of_error h
      exact ⟨hfiles, quiet_append hasked hquiet, fun e' heq => absurd heq (hkeyed e'), hearly⟩

/-- A cache in which a folder stands where the snapshot of the tag `v1/0` is to be saved. -/
def blockedCache : Cache :=
  { nodes :=
      [(["demo@studio"], .folder),
        (["demo@studio", "v1_0"], .folder),
        (["demo@studio", "v1_0", "metadata.json"], .folder)] }

theorem get_blocked :
    ((readmeAlmanac "v1/0").get blockedCache (.text "demo@studio")).value =
      .error (.storage .folderInTheWay) := by
  have hbuild : ((readmeAlmanac "v1/0").get blockedCache (.text "demo@studio")).value =
      ((readmeAlmanac "v1/0").buildFrom blockedCache sampleKey "v1/0" "main"
        ["README.md"]).value := rfl
  rw [hbuild, buildFrom_readme, Almanac.publish]
  generalize (bareSnapshot "v1/0").fileText.toUTF8 = content
  rfl

/-- The lookup that finds the place taken fails and leaves it as it was. -/
theorem blocked_get_keeps_snapshots :
    ((readmeAlmanac "v1/0").get blockedCache (.text "demo@studio")).value =
        .error (.storage .folderInTheWay) ∧
      ((readmeAlmanac "v1/0").get blockedCache (.text "demo@studio")).cache.read?
          ["demo@studio", "v1_0", "metadata.json"] = none ∧
        ∀ event ∈ ((readmeAlmanac "v1/0").get blockedCache (.text "demo@studio")).events,
          event.backup? = none := by
  obtain ⟨hfiles, hquiet, -⟩ := failed_get_keeps_snapshots get_blocked
  exact ⟨get_blocked, hfiles _ rfl, hquiet⟩

end ModAlmanac
