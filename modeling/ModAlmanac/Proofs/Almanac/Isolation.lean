import ModAlmanac.Proofs.Almanac.Confined
import ModAlmanac.Proofs.OrderedMap

/-!
# What a build makes of a listing

A snapshot that has been built is made from the texts that were fetched, in the order of the listing
(`Snapshot.MadeFrom`): the source files are fetched and kept one by one (`keepAll_kept`), the locale
file is set apart, and the objects and sheets of the others are put together. A file that cannot be
fetched is as good as an empty one, whatever becomes of the others (`failures_isolated`).
-/

namespace ModAlmanac

open OrderedMap Repository

/-! ## Keeping what is accepted -/

section

variable {α : Type} {folder : CachePath} {bytes : α → ByteArray} {find? : String → Option α}

/-- Where every name is accepted, all that is found is kept, in order. -/
theorem keepAll_kept {paths : List String} {cache : Cache}
    (hfolder : cache.look folder = .ok (some .folder))
    (hnames : ∀ path ∈ paths, cache.Accepts folder (fileName path)) :
    (keepAll folder bytes find? paths cache).2 =
      paths.filterMap fun path => (find? path).map (path, ·) := by
  induction paths generalizing cache with
  | nil => rfl
  | cons path paths ih =>
    obtain ⟨hpath, hrest⟩ := List.forall_mem_cons.1 hnames
    rw [List.filterMap_cons]
    cases hfind : find? path with
    | none =>
      rw [keepAll_cons_of_none hfind]
      exact ih hfolder hrest
    | some found =>
      have hrest' := fun other hother =>
        (Cache.accepts_put_iff hpath (bytes found) (fileName other)).2 (hrest other hother)
      rw [keepAll_cons_of_accepts hfolder hfind hpath, ih (Cache.look_put_entry hfolder _ _) hrest']
      rfl

theorem find?_filterMap (find? : String → Option α) (paths : List String) (path : String) :
    OrderedMap.find? path (paths.filterMap fun other => (find? other).map (other, ·)) =
      if path ∈ paths then find? path else none := by
  induction paths with
  | nil => rfl
  | cons first paths ih =>
    rw [List.filterMap_cons]
    by_cases hfirst : first = path
    · subst hfirst
      rw [if_pos List.mem_cons_self]
      cases hfind : find? first with
      | none =>
        rw [hfind] at ih
        simpa using ih
      | some found => simp [OrderedMap.find?]
    · have hmem : path ∈ first :: paths ↔ path ∈ paths := by simp [Ne.symm hfirst]
      simp only [hmem, ← ih]
      cases find? first with
      | none => rfl
      | some found => simp [OrderedMap.find?, hfirst]

end

/-! ## Source files -/

theorem mem_of_findLocale? {paths : List String} {path : String}
    (h : findLocale? paths = some path) : path ∈ paths := by
  obtain ⟨name, -, hfind⟩ := List.exists_of_findSome?_eq_some h
  exact List.mem_of_find?_eq_some hfind

/-- The text of the locale file of a listing, empty if it cannot be fetched. -/
def Almanac.fetchedLocale (almanac : Almanac) (key : ModKey) (branch : String)
    (files : List String) : String :=
  ((findLocale? (files.filter isSource)).bind (almanac.source? key branch)).getD ""

/-- The texts of the other source files of a listing that can be fetched and are not empty, in its
order. -/
def Almanac.fetchedTexts (almanac : Almanac) (key : ModKey) (branch : String)
    (files : List String) : List String :=
  ((files.filter isSource).filter fun path =>
    findLocale? (files.filter isSource) != some path).filterMap (almanac.source? key branch)

section

variable {almanac : Almanac} {key : ModKey} {branch : String} {paths : List String}

theorem localeText_kept :
    localeText paths (paths.filterMap fun path => (almanac.source? key branch path).map (path, ·)) =
      ((findLocale? paths).bind (almanac.source? key branch)).getD "" := by
  unfold localeText
  cases hlocale : findLocale? paths with
  | none => rfl
  | some path =>
    rw [Option.bind_some, Option.bind_some, find?_filterMap, if_pos (mem_of_findLocale? hlocale)]

theorem declaringTexts_kept :
    declaringTexts paths
        (paths.filterMap fun path => (almanac.source? key branch path).map (path, ·)) =
      (paths.filter fun path => findLocale? paths != some path).filterMap
        (almanac.source? key branch) := by
  refine List.filterMap_congr fun path hpath => ?_
  rw [find?_filterMap, if_pos (List.mem_filter.1 hpath).1]

end

/-! ## Sheets -/

/-- A sheet as it is declared, without its links. -/
def Atlas.declared (atlas : Atlas) : Atlas :=
  { atlas with remotePath := .nil, servedPath := .nil }

def AtlasMap.declared (atlases : AtlasMap) : AtlasMap :=
  atlases.map fun (name, atlas) => (name, atlas.declared)

theorem Atlas.declared_linked (saved : List SavedImage) (files : List String)
    (sheet : Source.Sheet) :
    ((Atlas.ofSheet sheet).linked saved files).declared = Atlas.ofSheet sheet := by
  unfold Atlas.linked
  split
  · rfl
  · rfl

theorem AtlasMap.declared_linked (saved : List SavedImage) (files : List String)
    (sheets : List (String × Source.Sheet)) :
    (AtlasMap.linked saved files sheets).declared =
      sheets.map fun entry => (entry.1, Atlas.ofSheet entry.2) := by
  rw [AtlasMap.declared, AtlasMap.linked, List.map_map]
  refine List.map_congr_left fun entry _ => ?_
  exact Prod.ext rfl (Atlas.declared_linked saved files entry.2)

/-- The sheets declared in some texts, a later text winning. -/
def AtlasMap.ofSources (texts : List String) : AtlasMap :=
  texts.foldl (fun atlases text => union atlases (AtlasMap.ofSource text.toList)) []

theorem AtlasMap.ofSources_eq (texts : List String) :
    AtlasMap.ofSources texts =
      (sheetsOfAll texts).map fun entry => (entry.1, Atlas.ofSheet entry.2) := by
  have hfold : ∀ sheets : List (String × Source.Sheet),
      texts.foldl (fun atlases text => union atlases (AtlasMap.ofSource text.toList))
          (sheets.map fun entry => (entry.1, Atlas.ofSheet entry.2)) =
        (texts.foldl (fun sheets text => union sheets (Source.sheets text.toList)) sheets).map
          fun entry => (entry.1, Atlas.ofSheet entry.2) := by
    intro sheets
    induction texts generalizing sheets with
    | nil => rfl
    | cons text texts ih =>
      rw [List.foldl_cons, List.foldl_cons, ← ih, union_map]
      rfl
  exact hfold []

/-- The last text that declares a sheet wins. -/
theorem AtlasMap.find?_ofSources (name : String) (texts : List String) :
    find? name (AtlasMap.ofSources texts) =
      texts.reverse.findSome? fun text => find? name (AtlasMap.ofSource text.toList) := by
  have hdistinct : ∀ text : List Char, Distinct (AtlasMap.ofSource text) :=
    fun text => distinct_map (distinct_ofList _) fun _ sheet => Atlas.ofSheet sheet
  induction texts using List.reverseRecOn with
  | nil => rfl
  | append_singleton texts text ih =>
    have hsnoc : AtlasMap.ofSources (texts ++ [text]) =
        union (AtlasMap.ofSources texts) (AtlasMap.ofSource text.toList) := List.foldl_concat ..
    rw [hsnoc, find?_union_of_distinct (hdistinct text.toList), ih, List.reverse_append,
      List.findSome?_append]
    simp

/-! ## Objects -/

/-- Evaluation succeeds if it does for each of the objects. -/
theorem evaluateAll_eq_ok_iff {entries : EntryMap} {context : Context}
    {entities evaluated : List Entity} :
    evaluateAll entries context entities = .ok evaluated ↔
      List.Forall₂ (fun e x => e.evaluated entries context = .ok x) entities evaluated := by
  induction entities generalizing evaluated with
  | nil =>
    rw [List.forall₂_nil_left_iff, evaluateAll]
    exact ⟨fun h => (Except.ok.inj h).symm, fun h => by rw [h]⟩
  | cons e entities ih =>
    rw [evaluateAll, bind_eq_ok_iff, List.forall₂_cons_left_iff]
    constructor
    · rintro ⟨x, hx, h⟩
      obtain ⟨more, hmore, h⟩ := bind_eq_ok_iff.1 h
      cases h
      exact ⟨x, more, hx, ih.1 hmore, rfl⟩
    · rintro ⟨x, more, hx, hmore, rfl⟩
      exact ⟨x, hx, bind_eq_ok_iff.2 ⟨more, ih.2 hmore, rfl⟩⟩

/-! ## What a snapshot is made from -/

/-- A snapshot is made from the text of a locale file and the texts of other source files: its objects
are those that the texts declare, each evaluated against the display texts of the locale file, one
text after the other, and its sheets are the declared ones, of which the last one of a name wins. -/
structure Snapshot.MadeFrom (s : Snapshot) (context : Context) (version locale : String)
    (texts : List String) : Prop where
  version : s.version = version
  entries : s.entries = EntryMap.ofLocale (Source.Locale.parse locale.toList)
  entities : List.Forall₂ (fun e x => e.evaluated s.entries context = .ok x)
    (texts.flatMap fun text => Entity.ofSource text.toList) s.entities
  atlases : s.atlases.declared = AtlasMap.ofSources texts
  atlas : ∀ name, find? name s.atlases.declared =
    texts.reverse.findSome? fun text => find? name (AtlasMap.ofSource text.toList)

theorem Snapshot.madeFrom_of_compile {context : Context} {version : String} {material : Material}
    {s : Snapshot} (h : Snapshot.compile context version material = .ok s) :
    s.MadeFrom context version material.locale material.texts := by
  obtain ⟨hentries, hatlases, hentities, hversion⟩ := Snapshot.compile_eq_ok h
  have hdeclared : s.atlases.declared = AtlasMap.ofSources material.texts := by
    rw [hatlases, AtlasMap.declared_linked, AtlasMap.ofSources_eq]
  exact
    { version := hversion
      entries := hentries
      entities := evaluateAll_eq_ok_iff.1 hentities
      atlases := hdeclared
      atlas := fun name => by rw [hdeclared, AtlasMap.find?_ofSources] }

theorem textPaths?_map_text (files : List String) :
    textPaths? (files.map Value.text) = some files := by
  induction files with
  | nil => rfl
  | cons path files ih =>
    rw [List.map_cons, textPaths?, ih]
    rfl

section

variable {almanac : Almanac} {cache made : Cache} {key : ModKey} {tag branch : String}
  {files : List String} {s : Snapshot}

/-- Making a folder takes no name in it. -/
theorem Cache.Accepts.makeFolder {folder : CachePath} {name : String}
    (h : cache.Accepts folder name) : (cache.makeFolder folder).1.Accepts folder name := by
  refine ⟨h.accepted, ?_⟩
  rw [Cache.node?_makeFolder_of_ne fun front hfront _ heq => ?_]
  · exact h.free
  · have hlength := hfront.length_le
    rw [← heq, List.length_append, List.length_singleton] at hlength
    omega

theorem Almanac.material_of_accepts (almanac : Almanac) (branch : String)
    (hfolder : made.look (versionPath key tag) = .ok (some .folder))
    (hnames : ∀ path ∈ files, isSource path = true →
      made.Accepts (versionPath key tag) (fileName path)) :
    (almanac.material made key tag branch files).locale = almanac.fetchedLocale key branch files ∧
      (almanac.material made key tag branch files).texts = almanac.fetchedTexts key branch files := by
  have hkept : (almanac.keptSources made key tag branch files).2 =
      (files.filter isSource).filterMap fun path =>
        (almanac.source? key branch path).map (path, ·) :=
    keepAll_kept hfolder fun path hpath =>
      hnames path (List.mem_filter.1 hpath).1 (List.mem_filter.1 hpath).2
  unfold Almanac.material
  dsimp only
  rw [hkept]
  exact ⟨localeText_kept, declaringTexts_kept⟩

/-- A snapshot that is built is made from the texts that are fetched. -/
theorem Almanac.madeFrom_build
    (hbranch : almanac.host.defaultBranch key.owner key.repo = .ok branch)
    (hlisted : almanac.host.listFiles key.owner key.repo branch = .ok (files.map Value.text))
    (hnames : ∀ path ∈ files, isSource path = true →
      cache.Accepts (versionPath key tag) (fileName path))
    (h : (almanac.build cache key tag).value = .ok s) :
    s.MadeFrom almanac.context tag (almanac.fetchedLocale key branch files)
      (almanac.fetchedTexts key branch files) := by
  cases almanac.end_build cache key tag with
  | refused e keyed value cache_eq quiet => cases h.symm.trans value
  | broken e late value beside names cache_eq quiet => cases h.symm.trans value
  | published branch' listing files' made s' answered listed texts folder compiled value stored
      others calls =>
    cases h.symm.trans value
    cases hbranch.symm.trans answered
    cases hlisted.symm.trans listed
    cases (textPaths?_map_text files).symm.trans texts
    have hmade : ∀ path ∈ files, isSource path = true →
        made.Accepts (versionPath key tag) (fileName path) := by
      intro path hpath hsource
      have haccepts := (hnames path hpath hsource).makeFolder
      rwa [folder] at haccepts
    obtain ⟨hlocale, htexts⟩ :=
      almanac.material_of_accepts branch (Cache.look_of_makeFolder folder) hmade
    rw [← hlocale, ← htexts]
    exact Snapshot.madeFrom_of_compile compiled

end

/-! ## Files that cannot be fetched -/

/-- The host with one file that cannot be had. -/
def Repository.Host.failing (host : Host) (path : String) (e : HostError) : Host :=
  { host with
    rawText := fun owner repo other branch =>
      if other = path then .error e else host.rawText owner repo other branch
    rawBytes := fun owner repo other branch =>
      if other = path then .error e else host.rawBytes owner repo other branch }

/-- The host with one file that is empty. -/
def Repository.Host.emptied (host : Host) (path : String) : Host :=
  { host with
    rawText := fun owner repo other branch =>
      if other = path then .ok "" else host.rawText owner repo other branch
    rawBytes := fun owner repo other branch =>
      if other = path then .ok (some ByteArray.empty) else host.rawBytes owner repo other branch }

def Almanac.withHost (almanac : Almanac) (host : Host) : Almanac :=
  { almanac with host }

section

variable (almanac : Almanac) (host other : Host)

theorem Almanac.buildFrom_withHost
    (hsource : (almanac.withHost host).source? = (almanac.withHost other).source?)
    (himage : (almanac.withHost host).image? = (almanac.withHost other).image?) (cache : Cache)
    (key : ModKey) (tag branch : String) (files : List String) :
    (almanac.withHost host).buildFrom cache key tag branch files =
      (almanac.withHost other).buildFrom cache key tag branch files := by
  have haddress : (almanac.withHost host).imageAddress = (almanac.withHost other).imageAddress := rfl
  have hpublish : (almanac.withHost host).publish = (almanac.withHost other).publish := rfl
  have hcontext : (almanac.withHost host).context = (almanac.withHost other).context := rfl
  unfold Almanac.buildFrom
  rw [hsource, himage, haddress, hpublish, hcontext]

/-- What is looked up depends on the contents of files only as far as these are fetched. -/
theorem Almanac.get_withHost (htag : host.latestTag = other.latestTag)
    (hbranch : host.defaultBranch = other.defaultBranch) (hfiles : host.listFiles = other.listFiles)
    (hsource : (almanac.withHost host).source? = (almanac.withHost other).source?)
    (himage : (almanac.withHost host).image? = (almanac.withHost other).image?) (cache : Cache)
    (given : Value) :
    (almanac.withHost host).get cache given = (almanac.withHost other).get cache given := by
  have hbuild : ∀ key tag,
      (almanac.withHost host).build cache key tag =
        (almanac.withHost other).build cache key tag := by
    intro key tag
    unfold Almanac.build Almanac.buildListing
    simp only [almanac.buildFrom_withHost host other hsource himage]
    simp only [Almanac.withHost, hbranch, hfiles]
  have hresolve : ∀ key,
      (almanac.withHost host).resolveTag key = (almanac.withHost other).resolveTag key := by
    intro key
    simp only [Almanac.resolveTag, Almanac.withHost, htag]
  unfold Almanac.get Almanac.getVersion
  simp only [hbuild, hresolve]

end

/-- A file that cannot be fetched is as good as an empty one. -/
theorem Almanac.get_failing (almanac : Almanac) (path : String) (e : HostError) (cache : Cache)
    (given : Value) :
    (almanac.withHost (almanac.host.failing path e)).get cache given =
      (almanac.withHost (almanac.host.emptied path)).get cache given := by
  refine almanac.get_withHost (almanac.host.failing path e) (almanac.host.emptied path) rfl rfl rfl
    ?_ ?_ cache given
  · funext key branch other
    by_cases hpath : other = path
    · simp [Almanac.source?, Almanac.withHost, Host.failing, Host.emptied, hpath]
    · simp [Almanac.source?, Almanac.withHost, Host.failing, Host.emptied, hpath]
  · have hempty : ByteArray.empty.isEmpty = true := rfl
    funext key branch other
    by_cases hpath : other = path
    · simp [Almanac.image?, Almanac.withHost, Host.failing, Host.emptied, hpath, hempty]
    · simp [Almanac.image?, Almanac.withHost, Host.failing, Host.emptied, hpath]

/-- Where nothing is stored for a mod in its version, a lookup that succeeds gives a snapshot that is
made from the texts that could be fetched of the files listed, in their order, whichever could not.
A file that cannot be fetched changes nothing that an empty one in its place would not change. -/
theorem failures_isolated (almanac : Almanac) (cache : Cache) (given : Value) :
    (∀ (key : ModKey) (branch : String) (files : List String) (s : Snapshot),
      ModKey.parse given = .ok key →
      cache.snapshot? key (almanac.resolveTag key) = .ok none →
      almanac.host.defaultBranch key.owner key.repo = .ok branch →
      almanac.host.listFiles key.owner key.repo branch = .ok (files.map Value.text) →
      (∀ path ∈ files, isSource path = true →
        cache.Accepts (versionPath key (almanac.resolveTag key)) (fileName path)) →
      (almanac.get cache given).value = .ok s →
      s.MadeFrom almanac.context (almanac.resolveTag key)
        (almanac.fetchedLocale key branch files) (almanac.fetchedTexts key branch files)) ∧
    ∀ (path : String) (e : HostError),
      (almanac.withHost (almanac.host.failing path e)).get cache given =
        (almanac.withHost (almanac.host.emptied path)).get cache given := by
  refine ⟨fun key branch files s hkey hmiss hbranch hlisted hnames h => ?_,
    fun path e => almanac.get_failing path e cache given⟩
  have hversion : almanac.getVersion cache key (almanac.resolveTag key) =
      almanac.build cache key (almanac.resolveTag key) := by
    rw [Almanac.getVersion, hmiss]
  rw [Almanac.get_of_parse hkey, hversion] at h
  exact Almanac.madeFrom_build hbranch hlisted hnames h

/-- The source files of a repository: a locale file, one that declares an object, and one that cannot
be fetched. -/
def cardFiles : List String := ["localization/en-us.lua", "jokers.lua", "lost.lua"]

/-- The text of the file that declares an object. -/
def cardText : String := "SMODS.Joker \x7b key = 'j' \x7d"

def cardAlmanac : Almanac :=
  { host :=
      { latestTag := fun _ _ => .ok (some "v1")
        defaultBranch := fun _ _ => .ok "main"
        listFiles := fun _ _ _ => .ok (cardFiles.map Value.text)
        rawText := fun _ _ path _ =>
          if path = "lost.lua" then .error .unavailable
          else if path = "jokers.lua" then .ok cardText else .ok ""
        rawBytes := fun _ _ _ _ => .error .unavailable }
    context := Context.standard
    imageRoot := "/wiki-data/"
    backup? := none }

/-- The snapshot is made from the file that can be fetched alone. -/
theorem card_isolated :
    (∃ s, (cardAlmanac.get Cache.empty (.text "demo@studio")).value = .ok s ∧
      s.MadeFrom .standard "v1" "" [cardText]) ∧
      (cardAlmanac.withHost (cardAlmanac.host.failing "jokers.lua" .unavailable)).get Cache.empty
          (.text "demo@studio") =
        (cardAlmanac.withHost (cardAlmanac.host.emptied "jokers.lua")).get Cache.empty
          (.text "demo@studio") := by
  obtain ⟨hmade, hfailing⟩ := failures_isolated cardAlmanac Cache.empty (.text "demo@studio")
  refine ⟨?_, hfailing "jokers.lua" .unavailable⟩
  have hbuilt : ((cardAlmanac.get Cache.empty (.text "demo@studio")).value).toOption.isSome =
      true := by
    decide +kernel
  have hnames : ∀ path ∈ cardFiles, isSource path = true →
      Cache.empty.Accepts (versionPath sampleKey "v1") (fileName path) := by
    have haccepted : ∀ path ∈ cardFiles,
        pathFault? (versionPath sampleKey "v1" ++ [fileName path]) = none ∧
          (fileName path).utf8ByteSize ≤ nameLimit := by
      decide +kernel
    exact fun path hpath _ => ⟨haccepted path hpath, fun h => by cases h⟩
  cases hvalue : (cardAlmanac.get Cache.empty (.text "demo@studio")).value with
  | error e =>
    rw [hvalue] at hbuilt
    cases hbuilt
  | ok s =>
    have hlocale : cardAlmanac.fetchedLocale sampleKey "main" cardFiles = "" := by decide +kernel
    have htexts : cardAlmanac.fetchedTexts sampleKey "main" cardFiles = [cardText] := by
      decide +kernel
    have hs := hmade sampleKey "main" cardFiles s rfl rfl rfl rfl hnames hvalue
    rw [hlocale, htexts] at hs
    exact ⟨s, rfl, hs⟩

end ModAlmanac
