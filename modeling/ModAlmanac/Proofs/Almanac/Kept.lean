import ModAlmanac.Almanac.Build
import ModAlmanac.Proofs.Cache
import ModAlmanac.Proofs.Repository.FileNames

/-!
# How a build can end

The files that a build fetches are put into the folder of the version one after the other
(`Almanac.keptImages_cache`), under names beside the snapshot's one
(`Almanac.isBesideName_of_mem_fetched`). A build ends in one of three ways (`BuildEnd`): it is
refused before anything is written, it breaks off with files beside the snapshot written, or it
publishes the snapshot that it compiled; in every case the cache that it leaves is described in
full.
-/

namespace ModAlmanac

open Repository

/-! ## Files beside the snapshot -/

/-- Files under names beside it never take the place of a snapshot. -/
theorem Cache.read?_putFiles_metadata {folder path : CachePath}
    {files : List (String × ByteArray)} (h : ∀ file ∈ files, IsBesideName file.1)
    (hpath : path.getLast? = some "metadata.json") (cache : Cache) :
    (cache.putFiles folder files).read? path = cache.read? path :=
  Cache.read?_putFiles_of_ne (fun file hfile => (h file hfile).ne_of_getLast? hpath folder) cache

/-! ## Keeping files -/

section Keeping

variable {α : Type} {folder : CachePath} {bytes : α → ByteArray} {find? : String → Option α}

/-- The files of what was kept. -/
def keptFiles (bytes : α → ByteArray) (kept : List (String × α)) : List (String × ByteArray) :=
  kept.map fun (path, found) => (fileName path, bytes found)

section

variable {path : String} {paths : List String} {cache : Cache} {found : α}

theorem keepAll_cons_of_none (hfind : find? path = none) :
    keepAll folder bytes find? (path :: paths) cache =
      keepAll folder bytes find? paths cache := by
  rw [keepAll, hfind]

variable (hfolder : cache.look folder = .ok (some .folder)) (hfind : find? path = some found)

include hfolder hfind

/-- What is found under a name that the folder does not take is passed over. -/
theorem keepAll_cons_of_refused (hname : ¬cache.Accepts folder (fileName path)) :
    keepAll folder bytes find? (path :: paths) cache =
      keepAll folder bytes find? paths cache := by
  rw [keepAll, hfind]
  dsimp only
  cases hsave : cache.save (folder ++ [fileName path]) (bytes found) with
  | error e => rfl
  | ok saved => exact absurd ((Cache.save_eq_ok_iff hfolder).1 hsave).1 hname

theorem keepAll_cons_of_accepts (hname : cache.Accepts folder (fileName path)) :
    keepAll folder bytes find? (path :: paths) cache =
      ((keepAll folder bytes find? paths
          (cache.put (folder ++ [fileName path]) (.file (bytes found)))).1,
        (path, found) :: (keepAll folder bytes find? paths
          (cache.put (folder ++ [fileName path]) (.file (bytes found)))).2) := by
  rw [keepAll, hfind]
  dsimp only
  rw [Cache.save_of_accepts hfolder hname]

end

/-- One step: a path is passed over, or what is found there is saved in the folder and kept. -/
theorem keepAll_cons_cases (folder : CachePath) (bytes : α → ByteArray)
    (find? : String → Option α) (path : String) (paths : List String) (cache : Cache) :
    keepAll folder bytes find? (path :: paths) cache = keepAll folder bytes find? paths cache ∨
      ∃ found saved, find? path = some found ∧
        cache.save (folder ++ [fileName path]) (bytes found) = .ok saved ∧
        saved = cache.putFiles folder [(fileName path, bytes found)] ∧
        keepAll folder bytes find? (path :: paths) cache =
          ((keepAll folder bytes find? paths saved).1,
            (path, found) :: (keepAll folder bytes find? paths saved).2) := by
  rw [keepAll]
  split
  · exact .inl rfl
  · next found hfind =>
    split
    · exact .inl rfl
    · next saved hsave => exact .inr ⟨found, saved, hfind, hsave, Cache.eq_put_of_save hsave, rfl⟩

theorem keepAll_cache (folder : CachePath) (bytes : α → ByteArray) (find? : String → Option α)
    (paths : List String) (cache : Cache) :
    (keepAll folder bytes find? paths cache).1 =
      cache.putFiles folder (keptFiles bytes (keepAll folder bytes find? paths cache).2) := by
  induction paths generalizing cache with
  | nil => rfl
  | cons path paths ih =>
    rcases keepAll_cons_cases folder bytes find? path paths cache with
      hstep | ⟨found, saved, -, -, rfl, hstep⟩
    · rw [hstep]
      exact ih cache
    · rw [hstep]
      exact ih _

/-- What was kept had been found at one of the paths. -/
theorem of_mem_keepAll {paths : List String} {cache : Cache} {path : String} {found : α}
    (h : (path, found) ∈ (keepAll folder bytes find? paths cache).2) :
    path ∈ paths ∧ find? path = some found := by
  induction paths generalizing cache with
  | nil => exact absurd h List.not_mem_nil
  | cons first paths ih =>
    have hrest : ∀ {before : Cache}, (path, found) ∈ (keepAll folder bytes find? paths before).2 →
        path ∈ first :: paths ∧ find? path = some found :=
      fun h => ⟨List.mem_cons_of_mem _ (ih h).1, (ih h).2⟩
    rcases keepAll_cons_cases folder bytes find? first paths cache with
      hstep | ⟨other, saved, hfind, -, -, hstep⟩
    · rw [hstep] at h
      exact hrest h
    · rw [hstep] at h
      rcases List.mem_cons.1 h with heq | h
      · cases heq
        exact ⟨List.mem_cons_self, hfind⟩
      · exact hrest h

/-- What was kept had a name that the folder accepts. -/
theorem acceptsName_of_mem_keepAll {paths : List String} {cache : Cache} {path : String} {found : α}
    (hfolder : cache.look folder = .ok (some .folder))
    (h : (path, found) ∈ (keepAll folder bytes find? paths cache).2) :
    AcceptsName folder (fileName path) := by
  induction paths generalizing cache with
  | nil => exact absurd h List.not_mem_nil
  | cons first paths ih =>
    rcases keepAll_cons_cases folder bytes find? first paths cache with
      hstep | ⟨other, saved, -, hsave, hput, hstep⟩
    · rw [hstep] at h
      exact ih hfolder h
    · rw [hstep] at h
      rcases List.mem_cons.1 h with heq | h
      · cases heq
        exact ((Cache.save_eq_ok_iff hfolder).1 hsave).1.accepted
      · refine ih ?_ h
        rw [hput, Cache.look_putFiles]
        exact hfolder

end Keeping

/-! ## Stages of a build -/

section Stages

variable (almanac : Almanac) (cache : Cache) (key : ModKey) (tag branch : String)
  (files : List String)

/-- The cache with the source files kept, and what was kept. -/
def Almanac.keptSources : Cache × List (String × String) :=
  keepAll (versionPath key tag) String.toUTF8 (almanac.source? key branch) (files.filter isSource)
    cache

/-- The cache with the images kept as well, and which images were kept. -/
def Almanac.keptImages : Cache × List (String × ByteArray) :=
  keepAll (versionPath key tag) id (almanac.image? key branch) (files.filter isImage)
    (almanac.keptSources cache key tag branch files).1

def Almanac.material : Material :=
  let sources := files.filter isSource
  let texts := (almanac.keptSources cache key tag branch files).2
  { locale := localeText sources texts
    texts := declaringTexts sources texts
    images := (almanac.keptImages cache key tag branch files).2.map fun (path, _) =>
      { path, address := almanac.imageAddress key tag path }
    files }

/-- The questions that are put to the host for the files. -/
def fetchCalls : List Event :=
  (files.filter isSource).map (fun path => .call (.rawText key.owner key.repo path branch)) ++
    (files.filter isImage).map fun path => .call (.rawBytes key.owner key.repo path branch)

theorem Almanac.buildFrom_eq : almanac.buildFrom cache key tag branch files =
    match Snapshot.compile almanac.context tag (almanac.material cache key tag branch files) with
    | .error e =>
      { value := .error (.evaluation e)
        cache := (almanac.keptImages cache key tag branch files).1
        events := fetchCalls key branch files }
    | .ok s =>
      (almanac.publish (almanac.keptImages cache key tag branch files).1 key tag s).after
        (fetchCalls key branch files) :=
  rfl

/-- The files that were kept, sources in front of images. -/
def Almanac.fetched : List (String × ByteArray) :=
  keptFiles String.toUTF8 (almanac.keptSources cache key tag branch files).2 ++
    keptFiles id (almanac.keptImages cache key tag branch files).2

theorem Almanac.keptImages_cache : (almanac.keptImages cache key tag branch files).1 =
    cache.putFiles (versionPath key tag) (almanac.fetched cache key tag branch files) := by
  rw [Almanac.fetched, Cache.putFiles_append, Almanac.keptImages, keepAll_cache]
  congr 1
  exact keepAll_cache _ _ _ _ _

/-- What is fetched never takes the place of a snapshot. -/
theorem Almanac.isBesideName_of_mem_fetched :
    ∀ file ∈ almanac.fetched cache key tag branch files, IsBesideName file.1 := by
  intro file hfile
  rcases List.mem_append.1 hfile with h | h
  · obtain ⟨⟨path, text⟩, hkept, rfl⟩ := List.mem_map.1 h
    have hpath := (of_mem_keepAll hkept).1
    exact isBesideName_of_isSource (List.mem_filter.1 hpath).2
  · obtain ⟨⟨path, content⟩, hkept, rfl⟩ := List.mem_map.1 h
    have hpath := (of_mem_keepAll hkept).1
    exact isBesideName_of_isImage (List.mem_filter.1 hpath).2

theorem quiet_fetchCalls : ∀ event ∈ fetchCalls key branch files, event.backup? = none := by
  intro event hevent
  rcases List.mem_append.1 hevent with h | h
  · obtain ⟨path, -, rfl⟩ := List.mem_map.1 h
    rfl
  · obtain ⟨path, -, rfl⟩ := List.mem_map.1 h
    rfl

end Stages

/-! ## Ends of a build -/

/-- Whether a failure comes before anything is written: the key is none, the host does not tell the
branch or the files, or there are none. -/
def Failure.isEarly : Failure → Bool
  | .invalidKey _ => true
  | .noFiles _ _ => true
  | .host _ => true
  | _ => false

/-- The ways in which building the snapshot of a mod in a version can end. -/
inductive BuildEnd (almanac : Almanac) (cache : Cache) (key : ModKey) (tag : String)
    (run : Outcome Snapshot) : Prop
  /-- Nothing has been written. -/
  | refused (e : Failure) (keyed : ∀ e', e ≠ .invalidKey e') (value : run.value = .error e)
    (cache_eq : run.cache = cache) (quiet : ∀ event ∈ run.events, event.backup? = none)
  /-- Nothing but files beside the snapshot has been written. -/
  | broken (e : Failure) (late : e.isEarly = false) (value : run.value = .error e)
    (beside : List (String × ByteArray)) (names : ∀ file ∈ beside, IsBesideName file.1)
    (cache_eq : run.cache =
      (cache.makeFolder (versionPath key tag)).1.putFiles (versionPath key tag) beside)
    (quiet : ∀ event ∈ run.events, event.backup? = none)
  /-- The snapshot has been compiled and written. -/
  | published (branch : String) (listing : List Value) (files : List String) (made : Cache)
    (s : Snapshot) (answered : almanac.host.defaultBranch key.owner key.repo = .ok branch)
    (listed : almanac.host.listFiles key.owner key.repo branch = .ok listing)
    (texts : textPaths? listing = some files)
    (folder : cache.makeFolder (versionPath key tag) = (made, .ok ()))
    (compiled : Snapshot.compile almanac.context tag
      (almanac.material made key tag branch files) = .ok s)
    (value : run.value = .ok s)
    (stored : run.cache.node? (snapshotPath key tag) = some (.file s.fileText.toUTF8))
    (others : ∀ path, path ≠ snapshotPath key tag → path ≠ partPath key tag almanac.worker →
      run.cache.node? path = (made.putFiles (versionPath key tag)
        (almanac.fetched made key tag branch files)).node? path)
    (calls : ∀ event ∈ fetchCalls key branch files, event ∈ run.events)

section Ends

variable {almanac : Almanac} {cache made : Cache} {key : ModKey} {tag branch : String}

theorem quiet_append {front back : List Event} (hfront : ∀ event ∈ front, event.backup? = none)
    (hback : ∀ event ∈ back, event.backup? = none) :
    ∀ event ∈ front ++ back, event.backup? = none := by
  intro event hevent
  exact (List.mem_append.1 hevent).elim (hfront event) (hback event)

/-- Questions asked before a build do not change how it ends. -/
theorem BuildEnd.after {run : Outcome Snapshot} (h : BuildEnd almanac cache key tag run)
    {events : List Event} (hquiet : ∀ event ∈ events, event.backup? = none) :
    BuildEnd almanac cache key tag (run.after events) := by
  cases h with
  | refused e keyed value cache_eq quiet =>
    exact .refused e keyed value cache_eq (quiet_append hquiet quiet)
  | broken e late value beside names cache_eq quiet =>
    exact .broken e late value beside names cache_eq (quiet_append hquiet quiet)
  | published branch listing files made s answered listed texts folder compiled value stored others
      calls =>
    exact .published branch listing files made s answered listed texts folder compiled value stored
      others fun event hevent => List.mem_append_right events (calls event hevent)

theorem Almanac.end_buildFrom {listing : List Value} {files : List String}
    (answered : almanac.host.defaultBranch key.owner key.repo = .ok branch)
    (listed : almanac.host.listFiles key.owner key.repo branch = .ok listing)
    (texts : textPaths? listing = some files)
    (folder : cache.makeFolder (versionPath key tag) = (made, .ok ())) :
    BuildEnd almanac cache key tag (almanac.buildFrom made key tag branch files) := by
  have hcache := almanac.keptImages_cache made key tag branch files
  have hnames := almanac.isBesideName_of_mem_fetched made key tag branch files
  have hquiet := quiet_fetchCalls key branch files
  have hmade : made = (cache.makeFolder (versionPath key tag)).1 := by rw [folder]
  have hkept : (almanac.keptImages made key tag branch files).1 =
      (cache.makeFolder (versionPath key tag)).1.putFiles (versionPath key tag)
        (almanac.fetched made key tag branch files) := by
    rw [← hmade]
    exact hcache
  rw [Almanac.buildFrom_eq]
  split
  · next e _ => exact .broken (.evaluation e) rfl rfl _ hnames hkept hquiet
  · next s compiled =>
    have hquiet' := quiet_append hquiet fun _ h => absurd h List.not_mem_nil
    unfold Almanac.publish
    dsimp only
    rcases Cache.saveAside_cases (almanac.keptImages made key tag branch files).1
      (partPath key tag almanac.worker) (snapshotPath key tag) s.fileText.toUTF8 with
      ⟨e, hleft⟩ | ⟨e, hleft⟩ | hsaved
    · rw [hleft]
      exact .broken (.storage e) rfl rfl _ hnames hkept hquiet'
    · rw [hleft]
      refine .broken (.storage e) rfl rfl (almanac.fetched made key tag branch files ++
        [(partName almanac.worker, s.fileText.toUTF8)]) (fun file hfile => ?_) ?_ hquiet'
      · rcases List.mem_append.1 hfile with h | h
        · exact hnames file h
        · rw [List.mem_singleton.1 h]
          exact isBesideName_partName almanac.worker
      · rw [Cache.putFiles_append, ← hkept]
        rfl
    · rw [hsaved]
      refine .published branch listing files made s answered listed texts folder compiled rfl
        (OrderedMap.find?_insert_self _ _ _) (fun path hsnapshot hpart => ?_)
        fun event hevent => List.mem_append_left _ hevent
      rw [← hcache]
      exact Cache.node?_moved_of_ne hpart hsnapshot _ _ _

theorem Almanac.end_buildListing {listing : List Value}
    (answered : almanac.host.defaultBranch key.owner key.repo = .ok branch)
    (listed : almanac.host.listFiles key.owner key.repo branch = .ok listing) :
    BuildEnd almanac cache key tag (almanac.buildListing cache key tag branch listing) := by
  have hnone : ∀ file ∈ ([] : List (String × ByteArray)), IsBesideName file.1 :=
    fun _ h => absurd h List.not_mem_nil
  have hquiet : ∀ event ∈ ([] : List Event), event.backup? = none :=
    fun _ h => absurd h List.not_mem_nil
  unfold Almanac.buildListing
  split
  · exact .refused (.noFiles key branch) (fun _ h => by cases h) rfl rfl hquiet
  · split
    · next made e folder =>
      refine .broken (.storage e) rfl rfl [] hnone ?_ hquiet
      rw [folder]
      rfl
    · next made folder =>
      split
      · refine .broken .pathNotText rfl rfl [] hnone ?_ hquiet
        rw [folder]
        rfl
      · next files texts => exact Almanac.end_buildFrom answered listed texts folder

theorem Almanac.end_build (almanac : Almanac) (cache : Cache) (key : ModKey) (tag : String) :
    BuildEnd almanac cache key tag (almanac.build cache key tag) := by
  have hquiet : ∀ calls : List Call, ∀ event ∈ calls.map Event.call, event.backup? = none := by
    intro calls event hevent
    obtain ⟨call, -, rfl⟩ := List.mem_map.1 hevent
    rfl
  unfold Almanac.build
  dsimp only
  split
  · next e _ =>
    exact .refused (.host e) (fun _ h => by cases h) rfl rfl
      (hquiet [.defaultBranch key.owner key.repo])
  · next branch answered =>
    split
    · next e _ =>
      exact .refused (.host e) (fun _ h => by cases h) rfl rfl
        (hquiet [.defaultBranch key.owner key.repo, .listFiles key.owner key.repo branch])
    · next listing listed =>
      exact (Almanac.end_buildListing answered listed).after
        (hquiet [.defaultBranch key.owner key.repo, .listFiles key.owner key.repo branch])

end Ends

end ModAlmanac
