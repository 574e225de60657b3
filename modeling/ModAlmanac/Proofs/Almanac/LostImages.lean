import ModAlmanac.Proofs.Almanac.Backups
import ModAlmanac.Proofs.Almanac.Isolation
import ModAlmanac.Proofs.Site.Images
import ModAlmanac.Proofs.Snapshot.ImageLookups

/-!
# Images that are lost

When an image cannot be fetched, a build goes on without its copy. Keeping one file less leaves the
folder of the version as ready for the other files as before (`Cache.TakesAlike`), so that all other
images are kept (`keepAll_without`) and the snapshot is published (`Almanac.build_without`). It
differs in its links only: a sheet of which the image is the only one is not served then, and is
linked to the same path of the repository exactly if the image lies in a folder `assets/2x`, or no
file of the same name is listed in front of it (`Almanac.lostImage_located_iff`).
-/

namespace ModAlmanac

open OrderedMap Repository Text

/-! ## Folders that take the same names -/

section

variable {cache other : Cache} {folder : CachePath} {name : String}

/-- A folder stands in two caches and takes the same names in both. -/
structure Cache.TakesAlike (folder : CachePath) (cache other : Cache) : Prop where
  look_eq : cache.look folder = .ok (some .folder)
  other_look_eq : other.look folder = .ok (some .folder)
  accepts_iff : ∀ name, cache.Accepts folder name ↔ other.Accepts folder name

theorem Cache.TakesAlike.refl (h : cache.look folder = .ok (some .folder)) :
    Cache.TakesAlike folder cache cache :=
  ⟨h, h, fun _ => Iff.rfl⟩

/-- A file put into one of the caches makes no difference. -/
theorem Cache.TakesAlike.put_left (h : Cache.TakesAlike folder cache other)
    (hname : cache.Accepts folder name) (content : ByteArray) :
    Cache.TakesAlike folder (cache.put (folder ++ [name]) (.file content)) other where
  look_eq := Cache.look_put_entry h.look_eq name content
  other_look_eq := h.other_look_eq
  accepts_iff next := (Cache.accepts_put_iff hname content next).trans (h.accepts_iff next)

theorem Cache.TakesAlike.put (h : Cache.TakesAlike folder cache other)
    (hname : cache.Accepts folder name) (content : ByteArray) :
    Cache.TakesAlike folder (cache.put (folder ++ [name]) (.file content))
      (other.put (folder ++ [name]) (.file content)) where
  look_eq := Cache.look_put_entry h.look_eq name content
  other_look_eq := Cache.look_put_entry h.other_look_eq name content
  accepts_iff next :=
    (Cache.accepts_put_iff hname content next).trans ((h.accepts_iff next).trans
      (Cache.accepts_put_iff ((h.accepts_iff name).1 hname) content next).symm)

/-- A file is saved aside and moved exactly where the folder takes both names. -/
theorem Cache.saveAside_eq_ok_iff (hfolder : cache.look folder = .ok (some .folder))
    (aside name : String) (content : ByteArray) :
    (cache.saveAside (folder ++ [aside]) (folder ++ [name]) content).2 = .ok () ↔
      cache.Accepts folder aside ∧ cache.Accepts folder name := by
  unfold Cache.saveAside
  cases hsave : cache.save (folder ++ [aside]) content with
  | error e =>
    refine iff_of_false nofun fun h => ?_
    rw [Cache.save_of_accepts hfolder h.1] at hsave
    cases hsave
  | ok written =>
    obtain ⟨haside, rfl⟩ := (Cache.save_eq_ok_iff hfolder).1 hsave
    rw [and_iff_right haside, ← Cache.accepts_put_iff haside content name,
      Cache.accepts_iff_look (Cache.look_put_entry hfolder aside content)]
    dsimp only
    constructor
    · intro h
      split at h
      · cases h
      · cases h
      · next node hfree hlook => exact ⟨node, hlook, hfree⟩
    · rintro ⟨node, hlook, hfree⟩
      rw [hlook]
      split
      · next heq => cases heq
      · next heq =>
        cases heq
        exact absurd rfl hfree
      · rfl

end

/-! ## Keeping one file less -/

section

variable {α : Type} {folder : CachePath} {bytes : α → ByteArray} {find? : String → Option α}

/-- Only what is found at the paths counts. -/
theorem keepAll_congr {find?' : String → Option α} {paths : List String}
    (h : ∀ path ∈ paths, find? path = find?' path) (cache : Cache) :
    keepAll folder bytes find? paths cache = keepAll folder bytes find?' paths cache := by
  induction paths generalizing cache with
  | nil => rfl
  | cons path paths ih =>
    obtain ⟨hpath, hrest⟩ := List.forall_mem_cons.1 h
    rw [keepAll, keepAll, hpath]
    simp only [ih hrest]

/-- When nothing is found at one path, all else is kept as before, and the folder takes the same
names afterwards. -/
theorem keepAll_without (lost : String) {paths : List String} {cache other : Cache}
    (h : Cache.TakesAlike folder cache other) :
    (keepAll folder bytes (fun path => if path = lost then none else find? path) paths other).2 =
        (keepAll folder bytes find? paths cache).2.filter (·.1 ≠ lost) ∧
      Cache.TakesAlike folder (keepAll folder bytes find? paths cache).1
        (keepAll folder bytes (fun path => if path = lost then none else find? path) paths
          other).1 := by
  induction paths generalizing cache other with
  | nil => exact ⟨rfl, h⟩
  | cons path paths ih =>
    by_cases hlost : path = lost
    · rw [keepAll_cons_of_none (if_pos hlost)]
      cases hfind : find? path with
      | none =>
        rw [keepAll_cons_of_none hfind]
        exact ih h
      | some found =>
        by_cases hname : cache.Accepts folder (fileName path)
        · rw [keepAll_cons_of_accepts h.look_eq hfind hname,
            List.filter_cons_of_neg (by simpa using hlost)]
          exact ih (h.put_left hname (bytes found))
        · rw [keepAll_cons_of_refused h.look_eq hfind hname]
          exact ih h
    · have hsame : (if path = lost then none else find? path) = find? path := if_neg hlost
      cases hfind : find? path with
      | none =>
        rw [keepAll_cons_of_none hfind, keepAll_cons_of_none (hsame.trans hfind)]
        exact ih h
      | some found =>
        by_cases hname : cache.Accepts folder (fileName path)
        · obtain ⟨hkept, halike⟩ := ih (h.put hname (bytes found))
          rw [keepAll_cons_of_accepts h.look_eq hfind hname,
            keepAll_cons_of_accepts h.other_look_eq (hsame.trans hfind)
              ((h.accepts_iff _).1 hname),
            List.filter_cons_of_pos (by simpa using hlost), hkept]
          exact ⟨rfl, halike⟩
        · rw [keepAll_cons_of_refused h.look_eq hfind hname,
            keepAll_cons_of_refused h.other_look_eq (hsame.trans hfind)
              (mt (h.accepts_iff _).2 hname)]
          exact ih h

/-- Keeping files changes none of the names that the folder takes. -/
theorem accepts_keepAll_iff {paths : List String} {cache : Cache}
    (hfolder : cache.look folder = .ok (some .folder)) (name : String) :
    (keepAll folder bytes find? paths cache).1.Accepts folder name ↔ cache.Accepts folder name := by
  induction paths generalizing cache with
  | nil => exact Iff.rfl
  | cons path paths ih =>
    cases hfind : find? path with
    | none =>
      rw [keepAll_cons_of_none hfind]
      exact ih hfolder
    | some found =>
      by_cases hname : cache.Accepts folder (fileName path)
      · rw [keepAll_cons_of_accepts hfolder hfind hname]
        exact (ih (Cache.look_put_entry hfolder _ _)).trans
          (Cache.accepts_put_iff hname (bytes found) name)
      · rw [keepAll_cons_of_refused hfolder hfind hname]
        exact ih hfolder

/-- What is found at a path whose name the folder takes is kept. -/
theorem mem_keepAll {paths : List String} {cache : Cache} {path : String} {found : α}
    (hfolder : cache.look folder = .ok (some .folder)) (hmem : path ∈ paths)
    (hfind : find? path = some found) (hname : cache.Accepts folder (fileName path)) :
    (path, found) ∈ (keepAll folder bytes find? paths cache).2 := by
  induction paths generalizing cache with
  | nil => cases hmem
  | cons first paths ih =>
    rcases List.mem_cons.1 hmem with rfl | hmem
    · rw [keepAll_cons_of_accepts hfolder hfind hname]
      exact List.mem_cons_self
    · cases hfirst : find? first with
      | none =>
        rw [keepAll_cons_of_none hfirst]
        exact ih hfolder hmem hname
      | some other =>
        by_cases hother : cache.Accepts folder (fileName first)
        · rw [keepAll_cons_of_accepts hfolder hfirst hother]
          exact List.mem_cons_of_mem _ (ih (Cache.look_put_entry hfolder _ _) hmem
            ((Cache.accepts_put_iff hother (bytes other) _).2 hname))
        · rw [keepAll_cons_of_refused hfolder hfirst hother]
          exact ih hfolder hmem hname

end

/-! ## Builds -/

/-- No image is a source file: the endings differ in their last letters. -/
theorem isSource_eq_false_of_isImage {path : String} (h : isImage path = true) :
    isSource path = false := by
  refine Bool.eq_false_iff.2 fun hsource => ?_
  obtain ⟨stem, hstem⟩ := List.isSuffixOf_iff_suffix.1 hsource
  have hpath : path.toList = (stem ++ ['.', 'l', 'u']) ++ ['a'] := by
    rw [← hstem, List.append_assoc]
    rfl
  obtain ⟨front, hfront⟩ := lower_concat (c := 'a') (by decide) (stem ++ ['.', 'l', 'u'])
  have hsmall : lowerChar 'a' = ['a'] := by decide
  simp only [isImage, Bool.and_eq_true] at h
  obtain ⟨other, hother⟩ := List.isSuffixOf_iff_suffix.1 h.2
  rw [hpath, hfront, hsmall] at hother
  have hlast := congrArg List.getLast? hother
  simp at hlast

/-- A snapshot with other images has other links, and is the same in all else. -/
theorem Snapshot.compile_withImages (context : Context) (version : String) (material : Material)
    (images : List SavedImage) :
    Snapshot.compile context version { material with images } =
      (Snapshot.compile context version material).map fun s =>
        { s with
          atlases := AtlasMap.linked images material.files (sheetsOfAll material.texts) } := by
  have hlinked := AtlasMap.link_eq_linked images material.files
    (Source.sheetsByKey_sheetsOfAll material.texts).distinct
  rw [← hlinked]
  unfold Snapshot.compile
  dsimp only
  cases evaluateAll (EntryMap.ofLocale (Source.Locale.parse material.locale.toList)) context
    (entitiesOfAll material.texts) <;> rfl

section

variable {almanac : Almanac} {cache made : Cache} {key : ModKey} {tag branch : String}
  {files : List String} {s : Snapshot}

theorem Almanac.value_publish (almanac : Almanac) (cache : Cache) (key : ModKey) (tag : String)
    (s : Snapshot) :
    (almanac.publish cache key tag s).value =
      match (cache.saveAside (partPath key tag almanac.worker) (snapshotPath key tag)
        s.fileText.toUTF8).2 with
      | .error e => .error (.storage e)
      | .ok () => .ok s := by
  unfold Almanac.publish
  dsimp only
  split
  · next h => rw [h]
  · next h => rw [h]

/-- A snapshot is published exactly where the folder of the version takes its name and the one that
it is saved under first. -/
theorem Almanac.value_publish_iff (hfolder : cache.look (versionPath key tag) = .ok (some .folder))
    {t : Snapshot} :
    (almanac.publish cache key tag s).value = .ok t ↔
      s = t ∧ cache.Accepts (versionPath key tag) (partName almanac.worker) ∧
        cache.Accepts (versionPath key tag) "metadata.json" := by
  have hsaved := Cache.saveAside_eq_ok_iff hfolder (partName almanac.worker) "metadata.json"
    s.fileText.toUTF8
  rw [Almanac.value_publish, ← hsaved, partPath, snapshotPath]
  cases (cache.saveAside (versionPath key tag ++ [partName almanac.worker])
    (versionPath key tag ++ ["metadata.json"]) s.fileText.toUTF8).2 with
  | error e => exact iff_of_false nofun fun h => nomatch h.2
  | ok done => exact ⟨fun h => ⟨Except.ok.inj h, rfl⟩, fun h => congrArg Except.ok h.1⟩

theorem Almanac.look_keptSources
    (hfolder : made.look (versionPath key tag) = .ok (some .folder)) :
    (almanac.keptSources made key tag branch files).1.look (versionPath key tag) =
      .ok (some .folder) := by
  rw [Almanac.keptSources, keepAll_cache, Cache.look_putFiles]
  exact hfolder

theorem Almanac.look_keptImages
    (hfolder : made.look (versionPath key tag) = .ok (some .folder)) :
    (almanac.keptImages made key tag branch files).1.look (versionPath key tag) =
      .ok (some .folder) := by
  rw [Almanac.keptImages_cache, Cache.look_putFiles]
  exact hfolder

theorem Almanac.value_buildFrom_iff
    (hfolder : made.look (versionPath key tag) = .ok (some .folder)) :
    (almanac.buildFrom made key tag branch files).value = .ok s ↔
      Snapshot.compile almanac.context tag (almanac.material made key tag branch files) = .ok s ∧
        (almanac.keptImages made key tag branch files).1.Accepts (versionPath key tag)
            (partName almanac.worker) ∧
          (almanac.keptImages made key tag branch files).1.Accepts (versionPath key tag)
            "metadata.json" := by
  rw [Almanac.buildFrom_eq]
  cases Snapshot.compile almanac.context tag (almanac.material made key tag branch files) with
  | error e => exact iff_of_false nofun fun h => nomatch h.1
  | ok compiled =>
    dsimp only
    rw [Run.value_after, Except.ok.injEq,
      Almanac.value_publish_iff (Almanac.look_keptImages hfolder)]

/-- A build of files that are listed is one in the folder of the version, if that can be made. -/
theorem Almanac.value_build_iff
    (hbranch : almanac.host.defaultBranch key.owner key.repo = .ok branch)
    (hlisted : almanac.host.listFiles key.owner key.repo branch = .ok (files.map Value.text))
    (hne : files ≠ []) :
    (almanac.build cache key tag).value = .ok s ↔
      ∃ made, cache.makeFolder (versionPath key tag) = (made, .ok ()) ∧
        (almanac.buildFrom made key tag branch files).value = .ok s := by
  have hlisting : (files.map Value.text).isEmpty = false := by
    simpa [List.isEmpty_iff] using hne
  have hvalue : (almanac.build cache key tag).value =
      (almanac.buildListing cache key tag branch (files.map Value.text)).value := by
    unfold Almanac.build
    rw [hbranch]
    dsimp only
    rw [hlisted]
    rfl
  rw [hvalue, Almanac.buildListing, hlisting, textPaths?_map_text]
  cases cache.makeFolder (versionPath key tag) with
  | mk made result =>
    cases result with
    | error e => exact iff_of_false nofun fun ⟨_, h, _⟩ => nomatch h
    | ok done =>
      constructor
      · exact fun h => ⟨made, rfl, h⟩
      · rintro ⟨_, h, hvalue⟩
        cases h
        exact hvalue

end

/-! ## Builds without an image -/

section

variable (almanac : Almanac) {cache made : Cache} {key : ModKey} {tag branch : String}
  {files : List String} {path : String} (e : HostError)

/-- The almanac over a host that does not give one file. -/
def Almanac.without (path : String) : Almanac :=
  almanac.withHost (almanac.host.failing path e)

theorem Almanac.image?_without (key : ModKey) (branch path : String) :
    (almanac.without e path).image? key branch =
      fun other => if other = path then none else almanac.image? key branch other := by
  funext other
  by_cases hother : other = path
  · simp [Almanac.image?, Almanac.without, Almanac.withHost, Host.failing, hother]
  · simp [Almanac.image?, Almanac.without, Almanac.withHost, Host.failing, hother]

theorem Almanac.source?_without {other : String} (h : other ≠ path) :
    (almanac.without e path).source? key branch other = almanac.source? key branch other := by
  simp [Almanac.source?, Almanac.without, Almanac.withHost, Host.failing, h]

section

variable (himage : isImage path = true)

include himage

/-- The source files are kept as before. -/
theorem Almanac.keptSources_without :
    (almanac.without e path).keptSources made key tag branch files =
      almanac.keptSources made key tag branch files := by
  refine keepAll_congr (fun other hother => ?_) made
  refine almanac.source?_without e fun heq => ?_
  have hsource := (List.mem_filter.1 hother).2
  rw [heq, isSource_eq_false_of_isImage himage] at hsource
  cases hsource

/-- The other images are kept as before. -/
theorem Almanac.keptImages_without
    (hfolder : made.look (versionPath key tag) = .ok (some .folder)) (branch : String)
    (files : List String) :
    ((almanac.without e path).keptImages made key tag branch files).2 =
        (almanac.keptImages made key tag branch files).2.filter (·.1 ≠ path) ∧
      Cache.TakesAlike (versionPath key tag) (almanac.keptImages made key tag branch files).1
        ((almanac.without e path).keptImages made key tag branch files).1 := by
  rw [Almanac.keptImages, Almanac.keptSources_without almanac e himage,
    Almanac.image?_without almanac e]
  exact keepAll_without path (.refl (Almanac.look_keptSources hfolder))

theorem Almanac.material_without
    (hfolder : made.look (versionPath key tag) = .ok (some .folder)) :
    (almanac.without e path).material made key tag branch files =
      { almanac.material made key tag branch files with
        images := (almanac.material made key tag branch files).images.filter (·.path ≠ path) } := by
  have hkept := (almanac.keptImages_without e himage hfolder branch files).1
  unfold Almanac.material
  rw [Almanac.keptSources_without almanac e himage, hkept, List.filter_map]
  rfl

/-- Without one image a snapshot is built as before, with the links that the other images give. -/
theorem Almanac.build_without
    (hbranch : almanac.host.defaultBranch key.owner key.repo = .ok branch)
    (hlisted : almanac.host.listFiles key.owner key.repo branch = .ok (files.map Value.text))
    (hne : files ≠ []) {s : Snapshot} (hs : (almanac.build cache key tag).value = .ok s) :
    ∃ made, cache.makeFolder (versionPath key tag) = (made, .ok ()) ∧
      Snapshot.compile almanac.context tag (almanac.material made key tag branch files) = .ok s ∧
        ((almanac.without e path).build cache key tag).value = .ok
          { s with
            atlases := AtlasMap.linked
              ((almanac.material made key tag branch files).images.filter (·.path ≠ path)) files
              (sheetsOfAll (almanac.material made key tag branch files).texts) } := by
  obtain ⟨made, hmade, hvalue⟩ := (Almanac.value_build_iff hbranch hlisted hne).1 hs
  have hfolder := Cache.look_of_makeFolder hmade
  obtain ⟨hcompiled, hpart, hmetadata⟩ := (Almanac.value_buildFrom_iff hfolder).1 hvalue
  have halike := (almanac.keptImages_without e himage hfolder branch files).2
  have hbranch' : (almanac.without e path).host.defaultBranch key.owner key.repo = .ok branch :=
    hbranch
  have hlisted' : (almanac.without e path).host.listFiles key.owner key.repo branch =
    .ok (files.map Value.text) := hlisted
  refine ⟨made, hmade, hcompiled, (Almanac.value_build_iff hbranch' hlisted' hne).2
    ⟨made, hmade, (Almanac.value_buildFrom_iff hfolder).2 ⟨?_, ?_, ?_⟩⟩⟩
  · have hcontext : (almanac.without e path).context = almanac.context := rfl
    rw [Almanac.material_without almanac e himage hfolder, Snapshot.compile_withImages, hcontext,
      hcompiled]
    rfl
  · exact (halike.accepts_iff _).1 hpart
  · exact (halike.accepts_iff _).1 hmetadata

end

end

section

variable {almanac : Almanac} {cache made : Cache} {key : ModKey} {tag branch : String}
  {files : List String} {path : String}

/-- The images that a snapshot is made from have been saved of listed paths. -/
theorem Almanac.isListed_of_mem_images {image : SavedImage}
    (h : image ∈ (almanac.material made key tag branch files).images) : image.IsListed files := by
  obtain ⟨⟨listed, content⟩, hkept, rfl⟩ := List.mem_map.1 h
  obtain ⟨hmem, himage⟩ := List.mem_filter.1 (of_mem_keepAll hkept).1
  exact ⟨hmem, himage, rfl⟩

/-- An image that can be fetched, and whose name the folder takes, is among them. -/
theorem Almanac.exists_mem_images {content : ByteArray}
    (hmade : cache.makeFolder (versionPath key tag) = (made, .ok ())) (hmem : path ∈ files)
    (himage : isImage path = true) (hfetched : almanac.image? key branch path = some content)
    (hname : cache.Accepts (versionPath key tag) (fileName path)) :
    ∃ image ∈ (almanac.material made key tag branch files).images, image.path = path := by
  have hfolder := Cache.look_of_makeFolder hmade
  have haccepts : made.Accepts (versionPath key tag) (fileName path) := by
    have hmakes := hname.makeFolder
    rwa [hmade] at hmakes
  have hkept : (path, content) ∈ (almanac.keptImages made key tag branch files).2 :=
    mem_keepAll (Almanac.look_keptSources hfolder) (List.mem_filter.2 ⟨hmem, himage⟩) hfetched
      ((accepts_keepAll_iff hfolder _).2 haccepts)
  exact ⟨_, List.mem_map.2 ⟨_, hkept, rfl⟩, rfl⟩

theorem Atlas.path_linked (saved : List SavedImage) (files : List String) (sheet : Atlas) :
    (sheet.linked saved files).path = sheet.path := by
  unfold Atlas.linked
  split
  · rfl
  · unfold Atlas.locate?
    split
    · rfl
    · rfl

theorem Atlas.isUnlinked_ofSheet (sheet : Source.Sheet) : (Atlas.ofSheet sheet).IsUnlinked :=
  ⟨⟨_, rfl⟩, rfl, rfl⟩

/-- Two builds of one listing, of which the second one goes without an image that the first one
fetched and saved: the second snapshot differs from the first one in the links of sheets at most. A
sheet of which the image is the only one is served in the first one and not in the second one, and it
is linked to the same path in both exactly if the image lies in a folder `assets/2x`, or no file of
its name is listed in front of it. -/
theorem Almanac.lostImage_located_iff {content : ByteArray} {s : Snapshot} (e : HostError)
    (hbranch : almanac.host.defaultBranch key.owner key.repo = .ok branch)
    (hlisted : almanac.host.listFiles key.owner key.repo branch = .ok (files.map Value.text))
    (hmem : path ∈ files) (himage : isImage path = true)
    (hfetched : almanac.image? key branch path = some content)
    (hname : cache.Accepts (versionPath key tag) (fileName path))
    (hs : (almanac.build cache key tag).value = .ok s) :
    ∃ t, ((almanac.without e path).build cache key tag).value = .ok t ∧
      t.entries = s.entries ∧ t.entities = s.entities ∧ t.version = s.version ∧
        List.Forall₂ (fun a b => b.1 = a.1 ∧ b.2.declared = a.2.declared ∧
            (a.2.IsOnlyImage files path →
              a.2.servedPath ≠ .nil ∧ b.2.servedPath = .nil ∧
                (b.2.remotePath = a.2.remotePath ↔
                  LiesInImageFolder path ∨
                    IsFirst (HasBaseName (imageName a.2.path.plain)) files path)))
          s.atlases t.atlases := by
  obtain ⟨made, hmade, hcompiled, hbuilt⟩ :=
    almanac.build_without e himage hbranch hlisted (List.ne_nil_of_mem hmem) hs
  refine ⟨_, hbuilt, rfl, rfl, rfl, ?_⟩
  obtain ⟨-, hatlases, -, -⟩ := Snapshot.compile_eq_ok hcompiled
  have hcopy := Almanac.exists_mem_images hmade hmem himage hfetched hname
  have hfiles : (almanac.material made key tag branch files).files = files := rfl
  rw [hatlases, hfiles]
  unfold AtlasMap.linked
  rw [List.forall₂_map_left_iff, List.forall₂_map_right_iff, List.forall₂_same]
  rintro ⟨name, sheet⟩ -
  refine ⟨rfl, (Atlas.declared_linked _ _ sheet).trans (Atlas.declared_linked _ _ sheet).symm, ?_⟩
  intro honly
  have hpath := Atlas.path_linked (almanac.material made key tag branch files).images files
    (Atlas.ofSheet sheet)
  have honly' : (Atlas.ofSheet sheet).IsOnlyImage files path := by
    obtain ⟨hlists, hkind, hbase, hunique⟩ := honly
    dsimp only at hbase hunique
    rw [hpath] at hbase hunique
    exact ⟨hlists, hkind, hbase, hunique⟩
  dsimp only
  rw [hpath]
  exact honly'.remotePath_eq_iff (fun _ => Almanac.isListed_of_mem_images)
    (Atlas.isUnlinked_ofSheet sheet) hcopy

end

/-- An almanac over a repository with some files, whose source files declare a sheet `J.png`. -/
def artAlmanac (files : List String) : Almanac :=
  { sheetAlmanac with
    host := { sheetAlmanac.host with listFiles := fun _ _ _ => .ok (files.map .text) } }

/-- What a sheet is declared with and linked to. -/
def Atlas.links (sheet : Atlas) : Option String × Option String × Option String :=
  (sheet.path.text?, sheet.remotePath.text?, sheet.servedPath.text?)

/-- The links of the sheets of a snapshot that has been built. -/
def builtLinks (run : Outcome Snapshot) : List (Option String × Option String × Option String) :=
  match run.value with
  | .ok s => s.atlases.map fun a => a.2.links
  | .error _ => []

/-- An image in a folder of images is located there when it is lost, behind a file of its name. -/
theorem artAlmanac_lostImage_located :
    ∃ s t a b, ((artAlmanac ["main.lua", "J.png", "Mods/Assets/2X/j.png"]).build Cache.empty
        sampleKey "v1").value = .ok s ∧
      (((artAlmanac ["main.lua", "J.png", "Mods/Assets/2X/j.png"]).without .unavailable
        "Mods/Assets/2X/j.png").build Cache.empty sampleKey "v1").value = .ok t ∧
      s.atlases = [a] ∧ t.atlases = [b] ∧
        a.2.links = (some "J.png", some "Mods/Assets/2X/j.png",
          some "/wiki-data/demo@studio/v1/j.png") ∧
        b.2.servedPath = .nil ∧ b.2.remotePath = a.2.remotePath := by
  have hlinks : builtLinks ((artAlmanac ["main.lua", "J.png", "Mods/Assets/2X/j.png"]).build
      Cache.empty sampleKey "v1") = [(some "J.png", some "Mods/Assets/2X/j.png",
        some "/wiki-data/demo@studio/v1/j.png")] := by
    decide +kernel
  have haccepted : pathFault? (versionPath sampleKey "v1" ++ [fileName "Mods/Assets/2X/j.png"]) =
      none ∧ (fileName "Mods/Assets/2X/j.png").utf8ByteSize ≤ nameLimit := by
    decide +kernel
  unfold builtLinks at hlinks
  cases hs : ((artAlmanac ["main.lua", "J.png", "Mods/Assets/2X/j.png"]).build Cache.empty
      sampleKey "v1").value with
  | error e =>
    rw [hs] at hlinks
    cases hlinks
  | ok s =>
    rw [hs] at hlinks
    obtain ⟨a, hatlases, ha⟩ := List.map_eq_singleton_iff.1 hlinks
    have hbranch : (artAlmanac ["main.lua", "J.png", "Mods/Assets/2X/j.png"]).host.defaultBranch
      sampleKey.owner sampleKey.repo = .ok "main" := rfl
    have hmem : "Mods/Assets/2X/j.png" ∈ ["main.lua", "J.png", "Mods/Assets/2X/j.png"] := by
      decide
    have hfetched : (artAlmanac ["main.lua", "J.png", "Mods/Assets/2X/j.png"]).image? sampleKey
        "main" "Mods/Assets/2X/j.png" = some "Mods/Assets/2X/j.png".toUTF8 := by
      decide +kernel
    obtain ⟨t, ht, -, -, -, hforall⟩ := Almanac.lostImage_located_iff .unavailable hbranch rfl hmem
      (by decide +kernel) hfetched ⟨haccepted, fun h => by cases h⟩ hs
    rw [hatlases] at hforall
    obtain ⟨b, _, ⟨-, -, hlost⟩, hnil, hb⟩ := List.forall₂_cons_left_iff.1 hforall
    rw [List.forall₂_nil_left_iff.1 hnil] at hb
    have hpath : a.2.path = .text "J.png" := Value.eq_of_text? (congrArg Prod.fst ha)
    have honly : a.2.IsOnlyImage ["main.lua", "J.png", "Mods/Assets/2X/j.png"]
        "Mods/Assets/2X/j.png" := by
      have hname : a.2.path.plain = "J.png" := by
        rw [hpath]
        rfl
      refine ⟨by decide, by decide +kernel, ?_, fun file hfile himage _ => ?_⟩
      · rw [hname]
        unfold HasBaseName
        decide +kernel
      · have hothers : ∀ file ∈ ["main.lua", "J.png"], isImage file = false := by decide +kernel
        simp only [List.mem_cons, List.not_mem_nil, or_false] at hfile
        rcases hfile with rfl | rfl | rfl
        · rw [hothers _ (by decide)] at himage
          cases himage
        · rw [hothers _ (by decide)] at himage
          cases himage
        · rfl
    obtain ⟨-, hserved, hremote⟩ := hlost honly
    have hfolder : LiesInImageFolder "Mods/Assets/2X/j.png" :=
      ⟨"mods/".toList, "j.png".toList, by decide +kernel, .inr (by decide)⟩
    exact ⟨s, t, a, b, rfl, ht, hatlases, hb, ha, hserved, hremote.2 (.inl hfolder)⟩

/-- A folder whose name only ends in `assets` is not one of images: with its copy saved the only image
is linked to its own path, and when it is lost the sheet is linked to another file of its name. -/
theorem lookalikeFolder_not_located :
    (["main.lua", "J.png", "myassets/2x/J.png"].filter fun file =>
        isImage file && isPathOf (imageName "J.png") file) = ["myassets/2x/J.png"] ∧
      builtLinks ((artAlmanac ["main.lua", "J.png", "myassets/2x/J.png"]).build Cache.empty
          sampleKey "v1") =
        [(some "J.png", some "myassets/2x/J.png", some "/wiki-data/demo@studio/v1/J.png")] ∧
      builtLinks (((artAlmanac ["main.lua", "J.png", "myassets/2x/J.png"]).without .unavailable
          "myassets/2x/J.png").build Cache.empty sampleKey "v1") =
        [(some "J.png", some "J.png", none)] := by
  decide +kernel

end ModAlmanac
