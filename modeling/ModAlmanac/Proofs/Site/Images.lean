import ModAlmanac.Proofs.Almanac.Confined
import ModAlmanac.Proofs.Site.Addresses

/-!
# Serving images

An image that a snapshot links a sheet to is served as it was fetched (`linked_image_served`): the
sheet is linked to the last image kept whose name fits it (`Atlas.exists_of_served`), of the files
kept under exactly that name it is the last one as well and so the one that stays
(`last_of_wanted`), and the address of the image leads back to its place in the cache
(`Almanac.visit_imageAddress`).
-/

namespace ModAlmanac

open OrderedMap Repository Text

/-! ## Linked images -/

/-- Whether an image at some path is one that a sheet asks for. -/
def isWanted (sheet : Source.Sheet) (path : String) : Bool :=
  imageName sheet.path == lower (lastSegment path.toList)

/-- A sheet that is served is linked to the last image kept that it asks for. -/
theorem Atlas.exists_of_served {α : Type} {kept : List (String × α)} {address : String → String}
    {files : List String} {sheet : Source.Sheet} {atlas : Atlas}
    (hatlas : atlas = (Atlas.ofSheet sheet).linked
      (kept.map fun (path, _) => { path, address := address path }) files)
    (hserved : atlas.servedPath ≠ .nil) :
    ∃ path found, kept.reverse.find? (fun image => isWanted sheet image.1) = some (path, found) ∧
      atlas.remotePath = .text path ∧ atlas.servedPath = .text (address path) := by
  subst hatlas
  have hasks : (Atlas.ofSheet sheet).asksFor ∘
      (fun (image : String × α) => { path := image.1, address := address image.1 }) =
        fun image => isWanted sheet image.1 := by
    funext image
    simp only [Function.comp_apply, Atlas.asksFor, toList_fileName]
    rfl
  unfold Atlas.linked at hserved ⊢
  rw [← List.map_reverse, List.find?_map, hasks] at hserved ⊢
  cases hfind : kept.reverse.find? fun image => isWanted sheet image.1 with
  | none =>
    rw [hfind] at hserved
    exact absurd rfl hserved
  | some image => exact ⟨image.1, image.2, rfl, rfl, rfl⟩

/-! ## Files that stay -/

theorem find?_of_imp {α : Type} {p q : α → Bool} {l : List α} {x : α} (h : l.find? p = some x)
    (hx : q x = true) (himp : ∀ y, q y = true → p y = true) : l.find? q = some x := by
  obtain ⟨-, front, behind, hsplit, hfront⟩ := List.find?_eq_some_iff_append.1 h
  refine List.find?_eq_some_iff_append.2 ⟨hx, front, behind, hsplit, fun y hy => ?_⟩
  have hnot := hfront y hy
  cases hq : q y with
  | false => rfl
  | true =>
    rw [himp y hq] at hnot
    cases hnot

/-- The last image that a sheet asks for is the last file under its own name. -/
theorem last_of_wanted {α : Type} {bytes : α → ByteArray} {kept : List (String × α)}
    {sheet : Source.Sheet} {path : String} {found : α}
    (h : kept.reverse.find? (fun image => isWanted sheet image.1) = some (path, found)) :
    (keptFiles bytes kept).reverse.find? (·.1 == fileName path) =
      some (fileName path, bytes found) := by
  have hwanted := List.find?_some h
  have hlast : kept.reverse.find? (fun image => fileName image.1 == fileName path) =
      some (path, found) := by
    refine find?_of_imp h (beq_self_eq_true _) fun image himage => ?_
    have hname := congrArg String.toList (eq_of_beq himage)
    rw [toList_fileName, toList_fileName] at hname
    unfold isWanted at hwanted ⊢
    rw [hname]
    exact hwanted
  rw [keptFiles, ← List.map_reverse, List.find?_map]
  exact congrArg _ hlast

section

variable {almanac : Almanac} {made : Cache} {key : ModKey} {tag branch : String}
  {files : List String}

/-- On the way to an entry of a folder there is no other entry of it. -/
theorem ne_other_entry {folder front : CachePath} {name other : String}
    (hfront : front <+: folder ++ [name]) (hne : name ≠ other) : front ≠ folder ++ [other] := by
  rintro rfl
  have heq := hfront.eq_of_length (by rw [List.length_append, List.length_append]; rfl)
  exact hne (List.singleton_inj.1 (List.append_cancel_left heq)).symm

/-- Whatever else is fetched or published, an image that a sheet asks for last is seen in the
end. -/
theorem look_linked {final : Cache} (hfolder : made.look (versionPath key tag) = .ok (some .folder))
    (hfinal : ∀ path, path ≠ snapshotPath key tag → path ≠ partPath key tag almanac.worker →
      final.node? path = (made.putFiles (versionPath key tag)
        (almanac.fetched made key tag branch files)).node? path)
    {sheet : Source.Sheet} {path : String} {content : ByteArray}
    (h : (almanac.keptImages made key tag branch files).2.reverse.find?
      (fun image => isWanted sheet image.1) = some (path, content)) :
    final.look (versionPath key tag ++ [fileName path]) = .ok (some (.file content)) := by
  have hmem : (path, content) ∈ (almanac.keptImages made key tag branch files).2 :=
    List.mem_reverse.1 (List.mem_of_find?_eq_some h)
  have himage := (List.mem_filter.1 (of_mem_keepAll hmem).1).2
  have hmetadata := (isBesideName_of_isImage himage).ne_metadata
  have haccepted : AcceptsName (versionPath key tag) (fileName path) := by
    refine acceptsName_of_mem_keepAll ?_ hmem
    rw [Almanac.keptSources, keepAll_cache, Cache.look_putFiles]
    exact hfolder
  have hlast : (almanac.fetched made key tag branch files).reverse.find? (·.1 == fileName path) =
      some (fileName path, content) := by
    rw [Almanac.fetched, List.reverse_append, List.find?_append, last_of_wanted h, Option.some_or]
    rfl
  rw [Cache.look_congr fun front hfront _ => hfinal front (ne_other_entry hfront hmetadata)
    (ne_other_entry hfront (fileName_ne_partName himage almanac.worker))]
  exact Cache.look_file ((made.look_putFiles _ _).trans hfolder) haccepted
    (Cache.node?_putFiles_of_last hlast made)

end

theorem rawBytes_of_image? {almanac : Almanac} {key : ModKey} {branch path : String}
    {content : ByteArray} (h : almanac.image? key branch path = some content) :
    almanac.host.rawBytes key.owner key.repo path branch = .ok (some content) := by
  unfold Almanac.image? at h
  split at h
  · next bytes hbytes =>
    split at h
    · cases h
    · cases h
      exact hbytes
  · cases h
  · cases h

/-! ## Visits -/

theorem ne_nil_of_isSegment {s : List Char} (h : isSegment s = true) : s ≠ [] ∧ '/' ∉ s :=
  ⟨(isSegment_iff.1 h).1, (isSegment_iff.1 h).2.2.2.1⟩

/-- The folder of a version is its own version folder. -/
theorem versionPath_versionFolder (key : ModKey) (tag : String) :
    versionPath key (versionFolder tag) = versionPath key tag := by
  rw [versionPath, versionFolder_of_isSegment (isSegment_versionFolder tag)]
  rfl

theorem Site.imageResponse_of_look {cache : Cache} {key : ModKey} {tag path : String}
    {content : ByteArray} (himage : isImage path = true)
    (hlook : cache.look (versionPath key tag ++ [fileName path]) = .ok (some (.file content))) :
    Site.imageResponse cache key.text (versionFolder tag) (fileName path) = .image content := by
  have hkey : ModKey.parse (.text key.text) = .ok key := by
    rw [ModKey.parse, Value.plain, ModKey.ofText?_text]
  have hname := List.isSuffixOf_iff_suffix.2 (suffix_lower_fileName_of_isImage himage)
  rw [Site.imageResponse, hkey]
  dsimp only
  rw [if_pos hname, versionPath_versionFolder, hlook]

/-- After a build, a visit to the address that the snapshot tells for a sheet gives the bytes that
were fetched from the path that it tells. -/
theorem linked_image_served {almanac : Almanac} {cache : Cache} {given : Value} {key : ModKey}
    {s : Snapshot} {name : String} {atlas : Atlas} (hroot : almanac.imageRoot = "/wiki-data/")
    (hkey : ModKey.parse given = .ok key)
    (hmiss : cache.snapshot? key (almanac.resolveTag key) = .ok none)
    (hs : (almanac.get cache given).value = .ok s) (hatlas : (name, atlas) ∈ s.atlases)
    (hserved : atlas.servedPath ≠ .nil) :
    ∃ address path branch content, atlas.servedPath = .text address ∧
      atlas.remotePath = .text path ∧
      almanac.host.defaultBranch key.owner key.repo = .ok branch ∧
      almanac.host.rawBytes key.owner key.repo path branch = .ok (some content) ∧
      .call (.rawBytes key.owner key.repo path branch) ∈ (almanac.get cache given).events ∧
      ∀ visitor, Site.visit visitor (almanac.get cache given).cache "GET" address = .ok
        { value := .image content, cache := (almanac.get cache given).cache, events := [] } := by
  have hbuild : almanac.getVersion cache key (almanac.resolveTag key) =
      almanac.build cache key (almanac.resolveTag key) := by
    rw [Almanac.getVersion, hmiss]
  rw [Almanac.get_of_parse hkey, hbuild] at hs ⊢
  generalize almanac.resolveTag key = tag at hs ⊢
  cases almanac.end_build cache key tag with
  | refused e keyed value cache_eq quiet => cases hs.symm.trans value
  | broken e late value beside names cache_eq quiet => cases hs.symm.trans value
  | published branch listing files made s' answered listed texts folder compiled value stored others
      calls =>
    cases hs.symm.trans value
    obtain ⟨-, hatlases, -, -⟩ := Snapshot.compile_eq_ok compiled
    rw [hatlases] at hatlas
    obtain ⟨⟨_, sheet⟩, -, hlinked⟩ := List.mem_map.1 hatlas
    obtain ⟨path, content, hlast, hremote, haddress⟩ :=
      Atlas.exists_of_served (congrArg Prod.snd hlinked).symm hserved
    have hmem := of_mem_keepAll (List.mem_reverse.1 (List.mem_of_find?_eq_some hlast))
    have himage := (List.mem_filter.1 hmem.1).2
    have hlook := look_linked (Cache.look_of_makeFolder folder) others hlast
    refine ⟨_, path, branch, content, haddress, hremote, answered, rawBytes_of_image? hmem.2,
      ?_, fun visitor => ?_⟩
    · refine List.mem_append_right _ (calls _ (List.mem_append_right _ ?_))
      exact List.mem_map.2 ⟨path, hmem.1, rfl⟩
    · have hname := (isBesideName_of_isImage himage).isEntry
      rw [Almanac.visit_imageAddress hroot key tag path (ne_nil_of_isSegment key.isSegment_text)
        (ne_nil_of_isSegment (isSegment_versionFolder tag)) ⟨?_, hname.2.2.2⟩]
      · exact congrArg _ (congrArg (Run.mk · _ _) (Site.imageResponse_of_look himage hlook))
      · exact fun h => hname.1 (String.toList_eq_nil_iff.1 h)

/-- An almanac over a repository with a source file that declares a sheet and two images of the
sheet's name, each of which holds its own path. -/
def sheetAlmanac : Almanac :=
  { host :=
      { latestTag := fun _ _ => .ok (some "v1")
        defaultBranch := fun _ _ => .ok "main"
        listFiles := fun _ _ _ =>
          .ok [.text "main.lua", .text "assets/2x/j.png", .text "more/assets/2x/j.png"]
        rawText := fun _ _ _ _ =>
          .ok "SMODS.Atlas \x7b key = 'j', path = 'J.png', px = 71, py = 95 \x7d"
        rawBytes := fun _ _ path _ => .ok (some path.toUTF8) }
    context := Context.standard
    imageRoot := "/wiki-data/"
    backup? := none }

/-- The sheets of a snapshot that has been given, each with its path and its address. -/
def sheetLinks : Except Failure Snapshot → List (String × Option String × Option String)
  | .ok s => s.atlases.map fun (name, atlas) =>
      (name, atlas.remotePath.text?, atlas.servedPath.text?)
  | .error _ => []

theorem sheetLinks_sheetAlmanac :
    sheetLinks (sheetAlmanac.get Cache.empty (.text "demo@studio")).value =
      [("j", some "more/assets/2x/j.png", some "/wiki-data/demo@studio/v1/j.png")] := by
  decide +kernel

theorem Value.eq_of_text? {v : Value} {text : String} (h : v.text? = some text) :
    v = .text text := by
  unfold Value.text? at h
  split at h
  · cases h
    rfl
  · cases h

/-- The second image took the place of the first one, and it is the one that is served. -/
theorem sheet_image_served :
    Site.visit sheetAlmanac (sheetAlmanac.get Cache.empty (.text "demo@studio")).cache "GET"
        "/wiki-data/demo@studio/v1/j.png" = .ok
      { value := .image "more/assets/2x/j.png".toUTF8
        cache := (sheetAlmanac.get Cache.empty (.text "demo@studio")).cache
        events := [] } := by
  have hlinks := sheetLinks_sheetAlmanac
  cases hs : (sheetAlmanac.get Cache.empty (.text "demo@studio")).value with
  | error e =>
    rw [hs] at hlinks
    cases hlinks
  | ok s =>
    rw [hs] at hlinks
    obtain ⟨⟨name, atlas⟩, hatlases, hlink⟩ := List.map_eq_singleton_iff.1 hlinks
    obtain ⟨-, hpaths⟩ := Prod.mk.inj hlink
    have hremote := Value.eq_of_text? (Prod.mk.inj hpaths).1
    have hserved := Value.eq_of_text? (Prod.mk.inj hpaths).2
    have hmem : (name, atlas) ∈ s.atlases := hatlases ▸ List.mem_singleton_self _
    have hkey : ModKey.parse (.text "demo@studio") = .ok sampleKey := rfl
    obtain ⟨address, path, branch, content, haddress, hpath, -, hbytes, -, hvisit⟩ :=
      linked_image_served rfl hkey rfl hs hmem (by rw [hserved]; simp)
    cases hserved.symm.trans haddress
    cases hremote.symm.trans hpath
    cases hbytes
    exact hvisit sheetAlmanac

end ModAlmanac
