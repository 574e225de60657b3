import ModAlmanac.Proofs.OrderedMap
import ModAlmanac.Proofs.Repository.FileNames
import ModAlmanac.Proofs.Text.Skipping
import ModAlmanac.Snapshot.Linking

/-!
# Linked sheets

Sheets are linked by loops over the map that they are in, which put the linked sheets in their
places: one loop for every saved image, and one more for the sheets that no image was saved for.
What one sheet is linked to has no part in what another one is, so that each is linked by itself
(`AtlasMap.linkAll_eq_map`). Of the saved images that a sheet asks for it keeps the last one, since
a later loop replaces the link of an earlier one (`Atlas.foldl_offered`); of the paths of the
repository it takes the first one that fits, and those in a folder of images fit best. So the sheets
of a linked map are told without the loops (`Atlas.IsLinked`, `AtlasMap.isLinked_linkAll`).
-/

namespace ModAlmanac

open OrderedMap Repository Text

/-! ## First and last items -/

section

variable {α : Type} {p : α → Prop} {q : α → Bool} {items : List α} {item : α}

/-- An item is the first one of a list that has a property. -/
def IsFirst (p : α → Prop) (items : List α) (item : α) : Prop :=
  p item ∧ ∃ front behind, items = front ++ item :: behind ∧ ∀ other ∈ front, ¬p other

/-- An item is the last one of a list that has a property. -/
def IsLast (p : α → Prop) (items : List α) (item : α) : Prop :=
  p item ∧ ∃ front behind, items = front ++ item :: behind ∧ ∀ other ∈ behind, ¬p other

theorem IsLast.mem (h : IsLast p items item) : item ∈ items := by
  obtain ⟨-, front, behind, rfl, -⟩ := h
  exact List.mem_append_right front List.mem_cons_self

theorem find?_eq_some_iff_isFirst (h : ∀ item, q item = true ↔ p item) :
    items.find? q = some item ↔ IsFirst p items item := by
  simp only [List.find?_eq_some_iff_append, IsFirst, h, Bool.not_eq_true', ← Bool.not_eq_true]

theorem find?_reverse_eq_some_iff_isLast (h : ∀ item, q item = true ↔ p item) :
    items.reverse.find? q = some item ↔ IsLast p items item := by
  rw [find?_eq_some_iff_isFirst h]
  constructor
  · rintro ⟨hitem, front, behind, hsplit, hfront⟩
    refine ⟨hitem, behind.reverse, front.reverse, ?_, fun other hother => ?_⟩
    · rw [← List.reverse_reverse items, hsplit]
      simp
    · exact hfront other (List.mem_reverse.1 hother)
  · rintro ⟨hitem, front, behind, rfl, hbehind⟩
    refine ⟨hitem, behind.reverse, front.reverse, by simp, fun other hother => ?_⟩
    exact hbehind other (List.mem_reverse.1 hother)

theorem find?_eq_none_iff_forall (h : ∀ item, q item = true ↔ p item) :
    items.find? q = none ↔ ∀ item ∈ items, ¬p item := by
  simp only [List.find?_eq_none, h]

/-- Where an item has a property there is a last one that has it. -/
theorem exists_isLast (h : ∃ item ∈ items, p item) : ∃ item, IsLast p items item := by
  classical
  obtain ⟨item, hitem, hp⟩ := h
  have hdecide : ∀ item, decide (p item) = true ↔ p item := fun _ => decide_eq_true_iff
  cases hfind : items.reverse.find? (fun item => decide (p item)) with
  | some last => exact ⟨last, (find?_reverse_eq_some_iff_isLast hdecide).1 hfind⟩
  | none =>
    exact absurd hp ((find?_eq_none_iff_forall hdecide).1 hfind item (List.mem_reverse.2 hitem))

end

/-! ## Paths -/

/-- The file at a path has a name, given in small letters. -/
def HasBaseName (name : List Char) (path : String) : Prop :=
  lower (lastSegment path.toList) = name

/-- A path leads through a folder `assets/2x`, in letters of either case. -/
def LiesInImageFolder (path : String) : Prop :=
  ∃ front behind, lower path.toList = front ++ (imageFolder ++ behind) ∧
    (front = [] ∨ front.getLast? = some '/')

theorem slash_not_mem_imageName (path : String) : '/' ∉ imageName path :=
  slash_not_mem_lower (not_mem_lastSegment _)

theorem lastSegment_append_slash {name : List Char} (h : '/' ∉ name) (front : List Char) :
    lastSegment (front ++ '/' :: name) = name := by
  have hname : ∀ c ∈ name.reverse, decide (c ≠ '/') = true := fun c hc =>
    decide_eq_true fun heq => h (heq ▸ List.mem_reverse.1 hc)
  rw [lastSegment, List.reverse_append, List.reverse_cons, List.append_assoc,
    List.takeWhile_append_of_pos hname, List.singleton_append, List.takeWhile_cons_of_neg (by simp),
    List.append_nil, List.reverse_reverse]

/-- A path is a name, or ends with it behind a slash, exactly if its file has that name. -/
theorem isPathOf_iff {name : List Char} (hname : '/' ∉ name) {path : String} :
    isPathOf name path = true ↔ HasBaseName name path := by
  have hlast : '/' ∉ lower (lastSegment path.toList) := slash_not_mem_lower (not_mem_lastSegment _)
  simp only [isPathOf, Bool.or_eq_true, beq_iff_eq, List.isSuffixOf_iff_suffix, HasBaseName]
  rcases eq_or_exists_lastSegment path.toList with hpath | ⟨front, hpath⟩
  · rw [← hpath] at hlast ⊢
    exact or_iff_left fun hsuffix => hlast (hsuffix.subset List.mem_cons_self)
  · have hlower : lower path.toList = lower front ++ '/' :: lower (lastSegment path.toList) :=
      (congrArg lower hpath).trans (lower_append_slash _ _)
    rw [hlower]
    constructor
    · rintro (heq | ⟨before, hsuffix⟩)
      · exact absurd (by simp [← heq]) hname
      · have hsegment := congrArg lastSegment hsuffix
        rw [lastSegment_append_slash hname, lastSegment_append_slash hlast] at hsegment
        exact hsegment.symm
    · rintro rfl
      exact .inr (List.suffix_append _ _)

theorem occursIn_iff {part s : List Char} : occursIn part s = true ↔ part <:+: s := by
  constructor
  · intro h
    obtain ⟨found, hfound⟩ := Option.isSome_iff_exists.1 h
    obtain ⟨front, rest, rfl, hrest⟩ := exists_suffix_of_search hfound
    exact ⟨front, found, by rw [eq_append_of_isPrefixOf? hrest, List.append_assoc]⟩
  · rintro ⟨front, behind, rfl⟩
    rw [List.append_assoc]
    exact isSome_search_append (isPrefixOf?_append part behind) front

theorem isInImageFolder_iff {path : String} :
    isInImageFolder path = true ↔ LiesInImageFolder path := by
  rw [isInImageFolder, occursIn_iff, LiesInImageFolder]
  generalize lower path.toList = lowered
  constructor
  · rintro ⟨front, behind, h⟩
    cases front with
    | nil => exact ⟨[], behind, (List.cons.inj h).2.symm, .inl rfl⟩
    | cons c front =>
      refine ⟨front ++ ['/'], behind, ?_, .inr (by simp)⟩
      rw [← (List.cons.inj h).2]
      simp
  · rintro ⟨front, behind, rfl, rfl | hfront⟩
    · exact ⟨[], behind, rfl⟩
    · obtain ⟨above, rfl⟩ := List.getLast?_eq_some_iff.1 hfront
      exact ⟨'/' :: above, behind, by simp⟩

/-! ## One sheet -/

/-- A sheet asks for an image if the saved copy has the name that the sheet's path ends with. -/
def Atlas.Wants (sheet : Atlas) (image : SavedImage) : Prop :=
  lower image.name.toList = imageName sheet.path.plain

theorem Atlas.asksFor_iff {sheet : Atlas} {image : SavedImage} :
    sheet.asksFor image = true ↔ sheet.Wants image := by
  rw [Atlas.asksFor, beq_iff_eq]
  exact eq_comm

/-- What the loop over one image makes of a sheet. -/
def Atlas.offered (sheet : Atlas) (image : SavedImage) : Atlas :=
  if sheet.asksFor image then sheet.serve image else sheet

/-- What a sheet is linked to: the last saved image that it asks for, or else, unless it is linked
already, a path of the repository. -/
def Atlas.linked (saved : List SavedImage) (files : List String) (sheet : Atlas) : Atlas :=
  match saved.reverse.find? sheet.asksFor with
  | some image => sheet.serve image
  | none => (sheet.locate? files).getD sheet

/-- Of the images that a sheet asks for the last one stays: a link changes neither the path by which
the sheet asks nor what the next link puts in its place. -/
theorem Atlas.foldl_offered (saved : List SavedImage) (sheet : Atlas) :
    saved.foldl Atlas.offered sheet =
      ((saved.reverse.find? sheet.asksFor).map sheet.serve).getD sheet := by
  induction saved using List.reverseRecOn with
  | nil => rfl
  | append_singleton saved image ih =>
    have hpath : ∀ found : Option SavedImage,
        ((found.map sheet.serve).getD sheet).asksFor image = sheet.asksFor image := by
      rintro (_ | _) <;> rfl
    have hserve : ∀ found : Option SavedImage,
        ((found.map sheet.serve).getD sheet).serve image = sheet.serve image := by
      rintro (_ | _) <;> rfl
    rw [List.foldl_concat, ih, List.reverse_concat, List.find?_cons, Atlas.offered, hpath, hserve]
    cases sheet.asksFor image <;> rfl

theorem Atlas.locate?_foldl_offered (saved : List SavedImage) (files : List String)
    (sheet : Atlas) :
    ((saved.foldl Atlas.offered sheet).locate? files).getD (saved.foldl Atlas.offered sheet) =
      sheet.linked saved files := by
  rw [Atlas.foldl_offered, Atlas.linked]
  cases saved.reverse.find? sheet.asksFor <;> rfl

/-! ## All sheets -/

theorem AtlasMap.offer_eq_map {atlases : AtlasMap} (h : Distinct atlases) (image : SavedImage) :
    atlases.offer image = atlases.map fun a => (a.1, a.2.offered image) := by
  rw [AtlasMap.offer, updateEach_eq_map _ h]
  refine List.map_congr_left fun a _ => Prod.ext rfl ?_
  unfold Atlas.offered
  cases a.2.asksFor image <;> rfl

theorem AtlasMap.foldl_offer_eq_map (saved : List SavedImage) {atlases : AtlasMap}
    (h : Distinct atlases) :
    saved.foldl AtlasMap.offer atlases =
      atlases.map fun a => (a.1, saved.foldl Atlas.offered a.2) := by
  induction saved generalizing atlases with
  | nil => exact (List.map_id atlases).symm
  | cons image saved ih =>
    rw [List.foldl_cons, AtlasMap.offer_eq_map h,
      ih (distinct_map h fun _ sheet => sheet.offered image), List.map_map]
    rfl

/-- Each sheet is linked by itself. -/
theorem AtlasMap.linkAll_eq_map (saved : List SavedImage) (files : List String)
    {atlases : AtlasMap} (h : Distinct atlases) :
    AtlasMap.linkAll saved files atlases =
      atlases.map fun a => (a.1, a.2.linked saved files) := by
  rw [AtlasMap.linkAll, AtlasMap.foldl_offer_eq_map saved h,
    updateEach_eq_map _ (distinct_map h fun _ sheet => saved.foldl Atlas.offered sheet),
    List.map_map]
  exact List.map_congr_left fun a _ =>
    Prod.ext rfl (Atlas.locate?_foldl_offered saved files a.2)

/-- The declared sheets, each linked by itself. -/
def AtlasMap.linked (saved : List SavedImage) (files : List String)
    (sheets : List (String × Source.Sheet)) : AtlasMap :=
  sheets.map fun (key, sheet) => (key, (Atlas.ofSheet sheet).linked saved files)

theorem AtlasMap.link_eq_linked (saved : List SavedImage) (files : List String)
    {sheets : List (String × Source.Sheet)} (h : Distinct sheets) :
    AtlasMap.link saved files sheets = AtlasMap.linked saved files sheets := by
  rw [AtlasMap.link, AtlasMap.linkAll_eq_map saved files
    (distinct_map h fun _ sheet => Atlas.ofSheet sheet), List.map_map]
  rfl

/-! ## What a sheet is linked to -/

/-- A sheet with a path, which has not been linked yet. -/
structure Atlas.IsUnlinked (sheet : Atlas) : Prop where
  isText_path : ∃ path, sheet.path = .text path
  remotePath_eq : sheet.remotePath = .nil
  servedPath_eq : sheet.servedPath = .nil

/-- How a sheet is linked with some images saved and some paths listed. The key, the path and the
sizes of the sheet stay. The sheet is served exactly if an image that it asks for has been saved; it
is then linked to the last such image. If not, it is linked to the first listed path of a file of
that name in a folder of images, to the first listed path of one anywhere if there is none, and to
its own path if there is none either. -/
structure Atlas.IsLinked (saved : List SavedImage) (files : List String) (sheet linked : Atlas) :
    Prop where
  key_eq : linked.key = sheet.key
  path_eq : linked.path = sheet.path
  tileWidth_eq : linked.tileWidth = sheet.tileWidth
  tileHeight_eq : linked.tileHeight = sheet.tileHeight
  isText_remotePath : ∃ path, linked.remotePath = .text path
  served_iff : linked.servedPath ≠ .nil ↔ ∃ image ∈ saved, sheet.Wants image
  of_saved : ∀ image, IsLast sheet.Wants saved image →
    linked.servedPath = .text image.address ∧ linked.remotePath = .text image.path
  of_folder : (∀ image ∈ saved, ¬sheet.Wants image) → ∀ file,
    IsFirst (fun file => LiesInImageFolder file ∧ HasBaseName (imageName sheet.path.plain) file)
      files file → linked.remotePath = .text file
  of_listed : (∀ image ∈ saved, ¬sheet.Wants image) →
    (∀ file ∈ files,
      ¬(LiesInImageFolder file ∧ HasBaseName (imageName sheet.path.plain) file)) →
    ∀ file, IsFirst (HasBaseName (imageName sheet.path.plain)) files file →
      linked.remotePath = .text file
  of_unlisted : (∀ image ∈ saved, ¬sheet.Wants image) →
    (∀ file ∈ files, ¬HasBaseName (imageName sheet.path.plain) file) →
    linked.remotePath = sheet.path

section

variable {path : String} {files : List String}

theorem isPathOf_imageName_iff (file : String) :
    isPathOf (imageName path) file = true ↔ HasBaseName (imageName path) file :=
  isPathOf_iff (slash_not_mem_imageName path)

theorem isFolderPath_iff (file : String) :
    (isInImageFolder file && isPathOf (imageName path) file) = true ↔
      LiesInImageFolder file ∧ HasBaseName (imageName path) file := by
  rw [Bool.and_eq_true, isInImageFolder_iff, isPathOf_imageName_iff]

theorem locateImage_of_folder {file : String}
    (h : IsFirst (fun file => LiesInImageFolder file ∧ HasBaseName (imageName path) file) files
      file) : locateImage path files = file := by
  rw [locateImage, (find?_eq_some_iff_isFirst isFolderPath_iff).2 h]

theorem locateImage_of_not_folder
    (h : ∀ file ∈ files, ¬(LiesInImageFolder file ∧ HasBaseName (imageName path) file)) :
    locateImage path files = (files.find? (isPathOf (imageName path))).getD path := by
  rw [locateImage, (find?_eq_none_iff_forall isFolderPath_iff).2 h]

theorem locateImage_of_listed
    (hfolder : ∀ file ∈ files, ¬(LiesInImageFolder file ∧ HasBaseName (imageName path) file))
    {file : String} (h : IsFirst (HasBaseName (imageName path)) files file) :
    locateImage path files = file := by
  rw [locateImage_of_not_folder hfolder,
    (find?_eq_some_iff_isFirst isPathOf_imageName_iff).2 h, Option.getD_some]

theorem locateImage_of_unlisted
    (h : ∀ file ∈ files, ¬HasBaseName (imageName path) file) : locateImage path files = path := by
  rw [locateImage_of_not_folder fun file hfile hboth => h file hfile hboth.2,
    (find?_eq_none_iff_forall isPathOf_imageName_iff).2 h, Option.getD_none]

end

theorem Atlas.linked_of_saved {saved : List SavedImage} {image : SavedImage} {sheet : Atlas}
    (h : IsLast sheet.Wants saved image) (files : List String) :
    sheet.linked saved files = sheet.serve image := by
  rw [Atlas.linked, (find?_reverse_eq_some_iff_isLast fun _ => Atlas.asksFor_iff).2 h]

theorem Atlas.linked_of_not_saved {saved : List SavedImage} {sheet : Atlas}
    (h : ∀ image ∈ saved, ¬sheet.Wants image) (hremote : sheet.remotePath = .nil)
    (files : List String) :
    sheet.linked saved files =
      { sheet with remotePath := .text (locateImage sheet.path.plain files) } := by
  have hfind : saved.reverse.find? sheet.asksFor = none :=
    (find?_eq_none_iff_forall fun _ => Atlas.asksFor_iff).2 fun image himage =>
      h image (List.mem_reverse.1 himage)
  rw [Atlas.linked, hfind]
  dsimp only
  rw [Atlas.locate?, hremote]
  rfl

theorem Atlas.isLinked_linked (saved : List SavedImage) (files : List String) {sheet : Atlas}
    (h : sheet.IsUnlinked) : Atlas.IsLinked saved files sheet (sheet.linked saved files) := by
  by_cases hwanted : ∃ image ∈ saved, sheet.Wants image
  · obtain ⟨last, hlast⟩ := exists_isLast hwanted
    have hlinked := Atlas.linked_of_saved hlast files
    have hnot : ¬∀ image ∈ saved, ¬sheet.Wants image := fun hnone =>
      hnone last hlast.mem hlast.1
    rw [hlinked]
    exact
      { key_eq := rfl
        path_eq := rfl
        tileWidth_eq := rfl
        tileHeight_eq := rfl
        isText_remotePath := ⟨_, rfl⟩
        served_iff := iff_of_true nofun hwanted
        of_saved := fun image himage => by
          rw [← hlinked, Atlas.linked_of_saved himage files]
          exact ⟨rfl, rfl⟩
        of_folder := fun hnone => absurd hnone hnot
        of_listed := fun hnone => absurd hnone hnot
        of_unlisted := fun hnone => absurd hnone hnot }
  · have hnone : ∀ image ∈ saved, ¬sheet.Wants image := fun image himage hwants =>
      hwanted ⟨image, himage, hwants⟩
    obtain ⟨path, hpath⟩ := h.isText_path
    have hplain : sheet.path.plain = path := by
      rw [hpath]
      rfl
    rw [Atlas.linked_of_not_saved hnone h.remotePath_eq files]
    exact
      { key_eq := rfl
        path_eq := rfl
        tileWidth_eq := rfl
        tileHeight_eq := rfl
        isText_remotePath := ⟨_, rfl⟩
        served_iff := iff_of_false (fun hne => hne h.servedPath_eq) hwanted
        of_saved := fun image himage => absurd himage.1 (hnone image himage.mem)
        of_folder := fun _ file hfile => congrArg Value.text (locateImage_of_folder hfile)
        of_listed := fun _ hfolder file hfile =>
          congrArg Value.text (locateImage_of_listed hfolder hfile)
        of_unlisted := fun _ hlisted => by
          rw [locateImage_of_unlisted hlisted, hplain, hpath] }

/-- A map of sheets is linked sheet by sheet, in its order and under its keys. -/
theorem AtlasMap.isLinked_linkAll (saved : List SavedImage) (files : List String)
    {atlases : AtlasMap} (hdistinct : Distinct atlases)
    (hunlinked : ∀ a ∈ atlases, a.2.IsUnlinked) :
    List.Forall₂ (fun a l => l.1 = a.1 ∧ Atlas.IsLinked saved files a.2 l.2) atlases
      (AtlasMap.linkAll saved files atlases) := by
  rw [AtlasMap.linkAll_eq_map saved files hdistinct, List.forall₂_map_right_iff,
    List.forall₂_same]
  exact fun a ha => ⟨rfl, Atlas.isLinked_linked saved files (hunlinked a ha)⟩

/-- Four sheets without links. -/
def sampleAtlases : AtlasMap :=
  ["art\\J.png", "B.PNG", "c.png", "lost/d.png"].map fun path =>
    (path, { key := .text path, path := .text path, tileWidth := 71, tileHeight := 95
             remotePath := .nil, servedPath := .nil })

def sampleImages : List SavedImage :=
  [{ path := "assets/2x/j.png", address := "/j" },
    { path := "more/assets/2x/J.PNG", address := "/J" }]

def sampleFiles : List String :=
  ["b.png", "x/Assets/2X/b.png", "y/assets/2x/b.png", "1x/C.png", "2x/c.png"]

/-- The first sheet is linked to the second of two saved images, the others are located in a folder
of images, elsewhere, and nowhere. -/
theorem sampleAtlases_isLinked :
    Distinct sampleAtlases ∧ (∀ a ∈ sampleAtlases, a.2.IsUnlinked) ∧
      List.Forall₂ (fun a l => l.1 = a.1 ∧ Atlas.IsLinked sampleImages sampleFiles a.2 l.2)
        sampleAtlases (AtlasMap.linkAll sampleImages sampleFiles sampleAtlases) ∧
      (AtlasMap.linkAll sampleImages sampleFiles sampleAtlases).map
          (fun a => (a.2.remotePath.text?, a.2.servedPath.text?)) =
        [(some "more/assets/2x/J.PNG", some "/J"), (some "x/Assets/2X/b.png", none),
          (some "1x/C.png", none), (some "lost/d.png", none)] := by
  have hdistinct : Distinct sampleAtlases := by decide
  have hunlinked : ∀ a ∈ sampleAtlases, a.2.IsUnlinked := by
    intro a ha
    obtain ⟨path, -, rfl⟩ := List.mem_map.1 ha
    exact ⟨⟨path, rfl⟩, rfl, rfl⟩
  exact ⟨hdistinct, hunlinked,
    AtlasMap.isLinked_linkAll sampleImages sampleFiles hdistinct hunlinked, by decide +kernel⟩

end ModAlmanac
