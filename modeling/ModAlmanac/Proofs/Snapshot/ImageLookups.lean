import ModAlmanac.Proofs.Snapshot.Linking

/-!
# Two ways to an image

A sheet is linked to its image either because a copy of the image was saved or because the image is
located among the listed paths. The two ways look for different things: an image is saved if
`assets/2x/` occurs anywhere in its path, and it is preferred among the listed paths if a folder of
that name does. So where a sheet has one image only (`Atlas.IsOnlyImage`), both ways lead to it if it
lies in such a folder, and otherwise only if no other file of its name is listed in front of it
(`locateImage_eq_iff`). What the sheet is linked to with and without the copy follows
(`Atlas.IsOnlyImage.remotePath_eq_iff`).
-/

namespace ModAlmanac

open Repository Text

/-- A path is that of the only listed image of the name that a sheet asks for. -/
structure Atlas.IsOnlyImage (sheet : Atlas) (files : List String) (path : String) : Prop where
  mem : path ∈ files
  isImage_path : isImage path = true
  hasBaseName : HasBaseName (imageName sheet.path.plain) path
  eq_of_isImage : ∀ file ∈ files, isImage file = true →
    HasBaseName (imageName sheet.path.plain) file → file = path

/-- An image has been saved of a listed path, under the name of the file there. -/
structure SavedImage.IsListed (files : List String) (image : SavedImage) : Prop where
  mem : image.path ∈ files
  isImage_path : isImage image.path = true
  name_eq : image.name = fileName image.path

/-! ## Locating an image -/

/-- The only item of a list that has a property is the first one. -/
theorem isFirst_of_forall_eq {α : Type} {p : α → Prop} {items : List α} {item : α} (hp : p item)
    (hmem : item ∈ items) (h : ∀ other ∈ items, p other → other = item) :
    IsFirst p items item := by
  obtain ⟨front, behind, hsplit, hfront⟩ := List.eq_append_cons_of_mem hmem
  refine ⟨hp, front, behind, hsplit, fun other hother hholds => hfront ?_⟩
  have heq := h other (hsplit ▸ List.mem_append_left _ hother) hholds
  exact heq ▸ hother

/-- A file in a folder of images is an image if a file of the same name is one. -/
theorem isImage_of_liesInImageFolder {name : List Char} {file path : String}
    (hfolder : LiesInImageFolder file) (hfile : HasBaseName name file)
    (hpath : HasBaseName name path) (himage : isImage path = true) : isImage file = true := by
  obtain ⟨front, behind, hlower, -⟩ := hfolder
  have hin : occursIn imageFolder (lower file.toList) = true :=
    occursIn_iff.2 ⟨front, behind, by rw [hlower, List.append_assoc]⟩
  have hending : ".png".toList <:+ lower (lastSegment file.toList) := by
    have hsuffix := suffix_lower_fileName_of_isImage himage
    rwa [toList_fileName, hpath, ← hfile] at hsuffix
  have hsuffix : ".png".toList <:+ lower file.toList := by
    rcases eq_or_exists_lastSegment file.toList with heq | ⟨above, heq⟩
    · rwa [← heq] at hending
    · rw [heq, lower_append_slash]
      exact hending.trans ((List.suffix_cons '/' _).trans (List.suffix_append _ _))
  simp only [isImage, Bool.and_eq_true]
  exact ⟨hin, List.isSuffixOf_iff_suffix.2 hsuffix⟩

/-- The only image of a sheet is located if it lies in a folder of images, or else if it is the first
file of its name. -/
theorem locateImage_eq_iff {sheet : Atlas} {files : List String} {path : String}
    (h : sheet.IsOnlyImage files path) :
    locateImage sheet.path.plain files = path ↔
      LiesInImageFolder path ∨ IsFirst (HasBaseName (imageName sheet.path.plain)) files path := by
  have honly : ∀ file ∈ files,
      LiesInImageFolder file ∧ HasBaseName (imageName sheet.path.plain) file → file = path :=
    fun file hfile hboth => h.eq_of_isImage file hfile
      (isImage_of_liesInImageFolder hboth.1 hboth.2 h.hasBaseName h.isImage_path) hboth.2
  by_cases hfolder : LiesInImageFolder path
  · refine iff_of_true (locateImage_of_folder ?_) (.inl hfolder)
    exact isFirst_of_forall_eq ⟨hfolder, h.hasBaseName⟩ h.mem honly
  · have hnone : ∀ file ∈ files,
        ¬(LiesInImageFolder file ∧ HasBaseName (imageName sheet.path.plain) file) :=
      fun file hfile hboth => hfolder (honly file hfile hboth ▸ hboth.1)
    rw [or_iff_right hfolder]
    constructor
    · intro hlocated
      rw [locateImage_of_not_folder hnone] at hlocated
      cases hfind : files.find? (isPathOf (imageName sheet.path.plain)) with
      | none =>
        exact absurd h.hasBaseName
          ((find?_eq_none_iff_forall isPathOf_imageName_iff).1 hfind path h.mem)
      | some file =>
        rw [hfind, Option.getD_some] at hlocated
        exact hlocated ▸ (find?_eq_some_iff_isFirst isPathOf_imageName_iff).1 hfind
    · exact locateImage_of_listed hnone

/-! ## With and without the copy -/

section

variable {sheet : Atlas} {saved : List SavedImage} {files : List String} {path : String}
  (h : sheet.IsOnlyImage files path) (hsaved : ∀ image ∈ saved, image.IsListed files)

include h hsaved

/-- Of the images saved of a listing a sheet asks for its only image alone. -/
theorem Atlas.IsOnlyImage.wants_iff {image : SavedImage} (himage : image ∈ saved) :
    sheet.Wants image ↔ image.path = path := by
  have hlisted := hsaved image himage
  have hwants : sheet.Wants image ↔ HasBaseName (imageName sheet.path.plain) image.path := by
    rw [Atlas.Wants, hlisted.name_eq, toList_fileName, HasBaseName]
  rw [hwants]
  constructor
  · exact h.eq_of_isImage image.path hlisted.mem hlisted.isImage_path
  · intro heq
    rw [heq]
    exact h.hasBaseName

/-- Without a copy of its only image a sheet is not served, and it is linked to the same path exactly
if it is located there. -/
theorem Atlas.IsOnlyImage.remotePath_eq_iff (hsheet : sheet.IsUnlinked)
    (hcopy : ∃ image ∈ saved, image.path = path) :
    (sheet.linked saved files).servedPath ≠ .nil ∧
      (sheet.linked (saved.filter (·.path ≠ path)) files).servedPath = .nil ∧
        ((sheet.linked (saved.filter (·.path ≠ path)) files).remotePath =
            (sheet.linked saved files).remotePath ↔
          LiesInImageFolder path ∨
            IsFirst (HasBaseName (imageName sheet.path.plain)) files path) := by
  obtain ⟨copy, hmem, hpath⟩ := hcopy
  obtain ⟨last, hlast⟩ := exists_isLast ⟨copy, hmem, (h.wants_iff hsaved hmem).2 hpath⟩
  have hlastPath : last.path = path := (h.wants_iff hsaved hlast.mem).1 hlast.1
  have hnone : ∀ image ∈ saved.filter (·.path ≠ path), ¬sheet.Wants image := by
    intro image himage hwants
    obtain ⟨hin, hne⟩ := List.mem_filter.1 himage
    exact of_decide_eq_true hne ((h.wants_iff hsaved hin).1 hwants)
  rw [Atlas.linked_of_saved hlast files,
    Atlas.linked_of_not_saved hnone hsheet.remotePath_eq files]
  refine ⟨nofun, hsheet.servedPath_eq, ?_⟩
  rw [← locateImage_eq_iff h]
  change Value.text _ = Value.text last.path ↔ _
  rw [Value.text.injEq, hlastPath]

end

end ModAlmanac
