import ModAlmanac.Cache
import ModAlmanac.Repository.Path

/-!
# Names of files

The file of a path is its last segment, and it keeps the ending of the path: that of a source file
(`suffix_fileName_of_isSource`) and, in small letters, that of an image
(`suffix_lower_fileName_of_isImage`), since a slash cuts a text in small letters like any other
(`Text.lower_append_slash`). The file of such a path is therefore an entry of its folder
(`IsEntry`) that is not called `metadata.json`, and so is the file in which a worker saves a
snapshot before it is moved into its place.
-/

namespace ModAlmanac

open Repository

/-! ## Small letters around a slash -/

namespace Text

theorem nextIsCased_slash (behind : List Char) : nextIsCased ('/' :: behind) = false := by
  have hseen : isCaseIgnorable '/' = false := by decide +kernel
  have hcase : isCased '/' = false := by decide +kernel
  rw [nextIsCased, List.dropWhile_cons, hseen]
  exact hcase

/-- A slash hides what comes behind it from a sigma in front of it. -/
theorem nextIsCased_append_slash (front behind : List Char) :
    nextIsCased (front ++ '/' :: behind) = nextIsCased front := by
  induction front with
  | nil => exact nextIsCased_slash behind
  | cons c front ih =>
    unfold nextIsCased at ih ⊢
    rw [List.cons_append, List.dropWhile_cons, List.dropWhile_cons]
    cases isCaseIgnorable c with
    | true => exact ih
    | false => rfl

theorem lowerAfter_append_slash (before front behind : List Char) :
    lowerAfter before (front ++ '/' :: behind) =
      lowerAfter before front ++ '/' :: lowerAfter ('/' :: (front.reverse ++ before)) behind := by
  induction front generalizing before with
  | nil =>
    have hslash : lowerChar '/' = ['/'] := by decide +kernel
    change lowerAfter before ('/' :: behind) = '/' :: lowerAfter ('/' :: before) behind
    rw [lowerAfter, hslash]
    rfl
  | cons c front ih =>
    rw [List.cons_append, lowerAfter, lowerAfter, ih, nextIsCased_append_slash, List.append_assoc,
      List.reverse_cons, List.append_assoc, List.singleton_append]

/-- What stands in front of a slash does not count behind it. -/
theorem lowerAfter_slash (front before s : List Char) :
    lowerAfter (front ++ '/' :: before) s = lowerAfter front s := by
  induction s generalizing front with
  | nil => rfl
  | cons c s ih =>
    have hrest := ih (c :: front)
    rw [List.cons_append] at hrest
    rw [lowerAfter, lowerAfter, hrest, nextIsCased_append_slash]

theorem lower_append_slash (front behind : List Char) :
    lower (front ++ '/' :: behind) = lower front ++ '/' :: lower behind := by
  rw [lower, lowerAfter_append_slash]
  exact congrArg (lowerAfter [] front ++ '/' :: ·) (lowerAfter_slash [] _ behind)

/-- The last character of a text in lower case is that of the text, unless it is the one whose small
form depends on what stands around it. -/
theorem lower_concat {c : Char} (hc : c ≠ Char.ofNat 0x3A3) (s : List Char) :
    ∃ front, lower (s ++ [c]) = front ++ lowerChar c := by
  suffices h : ∀ before, ∃ front,
      lowerAfter before (s ++ [c]) = front ++ lowerChar c from h []
  induction s with
  | nil =>
    intro before
    exact ⟨[], by simp [lowerAfter, hc]⟩
  | cons d s ih =>
    intro before
    obtain ⟨front, hfront⟩ := ih (d :: before)
    rw [List.cons_append, lowerAfter, hfront]
    exact ⟨_ ++ front, (List.append_assoc _ _ _).symm⟩

theorem eq_of_ofNat_eq_slash {n : Nat} (h : Char.ofNat n = '/') : n = '/'.toNat := by
  have hcode := congrArg Char.toNat h
  by_cases hvalid : n.isValidChar
  · rw [Char.ofNat, dif_pos hvalid] at hcode
    exact hcode
  · rw [Char.ofNat, dif_neg hvalid] at hcode
    cases hcode

/-- Only a slash has a slash for its small form; those of all capitals lie behind it. -/
theorem eq_slash_of_mem_lowerChar {c : Char} (h : '/' ∈ lowerChar c) : c = '/' := by
  have hascii : ∀ n < 0x80, (Char.ofNat n).toLower = '/' → Char.ofNat n = '/' := by decide +kernel
  have hruns : ∀ run ∈ capitalRuns, 0x2F < run.first + run.offset := by decide +kernel
  unfold lowerChar at h
  split at h
  · next hlt =>
    have hsmall := hascii c.toNat hlt
    rw [Char.ofNat_toNat] at hsmall
    exact hsmall (List.mem_singleton.1 h).symm
  · split at h
    · exact absurd h (by decide)
    · split at h
      · next run hrun =>
        have hcode := eq_of_ofNat_eq_slash (List.mem_singleton.1 h).symm
        have hfirst := hruns run (List.mem_of_find?_eq_some hrun)
        have hholds := List.find?_some hrun
        simp only [CapitalRun.holds, Bool.and_eq_true, decide_eq_true_iff] at hholds
        have hslash : '/'.toNat = 0x2F := rfl
        omega
      · exact (List.mem_singleton.1 h).symm

theorem slash_not_mem_lower {s : List Char} (h : '/' ∉ s) : '/' ∉ lower s := by
  suffices hgen : ∀ before, '/' ∉ lowerAfter before s from hgen []
  induction s with
  | nil => exact fun _ => List.not_mem_nil
  | cons c s ih =>
    intro before hmem
    obtain ⟨hc, hs⟩ := not_or.1 fun hor => h (List.mem_cons.2 hor)
    rw [lowerAfter] at hmem
    rcases List.mem_append.1 hmem with hsmall | hrest
    · split at hsmall
      · revert hsmall
        split <;> decide
      · exact hc (eq_slash_of_mem_lowerChar hsmall).symm
    · exact ih hs _ hrest

end Text

/-! ## Last segments -/

theorem not_mem_lastSegment (path : List Char) : '/' ∉ lastSegment path := by
  intro h
  have hall := List.all_takeWhile (p := (· ≠ '/')) (l := path.reverse)
  have hne := List.all_eq_true.1 hall _ (List.mem_reverse.1 h)
  simp at hne

theorem toList_fileName (path : String) : (fileName path).toList = lastSegment path.toList :=
  String.toList_ofList

/-- A path is its last segment, or has a slash in front of that. -/
theorem eq_or_exists_lastSegment (path : List Char) :
    path = lastSegment path ∨ ∃ front, path = front ++ '/' :: lastSegment path := by
  have hsplit := List.takeWhile_append_dropWhile (p := (· ≠ '/')) (l := path.reverse)
  have hpath : path = (path.reverse.dropWhile (· ≠ '/')).reverse ++ lastSegment path := by
    rw [lastSegment, ← List.reverse_append, hsplit, List.reverse_reverse]
  cases hdrop : path.reverse.dropWhile (· ≠ '/') with
  | nil =>
    rw [hdrop] at hpath
    exact .inl hpath
  | cons c rest =>
    have hc := List.head?_dropWhile_not (· ≠ '/') path.reverse
    rw [hdrop] at hpath hc
    simp at hc
    refine .inr ⟨rest.reverse, ?_⟩
    rwa [List.reverse_cons, hc, List.append_assoc, List.singleton_append] at hpath

/-- An ending without a slash lies behind the last slash. -/
theorem suffix_of_suffix_append_slash {ending front behind : List Char} (h : '/' ∉ ending)
    (hsuffix : ending <:+ front ++ '/' :: behind) : ending <:+ behind := by
  rcases List.suffix_or_suffix_of_suffix hsuffix (List.suffix_append front ('/' :: behind)) with
    hshort | hlong
  · rcases List.suffix_cons_iff.1 hshort with rfl | hshort
    · exact absurd List.mem_cons_self h
    · exact hshort
  · exact absurd (hlong.subset List.mem_cons_self) h

theorem suffix_fileName_of_isSource {path : String} (h : isSource path = true) :
    ".lua".toList <:+ (fileName path).toList := by
  have hsuffix := List.isSuffixOf_iff_suffix.1 h
  rw [toList_fileName]
  rcases eq_or_exists_lastSegment path.toList with hpath | ⟨front, hpath⟩
  · rwa [hpath] at hsuffix
  · rw [hpath] at hsuffix
    exact suffix_of_suffix_append_slash (by decide) hsuffix

theorem suffix_lower_fileName_of_isImage {path : String} (h : isImage path = true) :
    ".png".toList <:+ Text.lower (fileName path).toList := by
  simp only [isImage, Bool.and_eq_true] at h
  have hsuffix := List.isSuffixOf_iff_suffix.1 h.2
  rw [toList_fileName]
  rcases eq_or_exists_lastSegment path.toList with hpath | ⟨front, hpath⟩
  · rwa [hpath] at hsuffix
  · rw [hpath, Text.lower_append_slash] at hsuffix
    exact suffix_of_suffix_append_slash (by decide) hsuffix

/-! ## Entries of a folder -/

/-- Whether a name, put behind a folder, leads to an entry of that folder and nowhere else. -/
def IsEntry (name : String) : Prop :=
  name ≠ "" ∧ name ≠ "." ∧ name ≠ ".." ∧ '/' ∉ name.toList

instance (name : String) : Decidable (IsEntry name) :=
  inferInstanceAs (Decidable (_ ∧ _ ∧ _ ∧ _))

/-- A name beside the snapshot's one: that of an entry of the same folder. -/
structure IsBesideName (name : String) : Prop where
  isEntry : IsEntry name
  ne_metadata : name ≠ "metadata.json"

/-- What is called `metadata.json` stands in no place beside it. -/
theorem IsBesideName.ne_of_getLast? {name : String} (h : IsBesideName name) {path : List String}
    (hpath : path.getLast? = some "metadata.json") (folder : List String) :
    path ≠ folder ++ [name] := by
  rintro rfl
  rw [List.getLast?_concat] at hpath
  exact h.ne_metadata (Option.some.inj hpath)

/-- A last segment is a name beside the snapshot's one if it is none of four texts. -/
theorem isBesideName_fileName {path : String}
    (h : ∀ name ∈ ["", ".", "..", "metadata.json"], fileName path ≠ name) :
    IsBesideName (fileName path) := by
  refine ⟨⟨h _ ?_, h _ ?_, h _ ?_, ?_⟩, h _ ?_⟩
  · simp
  · simp
  · simp
  · rw [toList_fileName]
    exact not_mem_lastSegment path.toList
  · simp

theorem isBesideName_of_isSource {path : String} (h : isSource path = true) :
    IsBesideName (fileName path) := by
  have hnone : ∀ name ∈ ["", ".", "..", "metadata.json"], ¬".lua".toList <:+ name.toList := by
    decide
  refine isBesideName_fileName fun name hname heq => hnone name hname ?_
  rw [← heq]
  exact suffix_fileName_of_isSource h

theorem isBesideName_of_isImage {path : String} (h : isImage path = true) :
    IsBesideName (fileName path) := by
  have hnone : ∀ name ∈ ["", ".", "..", "metadata.json"],
      ¬".png".toList <:+ Text.lower name.toList := by
    decide +kernel
  refine isBesideName_fileName fun name hname heq => hnone name hname ?_
  rw [← heq]
  exact suffix_lower_fileName_of_isImage h

/-- The file in which a worker saves a snapshot ends in a letter of its own. -/
theorem fileName_ne_partName {path : String} (h : isImage path = true) (worker : Nat) :
    fileName path ≠ partName worker := by
  intro hname
  have hlast : (partName worker).toList =
      (".metadata.json.".toList ++ (toString worker).toList ++ ".par".toList) ++ ['t'] := by
    rw [partName, String.toList_append, String.toList_append, List.append_assoc _ _ ['t']]
    rfl
  have hsuffix := suffix_lower_fileName_of_isImage h
  obtain ⟨front, hfront⟩ := Text.lower_concat (c := 't') (by decide)
    (".metadata.json.".toList ++ (toString worker).toList ++ ".par".toList)
  have hsmall : Text.lowerChar 't' = ['t'] := by decide
  rw [hname, hlast, hfront, hsmall] at hsuffix
  obtain ⟨stem, hstem⟩ := hsuffix
  have heq := congrArg List.getLast? hstem
  simp at heq

theorem isBesideName_partName (worker : Nat) : IsBesideName (partName worker) := by
  have hdigits : (toString worker).toList = Nat.toDigits 10 worker := String.toList_ofList
  have hname : (partName worker).toList =
      '.' :: 'm' :: ("etadata.json.".toList ++ (Nat.toDigits 10 worker ++ ".part".toList)) := by
    rw [partName, String.toList_append, String.toList_append, hdigits, List.append_assoc]
    rfl
  have hne : ∀ name : String, ¬['.', 'm'] <+: name.toList → partName worker ≠ name := by
    rintro name hstart rfl
    rw [hname] at hstart
    exact hstart ⟨_, rfl⟩
  refine ⟨⟨hne _ (by decide), hne _ (by decide), hne _ (by decide), fun hslash => ?_⟩,
    hne _ (by decide)⟩
  rw [hname, List.mem_cons, List.mem_cons, List.mem_append, List.mem_append] at hslash
  rcases hslash with h | h | h | h | h
  · revert h
    decide
  · revert h
    decide
  · revert h
    decide
  · exact absurd (Nat.isDigit_of_mem_toDigits (by decide) (by decide) h) (by decide)
  · revert h
    decide

end ModAlmanac
