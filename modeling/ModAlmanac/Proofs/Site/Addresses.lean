import Mathlib.Data.List.Infix
import Mathlib.Data.List.TakeWhile
import ModAlmanac.Proofs.Text.Cutting
import ModAlmanac.Proofs.Text.Percent
import ModAlmanac.Site.Respond

/-!
# Addresses of images

The address under which an image is served leads back to the key, the version folder and the name
that it was made of (`Almanac.visit_imageAddress`): nothing in it is cut off or dropped, for it
consists of coded texts and slashes (`Http.pathOf_of_plain`), decoding gives the three texts, and
the slashes between them are the only ones (`Site.Route.ofPath?_image`).
-/

namespace ModAlmanac

open Text

/-! ## Paths of addresses -/

/-- Whether a character neither ends the path of an address nor is dropped from it. -/
def Http.isPlain (c : Char) : Bool :=
  !(c = '?' || c = '#') && !isIgnored c

/-- An address without a scheme and a host is its own path if all its characters are plain. -/
theorem Http.pathOf_of_plain {c : Char} {rest : List Char} (hc : c ≠ '/')
    (hplain : ∀ d ∈ '/' :: c :: rest, isPlain d = true) :
    pathOf ('/' :: c :: rest) = .ok ('/' :: c :: rest) := by
  have hkept : ∀ d ∈ '/' :: c :: rest, (!isIgnored d) = true := fun d hd =>
    (Bool.and_eq_true_iff.1 (hplain d hd)).2
  have hinside : ∀ d ∈ '/' :: c :: rest, (!(d = '?' || d = '#')) = true := fun d hd =>
    (Bool.and_eq_true_iff.1 (hplain d hd)).1
  have hvisible : (('/' :: c :: rest).dropWhile fun c => c.toNat ≤ 0x20).filter (!isIgnored ·) =
      '/' :: c :: rest := by
    rw [List.dropWhile_cons_of_neg (by decide)]
    exact List.filter_eq_self.2 hkept
  have hscheme : dropScheme ('/' :: c :: rest) = '/' :: c :: rest := by
    have halpha : Char.isAlpha '/' = false := by decide
    unfold dropScheme
    rw [List.takeWhile_cons_of_pos (by decide)]
    exact if_neg (by simp [halpha])
  unfold pathOf
  dsimp only
  rw [hvisible, hscheme]
  split
  · next heq =>
    cases heq
    exact absurd rfl hc
  · rw [List.takeWhile_eq_self_iff.2 hinside]

/-- A coded text is plain if whatever is not coded in it is. -/
theorem isPlain_of_mem_encode {safe : Char → Bool}
    (hsafe : ∀ c, safe c = true → Http.isPlain c = true) {s : List Char} {c : Char}
    (h : c ∈ Percent.encode safe s) : Http.isPlain c = true := by
  have hcut : ['?', '#', '\t', '\n', '\r'].all
      (fun d => !Percent.isUnreserved d && d ≠ '%') = true := by
    decide
  rcases Percent.mem_encode h with hplain | hplain | rfl
  · have hother : ∀ d ∈ ['?', '#', '\t', '\n', '\r'], c ≠ d := by
      rintro d hd rfl
      have hc := List.all_eq_true.1 hcut c hd
      rw [hplain] at hc
      cases hc
    simp only [List.forall_mem_cons, List.not_mem_nil] at hother
    simp [Http.isPlain, Http.isIgnored, hother]
  · exact hsafe c hplain
  · decide

/-! ## Routes -/

/-- A path with three parts leads to an image. -/
theorem Site.Route.ofPath?_image {key version file : List Char} (hkey : key ≠ [] ∧ '/' ∉ key)
    (hversion : version ≠ [] ∧ '/' ∉ version) (hfile : file ≠ [] ∧ '/' ∉ file) :
    Site.Route.ofPath? ("/wiki-data/".toList ++ (key ++ '/' :: (version ++ '/' :: file))) =
      some (.image (String.ofList key) (String.ofList version) (String.ofList file)) := by
  have hrest : "/wiki-data/".toList.isPrefixOf?
      ("/wiki-data/".toList ++ (key ++ '/' :: (version ++ '/' :: file))) =
        some (key ++ '/' :: (version ++ '/' :: file)) :=
    List.isPrefixOf?_eq_some_iff_append_eq.2 rfl
  have hparts : partsAt '/' (key ++ '/' :: (version ++ '/' :: file)) = [key, version, file] := by
    rw [partsAt_append hkey.2, partsAt_append hversion.2, partsAt_of_not_mem hfile.2]
  unfold Site.Route.ofPath?
  rw [hrest, Option.bind_eq_bind, Option.bind_some, hparts]
  simp [hkey.1, hversion.1, hfile.1]

/-! ## Addresses of images -/

section

variable {almanac : Almanac} (hroot : almanac.imageRoot = "/wiki-data/") (key : ModKey)
  (tag path : String)

include hroot

theorem Almanac.toList_imageAddress : (almanac.imageAddress key tag path).toList =
    "/wiki-data/".toList ++ (Percent.encode (· = '@') key.text.toList ++
      '/' :: (Percent.segment (versionFolder tag).toList ++
        '/' :: Percent.segment (Repository.fileName path).toList)) := by
  have htrim : trimOf (· = '/') almanac.imageRoot.toList = "wiki-data".toList := by
    rw [hroot]
    decide
  rw [Almanac.imageAddress, String.toList_ofList, htrim]
  simp

theorem Almanac.decode_imageAddress : Percent.decode (almanac.imageAddress key tag path).toList =
    "/wiki-data/".toList ++ (key.text.toList ++
      '/' :: ((versionFolder tag).toList ++ '/' :: (Repository.fileName path).toList)) := by
  have hself : ∀ {s : List Char}, '%' ∉ s → Percent.Codes s s := Percent.codes_self
  rw [Almanac.toList_imageAddress hroot]
  refine Percent.decode_of_codes ?_
  refine (hself (by decide)).append ((Percent.codes_encode (by decide) _).append ?_)
  refine (hself (s := ['/']) (by decide)).append ((Percent.codes_encode rfl _).append ?_)
  exact (hself (s := ['/']) (by decide)).append (Percent.codes_encode rfl _)

theorem Almanac.pathOf_imageAddress : Http.pathOf (almanac.imageAddress key tag path).toList =
    .ok (almanac.imageAddress key tag path).toList := by
  have hslash : Http.isPlain '/' = true := by decide
  have hroot' : "/wiki-data/".toList.all Http.isPlain = true := by decide
  have hcoded : ∀ {safe : Char → Bool}, (∀ c, safe c = true → c = '@') →
      ∀ s, ∀ c ∈ Percent.encode safe s, Http.isPlain c = true := by
    refine fun hsafe s c hc => isPlain_of_mem_encode (fun d hd => ?_) hc
    rw [hsafe d hd]
    decide
  rw [Almanac.toList_imageAddress hroot]
  refine Http.pathOf_of_plain (by decide) fun c hc => ?_
  change c ∈ "/wiki-data/".toList ++ _ at hc
  rcases List.mem_append.1 hc with hc | hc
  · exact List.all_eq_true.1 hroot' c hc
  rcases List.mem_append.1 hc with hc | hc
  · exact hcoded (fun c h => of_decide_eq_true h) _ c hc
  rcases List.mem_cons.1 hc with rfl | hc
  · exact hslash
  rcases List.mem_append.1 hc with hc | hc
  · exact hcoded (fun c h => by cases h) _ c hc
  rcases List.mem_cons.1 hc with rfl | hc
  · exact hslash
  · exact hcoded (fun c h => by cases h) _ c hc

/-- A visit to the address of an image asks for the file that the address was made of. -/
theorem Almanac.visit_imageAddress (hkey : key.text.toList ≠ [] ∧ '/' ∉ key.text.toList)
    (htag : (versionFolder tag).toList ≠ [] ∧ '/' ∉ (versionFolder tag).toList)
    (hname : (Repository.fileName path).toList ≠ [] ∧ '/' ∉ (Repository.fileName path).toList)
    (visitor : Almanac) (cache : Cache) :
    Site.visit visitor cache "GET" (almanac.imageAddress key tag path) = .ok
      { value := Site.imageResponse cache key.text (versionFolder tag) (Repository.fileName path)
        cache
        events := [] } := by
  have hget : "GET".toUpper = "GET" := by decide +kernel
  rw [Site.visit, Almanac.pathOf_imageAddress hroot]
  change Except.ok (Site.respond visitor cache "GET"
    (Percent.decode (almanac.imageAddress key tag path).toList)) = _
  rw [Almanac.decode_imageAddress hroot, Site.respond,
    Site.Route.ofPath?_image hkey htag hname]
  dsimp only
  rw [if_pos hget, String.ofList_toList, String.ofList_toList, String.ofList_toList]

end

end ModAlmanac
