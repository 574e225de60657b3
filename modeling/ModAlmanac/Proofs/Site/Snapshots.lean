import ModAlmanac.Proofs.Almanac.Confined
import ModAlmanac.Proofs.Site.Addresses

/-!
# Serving snapshots

A visit to the address of a snapshot is a lookup of the key that the address was made of
(`Site.visit_snapshotAddress`). Its answer and the cache that it leaves behind agree
(`answer_agrees_with_cache`): a document is given out exactly if the lookup succeeds, and though it
is laid out in another way than the stored file, both hold one snapshot, be it stored before or
built for this very visit.
-/

namespace ModAlmanac

open Text

/-! ## Addresses of snapshots -/

/-- The address of the snapshot of a key, which stands in it in coded form but for the characters
for which `safe` holds. -/
def Site.snapshotAddress (safe : Char → Bool) (key : String) : String :=
  String.ofList ("/wiki-data/".toList ++ (Percent.encode safe key.toList ++ snapshotEnding))

/-- A path with one part that has the ending leads to a snapshot. -/
theorem Site.Route.ofPath?_snapshot {key : List Char} (hkey : key ≠ []) (hslash : '/' ∉ key) :
    Site.Route.ofPath? ("/wiki-data/".toList ++ (key ++ snapshotEnding)) =
      some (.snapshot (String.ofList key)) := by
  have hrest : "/wiki-data/".toList.isPrefixOf? ("/wiki-data/".toList ++ (key ++ snapshotEnding)) =
      some (key ++ snapshotEnding) :=
    List.isPrefixOf?_eq_some_iff_append_eq.2 rfl
  have hfile : '/' ∉ key ++ snapshotEnding := by
    rw [List.mem_append, not_or]
    exact ⟨hslash, by decide⟩
  have hending : snapshotEnding.isSuffixOf (key ++ snapshotEnding) = true :=
    List.isSuffixOf_iff_suffix.2 (List.suffix_append _ _)
  unfold Site.Route.ofPath?
  rw [hrest, Option.bind_eq_bind, Option.bind_some, partsAt_of_not_mem hfile]
  simp [hending, hkey]

section

variable {safe : Char → Bool} (hpercent : safe '%' = false)
  (hplain : ∀ c, safe c = true → Http.isPlain c = true)

theorem Site.toList_snapshotAddress (safe : Char → Bool) (key : String) :
    (Site.snapshotAddress safe key).toList =
      "/wiki-data/".toList ++ (Percent.encode safe key.toList ++ snapshotEnding) :=
  String.toList_ofList

include hplain in
theorem Site.pathOf_snapshotAddress (key : String) :
    Http.pathOf (Site.snapshotAddress safe key).toList =
      .ok (Site.snapshotAddress safe key).toList := by
  have hroot : "/wiki-data/".toList.all Http.isPlain = true := by decide
  have hending : snapshotEnding.all Http.isPlain = true := by decide
  have hall : ∀ c ∈ "/wiki-data/".toList ++ (Percent.encode safe key.toList ++ snapshotEnding),
      Http.isPlain c = true := by
    intro c hc
    rcases List.mem_append.1 hc with hc | hc
    · exact List.all_eq_true.1 hroot c hc
    rcases List.mem_append.1 hc with hc | hc
    · exact isPlain_of_mem_encode hplain hc
    · exact List.all_eq_true.1 hending c hc
  rw [Site.toList_snapshotAddress]
  exact @Http.pathOf_of_plain 'w' ("iki-data/".toList ++ _) (by decide) hall

include hpercent in
theorem Site.decode_snapshotAddress (key : String) :
    Percent.decode (Site.snapshotAddress safe key).toList =
      "/wiki-data/".toList ++ (key.toList ++ snapshotEnding) := by
  have hself : ∀ {s : List Char}, '%' ∉ s → Percent.Codes s s := Percent.codes_self
  have hroot : Percent.Codes "/wiki-data/".toList "/wiki-data/".toList := hself (by decide)
  have hending : Percent.Codes snapshotEnding snapshotEnding := hself (by decide)
  rw [Site.toList_snapshotAddress]
  exact Percent.decode_of_codes
    (hroot.append ((Percent.codes_encode hpercent key.toList).append hending))

include hpercent hplain in
/-- A visit to the address of a snapshot is a lookup. -/
theorem Site.visit_snapshotAddress {key : String} (hkey : key ≠ "") (hslash : '/' ∉ key.toList)
    (almanac : Almanac) (cache : Cache) :
    Site.visit almanac cache "GET" (Site.snapshotAddress safe key) =
      .ok ((almanac.get cache (.text key)).map Site.Response.ofLookup) := by
  have hget : "GET".toUpper = "GET" := by decide +kernel
  have hroute := Site.Route.ofPath?_snapshot (mt String.toList_eq_nil_iff.1 hkey) hslash
  rw [Site.visit, Site.pathOf_snapshotAddress hplain]
  change Except.ok (Site.respond almanac cache "GET"
    (Percent.decode (Site.snapshotAddress safe key).toList)) = _
  rw [Site.decode_snapshotAddress hpercent, Site.respond, hroute]
  dsimp only
  rw [if_pos hget, String.ofList_toList]

end

/-! ## Answers -/

def Site.Response.status : Site.Response → Nat
  | .document status _ => status
  | .image _ => 200
  | .refusal status => status

/-- The answer to a visit whose lookup failed for another cause than its key. -/
def Site.Response.internalProblem : Site.Response :=
  .problem 500 "Internal server error while processing mod data."

/-- An answer to a failed lookup tells the fault of the key, or nothing. -/
theorem Site.Response.ofLookup_error (failure : Failure) :
    (∃ e, failure = .invalidKey e ∧ ofLookup (.error failure) = .problem 400 e.message) ∨
      (∀ e, failure ≠ .invalidKey e) ∧ ofLookup (.error failure) = .internalProblem := by
  cases failure with
  | invalidKey e => exact .inl ⟨e, rfl, rfl⟩
  | noFiles key branch => exact .inr ⟨(fun e h => by cases h), rfl⟩
  | host e => exact .inr ⟨(fun e h => by cases h), rfl⟩
  | pathNotText => exact .inr ⟨(fun e h => by cases h), rfl⟩
  | storage e => exact .inr ⟨(fun e h => by cases h), rfl⟩
  | evaluation e => exact .inr ⟨(fun e h => by cases h), rfl⟩
  | stored e => exact .inr ⟨(fun e h => by cases h), rfl⟩

theorem Site.Response.status_ofLookup_eq_400_iff {value : Except Failure Snapshot} :
    (ofLookup value).status = 400 ↔ ∃ e, value = .error (.invalidKey e) := by
  cases value with
  | ok s =>
    refine iff_of_false (show ¬200 = 400 by decide) ?_
    rintro ⟨e, he⟩
    cases he
  | error failure =>
    rcases ofLookup_error failure with ⟨e, rfl, hanswer⟩ | ⟨hother, hanswer⟩
    · rw [hanswer]
      exact iff_of_true rfl ⟨e, rfl⟩
    · rw [hanswer]
      exact iff_of_false (by decide) fun ⟨e, he⟩ => hother e (Except.error.inj he)

theorem Site.Response.status_ofLookup_eq_500_iff {value : Except Failure Snapshot} :
    (ofLookup value).status = 500 ↔
      ∃ failure, value = .error failure ∧ ∀ e, failure ≠ .invalidKey e := by
  cases value with
  | ok s =>
    refine iff_of_false (show ¬200 = 500 by decide) ?_
    rintro ⟨failure, hfailure, -⟩
    cases hfailure
  | error failure =>
    rcases ofLookup_error failure with ⟨e, rfl, hanswer⟩ | ⟨hother, hanswer⟩
    · rw [hanswer]
      refine iff_of_false (show ¬400 = 500 by decide) ?_
      rintro ⟨failure, hfailure, hother⟩
      exact hother e (Except.error.inj hfailure).symm
    · rw [hanswer]
      exact iff_of_true rfl ⟨failure, rfl, hother⟩

/-! ## Lookups and the cache -/

/-- A lookup fails for its key exactly if that is none. -/
theorem Almanac.get_eq_invalidKey_iff (almanac : Almanac) (cache : Cache) (given : Value) :
    (∃ e, (almanac.get cache given).value = .error (.invalidKey e)) ↔
      ∃ e, ModKey.parse given = .error e := by
  cases hkey : ModKey.parse given with
  | error e =>
    rw [Almanac.get_of_invalid hkey]
    exact ⟨fun _ => ⟨e, rfl⟩, fun _ => ⟨e, rfl⟩⟩
  | ok key =>
    refine ⟨fun ⟨e, he⟩ => ?_, fun ⟨e, he⟩ => by cases he⟩
    rw [Almanac.get_of_parse hkey] at he
    change (almanac.getVersion cache key _).value = _ at he
    rcases almanac.getVersion_cases cache key (almanac.resolveTag key) with
      ⟨value, hnone, hlate⟩ | hbuild
    · rw [hnone] at he
      cases hlate _ he
    · rw [hbuild] at he
      cases almanac.end_build cache key (almanac.resolveTag key) with
      | refused e' keyed value cache_eq quiet =>
        rw [he] at value
        cases value
        exact absurd rfl (keyed e)
      | broken e' late value beside names cache_eq quiet =>
        rw [he] at value
        cases value
        cases late
      | published branch listing files made s answered listed texts folder compiled value stored
          others calls =>
        rw [he] at value
        cases value

/-- What a lookup after a run gives is typed once it is read back, and it is what a look at the
cache then tells for the tag. -/
theorem peek_after_get {steps : List Step} {almanac : Almanac} {given : Value} {s : Snapshot}
    (h : (almanac.get (cacheAfter Cache.empty steps) given).value = .ok s) :
    s.reread.isTyped = true ∧ ∃ key, ModKey.parse given = .ok key ∧
      ∀ later : Almanac, later.resolveTag key = almanac.resolveTag key →
        (later.peek (almanac.get (cacheAfter Cache.empty steps) given).cache given).value =
          .ok (almanac.resolveTag key, some s.reread) := by
  let lookup : Lookup := { almanac, cache := cacheAfter Cache.empty steps, given }
  obtain ⟨key, hkey, hgives⟩ := @Lookup.exists_gives lookup s h
  have hconsistent := @Consistent.lookup _ lookup (consistent_after steps)
  obtain ⟨htyped, hstored⟩ :=
    hconsistent.snapshot?_of_gives (List.mem_append_right _ List.mem_cons_self) hgives
  change (almanac.get _ given).cache.snapshot? key (almanac.resolveTag key) = _ at hstored
  refine ⟨htyped, key, hkey, fun later htag => ?_⟩
  rw [← htag] at hstored ⊢
  rw [Almanac.peek_of_snapshot? hkey hstored]

/-- After every run of uses from an empty cache, whatever the host tells: a visit to the address of
the snapshot of a key that is not empty and has no slash is refused with 400 exactly if the key is
none, and with 500 and one fixed body exactly if the lookup fails for another cause. Every other one
is answered with 200 and a document, and what it decodes to is what a look at the cache then tells
for the key as long as the tag is the same. -/
theorem answer_agrees_with_cache {safe : Char → Bool} (hpercent : safe '%' = false)
    (hplain : ∀ c, safe c = true → Http.isPlain c = true) {key : String} (hkey : key ≠ "")
    (hslash : '/' ∉ key.toList) (steps : List Step) (almanac : Almanac) :
    ∃ answer, Site.visit almanac (cacheAfter Cache.empty steps) "GET"
        (Site.snapshotAddress safe key) = .ok answer ∧
      (answer.value.status = 400 ↔ ∃ e, ModKey.parse (.text key) = .error e) ∧
      (answer.value.status = 500 ↔ ∃ failure,
        (almanac.get (cacheAfter Cache.empty steps) (.text key)).value = .error failure ∧
          ∀ e, failure ≠ .invalidKey e) ∧
      (answer.value.status = 500 → answer.value = .internalProblem) ∧
      (answer.value.status ≠ 400 → answer.value.status ≠ 500 →
        ∃ mod body document s, ModKey.parse (.text key) = .ok mod ∧
          answer.value = .document 200 body ∧ Json.parse? body.toList = some document ∧
          Snapshot.decode document = .ok s ∧
          ∀ later : Almanac, later.resolveTag mod = almanac.resolveTag mod →
            (later.peek answer.cache (.text key)).value =
              .ok (almanac.resolveTag mod, some s)) := by
  refine ⟨_, Site.visit_snapshotAddress hpercent hplain hkey hslash almanac _, ?_⟩
  rw [← almanac.get_eq_invalidKey_iff (cacheAfter Cache.empty steps)]
  have hpeek := @peek_after_get steps almanac (.text key)
  generalize almanac.get (cacheAfter Cache.empty steps) (.text key) = found at hpeek ⊢
  refine ⟨Site.Response.status_ofLookup_eq_400_iff, Site.Response.status_ofLookup_eq_500_iff,
    fun hproblem => ?_, fun hkeyed hworked => ?_⟩
  · obtain ⟨failure, hfailure, hother⟩ := Site.Response.status_ofLookup_eq_500_iff.1 hproblem
    rcases Site.Response.ofLookup_error failure with ⟨e, he, -⟩ | ⟨-, hanswer⟩
    · exact absurd he (hother e)
    · change Site.Response.ofLookup found.value = _
      rw [hfailure, hanswer]
  · cases hvalue : found.value with
    | error failure =>
      by_cases he : ∃ e, failure = .invalidKey e
      · obtain ⟨e, rfl⟩ := he
        exact absurd (Site.Response.status_ofLookup_eq_400_iff.2 ⟨e, hvalue⟩) hkeyed
      · exact absurd (Site.Response.status_ofLookup_eq_500_iff.2
          ⟨failure, hvalue, not_exists.1 he⟩) hworked
    | ok s =>
      obtain ⟨htyped, mod, hmod, hlater⟩ := hpeek hvalue
      refine ⟨mod, Json.line s.encode, s.reread.encode, s.reread, hmod, ?_, ?_,
        Snapshot.decode_encode htyped, hlater⟩
      · change Site.Response.ofLookup found.value = _
        rw [hvalue]
        rfl
      · rw [Json.line, String.toList_ofList, Snapshot.parse?_encode htyped]

/-- The snapshot of a repository without source files is built for the visit and given out. -/
theorem readme_answer_agrees :
    (· = '@') '%' = false ∧ (∀ c, decide (c = '@') = true → Http.isPlain c = true) ∧
      "demo@studio" ≠ "" ∧ '/' ∉ "demo@studio".toList ∧
      ∃ answer body document s,
        Site.visit (readmeAlmanac "v1/0") Cache.empty "GET"
            (Site.snapshotAddress (· = '@') "demo@studio") = .ok answer ∧
          answer.value = .document 200 body ∧ Json.parse? body.toList = some document ∧
          Snapshot.decode document = .ok s ∧
          ((readmeAlmanac "v1/0").peek answer.cache (.text "demo@studio")).value =
            .ok ("v1/0", some s) := by
  have hplain : ∀ c, decide (c = '@') = true → Http.isPlain c = true := by
    intro c hc
    rw [of_decide_eq_true hc]
    decide
  have hslash : '/' ∉ "demo@studio".toList := by decide
  have hparse : ModKey.parse (.text "demo@studio") = .ok sampleKey := rfl
  have hvalue : ((readmeAlmanac "v1/0").get Cache.empty (.text "demo@studio")).value =
      .ok (bareSnapshot "v1/0") := gives_readmeLookup_empty.2
  obtain ⟨answer, hvisit, hinvalid, hfailed, -, hgiven⟩ :=
    @answer_agrees_with_cache (· = '@') (by decide) hplain "demo@studio" (by decide) hslash []
      (readmeAlmanac "v1/0")
  have hkeyed : answer.value.status ≠ 400 := by
    intro h
    obtain ⟨e, he⟩ := hinvalid.1 h
    rw [hparse] at he
    cases he
  have hworked : answer.value.status ≠ 500 := by
    intro h
    obtain ⟨failure, hfailure, -⟩ := hfailed.1 h
    rw [cacheAfter, hvalue] at hfailure
    cases hfailure
  obtain ⟨mod, body, document, s, hmod, hanswer, hread, hdecoded, hlater⟩ := hgiven hkeyed hworked
  have htold := hlater (readmeAlmanac "v1/0") rfl
  rw [← Except.ok.inj (hparse.symm.trans hmod)] at htold
  exact ⟨by decide, hplain, by decide, hslash, answer, body, document, s, hvisit, hanswer, hread,
    hdecoded, htold⟩

end ModAlmanac
