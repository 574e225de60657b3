import ModAlmanac.Proofs.Expr.TextKeys
import ModAlmanac.Proofs.Snapshot.Codec
import ModAlmanac.Proofs.Snapshot.Linking
import ModAlmanac.Proofs.Source.Merging
import ModAlmanac.Snapshot.Compile

/-!
# Compiled snapshots are stored and loaded

What a snapshot is compiled from is read from texts, so that its fields are texts and numbers, and
its maps are built by insertion, so that they have no key twice and every sheet stands under its own
key. Only the substitution values come from elsewhere: they may be whatever the constants of
evaluation hold.

Hence what is read back of a compiled snapshot is typed (`Snapshot.isTyped_reread_of_compile`), and
the snapshot itself is if the constants have text keys (`Snapshot.isTyped_of_compile`).
-/

namespace ModAlmanac

open OrderedMap

/-! ## Display texts -/

theorem EntryMap.distinct_ofLocale {locale : Source.Locale} (h : Distinct locale) :
    Distinct (EntryMap.ofLocale locale) :=
  distinct_map h fun _ entry => Entry.ofLocale entry

theorem Entry.isTyped_ofLocale (e : Source.LocaleEntry) : (Entry.ofLocale e).isTyped = true := by
  have hlines : (e.lines.map Value.text).all Value.isText = true := by
    refine List.all_eq_true.2 fun v hv => ?_
    obtain ⟨s, -, rfl⟩ := List.mem_map.1 hv
    rfl
  rw [Entry.isTyped, Bool.and_eq_true, Bool.and_eq_true]
  exact ⟨⟨rfl, hlines⟩, rfl⟩

theorem EntryMap.isTyped_ofLocale (locale : Source.Locale) :
    ∀ e ∈ EntryMap.ofLocale locale, e.2.isTyped = true := by
  intro e he
  obtain ⟨r, -, rfl⟩ := List.mem_map.1 he
  exact Entry.isTyped_ofLocale r.2

/-- The display text of a key is a text. -/
theorem isText_localized {entries : EntryMap} (h : ∀ e ∈ entries, e.2.isTyped = true)
    (key : List Char) : (localized entries key).isText = true := by
  unfold localized
  dsimp only
  split
  · rfl
  · next entry hentry =>
    obtain ⟨e, he, -, rfl⟩ := exists_mem_of_find? hentry
    have htyped := h e he
    simp only [Entry.isTyped, Bool.and_eq_true, List.all_eq_true] at htyped
    obtain ⟨⟨hname, hlines⟩, -⟩ := htyped
    split
    · exact hname
    · split
      · next line rest hline =>
        rw [Value.orElse]
        split
        · rfl
        · exact hlines line (by rw [hline]; exact List.mem_cons_self)
      · rfl

theorem hasTextKeys_localized {entries : EntryMap} (h : ∀ e ∈ entries, e.2.isTyped = true)
    (key : List Char) : (localized entries key).hasTextKeys = true :=
  Value.hasTextKeys_of_isText (isText_localized h key)

/-! ## Sheets -/

/-- Sheets that stand under their own keys, no key twice. -/
structure Source.SheetsByKey (sheets : List (String × Source.Sheet)) : Prop where
  distinct : Distinct sheets
  key_eq : ∀ e ∈ sheets, e.2.key = e.1

theorem Source.sheetsByKey_sheets (s : List Char) : Source.SheetsByKey (Source.sheets s) := by
  refine ⟨distinct_ofList _, ?_⟩
  refine forall_mem_union_pair (R := fun key (sheet : Source.Sheet) => sheet.key = key)
    (fun _ h => absurd h List.not_mem_nil) fun e he => ?_
  obtain ⟨sheet, -, rfl⟩ := List.mem_map.1 he
  rfl

theorem Source.sheetsByKey_sheetsOfAll (texts : List String) :
    Source.SheetsByKey (sheetsOfAll texts) := by
  refine List.foldlRecOn (motive := Source.SheetsByKey) _ _
    ⟨List.Pairwise.nil, fun _ h => absurd h List.not_mem_nil⟩ fun sheets h text _ => ?_
  exact ⟨distinct_union h.distinct _,
    forall_mem_union_pair (R := fun key (sheet : Source.Sheet) => sheet.key = key) h.key_eq
      (Source.sheetsByKey_sheets _).key_eq⟩

theorem Atlas.isTyped_linked (saved : List SavedImage) (files : List String)
    (sheet : Source.Sheet) :
    ((Atlas.ofSheet sheet).linked saved files).isTyped sheet.key = true := by
  have hkey : ((Value.text sheet.key).text? != some "" || sheet.key == "") = true := by
    by_cases h : sheet.key = ""
    · simp [h]
    · simp [Value.text?, h]
  simp only [Atlas.isTyped, Bool.and_eq_true]
  unfold Atlas.linked
  split
  · exact ⟨⟨⟨⟨rfl, hkey⟩, rfl⟩, rfl⟩, rfl⟩
  · exact ⟨⟨⟨⟨rfl, hkey⟩, rfl⟩, rfl⟩, rfl⟩

theorem AtlasMap.distinct_linked {saved : List SavedImage} {files : List String}
    {sheets : List (String × Source.Sheet)} (h : Source.SheetsByKey sheets) :
    Distinct (AtlasMap.linked saved files sheets) :=
  distinct_map h.distinct fun _ sheet => (Atlas.ofSheet sheet).linked saved files

theorem AtlasMap.isTyped_linked {saved : List SavedImage} {files : List String}
    {sheets : List (String × Source.Sheet)} (h : Source.SheetsByKey sheets) :
    ∀ a ∈ AtlasMap.linked saved files sheets, a.2.isTyped a.1 = true := by
  intro a ha
  obtain ⟨e, he, rfl⟩ := List.mem_map.1 ha
  have htyped := Atlas.isTyped_linked saved files e.2
  rwa [h.key_eq e he] at htyped

/-! ## Objects -/

theorem Entity.isDeclared_ofDeclaration (d : Source.Declaration) :
    (Entity.ofDeclaration d).isDeclared = true := by
  cases h : d.atlasKey with
  | none => simp [Entity.isDeclared, Entity.ofDeclaration, h, Value.isText, Value.isTextOrNil]
  | some key => simp [Entity.isDeclared, Entity.ofDeclaration, h, Value.isText, Value.isTextOrNil]

theorem Entity.isDeclared_of_mem_entitiesOfAll {texts : List String} {e : Entity}
    (h : e ∈ entitiesOfAll texts) : e.isDeclared = true := by
  obtain ⟨text, -, he⟩ := List.mem_flatMap.1 h
  obtain ⟨d, -, rfl⟩ := List.mem_map.1 he
  exact Entity.isDeclared_ofDeclaration d

/-- What evaluation makes of an object: its config is decoded, and its substitution values are those
of the object with that config. -/
theorem Entity.evaluated_eq_ok {e evaluated : Entity} {entries : EntryMap} {context : Context}
    (h : e.evaluated entries context = .ok evaluated) :
    ∃ body vars, e.body = .text body ∧
      evaluated =
        { e with config := Source.decodeConfig body.toList, vars, infoQueue := [] } ∧
      { e with config := Source.decodeConfig body.toList }.substitutions entries context =
        .ok vars := by
  unfold Entity.evaluated at h
  split at h
  · next body hbody =>
    obtain ⟨vars, hvars, h⟩ := bind_eq_ok_iff.1 h
    cases h
    exact ⟨body, vars, hbody, rfl, hvars⟩
  · cases h

theorem exists_of_mem_evaluateAll {entries : EntryMap} {context : Context}
    {entities evaluated : List Entity} (h : evaluateAll entries context entities = .ok evaluated) :
    ∀ x ∈ evaluated, ∃ e ∈ entities, e.evaluated entries context = .ok x := by
  induction entities generalizing evaluated with
  | nil =>
    cases h
    exact fun _ hx => absurd hx List.not_mem_nil
  | cons e entities ih =>
    obtain ⟨first, hfirst, h⟩ := bind_eq_ok_iff.1 h
    obtain ⟨more, hmore, h⟩ := bind_eq_ok_iff.1 h
    cases h
    intro x hx
    rcases List.mem_cons.1 hx with rfl | hx
    · exact ⟨e, List.mem_cons_self, hfirst⟩
    · obtain ⟨e', he', hevaluated⟩ := ih hmore x hx
      exact ⟨e', List.mem_cons_of_mem _ he', hevaluated⟩

/-- What is read back of an object is typed if its declared fields are. -/
theorem Entity.isTyped_reread {e : Entity} (h : e.isDeclared = true) : e.reread.isTyped = true := by
  have hconfig : ((Value.table e.config).named Json.keyName).hasTextKeys = true :=
    Value.hasTextKeys_named _
  have hvars : ((Value.list e.vars).named Json.keyName).hasTextKeys = true :=
    Value.hasTextKeys_named _
  have hqueue : ((Value.list e.infoQueue).named Json.keyName).hasTextKeys = true :=
    Value.hasTextKeys_named _
  rw [Value.named_table] at hconfig
  rw [Value.named_list] at hvars hqueue
  simp only [Entity.isTyped, Bool.and_eq_true]
  exact ⟨⟨⟨h, hconfig⟩, hvars⟩, hqueue⟩

/-- The values of an evaluated object have text keys if the constants have. -/
theorem Entity.isTyped_of_evaluated {e evaluated : Entity} {entries : EntryMap} {context : Context}
    (hcontext : context.HasTextKeys) (hentries : ∀ e ∈ entries, e.2.isTyped = true)
    (he : e.isDeclared = true) (hvars : e.vars = [])
    (h : e.evaluated entries context = .ok evaluated) : evaluated.isTyped = true := by
  obtain ⟨body, vars, -, rfl, hsubstitutions⟩ := Entity.evaluated_eq_ok h
  have hconfig := Source.hasTextKeys_decodeConfig body.toList
  have hkeys : { e with config := Source.decodeConfig body.toList }.HasTextKeys := by
    simp only [Entity.isDeclared, Bool.and_eq_true] at he
    obtain ⟨⟨⟨hkind, hkey⟩, hatlas⟩, hbody⟩ := he
    exact
      { kind := Value.hasTextKeys_of_isText hkind
        key := Value.hasTextKeys_of_isText hkey
        atlasKey := Value.hasTextKeys_of_isTextOrNil hatlas
        body := Value.hasTextKeys_of_isText hbody
        config := hconfig
        vars := by rw [hvars]; rfl }
  have hvalues := Entity.hasTextKeys_of_substitutions hkeys hcontext
    (hasTextKeys_localized hentries) hsubstitutions
  simp only [Entity.isTyped, Bool.and_eq_true]
  exact ⟨⟨⟨he, hconfig⟩, hvalues⟩, rfl⟩

/-! ## Snapshots -/

theorem Snapshot.compile_eq_ok {context : Context} {version : String} {material : Material}
    {s : Snapshot} (h : Snapshot.compile context version material = .ok s) :
    s.entries = EntryMap.ofLocale (Source.Locale.parse material.locale.toList) ∧
      s.atlases = AtlasMap.linked material.images material.files (sheetsOfAll material.texts) ∧
        evaluateAll s.entries context (entitiesOfAll material.texts) = .ok s.entities ∧
          s.version = version := by
  obtain ⟨entities, hentities, h⟩ := bind_eq_ok_iff.1 h
  have hsheets := Source.sheetsByKey_sheetsOfAll material.texts
  cases h
  exact ⟨rfl, AtlasMap.link_eq_linked _ _ hsheets.distinct, hentities, rfl⟩

/-- A compiled snapshot with typed objects in place of its own is typed. -/
theorem Snapshot.isTyped_of_entities {context : Context} {version : String} {material : Material}
    {s : Snapshot} (h : Snapshot.compile context version material = .ok s) {entities : List Entity}
    (hentities : ∀ e ∈ entities, e.isTyped = true) : { s with entities }.isTyped = true := by
  obtain ⟨hentries, hatlases, -, -⟩ := Snapshot.compile_eq_ok h
  have hsheets := Source.sheetsByKey_sheetsOfAll material.texts
  refine Snapshot.isTyped_iff.2 ⟨?_, ?_, ?_, ?_, hentities⟩
  · rw [hentries]
    exact EntryMap.distinct_ofLocale (Source.distinct_parse _)
  · rw [hentries]
    exact EntryMap.isTyped_ofLocale _
  · rw [hatlases]
    exact AtlasMap.distinct_linked hsheets
  · rw [hatlases]
    exact AtlasMap.isTyped_linked hsheets

/-- What is read back of a compiled snapshot is typed. -/
theorem Snapshot.isTyped_reread_of_compile {context : Context} {version : String}
    {material : Material} {s : Snapshot}
    (h : Snapshot.compile context version material = .ok s) : s.reread.isTyped = true := by
  obtain ⟨-, -, hevaluated, -⟩ := Snapshot.compile_eq_ok h
  refine Snapshot.isTyped_of_entities h fun r hr => ?_
  obtain ⟨x, hx, rfl⟩ := List.mem_map.1 hr
  obtain ⟨e, he, hx⟩ := exists_of_mem_evaluateAll hevaluated x hx
  have hdeclared := Entity.isDeclared_of_mem_entitiesOfAll he
  obtain ⟨body, vars, -, rfl, -⟩ := Entity.evaluated_eq_ok hx
  exact Entity.isTyped_reread hdeclared

theorem Entity.vars_of_mem_entitiesOfAll {texts : List String} {e : Entity}
    (h : e ∈ entitiesOfAll texts) : e.vars = [] := by
  obtain ⟨text, -, he⟩ := List.mem_flatMap.1 h
  obtain ⟨d, -, rfl⟩ := List.mem_map.1 he
  rfl

/-- A snapshot is typed if the constants that it was compiled with have text keys. -/
theorem Snapshot.isTyped_of_compile {context : Context} {version : String} {material : Material}
    {s : Snapshot} (hcontext : context.HasTextKeys)
    (h : Snapshot.compile context version material = .ok s) : s.isTyped = true := by
  obtain ⟨hentries, -, hevaluated, -⟩ := Snapshot.compile_eq_ok h
  have htyped : ∀ e ∈ s.entries, e.2.isTyped = true := by
    rw [hentries]
    exact EntryMap.isTyped_ofLocale _
  refine Snapshot.isTyped_of_entities h fun x hx => ?_
  obtain ⟨e, he, hx⟩ := exists_of_mem_evaluateAll hevaluated x hx
  exact Entity.isTyped_of_evaluated hcontext htyped (Entity.isDeclared_of_mem_entitiesOfAll he)
    (Entity.vars_of_mem_entitiesOfAll he) hx

end ModAlmanac
