import ModAlmanac.Proofs.FirstFault
import ModAlmanac.Proofs.Number.Bits
import ModAlmanac.Proofs.Snapshot.Codec

/-!
# Damaged files of snapshots

A file that holds no snapshot is to count as missing. The loader keeps to that with one exception,
which is stated here exactly: an infinite number in the place of a size or of a grid position stops
it with an error (`Snapshot.load_eq_error_iff`). JSON itself has no infinite numbers, but the reader
knows words for them, and so does the printer.

The exception is seen only if the loader gets to it: the outer shape of the document has to be that
of a snapshot, the display texts have to be in order, and so has every record in front of the one
with the infinite number (`FirstFault`).
-/

namespace ModAlmanac

open Number OrderedMap

/-! ## Infinite numbers -/

/-- Whether a value is one of the two infinite numbers. -/
def Value.IsInfinite (v : Value) : Prop :=
  v = .float (1.0 / 0.0) ∨ v = .float (-1.0 / 0.0)

/-- Only an infinite number is out of range as an integer. -/
theorem Value.toInteger_eq_outOfRange_iff {v : Value} :
    v.toInteger = .error .outOfRange ↔ v.IsInfinite := by
  constructor
  · intro h
    cases v with
    | float x =>
      rw [Value.toInteger] at h
      split at h
      · cases h
      · next hparts =>
        split at h
        · cases h
        · next hnan =>
          rw [eq_of_parts?_eq_none hparts (Bool.eq_false_iff.2 hnan)]
          split
          · exact .inr rfl
          · exact .inl rfl
    | text s =>
      rw [Value.toInteger] at h
      split at h <;> cases h
    | nil => cases h
    | bool b => cases h
    | int n => cases h
    | list items => cases h
    | table fields => cases h
  · rintro (rfl | rfl)
    · rfl
    · rfl

theorem isVoid_eq_false_of_isInfinite {v : Value} (h : v.IsInfinite) : v.isVoid = false := by
  rcases h with rfl | rfl
  · decide
  · decide

theorem sizeField_eq_outOfRange_iff {name : String} {fields : List (Key × Value)} :
    sizeField name fields = .error .outOfRange ↔ (lookupD name fields).IsInfinite := by
  unfold sizeField
  rw [Value.toInteger_eq_outOfRange_iff, Value.orElse]
  split
  · next hvoid =>
    constructor
    · rintro (h | h) <;> cases h
    · intro h
      rw [isVoid_eq_false_of_isInfinite h] at hvoid
      cases hvoid
  · rfl

/-! ## Records -/

/-- A sheet's record overflows: its width is infinite, or its width is in order and its height is
infinite. The path of the image has been found before either is looked at. -/
def Atlas.Overflows (v : Value) : Prop :=
  ∃ fields path, v = .table fields ∧ lookup? "repoRelativePath" fields = some path ∧
    ((lookupD "tileWidth" fields).IsInfinite ∨
      (∃ n, sizeField "tileWidth" fields = .ok n) ∧ (lookupD "tileHeight" fields).IsInfinite)

/-- An object's record overflows: the first place of its grid position is infinite, or that is in
order and the second one is infinite. -/
def Entity.Overflows (v : Value) : Prop :=
  ∃ fields position x, v = .table fields ∧ lookupD "gridPosition" fields = .table position ∧
    lookup? "x" position = some x ∧
      (x.IsInfinite ∨
        (∃ n, x.toInteger = .ok n) ∧ ∃ y, lookup? "y" position = some y ∧ y.IsInfinite)

theorem Value.fields_ne_outOfRange (v : Value) : v.fields ≠ .error .outOfRange := by
  unfold Value.fields
  split <;> exact nofun

theorem Value.fields_eq_ok_iff {v : Value} {fields : List (Key × Value)} :
    v.fields = .ok fields ↔ v = .table fields := by
  cases v with
  | table inner => simp [Value.fields]
  | _ => simp [Value.fields]

theorem requiredField_ne_outOfRange (name : String) (fields : List (Key × Value)) :
    requiredField name fields ≠ .error .outOfRange := by
  unfold requiredField
  split <;> simp

theorem requiredField_eq_ok_iff {name : String} {fields : List (Key × Value)} {v : Value} :
    requiredField name fields = .ok v ↔ lookup? name fields = some v := by
  unfold requiredField
  split
  · next found h => rw [h, Except.ok.injEq, Option.some_inj]
  · next h => simp [h]

theorem itemsField_ne_outOfRange (name : String) (fields : List (Key × Value)) :
    itemsField name fields ≠ .error .outOfRange := by
  unfold itemsField
  dsimp only
  split
  · exact nofun
  · split <;> exact nofun

theorem pairEntries_ne_outOfRange (table : List (Key × Value)) (pairs : List Value) :
    pairEntries table pairs ≠ .error .outOfRange := by
  induction pairs generalizing table with
  | nil => exact nofun
  | cons pair pairs ih =>
    unfold pairEntries
    split
    · exact nofun
    · split
      · exact ih _
      · exact nofun
    · exact nofun

theorem configField_ne_outOfRange (name : String) (fields : List (Key × Value)) :
    configField name fields ≠ .error .outOfRange := by
  unfold configField
  dsimp only
  split
  · exact nofun
  · split
    · exact nofun
    · split
      · exact pairEntries_ne_outOfRange _ _
      · exact nofun

theorem Entry.decode_ne_outOfRange (v : Value) : Entry.decode v ≠ .error .outOfRange := by
  intro h
  unfold Entry.decode at h
  rcases bind_eq_error_iff.1 h with h | ⟨fields, -, h⟩
  · exact Value.fields_ne_outOfRange v h
  · rcases bind_eq_error_iff.1 h with h | ⟨lines, -, h⟩
    · exact itemsField_ne_outOfRange _ _ h
    · cases h

theorem Atlas.decode_eq_outOfRange_iff {key : Key} {v : Value} :
    Atlas.decode key v = .error .outOfRange ↔ Atlas.Overflows v := by
  unfold Atlas.decode
  constructor
  · intro h
    rcases bind_eq_error_iff.1 h with h | ⟨fields, hfields, h⟩
    · exact absurd h (Value.fields_ne_outOfRange v)
    rcases bind_eq_error_iff.1 h with h | ⟨path, hpath, h⟩
    · exact absurd h (requiredField_ne_outOfRange _ _)
    refine ⟨fields, path, Value.fields_eq_ok_iff.1 hfields, requiredField_eq_ok_iff.1 hpath, ?_⟩
    rcases bind_eq_error_iff.1 h with h | ⟨width, hwidth, h⟩
    · exact .inl (sizeField_eq_outOfRange_iff.1 h)
    rcases bind_eq_error_iff.1 h with h | ⟨height, -, h⟩
    · exact .inr ⟨⟨width, hwidth⟩, sizeField_eq_outOfRange_iff.1 h⟩
    · cases h
  · rintro ⟨fields, path, hfields, hpath, h⟩
    refine bind_eq_error_iff.2 (.inr ⟨fields, Value.fields_eq_ok_iff.2 hfields, ?_⟩)
    refine bind_eq_error_iff.2 (.inr ⟨path, requiredField_eq_ok_iff.2 hpath, ?_⟩)
    rcases h with h | ⟨⟨width, hwidth⟩, h⟩
    · exact bind_eq_error_iff.2 (.inl (sizeField_eq_outOfRange_iff.2 h))
    · refine bind_eq_error_iff.2 (.inr ⟨width, hwidth, ?_⟩)
      exact bind_eq_error_iff.2 (.inl (sizeField_eq_outOfRange_iff.2 h))

theorem positionField_eq_outOfRange_iff {name : String} {fields : List (Key × Value)} :
    positionField name fields = .error .outOfRange ↔
      ∃ position x, lookupD name fields = .table position ∧ lookup? "x" position = some x ∧
        (x.IsInfinite ∨
          (∃ n, x.toInteger = .ok n) ∧ ∃ y, lookup? "y" position = some y ∧ y.IsInfinite) := by
  unfold positionField
  constructor
  · intro h
    split at h
    · cases h
    · rcases bind_eq_error_iff.1 h with h | ⟨position, hposition, h⟩
      · exact absurd h (Value.fields_ne_outOfRange _)
      rcases bind_eq_error_iff.1 h with h | ⟨x, hx, h⟩
      · exact absurd h (requiredField_ne_outOfRange _ _)
      refine ⟨position, x, Value.fields_eq_ok_iff.1 hposition, requiredField_eq_ok_iff.1 hx, ?_⟩
      rcases bind_eq_error_iff.1 h with h | ⟨n, hn, h⟩
      · exact .inl (Value.toInteger_eq_outOfRange_iff.1 h)
      rcases bind_eq_error_iff.1 h with h | ⟨y, hy, h⟩
      · exact absurd h (requiredField_ne_outOfRange _ _)
      rcases bind_eq_error_iff.1 h with h | ⟨m, -, h⟩
      · exact .inr ⟨⟨n, hn⟩, y, requiredField_eq_ok_iff.1 hy,
          Value.toInteger_eq_outOfRange_iff.1 h⟩
      · cases h
  · rintro ⟨position, x, hposition, hx, h⟩
    rw [hposition]
    refine bind_eq_error_iff.2 (.inr ⟨position, rfl, ?_⟩)
    refine bind_eq_error_iff.2 (.inr ⟨x, requiredField_eq_ok_iff.2 hx, ?_⟩)
    rcases h with h | ⟨⟨n, hn⟩, y, hy, h⟩
    · exact bind_eq_error_iff.2 (.inl (Value.toInteger_eq_outOfRange_iff.2 h))
    · refine bind_eq_error_iff.2 (.inr ⟨n, hn, ?_⟩)
      refine bind_eq_error_iff.2 (.inr ⟨y, requiredField_eq_ok_iff.2 hy, ?_⟩)
      exact bind_eq_error_iff.2 (.inl (Value.toInteger_eq_outOfRange_iff.2 h))

theorem Entity.decode_eq_outOfRange_iff {v : Value} :
    Entity.decode v = .error .outOfRange ↔ Entity.Overflows v := by
  unfold Entity.decode
  constructor
  · intro h
    rcases bind_eq_error_iff.1 h with h | ⟨fields, hfields, h⟩
    · exact absurd h (Value.fields_ne_outOfRange v)
    rcases bind_eq_error_iff.1 h with h | ⟨_, -, h⟩
    · obtain ⟨position, x, hposition, hx, h⟩ := positionField_eq_outOfRange_iff.1 h
      exact ⟨fields, position, x, Value.fields_eq_ok_iff.1 hfields, hposition, hx, h⟩
    rcases bind_eq_error_iff.1 h with h | ⟨_, -, h⟩
    · exact absurd h (requiredField_ne_outOfRange _ _)
    rcases bind_eq_error_iff.1 h with h | ⟨_, -, h⟩
    · exact absurd h (requiredField_ne_outOfRange _ _)
    rcases bind_eq_error_iff.1 h with h | ⟨_, -, h⟩
    · exact absurd h (configField_ne_outOfRange _ _)
    rcases bind_eq_error_iff.1 h with h | ⟨_, -, h⟩
    · exact absurd h (itemsField_ne_outOfRange _ _)
    rcases bind_eq_error_iff.1 h with h | ⟨_, -, h⟩
    · exact absurd h (itemsField_ne_outOfRange _ _)
    · cases h
  · rintro ⟨fields, position, x, hfields, hposition, hx, h⟩
    refine bind_eq_error_iff.2 (.inr ⟨fields, Value.fields_eq_ok_iff.2 hfields, ?_⟩)
    refine bind_eq_error_iff.2 (.inl ?_)
    exact positionField_eq_outOfRange_iff.2 ⟨position, x, hposition, hx, h⟩

/-! ## Lists of records -/

section

variable {α : Type} {e : DecodeError}

/-- Whether a record is decoded. -/
def Decodes {β : Type} (decode : Except DecodeError β) : Prop :=
  ∃ a, decode = .ok a

theorem decodeRecords_eq_error_iff {decode : Key → Value → Except DecodeError α}
    {records : List (String × α)} {fields : List (Key × Value)} :
    decodeRecords decode records fields = .error e ↔
      FirstFault (fun r => Decodes (decode r.1 r.2)) (fun r => decode r.1 r.2 = .error e)
        fields := by
  induction fields generalizing records with
  | nil => exact ⟨nofun, fun h => absurd h firstFault_nil⟩
  | cons r fields ih =>
    obtain ⟨key, v⟩ := r
    rw [decodeRecords, bind_eq_error_iff, firstFault_cons_iff]
    apply or_congr Iff.rfl
    constructor
    · rintro ⟨a, ha, h⟩
      exact ⟨⟨a, ha⟩, ih.1 h⟩
    · rintro ⟨⟨a, ha⟩, h⟩
      exact ⟨a, ha, ih.2 h⟩

theorem decodes_decodeRecords_iff {decode : Key → Value → Except DecodeError α}
    {records : List (String × α)} {fields : List (Key × Value)} :
    Decodes (decodeRecords decode records fields) ↔ ∀ r ∈ fields, Decodes (decode r.1 r.2) := by
  induction fields generalizing records with
  | nil => exact ⟨fun _ => List.forall_mem_nil _, fun _ => ⟨records, rfl⟩⟩
  | cons r fields ih =>
    obtain ⟨key, v⟩ := r
    rw [decodeRecords, List.forall_mem_cons]
    constructor
    · rintro ⟨all, h⟩
      cases hv : decode key v with
      | error e =>
        rw [hv] at h
        cases h
      | ok a =>
        rw [hv] at h
        exact ⟨⟨a, rfl⟩, ih.1 ⟨all, h⟩⟩
    · rintro ⟨⟨a, ha⟩, h⟩
      obtain ⟨all, hall⟩ := ih.2 h
      exact ⟨all, by rw [ha]; exact hall⟩

theorem decodeItems_eq_error_iff {decode : Value → Except DecodeError α} {items : List Value} :
    decodeItems decode items = .error e ↔
      FirstFault (fun v => Decodes (decode v)) (fun v => decode v = .error e) items := by
  induction items with
  | nil => exact ⟨nofun, fun h => absurd h firstFault_nil⟩
  | cons v items ih =>
    rw [decodeItems, bind_eq_error_iff, firstFault_cons_iff]
    apply or_congr Iff.rfl
    constructor
    · rintro ⟨a, ha, h⟩
      rcases bind_eq_error_iff.1 h with h | ⟨_, -, h⟩
      · exact ⟨⟨a, ha⟩, ih.1 h⟩
      · cases h
    · rintro ⟨⟨a, ha⟩, h⟩
      exact ⟨a, ha, bind_eq_error_iff.2 (.inl (ih.2 h))⟩

end

/-! ## Documents -/

/-- A document of the outer shape of a snapshot, with its parts. -/
def HasShape (document : Value) (entries atlases : List (Key × Value)) (entities : List Value)
    (version : String) : Prop :=
  ∃ fields, document = .table fields ∧ lookup? "localizationMap" fields = some (.table entries) ∧
    lookup? "atlases" fields = some (.table atlases) ∧
      lookup? "entities" fields = some (.list entities) ∧
        lookup? "version" fields = some (.text version)

/-- A document of the right shape whose first faulty record is a sheet that overflows, or an object
that overflows after all sheets were in order. -/
def Value.Overflows (document : Value) : Prop :=
  ∃ entries atlases entities version, HasShape document entries atlases entities version ∧
    (∀ r ∈ entries, Decodes (Entry.decode r.2)) ∧
      (FirstFault (fun r => Decodes (Atlas.decode r.1 r.2)) (fun r => Atlas.Overflows r.2) atlases ∨
        (∀ r ∈ atlases, Decodes (Atlas.decode r.1 r.2)) ∧
          FirstFault (fun v => Decodes (Entity.decode v)) Entity.Overflows entities)

/-- What the parts of a document are decoded to, one after the other. -/
def Snapshot.decodeParts (entries atlases : List (Key × Value)) (entities : List Value)
    (version : String) : Except DecodeError Snapshot :=
  decodeRecords (fun _ v => Entry.decode v) [] entries >>= fun entries =>
    decodeRecords Atlas.decode [] atlases >>= fun atlases =>
      decodeItems Entity.decode entities >>= fun entities =>
        .ok { entries, atlases, entities, version }

theorem Snapshot.decode_of_hasShape {document : Value} {entries atlases : List (Key × Value)}
    {entities : List Value} {version : String}
    (h : HasShape document entries atlases entities version) :
    Snapshot.decode document = Snapshot.decodeParts entries atlases entities version := by
  obtain ⟨fields, rfl, hentries, hatlases, hentities, hversion⟩ := h
  simp only [Snapshot.decode, documentField, bind, Except.bind, hentries, hatlases, hentities,
    hversion]
  rfl

/-- A document of another shape is an error, and no overflow. -/
theorem Snapshot.hasShape_of_decode {document : Value}
    (h : ∀ err, Snapshot.decode document = .error err → err = .outOfRange) :
    ∃ entries atlases entities version, HasShape document entries atlases entities version := by
  obtain ⟨fields, rfl⟩ : ∃ fields, document = .table fields := by
    cases document with
    | table fields => exact ⟨fields, rfl⟩
    | _ => cases h _ rfl
  have hfield : ∀ {name : String} {f : Value → Except DecodeError Snapshot},
      (∀ err, (documentField name fields >>= f) = .error err → err = .outOfRange) →
        ∃ v, lookup? name fields = some v ∧ ∀ err, f v = .error err → err = .outOfRange := by
    intro name f h
    unfold documentField at h
    cases hfound : lookup? name fields with
    | some v => exact ⟨v, rfl, by rwa [hfound] at h⟩
    | none =>
      rw [hfound] at h
      cases h _ rfl
  obtain ⟨entries, hentries, h⟩ := hfield h
  obtain ⟨atlases, hatlases, h⟩ := hfield h
  obtain ⟨entities, hentities, h⟩ := hfield h
  obtain ⟨version, hversion, h⟩ := hfield h
  split at h
  · split at h
    · exact ⟨_, _, _, _, fields, rfl, hentries, hatlases, hentities, hversion⟩
    · cases h _ rfl
  · cases h _ rfl

/-- What holds of a decoded document, and of no error but the overflow, is told by its parts. -/
theorem Snapshot.decode_iff_decodeParts {P : Except DecodeError Snapshot → Prop}
    (hP : ∀ err, P (.error err) → err = .outOfRange) {document : Value} :
    P (Snapshot.decode document) ↔
      ∃ entries atlases entities version, HasShape document entries atlases entities version ∧
        P (Snapshot.decodeParts entries atlases entities version) := by
  constructor
  · intro h
    obtain ⟨entries, atlases, entities, version, hshape⟩ :=
      Snapshot.hasShape_of_decode fun err herr => hP err (herr ▸ h)
    exact ⟨entries, atlases, entities, version, hshape, Snapshot.decode_of_hasShape hshape ▸ h⟩
  · rintro ⟨entries, atlases, entities, version, hshape, h⟩
    rwa [Snapshot.decode_of_hasShape hshape]

/-- The parts of a document are out of range if a sheet overflows that stands behind records in
order, or if an object does. -/
theorem Snapshot.decodeParts_eq_outOfRange_iff {entries atlases : List (Key × Value)}
    {entities : List Value} {version : String} :
    Snapshot.decodeParts entries atlases entities version = .error .outOfRange ↔
      (∀ r ∈ entries, Decodes (Entry.decode r.2)) ∧
        (FirstFault (fun r => Decodes (Atlas.decode r.1 r.2)) (fun r => Atlas.Overflows r.2)
            atlases ∨
          (∀ r ∈ atlases, Decodes (Atlas.decode r.1 r.2)) ∧
            FirstFault (fun v => Decodes (Entity.decode v)) Entity.Overflows entities) := by
  rw [Snapshot.decodeParts, bind_eq_error_iff, decodeRecords_eq_error_iff]
  constructor
  · rintro (⟨front, r, behind, -, -, hr⟩ | ⟨kept, hkept, h⟩)
    · exact absurd hr (Entry.decode_ne_outOfRange r.2)
    refine ⟨decodes_decodeRecords_iff.1 ⟨kept, hkept⟩, ?_⟩
    rcases bind_eq_error_iff.1 h with h | ⟨sheets, hsheets, h⟩
    · left
      simpa only [Atlas.decode_eq_outOfRange_iff] using decodeRecords_eq_error_iff.1 h
    · right
      refine ⟨decodes_decodeRecords_iff.1 ⟨sheets, hsheets⟩, ?_⟩
      rcases bind_eq_error_iff.1 h with h | ⟨_, -, h⟩
      · simpa only [Entity.decode_eq_outOfRange_iff] using decodeItems_eq_error_iff.1 h
      · cases h
  · rintro ⟨hentries, h⟩
    obtain ⟨kept, hkept⟩ : Decodes (decodeRecords (fun _ v => Entry.decode v) [] entries) :=
      decodes_decodeRecords_iff.2 hentries
    refine .inr ⟨kept, hkept, bind_eq_error_iff.2 ?_⟩
    rcases h with h | ⟨hatlases, h⟩
    · left
      rw [decodeRecords_eq_error_iff]
      simpa only [Atlas.decode_eq_outOfRange_iff] using h
    · right
      obtain ⟨sheets, hsheets⟩ : Decodes (decodeRecords Atlas.decode [] atlases) :=
        decodes_decodeRecords_iff.2 hatlases
      refine ⟨sheets, hsheets, bind_eq_error_iff.2 (.inl ?_)⟩
      rw [decodeItems_eq_error_iff]
      simpa only [Entity.decode_eq_outOfRange_iff] using h

/-- A document is out of range exactly if it overflows. -/
theorem Snapshot.decode_eq_outOfRange_iff {document : Value} :
    Snapshot.decode document = .error .outOfRange ↔ document.Overflows := by
  rw [Snapshot.decode_iff_decodeParts (P := (· = .error .outOfRange))
    fun err herr => Except.error.inj herr]
  simp only [Snapshot.decodeParts_eq_outOfRange_iff]
  rfl

def document? (content : ByteArray) : Option Value :=
  (String.fromUTF8? content).bind fun text => Json.parse? text.toList

/-- Loading a file fails exactly if it holds a document that overflows; in every other case it gives
a snapshot or tells that there is none. -/
theorem Snapshot.load_eq_error_iff {content : ByteArray} {e : DecodeError} :
    Snapshot.load content = .error e ↔
      e = .outOfRange ∧ ∃ document, document? content = some document ∧ document.Overflows := by
  unfold Snapshot.load
  rw [← document?]
  constructor
  · intro h
    split at h
    · cases h
    · next document hdocument =>
      split at h
      · cases h
      · next hdecode =>
        cases h
        exact ⟨rfl, document, hdocument, Snapshot.decode_eq_outOfRange_iff.1 hdecode⟩
      · cases h
  · rintro ⟨rfl, document, hdocument, h⟩
    rw [hdocument]
    dsimp only
    rw [Snapshot.decode_eq_outOfRange_iff.2 h]

/-- The document of a snapshot with one sheet, which is infinitely wide. -/
def infinitelyWide : Value :=
  .table
    [(.text "localizationMap", .table []),
      (.text "atlases", .table
        [(.text "a", .table
          [(.text "repoRelativePath", .text "p"), (.text "tileWidth", .float (1.0 / 0.0))])]),
      (.text "entities", .list []),
      (.text "version", .text "v")]

/-- A file with an infinitely wide sheet is neither loaded nor counted as missing. -/
theorem infinitelyWide_not_loaded :
    Snapshot.load (Json.line infinitelyWide).toUTF8 = .error .outOfRange := by
  have hkeys : infinitelyWide.hasTextKeys = true := by decide
  have hparse : Json.parse? (Json.line infinitelyWide).toList = some infinitelyWide := by
    rw [Json.line, String.toList_ofList, Json.parse?_valueText, Json.named_keyName_eq_self hkeys]
  have hdecode : Snapshot.decode infinitelyWide = .error .outOfRange := by rfl
  rw [Snapshot.load, fromUTF8?_toUTF8, Option.bind_some, hparse]
  dsimp only
  rw [hdecode]

end ModAlmanac
