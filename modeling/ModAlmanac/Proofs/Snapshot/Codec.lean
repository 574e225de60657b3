import ModAlmanac.Cache
import ModAlmanac.Almanac.Basic
import ModAlmanac.Proofs.Json.RoundTrip
import ModAlmanac.Proofs.Snapshot.Normal

/-!
# Snapshots are stored and loaded

A snapshot whose fields are of their declared kinds (`Snapshot.isTyped`) is loaded from its file as
it was, with every map in its order. Two laws are put together. A document is read back with the
names of its keys for keys, which makes the document of a snapshot that of what is read back of it
(`Snapshot.reread_encode`), and this is the snapshot itself if it is typed
(`Snapshot.reread_eq_self`); and a typed snapshot is in normal form, and so is decoded from its own
encoding (`Snapshot.decode_encode`).

The decoder takes what stands for nothing as missing. For a field of its declared kind that does no
harm, since the default is the value itself (`Entry.normal_eq_self`, `Entity.normal_eq_self`); the
key of a sheet is the exception, whose default is the key that the sheet is kept under
(`Atlas.normal_eq_self`).
-/

namespace ModAlmanac

open OrderedMap

/-! ## Fields of their declared kinds -/

def Value.isText : Value → Bool
  | .text _ => true
  | _ => false

def Value.isTextOrNil : Value → Bool
  | .text _ => true
  | .nil => true
  | _ => false

def Entry.isTyped (e : Entry) : Bool :=
  e.displayName.isText && e.textLines.all Value.isText && e.category.isText

/-- Whether the fields of a sheet kept under a key are of their declared kinds. A sheet without a
key of its own has to be kept under the empty key. -/
def Atlas.isTyped (key : String) (a : Atlas) : Bool :=
  a.key.isText && (a.key.text? != some "" || key == "") && a.path.isText &&
    a.remotePath.isTextOrNil && a.servedPath.isTextOrNil

/-- Whether the fields of an object that its declaration gives are of their declared kinds. -/
def Entity.isDeclared (e : Entity) : Bool :=
  e.kind.isText && e.key.isText && e.atlasKey.isTextOrNil && e.body.isText

/-- Whether the fields of an object are of their declared kinds, with text keys at every depth of
its config and of its values. -/
def Entity.isTyped (e : Entity) : Bool :=
  e.isDeclared && (Value.table e.config).hasTextKeys && (Value.list e.vars).hasTextKeys &&
    (Value.list e.infoQueue).hasTextKeys

/-- Whether all records of a snapshot are of their declared kinds and no map has a key twice. -/
def Snapshot.isTyped (s : Snapshot) : Bool :=
  decide (Distinct s.entries) && s.entries.all (fun e => e.2.isTyped) &&
    decide (Distinct s.atlases) && s.atlases.all (fun a => a.2.isTyped a.1) &&
      s.entities.all Entity.isTyped

theorem Snapshot.isTyped_iff {s : Snapshot} :
    s.isTyped = true ↔
      Distinct s.entries ∧ (∀ e ∈ s.entries, e.2.isTyped = true) ∧
        Distinct s.atlases ∧ (∀ a ∈ s.atlases, a.2.isTyped a.1 = true) ∧
          ∀ e ∈ s.entities, e.isTyped = true := by
  simp [Snapshot.isTyped, List.all_eq_true, and_assoc]

theorem Value.exists_of_isText {v : Value} (h : v.isText = true) : ∃ s, v = .text s := by
  cases v with
  | text s => exact ⟨s, rfl⟩
  | _ => cases h

theorem Value.eq_of_isTextOrNil {v : Value} (h : v.isTextOrNil = true) :
    v = .nil ∨ ∃ s, v = .text s := by
  cases v with
  | nil => exact .inl rfl
  | text s => exact .inr ⟨s, rfl⟩
  | _ => cases h

theorem Value.hasTextKeys_of_isText {v : Value} (h : v.isText = true) : v.hasTextKeys = true := by
  obtain ⟨s, rfl⟩ := Value.exists_of_isText h
  rfl

theorem Value.hasTextKeys_of_isTextOrNil {v : Value} (h : v.isTextOrNil = true) :
    v.hasTextKeys = true := by
  rcases Value.eq_of_isTextOrNil h with rfl | ⟨s, rfl⟩
  · rfl
  · rfl

/-! ## Records as tables -/

/-- A table whose keys are the texts of a map has text keys if its values have. -/
theorem hasTextKeys_mapRecord {α : Type} {f : α → Value} {records : List (String × α)}
    (hdistinct : Distinct records) (hf : ∀ r ∈ records, (f r.2).hasTextKeys = true) :
    (Value.mapRecord f records).hasTextKeys = true := by
  refine hasTextKeys_table.2 ⟨List.pairwise_map.2 hdistinct, ?_⟩
  intro e he
  obtain ⟨r, hr, rfl⟩ := List.mem_map.1 he
  exact ⟨rfl, hf r hr⟩

theorem Entry.hasTextKeys_encode {e : Entry} (h : e.isTyped = true) :
    e.encode.hasTextKeys = true := by
  unfold Entry.isTyped at h
  rw [Bool.and_eq_true, Bool.and_eq_true, List.all_eq_true] at h
  obtain ⟨⟨hname, hlines⟩, hcategory⟩ := h
  have hlist : (Value.list e.textLines).hasTextKeys = true :=
    hasTextKeys_list.2 fun v hv => Value.hasTextKeys_of_isText (hlines v hv)
  refine hasTextKeys_table.2 ⟨by simp [Distinct], ?_⟩
  simp [Value.hasTextKeys_of_isText hname, Value.hasTextKeys_of_isText hcategory, hlist]

theorem Atlas.hasTextKeys_encode {key : String} {a : Atlas} (h : a.isTyped key = true) :
    a.encode.hasTextKeys = true := by
  unfold Atlas.isTyped at h
  simp only [Bool.and_eq_true] at h
  obtain ⟨⟨⟨⟨hkey, -⟩, hpath⟩, hremote⟩, hserved⟩ := h
  refine hasTextKeys_table.2 ⟨by simp [Distinct], ?_⟩
  simp [Value.hasTextKeys_of_isText hkey, Value.hasTextKeys_of_isText hpath,
    Value.hasTextKeys_of_isTextOrNil hremote, Value.hasTextKeys_of_isTextOrNil hserved]

theorem hasTextKeys_encodePosition (position : Option (Int × Int)) :
    (encodePosition position).hasTextKeys = true := by
  cases position with
  | none => rfl
  | some p => exact hasTextKeys_table.2 ⟨by simp [Distinct], by simp⟩

/-! ## Typed snapshots are normal -/

/-- A text is its own default. -/
theorem orElse_emptyText (s : String) : (Value.text s).orElse (.text "") = .text s := by
  rw [Value.orElse, Value.isVoid]
  split
  · next h => rw [String.isEmpty_iff.1 h]
  · rfl

theorem Entry.normal_eq_self {e : Entry} (h : e.isTyped = true) : e.normal = e := by
  unfold Entry.isTyped at h
  simp only [Bool.and_eq_true] at h
  obtain ⟨name, hname⟩ := Value.exists_of_isText h.1.1
  obtain ⟨category, hcategory⟩ := Value.exists_of_isText h.2
  rw [Entry.normal, hname, hcategory, orElse_emptyText, orElse_emptyText, ← hname, ← hcategory]

/-- The key of a sheet comes back: its own, or the empty one that it is kept under. -/
theorem orElse_key {key own : String} (h : own ≠ "" ∨ key = "") :
    (Value.text own).orElse (.text key) = .text own := by
  rw [Value.orElse, Value.isVoid]
  split
  · next hempty =>
    have hown := String.isEmpty_iff.1 hempty
    rcases h with hne | hkey
    · exact absurd hown hne
    · rw [hkey, hown]
  · rfl

theorem Atlas.normal_eq_self {key : String} {a : Atlas} (h : a.isTyped key = true) :
    a.normal key = a := by
  unfold Atlas.isTyped at h
  simp only [Bool.and_eq_true, Bool.or_eq_true, bne_iff_ne, beq_iff_eq] at h
  obtain ⟨⟨⟨⟨hown, hkey⟩, -⟩, -⟩, -⟩ := h
  obtain ⟨own, hs⟩ := Value.exists_of_isText hown
  rw [hs] at hkey
  rw [Atlas.normal, hs, orElse_key (hkey.imp_left fun hne heq => hne (congrArg some heq)), ← hs]

theorem Entity.normal_eq_self {e : Entity} (h : e.isTyped = true) : e.normal = e := by
  simp only [Entity.isTyped, Entity.isDeclared, Bool.and_eq_true] at h
  obtain ⟨⟨⟨⟨-, htext⟩, -⟩, -⟩, -⟩ := h
  obtain ⟨body, hbody⟩ := Value.exists_of_isText htext
  rw [Entity.normal, hbody, orElse_emptyText, ← hbody]

/-- A typed snapshot is decoded from its encoding. -/
theorem Snapshot.decode_encode {s : Snapshot} (h : s.isTyped = true) :
    Snapshot.decode s.encode = .ok s := by
  obtain ⟨hentries, htyped, hatlases, hsheets, hentities⟩ := Snapshot.isTyped_iff.1 h
  have hnormal : s.normal = s := Snapshot.normal_eq_self
    ⟨hentries, fun r hr => Entry.normal_eq_self (htyped r hr)⟩
    ⟨hatlases, fun r hr => Atlas.normal_eq_self (hsheets r hr)⟩
    fun e he => Entity.normal_eq_self (hentities e he)
  rw [Snapshot.decode_encode_eq_normal, hnormal]

/-! ## What is read back -/

/-- An object with the keys of its tables replaced by their names. -/
def Entity.reread (e : Entity) : Entity :=
  { e with
    config := ofList (namedFields Json.keyName e.config)
    vars := namedItems Json.keyName e.vars
    infoQueue := namedItems Json.keyName e.infoQueue }

/-- A snapshot with the keys of all tables replaced by their names. -/
def Snapshot.reread (s : Snapshot) : Snapshot :=
  { s with entities := s.entities.map Entity.reread }

@[simp] theorem Snapshot.reread_version (s : Snapshot) : s.reread.version = s.version := rfl

theorem Entity.reread_eq_self {e : Entity} (h : e.isTyped = true) : e.reread = e := by
  simp only [Entity.isTyped, Bool.and_eq_true] at h
  obtain ⟨⟨⟨-, hconfig⟩, hvars⟩, hqueue⟩ := h
  have hconfig := Json.named_keyName_eq_self hconfig
  have hvars := Json.named_keyName_eq_self hvars
  have hqueue := Json.named_keyName_eq_self hqueue
  rw [Value.named_table] at hconfig
  rw [Value.named_list] at hvars hqueue
  rw [Entity.reread, Value.table.inj hconfig, Value.list.inj hvars, Value.list.inj hqueue]

/-- A typed snapshot has nothing to be replaced. -/
theorem Snapshot.reread_eq_self {s : Snapshot} (h : s.isTyped = true) : s.reread = s := by
  obtain ⟨-, -, -, -, hentities⟩ := Snapshot.isTyped_iff.1 h
  have hmap : s.entities.map Entity.reread = s.entities :=
    map_eq_self fun e he => Entity.reread_eq_self (hentities e he)
  rw [Snapshot.reread, hmap]

theorem Value.named_keyName_of_isText {v : Value} (h : v.isText = true) :
    v.named Json.keyName = v :=
  Json.named_keyName_eq_self (Value.hasTextKeys_of_isText h)

/-- The encoding of an object is read back as the encoding of what is read back. -/
theorem Entity.reread_encode {e : Entity} (h : e.reread.isTyped = true) :
    e.encode.named Json.keyName = e.reread.encode := by
  simp only [Entity.isTyped, Entity.isDeclared, Bool.and_eq_true] at h
  obtain ⟨⟨⟨⟨⟨⟨hkind, hkey⟩, hatlas⟩, hbody⟩, -⟩, -⟩, -⟩ := h
  have h1 : e.kind.named Json.keyName = e.kind := Value.named_keyName_of_isText hkind
  have h2 : e.key.named Json.keyName = e.key := Value.named_keyName_of_isText hkey
  have h3 : e.atlasKey.named Json.keyName = e.atlasKey :=
    Json.named_keyName_eq_self (Value.hasTextKeys_of_isTextOrNil hatlas)
  have h4 := Json.named_keyName_eq_self (hasTextKeys_encodePosition e.position)
  have h5 : e.body.named Json.keyName = e.body := Value.named_keyName_of_isText hbody
  rw [Entity.encode, Value.named_table,
    ofList_eq_self (by simp [Distinct, namedFields, Json.keyName])]
  simp only [namedFields, Json.keyName, h1, h2, h3, h4, h5, Value.named_table,
    Value.named_list]
  rfl

theorem Snapshot.reread_encode {s : Snapshot} (h : s.reread.isTyped = true) :
    s.encode.named Json.keyName = s.reread.encode := by
  obtain ⟨hentries, htyped, hatlases, hsheets, hentities⟩ := Snapshot.isTyped_iff.1 h
  have h1 := Json.named_keyName_eq_self
    (hasTextKeys_mapRecord hentries fun e he => Entry.hasTextKeys_encode (htyped e he))
  have h2 := Json.named_keyName_eq_self
    (hasTextKeys_mapRecord hatlases fun a ha => Atlas.hasTextKeys_encode (hsheets a ha))
  have h3 : (Value.list (s.entities.map Entity.encode)).named Json.keyName =
      .list (s.reread.entities.map Entity.encode) := by
    rw [Value.named_list, namedItems_eq_map, Snapshot.reread, List.map_map, List.map_map]
    refine congrArg Value.list (List.map_congr_left fun e he => ?_)
    exact Entity.reread_encode (hentities _ (List.mem_map_of_mem he))
  have h4 : (Value.text s.version).named Json.keyName = .text s.version := rfl
  rw [Snapshot.encode, Value.named_table,
    ofList_eq_self (by simp [Distinct, namedFields, Json.keyName])]
  simp only [namedFields, Json.keyName]
  rw [h3, h4]
  exact congrArg₂ (fun entries atlases => Value.table
    [(.text "localizationMap", entries), (.text "atlases", atlases), _, _]) h1 h2

theorem fromUTF8?_toUTF8 (s : String) : String.fromUTF8? s.toUTF8 = some s := by
  rw [String.toUTF8_eq_toByteArray, String.fromUTF8?, dif_pos s.isValidUTF8]
  rfl

/-- However a snapshot is laid out, the document holds what is read back of it. -/
theorem Snapshot.parse?_encode {s : Snapshot} (h : s.reread.isTyped = true)
    (layout : Json.Layout) :
    Json.parse? (Json.valueText layout 0 s.encode) = some s.reread.encode := by
  rw [Json.parse?_valueText, Snapshot.reread_encode h]

/-- The file of a snapshot holds what is read back of it, if that is typed. -/
theorem Snapshot.load_fileText_reread {s : Snapshot} (h : s.reread.isTyped = true) :
    Snapshot.load s.fileText.toUTF8 = .ok (some s.reread) := by
  have hparse : Json.parse? s.fileText.toList = some s.reread.encode := by
    rw [Snapshot.fileText, Json.document, String.toList_ofList, Snapshot.parse?_encode h]
  rw [Snapshot.load, fromUTF8?_toUTF8, Option.bind_some, hparse]
  dsimp only
  rw [Snapshot.decode_encode h]

theorem Snapshot.load_fileText {s : Snapshot} (h : s.isTyped = true) :
    Snapshot.load s.fileText.toUTF8 = .ok (some s) := by
  have hself := Snapshot.reread_eq_self h
  have hload := Snapshot.load_fileText_reread (s := s) (by rw [hself, h])
  rwa [hself] at hload

theorem Cache.read?_of_store {cache written : Cache} {path : CachePath} {content : ByteArray}
    (h : cache.store path content = (written, .ok ())) : written.read? path = some content := by
  unfold Cache.store at h
  split at h
  · cases h
  · split at h
    · cases h
    · next saved hsave =>
      cases h
      rw [Cache.eq_put_of_save hsave, Cache.read?_put_self]

/-- A typed snapshot is loaded as it was stored: from the bytes of its file, and from the file in a
cache. -/
theorem Snapshot.loaded_as_stored {s : Snapshot} (h : s.isTyped = true) :
    Snapshot.load s.fileText.toUTF8 = .ok (some s) ∧
      ∀ (cache written : Cache) (key : ModKey) (tag : String),
        cache.store (snapshotPath key tag) s.fileText.toUTF8 = (written, .ok ()) →
          written.snapshot? key tag = .ok (some s) := by
  refine ⟨Snapshot.load_fileText h, fun cache written key tag hstore => ?_⟩
  rw [Cache.snapshot?, Cache.read?_of_store hstore]
  exact Snapshot.load_fileText h

/-- An object whose config and values hold everything that a document has a notation for. -/
def sampleEntity : Entity :=
  { kind := .text "Joker"
    key := .text "a"
    atlasKey := .nil
    position := some (0, -2)
    body := .text ""
    config :=
      [(.text "extra", .table
        [(.text "odds", .float (1.0 / 0.0)), (.text "none", .nil),
          (.text "deep", .list [.list [], .table [], .bool false, .int 0, .float 0.1])]),
        (.text "", .float (0.0 / 0.0))]
    vars := [.float (-1.0 / 0.0), .text "", .nil]
    infoQueue := [] }

/-- A typed snapshot with empty, quoted and unprintable texts, and a sheet under the empty key. -/
def sampleSnapshot : Snapshot :=
  { entries :=
      [("j_a",
        { displayName := .text "A \"b\"\n"
          textLines := [.text "", .text "é\x01"]
          category := .text "Joker" })]
    atlases :=
      [("",
        { key := .text ""
          path := .text "a.png"
          tileWidth := 71
          tileHeight := 0
          remotePath := .nil
          servedPath := .text "/wiki-data/a.png" }),
        ("b",
          { key := .text "c"
            path := .text ""
            tileWidth := -1
            tileHeight := 95
            remotePath := .text "assets/2x/c.png"
            servedPath := .nil })]
    entities := [sampleEntity]
    version := "v1" }

def sampleKey : ModKey :=
  { repo := "demo", owner := "studio", isKeyPart_repo := by decide, isKeyPart_owner := by decide }

theorem sampleSnapshot_loaded_as_stored :
    sampleSnapshot.isTyped = true ∧
      Snapshot.load sampleSnapshot.fileText.toUTF8 = .ok (some sampleSnapshot) ∧
        (Cache.empty.store (snapshotPath sampleKey "v1") sampleSnapshot.fileText.toUTF8).1.snapshot?
          sampleKey "v1" = .ok (some sampleSnapshot) := by
  have htyped : sampleSnapshot.isTyped = true := by decide
  obtain ⟨hload, hstored⟩ := Snapshot.loaded_as_stored htyped
  refine ⟨htyped, hload, hstored Cache.empty _ sampleKey "v1" (Prod.ext rfl ?_)⟩
  generalize sampleSnapshot.fileText.toUTF8 = content
  rfl

end ModAlmanac
