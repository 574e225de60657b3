import ModAlmanac.Proofs.FirstFault
import ModAlmanac.Proofs.TextKeys
import ModAlmanac.Snapshot.Decode
import ModAlmanac.Snapshot.Encode

/-!
# Normal forms of snapshots

The decoder takes a lot for a snapshot: lists are made of whatever has items, numbers of numerals
and truth values, and a field that stands for nothing gets its default. All of that it does once.
The encoding of any snapshot is decoded to the snapshot's normal form
(`Snapshot.decode_encode_eq_normal`), in which the defaults are filled in and no map has a key
twice; whatever is decoded has that form already (`Snapshot.normal_of_decode`). So a decoded
snapshot is decoded again from its own encoding (`Snapshot.decode_encode_of_decode`).
-/

namespace ModAlmanac

open OrderedMap

/-! ## Normal forms -/

/-- A record with the defaults of its fields filled in. -/
def Entry.normal (e : Entry) : Entry :=
  { e with
    displayName := e.displayName.orElse (.text "")
    category := e.category.orElse (.text "") }

/-- A sheet's record, whose key is by default the one that it is kept under. -/
def Atlas.normal (key : String) (a : Atlas) : Atlas :=
  { a with key := a.key.orElse (.text key) }

def Entity.normal (e : Entity) : Entity :=
  { e with body := e.body.orElse (.text "") }

/-- A snapshot of normal records, its maps put together anew. -/
def Snapshot.normal (s : Snapshot) : Snapshot :=
  { s with
    entries := ofList (s.entries.map fun r => (r.1, r.2.normal))
    atlases := ofList (s.atlases.map fun r => (r.1, r.2.normal r.1))
    entities := s.entities.map Entity.normal }

/-- A default is filled in once. -/
@[simp] theorem Value.orElse_orElse (v other : Value) :
    (v.orElse other).orElse other = v.orElse other := by
  unfold Value.orElse
  by_cases hvoid : v.isVoid = true
  · simp [hvoid]
  · simp [hvoid]

theorem map_eq_self {α : Type} {f : α → α} {items : List α} (h : ∀ item ∈ items, f item = item) :
    items.map f = items :=
  calc
    items.map f = items.map id := List.map_congr_left h
    _ = items := List.map_id items

/-- A snapshot of distinct normal records is normal. -/
theorem Snapshot.normal_eq_self {s : Snapshot}
    (hentries : Distinct s.entries ∧ ∀ r ∈ s.entries, r.2.normal = r.2)
    (hatlases : Distinct s.atlases ∧ ∀ r ∈ s.atlases, r.2.normal r.1 = r.2)
    (hentities : ∀ e ∈ s.entities, e.normal = e) : s.normal = s := by
  have h1 : s.entries.map (fun r => (r.1, r.2.normal)) = s.entries :=
    map_eq_self fun r hr => Prod.ext rfl (hentries.2 r hr)
  have h2 : s.atlases.map (fun r => (r.1, r.2.normal r.1)) = s.atlases :=
    map_eq_self fun r hr => Prod.ext rfl (hatlases.2 r hr)
  rw [Snapshot.normal, h1, h2, map_eq_self hentities, ofList_eq_self hentries.1,
    ofList_eq_self hatlases.1]

/-! ## Fields of encodings -/

section

variable {name : String} {fields : List (Key × Value)}

/-- The items of a list come back, also those of an empty one. -/
theorem itemsField_list {items : List Value} (h : lookupD name fields = .list items) :
    itemsField name fields = .ok items := by
  unfold itemsField
  dsimp only
  rw [h]
  cases items with
  | nil => rfl
  | cons item items => rfl

/-- A config comes back, also an empty one. -/
theorem configField_table {config : List (Key × Value)} (h : lookupD name fields = .table config) :
    configField name fields = .ok config := by
  unfold configField
  dsimp only
  rw [h]
  cases config with
  | nil => rfl
  | cons field config => rfl

/-- A size comes back, also zero. -/
theorem sizeField_int {n : Int} (h : lookupD name fields = .int n) :
    sizeField name fields = .ok n := by
  rw [sizeField, h, Value.orElse, Value.isVoid]
  split
  · next hzero =>
    rw [eq_of_beq hzero]
    rfl
  · rfl

/-- A grid position comes back, also none. -/
theorem positionField_encode {position : Option (Int × Int)}
    (h : lookupD name fields = encodePosition position) :
    positionField name fields = .ok position := by
  unfold positionField
  rw [h]
  cases position with
  | none => rfl
  | some p => rfl

end

/-! ## Encodings decoded -/

theorem Entry.decode_encode_eq_normal (e : Entry) : Entry.decode e.encode = .ok e.normal := by
  obtain ⟨fields, hfields⟩ : ∃ fields, e.encode = .table fields := ⟨_, rfl⟩
  have hname : lookupD "displayName" fields = e.displayName := by
    cases hfields
    rfl
  have hcategory : lookupD "category" fields = e.category := by
    cases hfields
    rfl
  have hlines : itemsField "textLines" fields = .ok e.textLines := by
    cases hfields
    exact itemsField_list rfl
  rw [Entry.decode, hfields]
  simp only [Value.fields, bind, Except.bind, hlines, hname, hcategory]
  rfl

theorem Atlas.decode_encode_eq_normal (key : String) (a : Atlas) :
    Atlas.decode (.text key) a.encode = .ok (a.normal key) := by
  obtain ⟨fields, hfields⟩ : ∃ fields, a.encode = .table fields := ⟨_, rfl⟩
  have hkey : lookupD "key" fields = a.key := by
    cases hfields
    rfl
  have hpath : requiredField "repoRelativePath" fields = .ok a.path := by
    cases hfields
    rfl
  have hwidth : sizeField "tileWidth" fields = .ok a.tileWidth := by
    cases hfields
    exact sizeField_int rfl
  have hheight : sizeField "tileHeight" fields = .ok a.tileHeight := by
    cases hfields
    exact sizeField_int rfl
  have hremote : lookupD "resolvedRemotePath" fields = a.remotePath := by
    cases hfields
    rfl
  have hserved : lookupD "localCachePath" fields = a.servedPath := by
    cases hfields
    rfl
  rw [Atlas.decode, hfields]
  simp only [Value.fields, bind, Except.bind, hkey, hpath, hwidth, hheight, hremote, hserved]
  rfl

theorem Entity.decode_encode_eq_normal (e : Entity) : Entity.decode e.encode = .ok e.normal := by
  obtain ⟨fields, hfields⟩ : ∃ fields, e.encode = .table fields := ⟨_, rfl⟩
  have hposition : positionField "gridPosition" fields = .ok e.position := by
    cases hfields
    exact positionField_encode rfl
  have hkind : requiredField "type" fields = .ok e.kind := by
    cases hfields
    rfl
  have hkey : requiredField "key" fields = .ok e.key := by
    cases hfields
    rfl
  have hatlas : lookupD "atlasKey" fields = e.atlasKey := by
    cases hfields
    rfl
  have hbody : lookupD "rawBody" fields = e.body := by
    cases hfields
    rfl
  have hconfig : configField "config" fields = .ok e.config := by
    cases hfields
    exact configField_table rfl
  have hvars : itemsField "vars" fields = .ok e.vars := by
    cases hfields
    exact itemsField_list rfl
  have hqueue : itemsField "infoQueue" fields = .ok e.infoQueue := by
    cases hfields
    exact itemsField_list rfl
  rw [Entity.decode, hfields]
  simp only [Value.fields, bind, Except.bind, hposition, hkind, hkey, hatlas, hbody, hconfig, hvars,
    hqueue]
  rfl

/-- Records that are decoded from their encodings are put into the map one after the other. -/
theorem decodeRecords_mapRecord {α : Type} {f : α → Value} {g : String → α → α}
    {decode : Key → Value → Except DecodeError α}
    (h : ∀ key record, decode (.text key) (f record) = .ok (g key record))
    (records others : List (String × α)) :
    decodeRecords decode records (others.map fun (key, record) => (.text key, f record)) =
      .ok (union records (others.map fun r => (r.1, g r.1 r.2))) := by
  induction others generalizing records with
  | nil => rfl
  | cons r others ih =>
    rw [List.map_cons, decodeRecords, h]
    exact ih _

theorem decodeItems_map {α : Type} {f : α → Value} {g : α → α}
    {decode : Value → Except DecodeError α} (h : ∀ item, decode (f item) = .ok (g item))
    (items : List α) : decodeItems decode (items.map f) = .ok (items.map g) := by
  induction items with
  | nil => rfl
  | cons item items ih =>
    rw [List.map_cons, decodeItems, h, ih]
    rfl

/-- The encoding of a snapshot is decoded, to the snapshot's normal form. -/
theorem Snapshot.decode_encode_eq_normal (s : Snapshot) :
    Snapshot.decode s.encode = .ok s.normal := by
  have hentry : ∀ (key : String) (e : Entry), Entry.decode e.encode = .ok e.normal :=
    fun _ => Entry.decode_encode_eq_normal
  have h1 : decodeRecords (fun _ v => Entry.decode v) [] _ = _ :=
    decodeRecords_mapRecord hentry [] s.entries
  have h2 := decodeRecords_mapRecord Atlas.decode_encode_eq_normal [] s.atlases
  have h3 := decodeItems_map Entity.decode_encode_eq_normal s.entities
  simp only [Snapshot.decode, Snapshot.encode, Value.mapRecord, documentField, lookup?, find?, bind,
    Except.bind]
  simp only [Key.text_beq_text, BEq.rfl, ↓reduceIte, String.reduceBEq, Bool.false_eq_true, h1, h2,
    h3]
  rfl

/-! ## What is decoded -/

theorem Entry.normal_of_decode {v : Value} {e : Entry} (h : Entry.decode v = .ok e) :
    e.normal = e := by
  obtain ⟨fields, -, h⟩ := bind_eq_ok_iff.1 h
  obtain ⟨lines, -, h⟩ := bind_eq_ok_iff.1 h
  cases h
  rw [Entry.normal, Value.orElse_orElse, Value.orElse_orElse]

theorem Atlas.normal_of_decode {key : Key} {v : Value} {a : Atlas}
    (h : Atlas.decode key v = .ok a) : a.normal key.plain = a := by
  obtain ⟨fields, -, h⟩ := bind_eq_ok_iff.1 h
  obtain ⟨path, -, h⟩ := bind_eq_ok_iff.1 h
  obtain ⟨width, -, h⟩ := bind_eq_ok_iff.1 h
  obtain ⟨height, -, h⟩ := bind_eq_ok_iff.1 h
  cases h
  rw [Atlas.normal, Value.orElse_orElse]

theorem Entity.normal_of_decode {v : Value} {e : Entity} (h : Entity.decode v = .ok e) :
    e.normal = e := by
  obtain ⟨fields, -, h⟩ := bind_eq_ok_iff.1 h
  obtain ⟨position, -, h⟩ := bind_eq_ok_iff.1 h
  obtain ⟨kind, -, h⟩ := bind_eq_ok_iff.1 h
  obtain ⟨key, -, h⟩ := bind_eq_ok_iff.1 h
  obtain ⟨config, -, h⟩ := bind_eq_ok_iff.1 h
  obtain ⟨vars, -, h⟩ := bind_eq_ok_iff.1 h
  obtain ⟨queue, -, h⟩ := bind_eq_ok_iff.1 h
  cases h
  rw [Entity.normal, Value.orElse_orElse]

/-- What the decoder makes sure of for a record under the text of its key holds of the whole map,
which has no key twice even if two keys have one text. -/
theorem forall_mem_decodeRecords {α : Type} {decode : Key → Value → Except DecodeError α}
    {R : String → α → Prop}
    (hdecode : ∀ key v record, decode key v = .ok record → R key.plain record)
    {records all : List (String × α)} {fields : List (Key × Value)}
    (hrecords : Distinct records ∧ ∀ r ∈ records, R r.1 r.2)
    (h : decodeRecords decode records fields = .ok all) :
    Distinct all ∧ ∀ r ∈ all, R r.1 r.2 := by
  induction fields generalizing records with
  | nil =>
    cases h
    exact hrecords
  | cons field fields ih =>
    obtain ⟨record, hrecord, h⟩ := bind_eq_ok_iff.1 h
    exact ih ⟨distinct_insert hrecords.1 _ _,
      forall_mem_insert_pair hrecords.2 (hdecode _ _ _ hrecord)⟩ h

theorem forall_mem_decodeItems {α : Type} {decode : Value → Except DecodeError α} {P : α → Prop}
    (hdecode : ∀ v item, decode v = .ok item → P item) {values : List Value} {items : List α}
    (h : decodeItems decode values = .ok items) : ∀ item ∈ items, P item := by
  induction values generalizing items with
  | nil =>
    cases h
    exact List.forall_mem_nil _
  | cons v values ih =>
    obtain ⟨item, hitem, h⟩ := bind_eq_ok_iff.1 h
    obtain ⟨rest, hrest, h⟩ := bind_eq_ok_iff.1 h
    cases h
    exact List.forall_mem_cons.2 ⟨hdecode v item hitem, ih hrest⟩

/-- A decoded snapshot is in normal form. -/
theorem Snapshot.normal_of_decode {document : Value} {s : Snapshot}
    (h : Snapshot.decode document = .ok s) : s.normal = s := by
  obtain ⟨fields, rfl⟩ : ∃ fields, document = .table fields := by
    cases document with
    | table fields => exact ⟨fields, rfl⟩
    | _ => cases h
  obtain ⟨fields, -, h⟩ := bind_eq_ok_iff.1 h
  obtain ⟨entries, -, h⟩ := bind_eq_ok_iff.1 h
  obtain ⟨atlases, -, h⟩ := bind_eq_ok_iff.1 h
  obtain ⟨entities, -, h⟩ := bind_eq_ok_iff.1 h
  obtain ⟨version, -, h⟩ := bind_eq_ok_iff.1 h
  split at h
  · split at h
    · obtain ⟨entries, hentries, h⟩ := bind_eq_ok_iff.1 h
      obtain ⟨atlases, hatlases, h⟩ := bind_eq_ok_iff.1 h
      obtain ⟨entities, hentities, h⟩ := bind_eq_ok_iff.1 h
      cases h
      exact Snapshot.normal_eq_self
        (forall_mem_decodeRecords (R := fun _ e => e.normal = e)
          (fun _ _ _ => Entry.normal_of_decode) ⟨.nil, List.forall_mem_nil _⟩ hentries)
        (forall_mem_decodeRecords (R := fun key a => a.normal key = a)
          (fun _ _ _ => Atlas.normal_of_decode) ⟨.nil, List.forall_mem_nil _⟩ hatlases)
        (forall_mem_decodeItems (fun _ _ => Entity.normal_of_decode) hentities)
    · cases h
  · cases h

/-- The snapshots that come out of the decoder are those in normal form. -/
theorem Snapshot.exists_decode_iff {s : Snapshot} :
    (∃ document, Snapshot.decode document = .ok s) ↔ s.normal = s := by
  constructor
  · rintro ⟨document, h⟩
    exact Snapshot.normal_of_decode h
  · intro h
    exact ⟨s.encode, by rw [Snapshot.decode_encode_eq_normal, h]⟩

/-- What is decoded of any document is decoded again, as it is, from its own encoding. -/
theorem Snapshot.decode_encode_of_decode {document : Value} {s : Snapshot}
    (h : Snapshot.decode document = .ok s) : Snapshot.decode s.encode = .ok s := by
  rw [Snapshot.decode_encode_eq_normal, Snapshot.normal_of_decode h]

/-- A document that has texts and tables for lists, truth values and numerals for numbers, pairs for
a config, and two keys with one text. -/
def irregularDocument : Value :=
  .table
    [(.text "localizationMap", .table
        [(.int 1, .table [(.text "textLines", .text "ab"), (.text "category", .int 0)]),
          (.text "1", .table
            [(.text "displayName", .bool true), (.text "textLines", .table [(.nil, .int 2)])])]),
      (.text "atlases", .table
        [(.nil, .table
          [(.text "key", .list []), (.text "repoRelativePath", .int 5),
            (.text "tileWidth", .text " 7_1 "), (.text "tileHeight", .bool true)])]),
      (.text "entities", .list
        [.table
          [(.text "type", .nil), (.text "key", .list [.bool false]),
            (.text "gridPosition", .table [(.text "x", .float (-1.5)), (.text "y", .text "-2")]),
            (.text "config", .list [.text "ab", .list [.text "a", .nil]]),
            (.text "vars", .text "x"), (.text "infoQueue", .bool false)]]),
      (.text "version", .text "v")]

def irregularSnapshot : Snapshot :=
  { entries :=
      [("1", { displayName := .bool true, textLines := [.nil], category := .text "" })]
    atlases :=
      [("None",
        { key := .text "None"
          path := .int 5
          tileWidth := 71
          tileHeight := 1
          remotePath := .nil
          servedPath := .nil })]
    entities :=
      [{ kind := .nil
         key := .list [.bool false]
         atlasKey := .nil
         position := some (-1, -2)
         body := .text ""
         config := [(.text "a", .nil)]
         vars := [.text "x"]
         infoQueue := [] }]
    version := "v" }

theorem irregularSnapshot_decoded_again :
    Snapshot.decode irregularDocument = .ok irregularSnapshot ∧
      Snapshot.decode irregularSnapshot.encode = .ok irregularSnapshot := by
  have hdecode : Snapshot.decode irregularDocument = .ok irregularSnapshot := by rfl
  exact ⟨hdecode, Snapshot.decode_encode_of_decode hdecode⟩

end ModAlmanac
