import ModAlmanac.Proofs.Snapshot.Damaged

/-!
# Shapes of stored snapshots

The decoder is to take records of the declared kinds alone. It does reject documents of another
outer shape, but of a record it asks little more than that its required fields are there: a field
may hold any value, and lists and tables are made of whatever has items or pairs. What is decoded
is told by the shape of the document (`Snapshot.decodes_decode_iff`), and so is which of the decoded
snapshots are as promised (`Snapshot.isAsPromised_iff`): those of strict documents. The difference
between the two (`Value.IsReadable`, `Value.IsStrict`) is what the decoder lets through, as it does
with a number for a path (`numberedPath_decoded`).
-/

namespace ModAlmanac

open Number OrderedMap

/-! ## Steps that succeed -/

section

variable {α β : Type} {x : Except DecodeError α} {f : α → Except DecodeError β}

theorem decodes_ok (a : α) : Decodes (.ok a : Except DecodeError α) :=
  ⟨a, rfl⟩

theorem not_decodes_error (err : DecodeError) : ¬ Decodes (.error err : Except DecodeError α) := by
  rintro ⟨a, h⟩
  cases h

/-- A step whose result the next one does not depend on. -/
theorem decodes_bind_iff {P : Prop} (h : ∀ a, Decodes (f a) ↔ P) :
    Decodes (x >>= f) ↔ Decodes x ∧ P := by
  constructor
  · rintro ⟨b, hb⟩
    obtain ⟨a, ha, hb⟩ := bind_eq_ok_iff.1 hb
    exact ⟨⟨a, ha⟩, (h a).1 ⟨b, hb⟩⟩
  · rintro ⟨⟨a, ha⟩, hp⟩
    obtain ⟨b, hb⟩ := (h a).2 hp
    exact ⟨b, bind_eq_ok_iff.2 ⟨a, ha, hb⟩⟩

/-- A last step that cannot fail. -/
theorem decodes_bind_ok_iff {g : α → β} :
    Decodes (x >>= fun a => (.ok (g a) : Except DecodeError β)) ↔ Decodes x := by
  rw [decodes_bind_iff fun a => iff_true_intro (decodes_ok (g a)), and_true]

end

/-! ## What is read -/

/-- Whether a value has items or stands for nothing. -/
def Value.hasItems (v : Value) : Bool :=
  v.isVoid || v.items?.isSome

/-- Whether a value is read as an integer: a truth value, a finite number, or a numeral. -/
def Value.isIntegral : Value → Bool
  | .bool _ => true
  | .int _ => true
  | .float x => (parts? x).isSome
  | .text s => (intOfText? s.toList).isSome
  | _ => false

def Value.isSize (v : Value) : Bool :=
  v.isVoid || v.isIntegral

def Value.isPosition : Value → Bool
  | .nil => true
  | .table inner => (lookup? "x" inner).any isIntegral && (lookup? "y" inner).any isIntegral
  | _ => false

/-- Whether a value has two items of which the first can serve as a key. -/
def Value.isPair (v : Value) : Bool :=
  match v.items? with
  | some [first, _] => first.key?.isSome
  | _ => false

/-- Whether a config is read from a value: from a table, from pairs, or from what stands for
nothing. -/
def Value.isConfig (v : Value) : Bool :=
  v.isVoid ||
    match v with
    | .table _ => true
    | v => v.items?.any fun pairs => pairs.all isPair

def Entry.isReadable : Value → Bool
  | .table fields => (lookupD "textLines" fields).hasItems
  | _ => false

def Atlas.isReadable : Value → Bool
  | .table fields =>
    (lookup? "repoRelativePath" fields).isSome && (lookupD "tileWidth" fields).isSize &&
      (lookupD "tileHeight" fields).isSize
  | _ => false

def Entity.isReadable : Value → Bool
  | .table fields =>
    (lookupD "gridPosition" fields).isPosition && (lookup? "type" fields).isSome &&
      (lookup? "key" fields).isSome && (lookupD "config" fields).isConfig &&
        (lookupD "vars" fields).hasItems && (lookupD "infoQueue" fields).hasItems
  | _ => false

section

variable {name : String} {fields : List (Key × Value)} {v : Value}

theorem decodes_requiredField_iff :
    Decodes (requiredField name fields) ↔ (lookup? name fields).isSome = true := by
  unfold requiredField
  cases lookup? name fields with
  | some v => exact iff_of_true (decodes_ok v) rfl
  | none => exact iff_of_false (not_decodes_error _) Bool.false_ne_true

theorem decodes_itemsField_iff :
    Decodes (itemsField name fields) ↔ (lookupD name fields).hasItems = true := by
  unfold itemsField Value.hasItems
  dsimp only
  cases (lookupD name fields).isVoid with
  | true => exact iff_of_true (decodes_ok []) rfl
  | false =>
    cases (lookupD name fields).items? with
    | some items => exact iff_of_true (decodes_ok items) rfl
    | none => exact iff_of_false (not_decodes_error _) Bool.false_ne_true

theorem decodes_toInteger_iff : Decodes v.toInteger ↔ v.isIntegral = true := by
  cases v with
  | bool b => exact iff_of_true (decodes_ok _) rfl
  | int n => exact iff_of_true (decodes_ok n) rfl
  | float x =>
    rw [Value.toInteger, Value.isIntegral]
    cases parts? x with
    | some parts => exact iff_of_true (decodes_ok _) rfl
    | none =>
      refine iff_of_false ?_ Bool.false_ne_true
      dsimp only
      split
      · exact not_decodes_error _
      · exact not_decodes_error _
  | text s =>
    rw [Value.toInteger, Value.isIntegral]
    cases intOfText? s.toList with
    | some n => exact iff_of_true (decodes_ok n) rfl
    | none => exact iff_of_false (not_decodes_error _) Bool.false_ne_true
  | _ => exact iff_of_false (not_decodes_error _) Bool.false_ne_true

theorem decodes_sizeField_iff :
    Decodes (sizeField name fields) ↔ (lookupD name fields).isSize = true := by
  rw [sizeField, Value.orElse, Value.isSize]
  cases (lookupD name fields).isVoid with
  | true => exact iff_of_true (decodes_ok 0) rfl
  | false => exact decodes_toInteger_iff

theorem decodes_positionField_iff :
    Decodes (positionField name fields) ↔ (lookupD name fields).isPosition = true := by
  unfold positionField
  cases lookupD name fields with
  | nil => exact iff_of_true (decodes_ok none) rfl
  | table inner =>
    have hplace : ∀ {β : Type} {P : Prop} {f : Int → Except DecodeError β} (place : String),
        (∀ n, Decodes (f n) ↔ P) →
          (Decodes (requiredField place inner >>= fun v => v.toInteger >>= f) ↔
            (lookup? place inner).any Value.isIntegral = true ∧ P) := by
      intro β P f place hf
      unfold requiredField
      cases lookup? place inner with
      | some v => exact (decodes_bind_iff hf).trans (and_congr_left' decodes_toInteger_iff)
      | none => exact iff_of_false (not_decodes_error _) (fun h => Bool.false_ne_true h.1)
    refine (hplace "x" fun n => hplace "y" fun m =>
      iff_true_intro (decodes_ok (some (n, m)))).trans ?_
    rw [and_true, Value.isPosition, Bool.and_eq_true]
  | _ => exact iff_of_false (not_decodes_error _) Bool.false_ne_true

theorem decodes_pairEntries_iff {table : List (Key × Value)} {pairs : List Value} :
    Decodes (pairEntries table pairs) ↔ pairs.all Value.isPair = true := by
  induction pairs generalizing table with
  | nil => exact iff_of_true (decodes_ok table) rfl
  | cons pair pairs ih =>
    rw [pairEntries, List.all_cons, Value.isPair, Bool.and_eq_true]
    rcases pair.items? with _ | _ | ⟨first, _ | ⟨second, _ | _⟩⟩
    · exact iff_of_false (not_decodes_error _) (fun h => Bool.false_ne_true h.1)
    · exact iff_of_false (not_decodes_error _) (fun h => Bool.false_ne_true h.1)
    · exact iff_of_false (not_decodes_error _) (fun h => Bool.false_ne_true h.1)
    · cases hkey : first.key? with
      | some key => simpa [hkey] using ih
      | none => exact iff_of_false (by simpa [hkey] using not_decodes_error _) (by simp [hkey])
    · exact iff_of_false (not_decodes_error _) (fun h => Bool.false_ne_true h.1)

theorem decodes_configField_iff :
    Decodes (configField name fields) ↔ (lookupD name fields).isConfig = true := by
  unfold configField Value.isConfig
  dsimp only
  cases (lookupD name fields).isVoid with
  | true => exact iff_of_true (decodes_ok []) rfl
  | false =>
    rw [if_neg Bool.false_ne_true, Bool.false_or]
    cases lookupD name fields with
    | table inner => exact iff_of_true (decodes_ok inner) rfl
    | list items => exact decodes_pairEntries_iff
    | text s => exact decodes_pairEntries_iff
    | _ => exact iff_of_false (not_decodes_error _) Bool.false_ne_true

theorem Entry.decodes_decode_iff : Decodes (Entry.decode v) ↔ Entry.isReadable v = true := by
  cases v with
  | table fields => exact decodes_bind_ok_iff.trans decodes_itemsField_iff
  | _ => exact iff_of_false (not_decodes_error _) Bool.false_ne_true

theorem Atlas.decodes_decode_iff {key : Key} :
    Decodes (Atlas.decode key v) ↔ Atlas.isReadable v = true := by
  cases v with
  | table fields =>
    refine (decodes_bind_iff fun _ => decodes_bind_iff fun _ => decodes_bind_ok_iff).trans ?_
    rw [decodes_requiredField_iff, decodes_sizeField_iff, decodes_sizeField_iff]
    simp [Atlas.isReadable, and_assoc]
  | _ => exact iff_of_false (not_decodes_error _) Bool.false_ne_true

theorem Entity.decodes_decode_iff : Decodes (Entity.decode v) ↔ Entity.isReadable v = true := by
  cases v with
  | table fields =>
    refine (decodes_bind_iff fun _ => decodes_bind_iff fun _ => decodes_bind_iff fun _ =>
      decodes_bind_iff fun _ => decodes_bind_iff fun _ => decodes_bind_ok_iff).trans ?_
    rw [decodes_positionField_iff, decodes_requiredField_iff, decodes_requiredField_iff,
      decodes_configField_iff, decodes_itemsField_iff, decodes_itemsField_iff]
    simp [Entity.isReadable, and_assoc]
  | _ => exact iff_of_false (not_decodes_error _) Bool.false_ne_true

end

/-- A document of the shape of a snapshot whose records can all be read. -/
def Value.IsReadable (document : Value) : Prop :=
  ∃ entries atlases entities version, HasShape document entries atlases entities version ∧
    (∀ r ∈ entries, Entry.isReadable r.2 = true) ∧ (∀ r ∈ atlases, Atlas.isReadable r.2 = true) ∧
      ∀ v ∈ entities, Entity.isReadable v = true

theorem decodes_decodeItems_iff {α : Type} {decode : Value → Except DecodeError α}
    {items : List Value} :
    Decodes (decodeItems decode items) ↔ ∀ v ∈ items, Decodes (decode v) := by
  induction items with
  | nil => exact iff_of_true (decodes_ok []) (List.forall_mem_nil _)
  | cons v items ih =>
    rw [decodeItems, List.forall_mem_cons, ← ih]
    exact decodes_bind_iff fun _ => decodes_bind_ok_iff

theorem Snapshot.decodes_decodeParts_iff {entries atlases : List (Key × Value)}
    {entities : List Value} {version : String} :
    Decodes (Snapshot.decodeParts entries atlases entities version) ↔
      (∀ r ∈ entries, Entry.isReadable r.2 = true) ∧
        (∀ r ∈ atlases, Atlas.isReadable r.2 = true) ∧
          ∀ v ∈ entities, Entity.isReadable v = true := by
  refine (decodes_bind_iff fun _ => decodes_bind_iff fun _ => decodes_bind_ok_iff).trans ?_
  rw [decodes_decodeRecords_iff, decodes_decodeRecords_iff, decodes_decodeItems_iff]
  simp only [Entry.decodes_decode_iff, Atlas.decodes_decode_iff, Entity.decodes_decode_iff]

/-- A document is decoded exactly if it can be read. -/
theorem Snapshot.decodes_decode_iff {document : Value} :
    Decodes (Snapshot.decode document) ↔ document.IsReadable := by
  rw [Snapshot.decode_iff_decodeParts fun err herr => absurd herr (not_decodes_error err)]
  simp only [Snapshot.decodes_decodeParts_iff]
  rfl

/-! ## What is promised -/

/-- The value of a record under a name; a record without it, or no record at all, counts as nil. -/
def Value.field (name : String) : Value → Value
  | .table fields => lookupD name fields
  | _ => .nil

/-- Some items are those of a list, or there is none and none is given. -/
def Value.IsListOf (v : Value) (items : List Value) : Prop :=
  v = .list items ∨ v = .nil ∧ items = []

def Value.IsTableOf (v : Value) (fields : List (Key × Value)) : Prop :=
  v = .table fields ∨ v = .nil ∧ fields = []

structure Entry.IsAsPromised (v : Value) (e : Entry) : Prop where
  displayName : e.displayName.isText = true
  category : e.category.isText = true
  isText_line : ∀ line ∈ e.textLines, line.isText = true
  textLines : (v.field "textLines").IsListOf e.textLines

structure Atlas.IsAsPromised (a : Atlas) : Prop where
  key : a.key.isText = true
  path : a.path.isText = true

structure Entity.IsAsPromised (v : Value) (e : Entity) : Prop where
  kind : e.kind.isText = true
  key : e.key.isText = true
  config : (v.field "config").IsTableOf e.config
  vars : (v.field "vars").IsListOf e.vars
  infoQueue : (v.field "infoQueue").IsListOf e.infoQueue

/-- What is promised of a snapshot that a document is decoded to, record by record. -/
def Snapshot.IsAsPromised (document : Value) (s : Snapshot) : Prop :=
  ∃ entries atlases entities version, HasShape document entries atlases entities version ∧
    List.Forall₂ (fun r e => r.1 = .text e.1 ∧ Entry.IsAsPromised r.2 e.2) entries s.entries ∧
    List.Forall₂ (fun r a => r.1 = .text a.1 ∧ Atlas.IsAsPromised a.2) atlases s.atlases ∧
    List.Forall₂ Entity.IsAsPromised entities s.entities

/-! ## What keeps the promise -/

def Value.isTextOrVoid (v : Value) : Bool :=
  v.isVoid || v.isText

def Value.isListOrNil : Value → Bool
  | .nil => true
  | .list _ => true
  | _ => false

def Value.isTableOrNil : Value → Bool
  | .nil => true
  | .table _ => true
  | _ => false

def Value.isTexts : Value → Bool
  | .nil => true
  | .list lines => lines.all isText
  | _ => false

def Entry.isStrict (v : Value) : Bool :=
  (v.field "displayName").isTextOrVoid && (v.field "category").isTextOrVoid &&
    (v.field "textLines").isTexts

def Atlas.isStrict (v : Value) : Bool :=
  (v.field "key").isTextOrVoid && (v.field "repoRelativePath").isText

def Entity.isStrict (v : Value) : Bool :=
  (v.field "type").isText && (v.field "key").isText && (v.field "config").isTableOrNil &&
    (v.field "vars").isListOrNil && (v.field "infoQueue").isListOrNil

/-- A document all records of which are of the declared kinds. -/
def Value.IsStrict (document : Value) : Prop :=
  ∃ entries atlases entities version, HasShape document entries atlases entities version ∧
    (∀ r ∈ entries, Entry.isStrict r.2 = true) ∧ (∀ r ∈ atlases, Atlas.isStrict r.2 = true) ∧
      ∀ v ∈ entities, Entity.isStrict v = true

section

variable {name : String} {fields : List (Key × Value)} {v : Value}

theorem Value.isText_orElse (v : Value) (s : String) :
    (v.orElse (.text s)).isText = v.isTextOrVoid := by
  rw [Value.orElse, Value.isTextOrVoid]
  cases v.isVoid <;> rfl

theorem isListOf_iff {items : List Value} (h : itemsField name fields = .ok items) :
    (lookupD name fields).IsListOf items ↔ (lookupD name fields).isListOrNil = true := by
  cases hv : lookupD name fields with
  | list own =>
    rw [itemsField_list hv] at h
    cases h
    exact iff_of_true (.inl rfl) rfl
  | nil =>
    rw [itemsField, hv] at h
    cases h
    exact iff_of_true (.inr ⟨rfl, rfl⟩) rfl
  | _ => exact iff_of_false (by rintro (h | ⟨h, -⟩) <;> cases h) Bool.false_ne_true

theorem isTableOf_iff {config : List (Key × Value)} (h : configField name fields = .ok config) :
    (lookupD name fields).IsTableOf config ↔ (lookupD name fields).isTableOrNil = true := by
  cases hv : lookupD name fields with
  | table own =>
    rw [configField_table hv] at h
    cases h
    exact iff_of_true (.inl rfl) rfl
  | nil =>
    rw [configField, hv] at h
    cases h
    exact iff_of_true (.inr ⟨rfl, rfl⟩) rfl
  | _ => exact iff_of_false (by rintro (h | ⟨h, -⟩) <;> cases h) Bool.false_ne_true

theorem isTexts_iff {items : List Value} (h : itemsField name fields = .ok items) :
    (∀ line ∈ items, line.isText = true) ∧ (lookupD name fields).IsListOf items ↔
      (lookupD name fields).isTexts = true := by
  rw [isListOf_iff h]
  cases hv : lookupD name fields with
  | list own =>
    rw [itemsField_list hv] at h
    cases h
    simp [Value.isTexts, Value.isListOrNil]
  | nil =>
    rw [itemsField, hv] at h
    cases h
    simp [Value.isTexts, Value.isListOrNil]
  | _ => simp [Value.isTexts, Value.isListOrNil]

/-! ## Records -/

theorem Entry.isAsPromised_iff {e : Entry} (h : Entry.decode v = .ok e) :
    Entry.IsAsPromised v e ↔ Entry.isStrict v = true := by
  obtain ⟨fields, hfields, h⟩ := bind_eq_ok_iff.1 h
  obtain ⟨lines, hlines, h⟩ := bind_eq_ok_iff.1 h
  cases h
  rw [Value.fields_eq_ok_iff] at hfields
  subst hfields
  simp only [Entry.isStrict, Value.field, Bool.and_eq_true, ← isTexts_iff hlines,
    ← Value.isText_orElse _ ""]
  constructor
  · rintro ⟨hname, hcategory, htext, hlist⟩
    exact ⟨⟨hname, hcategory⟩, htext, hlist⟩
  · rintro ⟨⟨hname, hcategory⟩, htext, hlist⟩
    exact ⟨hname, hcategory, htext, hlist⟩

theorem lookupD_of_requiredField (h : requiredField name fields = .ok v) :
    lookupD name fields = v := by
  rw [lookupD, requiredField_eq_ok_iff.1 h, Option.getD_some]

theorem Atlas.isAsPromised_iff {key : Key} {a : Atlas} (h : Atlas.decode key v = .ok a) :
    Atlas.IsAsPromised a ↔ Atlas.isStrict v = true := by
  obtain ⟨fields, hfields, h⟩ := bind_eq_ok_iff.1 h
  obtain ⟨path, hpath, h⟩ := bind_eq_ok_iff.1 h
  obtain ⟨width, -, h⟩ := bind_eq_ok_iff.1 h
  obtain ⟨height, -, h⟩ := bind_eq_ok_iff.1 h
  cases h
  rw [Value.fields_eq_ok_iff] at hfields
  subst hfields
  rw [Atlas.isStrict, Value.field, Value.field, lookupD_of_requiredField hpath, Bool.and_eq_true,
    ← Value.isText_orElse _ key.plain]
  exact ⟨fun h => ⟨h.key, h.path⟩, fun h => ⟨h.1, h.2⟩⟩

theorem Entity.isAsPromised_iff {e : Entity} (h : Entity.decode v = .ok e) :
    Entity.IsAsPromised v e ↔ Entity.isStrict v = true := by
  obtain ⟨fields, hfields, h⟩ := bind_eq_ok_iff.1 h
  obtain ⟨position, -, h⟩ := bind_eq_ok_iff.1 h
  obtain ⟨kind, hkind, h⟩ := bind_eq_ok_iff.1 h
  obtain ⟨key, hkey, h⟩ := bind_eq_ok_iff.1 h
  obtain ⟨config, hconfig, h⟩ := bind_eq_ok_iff.1 h
  obtain ⟨vars, hvars, h⟩ := bind_eq_ok_iff.1 h
  obtain ⟨queue, hqueue, h⟩ := bind_eq_ok_iff.1 h
  cases h
  rw [Value.fields_eq_ok_iff] at hfields
  subst hfields
  simp only [Entity.isStrict, Value.field, Bool.and_eq_true, lookupD_of_requiredField hkind,
    lookupD_of_requiredField hkey, ← isTableOf_iff hconfig, ← isListOf_iff hvars,
    ← isListOf_iff hqueue]
  exact ⟨fun h => ⟨⟨⟨⟨h.kind, h.key⟩, h.config⟩, h.vars⟩, h.infoQueue⟩,
    fun h => ⟨h.1.1.1.1, h.1.1.1.2, h.1.1.2, h.1.2, h.2⟩⟩

end

/-! ## Lists of records -/

section

variable {α : Type}

/-- The records of a table with text keys are decoded one by one, and each is kept under its key. -/
theorem forall₂_decodeRecords {decode : Key → Value → Except DecodeError α}
    {fields : List (Key × Value)} {kept : List (String × α)} (hdistinct : Distinct fields)
    (hkeys : ∀ r ∈ fields, r.1.isText = true) (h : decodeRecords decode [] fields = .ok kept) :
    List.Forall₂ (fun r e => r.1 = .text e.1 ∧ decode r.1 r.2 = .ok e.2) fields kept := by
  obtain ⟨decoded, hdecoded, hkept⟩ : ∃ decoded : List (String × α),
      List.Forall₂ (fun r e => r.1 = .text e.1 ∧ decode r.1 r.2 = .ok e.2) fields decoded ∧
        kept = union [] decoded := by
    generalize ([] : List (String × α)) = records at h ⊢
    induction fields generalizing records with
    | nil =>
      cases h
      exact ⟨[], .nil, rfl⟩
    | cons r fields ih =>
      obtain ⟨hr, hkeys⟩ := List.forall_mem_cons.1 hkeys
      obtain ⟨s, hs⟩ := Key.exists_of_isText hr
      obtain ⟨record, hrecord, h⟩ := bind_eq_ok_iff.1 h
      obtain ⟨decoded, hdecoded, rfl⟩ := ih (List.pairwise_cons.1 hdistinct).2 hkeys _ h
      refine ⟨(r.1.plain, record) :: decoded, .cons ⟨?_, hrecord⟩ hdecoded, rfl⟩
      rw [hs]
      rfl
  have hmap : fields.map (·.1) = decoded.map fun e => Key.text e.1 := by
    rw [← List.forall₂_eq_eq_eq, List.forall₂_map_left_iff, List.forall₂_map_right_iff]
    exact hdecoded.imp fun _ _ h => h.1
  have hnew : Distinct decoded := by
    have hpairwise : (fields.map (·.1)).Pairwise fun a b => (a == b) = false :=
      List.pairwise_map.2 hdistinct
    rw [hmap] at hpairwise
    exact List.pairwise_map.1 hpairwise
  rw [hkept, union_eq_append [] hnew]
  exact hdecoded

theorem forall₂_decodeItems {decode : Value → Except DecodeError α} {items : List Value}
    {decoded : List α} (h : decodeItems decode items = .ok decoded) :
    List.Forall₂ (fun v a => decode v = .ok a) items decoded := by
  induction items generalizing decoded with
  | nil =>
    cases h
    exact .nil
  | cons v items ih =>
    obtain ⟨item, hitem, h⟩ := bind_eq_ok_iff.1 h
    obtain ⟨more, hmore, h⟩ := bind_eq_ok_iff.1 h
    cases h
    exact .cons hitem (ih hmore)

/-- A relation that for related pairs depends on the left sides alone. -/
theorem forall₂_iff_of_forall₂ {α β : Type} {A B : α → β → Prop} {C : α → Prop} {l : List α}
    {m : List β} (h : List.Forall₂ A l m) (hBC : ∀ a b, A a b → (B a b ↔ C a)) :
    List.Forall₂ B l m ↔ ∀ a ∈ l, C a := by
  induction h with
  | nil => exact iff_of_true .nil (List.forall_mem_nil _)
  | cons hab _ ih => rw [List.forall₂_cons, List.forall_mem_cons, hBC _ _ hab, ih]

end

/-! ## Documents -/

theorem HasShape.unique {document : Value} {entries atlases entries' atlases' : List (Key × Value)}
    {entities entities' : List Value} {version version' : String}
    (h : HasShape document entries atlases entities version)
    (h' : HasShape document entries' atlases' entities' version') :
    entries = entries' ∧ atlases = atlases' ∧ entities = entities' ∧ version = version' := by
  obtain ⟨fields, rfl, hentries, hatlases, hentities, hversion⟩ := h
  obtain ⟨_, ⟨⟩, hentries', hatlases', hentities', hversion'⟩ := h'
  rw [hentries] at hentries'
  rw [hatlases] at hatlases'
  rw [hentities] at hentities'
  rw [hversion] at hversion'
  cases hentries'
  cases hatlases'
  cases hentities'
  cases hversion'
  exact ⟨rfl, rfl, rfl, rfl⟩

theorem hasTextKeys_of_lookup? {name : String} {fields : List (Key × Value)} {v : Value}
    (h : (Value.table fields).hasTextKeys = true) (hv : lookup? name fields = some v) :
    v.hasTextKeys = true := by
  obtain ⟨e, he, -, rfl⟩ := exists_mem_of_find? hv
  exact ((hasTextKeys_table.1 h).2 e he).2

/-- A snapshot decoded from a document is as promised exactly if the records of that are of their
declared kinds. -/
theorem Snapshot.isAsPromised_iff {document : Value} {s : Snapshot}
    (hkeys : document.hasTextKeys = true) (h : Snapshot.decode document = .ok s) :
    s.IsAsPromised document ↔ document.IsStrict := by
  obtain ⟨entries, atlases, entities, version, hshape, -⟩ :=
    Snapshot.decodes_decode_iff.1 ⟨s, h⟩
  have hparts := hshape
  obtain ⟨fields, rfl, hentries, hatlases, -, -⟩ := hparts
  have hentryKeys := hasTextKeys_table.1 (hasTextKeys_of_lookup? hkeys hentries)
  have hatlasKeys := hasTextKeys_table.1 (hasTextKeys_of_lookup? hkeys hatlases)
  rw [Snapshot.decode_of_hasShape hshape] at h
  obtain ⟨keptEntries, hkeptEntries, h⟩ := bind_eq_ok_iff.1 h
  obtain ⟨keptAtlases, hkeptAtlases, h⟩ := bind_eq_ok_iff.1 h
  obtain ⟨keptEntities, hkeptEntities, h⟩ := bind_eq_ok_iff.1 h
  cases h
  have h1 := forall₂_iff_of_forall₂
    (B := fun r e => r.1 = .text e.1 ∧ Entry.IsAsPromised r.2 e.2)
    (C := fun r => Entry.isStrict r.2 = true)
    (forall₂_decodeRecords hentryKeys.1 (fun r hr => (hentryKeys.2 r hr).1) hkeptEntries)
    fun r e hre => (and_iff_right hre.1).trans (Entry.isAsPromised_iff hre.2)
  have h2 := forall₂_iff_of_forall₂
    (B := fun r a => r.1 = .text a.1 ∧ Atlas.IsAsPromised a.2)
    (C := fun r => Atlas.isStrict r.2 = true)
    (forall₂_decodeRecords hatlasKeys.1 (fun r hr => (hatlasKeys.2 r hr).1) hkeptAtlases)
    fun r a hra => (and_iff_right hra.1).trans (Atlas.isAsPromised_iff hra.2)
  have h3 := forall₂_iff_of_forall₂ (B := Entity.IsAsPromised)
    (C := fun v => Entity.isStrict v = true)
    (forall₂_decodeItems hkeptEntities) fun v e hve => Entity.isAsPromised_iff hve
  constructor
  · rintro ⟨entries', atlases', entities', version', hshape', hpromised⟩
    obtain ⟨rfl, rfl, rfl, rfl⟩ := hshape.unique hshape'
    exact ⟨_, _, _, _, hshape, h1.1 hpromised.1, h2.1 hpromised.2.1, h3.1 hpromised.2.2⟩
  · rintro ⟨entries', atlases', entities', version', hshape', hstrict⟩
    obtain ⟨rfl, rfl, rfl, rfl⟩ := hshape.unique hshape'
    exact ⟨_, _, _, _, hshape, h1.2 hstrict.1, h2.2 hstrict.2.1, h3.2 hstrict.2.2⟩

/-- A document is decoded exactly if it can be read, and out of range exactly if it overflows. So
every snapshot is as promised, and every other document is rejected as one, exactly if what can be
read is strict and nothing overflows. -/
theorem Snapshot.decode_as_promised_iff (document : Value) :
    ((∃ s, Snapshot.decode document = .ok s) ↔ document.IsReadable) ∧
    (Snapshot.decode document = .error .outOfRange ↔ document.Overflows) ∧
    (document.hasTextKeys = true →
      ((∀ s, Snapshot.decode document = .ok s → s.IsAsPromised document) ∧
          (∀ err, Snapshot.decode document = .error err → err ≠ .outOfRange) ↔
        (document.IsReadable → document.IsStrict) ∧ ¬ document.Overflows)) := by
  refine ⟨Snapshot.decodes_decode_iff, Snapshot.decode_eq_outOfRange_iff,
    fun hkeys => and_congr ⟨fun h hreadable => ?_, fun h s hs => ?_⟩
      ⟨fun h hoverflows => ?_, fun h err herr hrange => ?_⟩⟩
  · obtain ⟨s, hs⟩ := Snapshot.decodes_decode_iff.2 hreadable
    exact (Snapshot.isAsPromised_iff hkeys hs).1 (h s hs)
  · exact (Snapshot.isAsPromised_iff hkeys hs).2 (h (Snapshot.decodes_decode_iff.1 ⟨s, hs⟩))
  · exact h _ (Snapshot.decode_eq_outOfRange_iff.2 hoverflows) rfl
  · exact h (Snapshot.decode_eq_outOfRange_iff.1 (hrange ▸ herr))

/-- The document of a snapshot with one sheet. -/
def sheetDocument (path : Value) : Value :=
  .table
    [(.text "localizationMap", .table []),
      (.text "atlases", .table [(.text "a", .table [(.text "repoRelativePath", path)])]),
      (.text "entities", .list []),
      (.text "version", .text "v")]

/-- A sheet with a text for its path is decoded as promised. -/
theorem sheetDocument_as_promised :
    (sheetDocument (.text "p")).hasTextKeys = true ∧
      (∃ s, Snapshot.decode (sheetDocument (.text "p")) = .ok s) ∧
        ∀ s, Snapshot.decode (sheetDocument (.text "p")) = .ok s →
          s.IsAsPromised (sheetDocument (.text "p")) := by
  obtain ⟨hdecode, hrange, hpromise⟩ :=
    Snapshot.decode_as_promised_iff (sheetDocument (.text "p"))
  have hkeys : (sheetDocument (.text "p")).hasTextKeys = true := by decide
  have hshape : HasShape (sheetDocument (.text "p")) []
      [(.text "a", .table [(.text "repoRelativePath", .text "p")])] [] "v" :=
    ⟨_, rfl, rfl, rfl, rfl, rfl⟩
  have hreadable : (sheetDocument (.text "p")).IsReadable :=
    ⟨_, _, _, _, hshape, by simp, by simp; rfl, by simp⟩
  have hstrict : (sheetDocument (.text "p")).IsStrict :=
    ⟨_, _, _, _, hshape, by simp, by simp; rfl, by simp⟩
  have hdecoded := hdecode.2 hreadable
  have hoverflow : ¬ (sheetDocument (.text "p")).Overflows := fun h => by
    obtain ⟨s, hs⟩ := hdecoded
    rw [hrange.2 h] at hs
    cases hs
  exact ⟨hkeys, hdecoded, ((hpromise hkeys).2 ⟨fun _ => hstrict, hoverflow⟩).1⟩

/-- A sheet with a number for its path is decoded, although it has no text there. -/
theorem numberedPath_decoded :
    ∃ s, Snapshot.decode (sheetDocument (.int 5)) = .ok s ∧
      ¬ s.IsAsPromised (sheetDocument (.int 5)) := by
  refine ⟨_, rfl, ?_⟩
  rintro ⟨_, _, _, _, -, -, hatlases, -⟩
  cases hatlases with
  | cons h _ => cases h.2.path

end ModAlmanac
