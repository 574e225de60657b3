import Mathlib
import ModAlmanac.Value

/-!
# Tables with text keys

A table that is written to a document and read back comes back as it was if its keys are texts and
no two of them are the same, at every depth (`Value.hasTextKeys`). Tables are built by insertion,
which never gives one key twice (`OrderedMap.distinct_insert`), and a map without a key twice is
what its own entries make (`OrderedMap.ofList_eq_self`).
-/

namespace ModAlmanac.OrderedMap

variable {κ ν : Type} [BEq κ]

/-! ## Maps without a key twice -/

/-- No two entries have the same key. -/
def Distinct (entries : List (κ × ν)) : Prop :=
  entries.Pairwise fun a b => (a.1 == b.1) = false

instance (entries : List (κ × ν)) : Decidable (Distinct entries) :=
  inferInstanceAs (Decidable (entries.Pairwise fun a b => (a.1 == b.1) = false))

/-- A key that is not there is added at the end. -/
theorem insert_of_forall_ne {key : κ} {entries : List (κ × ν)}
    (h : ∀ e ∈ entries, (e.1 == key) = false) (value : ν) :
    insert key value entries = entries ++ [(key, value)] := by
  induction entries with
  | nil => rfl
  | cons e entries ih =>
    obtain ⟨he, hrest⟩ := List.forall_mem_cons.1 h
    rw [insert, if_neg (by rw [he]; exact Bool.false_ne_true), ih hrest, List.cons_append]

theorem union_cons (entries : List (κ × ν)) (e : κ × ν) (others : List (κ × ν)) :
    union entries (e :: others) = union (insert e.1 e.2 entries) others :=
  rfl

/-- Entries with new keys are added in order. -/
theorem union_eq_append (entries : List (κ × ν)) {others : List (κ × ν)}
    (h : Distinct (entries ++ others)) :
    union entries others = entries ++ others := by
  induction others generalizing entries with
  | nil => rw [List.append_nil]; rfl
  | cons e others ih =>
    have hnew : ∀ old ∈ entries, (old.1 == e.1) = false := by
      intro old hold
      exact (List.pairwise_append.1 h).2.2 old hold e List.mem_cons_self
    rw [List.append_cons] at h
    rw [union_cons, insert_of_forall_ne hnew, ih _ h, ← List.append_cons]

/-- A map without a key twice is what its entries make. -/
theorem ofList_eq_self {pairs : List (κ × ν)} (h : Distinct pairs) : ofList pairs = pairs :=
  union_eq_append [] h

/-- What holds of all keys and of all values still does after an insertion. -/
theorem forall_mem_insert {P : κ → Prop} {Q : ν → Prop} {key : κ} {value : ν}
    {entries : List (κ × ν)} (h : ∀ e ∈ entries, P e.1 ∧ Q e.2) (hkey : P key) (hvalue : Q value) :
    ∀ e ∈ insert key value entries, P e.1 ∧ Q e.2 := by
  induction entries with
  | nil =>
    intro e he
    rw [insert, List.mem_singleton] at he
    rw [he]
    exact ⟨hkey, hvalue⟩
  | cons first entries ih =>
    obtain ⟨hfirst, hrest⟩ := List.forall_mem_cons.1 h
    rw [insert]
    split
    · exact List.forall_mem_cons.2 ⟨⟨hfirst.1, hvalue⟩, hrest⟩
    · exact List.forall_mem_cons.2 ⟨hfirst, ih hrest⟩

/-- What holds of all keys with their values still does after an insertion, if it holds of the new
value under every key that counts as the same. -/
theorem forall_mem_insert_of_same {R : κ → ν → Prop} {key : κ} {value : ν}
    {entries : List (κ × ν)} (h : ∀ e ∈ entries, R e.1 e.2) (hnew : R key value)
    (hsame : ∀ k old, R k old → (k == key) = true → R k value) :
    ∀ e ∈ insert key value entries, R e.1 e.2 := by
  induction entries with
  | nil => exact List.forall_mem_singleton.2 hnew
  | cons first entries ih =>
    obtain ⟨hfirst, hrest⟩ := List.forall_mem_cons.1 h
    rw [insert]
    split
    · next hkey => exact List.forall_mem_cons.2 ⟨hsame _ _ hfirst hkey, hrest⟩
    · exact List.forall_mem_cons.2 ⟨hfirst, ih hrest⟩

/-- Where the same key is an equal one, nothing else has to be asked. -/
theorem forall_mem_insert_pair [LawfulBEq κ] {R : κ → ν → Prop} {key : κ} {value : ν}
    {entries : List (κ × ν)} (h : ∀ e ∈ entries, R e.1 e.2) (hnew : R key value) :
    ∀ e ∈ insert key value entries, R e.1 e.2 :=
  forall_mem_insert_of_same h hnew fun k _ _ hkey => by rwa [eq_of_beq hkey]

theorem distinct_insert {entries : List (κ × ν)} (h : Distinct entries) (key : κ) (value : ν) :
    Distinct (insert key value entries) := by
  induction entries with
  | nil => exact List.pairwise_singleton _ _
  | cons first entries ih =>
    obtain ⟨hfirst, hrest⟩ := List.pairwise_cons.1 h
    rw [insert]
    split
    · exact List.pairwise_cons.2 ⟨hfirst, hrest⟩
    · next hne =>
      refine List.pairwise_cons.2 ⟨fun e he => ?_, ih hrest⟩
      exact (forall_mem_insert (P := fun k => (first.1 == k) = false) (Q := fun _ : ν => True)
        (fun e he => ⟨hfirst e he, trivial⟩) (Bool.eq_false_iff.2 hne) trivial e he).1

theorem distinct_insertNew {entries : List (κ × ν)} (h : Distinct entries) (key : κ) (value : ν) :
    Distinct (insertNew key value entries) := by
  unfold insertNew
  split
  · exact h
  · next hnew =>
    refine List.pairwise_append.2 ⟨h, List.pairwise_singleton _ _, fun e he last hlast => ?_⟩
    rw [List.mem_singleton.1 hlast]
    exact Bool.eq_false_iff.2 fun heq => hnew (List.any_eq_true.2 ⟨e, he, heq⟩)

theorem distinct_union {entries : List (κ × ν)} (h : Distinct entries) (others : List (κ × ν)) :
    Distinct (union entries others) := by
  induction others generalizing entries with
  | nil => exact h
  | cons e others ih => exact ih (distinct_insert h e.1 e.2)

theorem distinct_ofList (pairs : List (κ × ν)) : Distinct (ofList pairs) :=
  distinct_union List.Pairwise.nil pairs

theorem forall_mem_union {P : κ → Prop} {Q : ν → Prop} {entries others : List (κ × ν)}
    (h : ∀ e ∈ entries, P e.1 ∧ Q e.2) (hothers : ∀ e ∈ others, P e.1 ∧ Q e.2) :
    ∀ e ∈ union entries others, P e.1 ∧ Q e.2 := by
  induction others generalizing entries with
  | nil => exact h
  | cons e others ih =>
    obtain ⟨he, hrest⟩ := List.forall_mem_cons.1 hothers
    exact ih (forall_mem_insert h he.1 he.2) hrest

theorem forall_mem_union_pair [LawfulBEq κ] {R : κ → ν → Prop} {entries others : List (κ × ν)}
    (h : ∀ e ∈ entries, R e.1 e.2) (hothers : ∀ e ∈ others, R e.1 e.2) :
    ∀ e ∈ union entries others, R e.1 e.2 := by
  induction others generalizing entries with
  | nil => exact h
  | cons e others ih =>
    obtain ⟨he, hrest⟩ := List.forall_mem_cons.1 hothers
    exact ih (forall_mem_insert_pair h he) hrest

theorem forall_mem_ofList {P : κ → Prop} {Q : ν → Prop} {pairs : List (κ × ν)}
    (h : ∀ e ∈ pairs, P e.1 ∧ Q e.2) : ∀ e ∈ ofList pairs, P e.1 ∧ Q e.2 :=
  forall_mem_union (fun _ he => absurd he List.not_mem_nil) h

/-- Mapping the values keeps the keys as different as they are. -/
theorem distinct_map {μ : Type} {entries : List (κ × ν)} (h : Distinct entries) (f : κ → ν → μ) :
    Distinct (entries.map fun e => (e.1, f e.1 e.2)) :=
  List.pairwise_map.2 h

end ModAlmanac.OrderedMap

namespace ModAlmanac

open OrderedMap

/-! ## Values -/

def Key.isText : Key → Bool
  | .text _ => true
  | _ => false

mutual

/-- Whether the keys of all tables in a value are texts, no two of one table the same. -/
def Value.hasTextKeys : Value → Bool
  | .list items => itemsHaveTextKeys items
  | .table fields => decide (Distinct fields) && fieldsHaveTextKeys fields
  | _ => true

def itemsHaveTextKeys : List Value → Bool
  | [] => true
  | v :: rest => v.hasTextKeys && itemsHaveTextKeys rest

def fieldsHaveTextKeys : List (Key × Value) → Bool
  | [] => true
  | (k, v) :: rest => k.isText && v.hasTextKeys && fieldsHaveTextKeys rest

end

@[simp] theorem hasTextKeys_nil : Value.nil.hasTextKeys = true := rfl

@[simp] theorem hasTextKeys_bool (b : Bool) : (Value.bool b).hasTextKeys = true := rfl

@[simp] theorem hasTextKeys_int (n : Int) : (Value.int n).hasTextKeys = true := rfl

@[simp] theorem hasTextKeys_float (x : Float) : (Value.float x).hasTextKeys = true := rfl

@[simp] theorem hasTextKeys_text (s : String) : (Value.text s).hasTextKeys = true := rfl

@[simp] theorem Key.isText_text (s : String) : (Key.text s).isText = true := rfl

@[simp] theorem Key.text_beq_text (s t : String) : (Key.text s == Key.text t) = (s == t) := rfl

theorem itemsHaveTextKeys_iff {items : List Value} :
    itemsHaveTextKeys items = true ↔ ∀ v ∈ items, v.hasTextKeys = true := by
  induction items with
  | nil => simp [itemsHaveTextKeys]
  | cons v items ih => simp [itemsHaveTextKeys, ih]

theorem fieldsHaveTextKeys_iff {fields : List (Key × Value)} :
    fieldsHaveTextKeys fields = true ↔
      ∀ e ∈ fields, e.1.isText = true ∧ e.2.hasTextKeys = true := by
  induction fields with
  | nil => simp [fieldsHaveTextKeys]
  | cons e fields ih =>
    obtain ⟨k, v⟩ := e
    rw [fieldsHaveTextKeys, Bool.and_eq_true, Bool.and_eq_true, ih, List.forall_mem_cons]

theorem hasTextKeys_list {items : List Value} :
    (Value.list items).hasTextKeys = true ↔ ∀ v ∈ items, v.hasTextKeys = true := by
  rw [Value.hasTextKeys, itemsHaveTextKeys_iff]

theorem hasTextKeys_table {fields : List (Key × Value)} :
    (Value.table fields).hasTextKeys = true ↔
      Distinct fields ∧ ∀ e ∈ fields, e.1.isText = true ∧ e.2.hasTextKeys = true := by
  rw [Value.hasTextKeys, Bool.and_eq_true, decide_eq_true_iff, fieldsHaveTextKeys_iff]

theorem hasTextKeys_ofList {pairs : List (Key × Value)}
    (h : ∀ e ∈ pairs, e.1.isText = true ∧ e.2.hasTextKeys = true) :
    (Value.table (ofList pairs)).hasTextKeys = true :=
  hasTextKeys_table.2 ⟨distinct_ofList pairs,
    forall_mem_ofList (P := fun k : Key => k.isText = true)
      (Q := fun v : Value => v.hasTextKeys = true) h⟩

theorem Key.exists_of_isText {k : Key} (h : k.isText = true) : ∃ s, k = .text s := by
  cases k with
  | text s => exact ⟨s, rfl⟩
  | nil => cases h
  | bool _ => cases h
  | int _ => cases h
  | float _ => cases h

/-! ## Keys made texts -/

mutual

/-- A value with every key replaced by its name; of two keys with one name the later value
counts. -/
def Value.named (name : Key → String) : Value → Value
  | .list items => .list (namedItems name items)
  | .table fields => .table (ofList (namedFields name fields))
  | v => v

def namedItems (name : Key → String) : List Value → List Value
  | [] => []
  | v :: rest => v.named name :: namedItems name rest

def namedFields (name : Key → String) : List (Key × Value) → List (Key × Value)
  | [] => []
  | (k, v) :: rest => (.text (name k), v.named name) :: namedFields name rest

end

section

variable {name : Key → String}

@[simp] theorem Value.named_list (items : List Value) :
    (Value.list items).named name = .list (namedItems name items) := by
  rw [Value.named]

@[simp] theorem Value.named_table (fields : List (Key × Value)) :
    (Value.table fields).named name = .table (ofList (namedFields name fields)) := by
  rw [Value.named]

theorem namedItems_eq_map (items : List Value) :
    namedItems name items = items.map (Value.named name) := by
  induction items with
  | nil => rfl
  | cons v items ih => rw [namedItems, ih, List.map_cons]

mutual

/-- A value whose keys have been replaced by their names has text keys. -/
theorem Value.hasTextKeys_named : ∀ v : Value, (v.named name).hasTextKeys = true
  | .nil => rfl
  | .bool _ => rfl
  | .int _ => rfl
  | .float _ => rfl
  | .text _ => rfl
  | .list items => by
    rw [Value.named_list]
    exact hasTextKeys_list.2 (hasTextKeys_of_mem_namedItems items)
  | .table fields => by
    rw [Value.named_table]
    exact hasTextKeys_ofList (isText_of_mem_namedFields fields)

theorem hasTextKeys_of_mem_namedItems : ∀ items : List Value,
    ∀ v ∈ namedItems name items, v.hasTextKeys = true
  | [], _, hv => absurd hv List.not_mem_nil
  | v :: rest, w, hw => by
    rw [namedItems] at hw
    rcases List.mem_cons.1 hw with rfl | hw
    · exact v.hasTextKeys_named
    · exact hasTextKeys_of_mem_namedItems rest w hw

theorem isText_of_mem_namedFields : ∀ fields : List (Key × Value),
    ∀ e ∈ namedFields name fields, e.1.isText = true ∧ e.2.hasTextKeys = true
  | [], _, he => absurd he List.not_mem_nil
  | (k, v) :: rest, e, he => by
    rw [namedFields] at he
    rcases List.mem_cons.1 he with rfl | he
    · exact ⟨rfl, v.hasTextKeys_named⟩
    · exact isText_of_mem_namedFields rest e he

end

mutual

/-- Where a text is its own name, a value with text keys stays as it is. -/
theorem Value.named_eq_self (hname : ∀ s, name (.text s) = s) :
    ∀ {v : Value}, v.hasTextKeys = true → v.named name = v
  | .nil, _ => rfl
  | .bool _, _ => rfl
  | .int _, _ => rfl
  | .float _, _ => rfl
  | .text _, _ => rfl
  | .list items, h => by
    rw [Value.hasTextKeys] at h
    rw [Value.named_list, namedItems_eq_self hname h]
  | .table fields, h => by
    have hdistinct := (hasTextKeys_table.1 h).1
    rw [Value.hasTextKeys, Bool.and_eq_true] at h
    rw [Value.named_table, namedFields_eq_self hname h.2, ofList_eq_self hdistinct]

theorem namedItems_eq_self (hname : ∀ s, name (.text s) = s) :
    ∀ {items : List Value}, itemsHaveTextKeys items = true → namedItems name items = items
  | [], _ => rfl
  | v :: rest, h => by
    rw [itemsHaveTextKeys, Bool.and_eq_true] at h
    rw [namedItems, Value.named_eq_self hname h.1, namedItems_eq_self hname h.2]

theorem namedFields_eq_self (hname : ∀ s, name (.text s) = s) :
    ∀ {fields : List (Key × Value)}, fieldsHaveTextKeys fields = true →
      namedFields name fields = fields
  | [], _ => rfl
  | (k, v) :: rest, h => by
    rw [fieldsHaveTextKeys, Bool.and_eq_true, Bool.and_eq_true] at h
    obtain ⟨s, rfl⟩ := Key.exists_of_isText h.1.1
    rw [namedFields, Value.named_eq_self hname h.1.2, namedFields_eq_self hname h.2, hname]

end

end

end ModAlmanac
