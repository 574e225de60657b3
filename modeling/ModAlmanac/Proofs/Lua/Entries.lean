import ModAlmanac.Proofs.Lua.Literals
import ModAlmanac.Proofs.OrderedMap

/-!
# Entries of decoded tables

What is found in a table when its keys have been made texts. A field with a name that no other key is
written as is found under its name (`exists_lookup?_name`). A field without a key is found under its
number, which is its place among all fields, from zero on (`lookup?_number`).
-/

namespace ModAlmanac

open OrderedMap

theorem Key.sharp_text (s : String) : Sharp (Key.text s) := by
  constructor
  · intro k
    cases k <;> simp [BEq.beq, Key.same, Key.integer?]
  · intro k
    cases k <;> simp [BEq.beq, Key.same, Key.integer?]

end ModAlmanac

namespace ModAlmanac.Lua

open Number Text OrderedMap

/-! ## Keys as texts -/

theorem plain_natural (n : Nat) : (Key.int n).plain = String.ofList (Nat.toDigits 10 n) := by
  have hn : ¬ (n : Int) < 0 := Int.not_lt.2 (Int.natCast_nonneg n)
  change String.ofList (intText n) = _
  rw [intText, if_neg hn, Int.natAbs_natCast]

theorem plain_natural_inj {m n : Nat} (h : (Key.int m).plain = (Key.int n).plain) : m = n := by
  rw [plain_natural, plain_natural] at h
  have hdigits := congrArg digitsValue (String.ofList_injective h)
  rwa [digitsValue_toDigits, digitsValue_toDigits] at hdigits

/-- No name is a number. -/
theorem plain_natural_ne {name : List Char} (hname : IsFieldName name) (n : Nat) :
    (Key.int n).plain ≠ String.ofList name := by
  rw [plain_natural]
  intro h
  obtain ⟨d, more, hdigits, hd⟩ := exists_toDigits_cons n
  obtain ⟨c, rest, rfl, hc⟩ := hname.head
  rw [hdigits] at h
  obtain rfl : d = c := (List.cons.inj (String.ofList_injective h)).1
  have hany := (of_isNameStart hc).2.2.2.2.2
  rw [isAnyDigit, isDecimalDigit_of_isDigit hd] at hany
  cases hany

theorem textKeyedFields_eq_map (fields : List (Key × Value)) :
    textKeyedFields fields = fields.map fun e => (.text e.1.plain, textKeyed e.2) := by
  induction fields with
  | nil => rfl
  | cons e fields ih => rw [textKeyedFields, ih, List.map_cons]

theorem textKeyedItems_eq_map (items : List Value) : textKeyedItems items = items.map textKeyed := by
  induction items with
  | nil => rfl
  | cons v items ih => rw [textKeyedItems, ih, List.map_cons]

/-- An entry is found under its key's text if no other key has that text. -/
theorem lookup?_textKeyed {fields : List (Key × Value)} {key : Key} {v : Value}
    (hmem : (key, v) ∈ fields) (honly : ∀ e ∈ fields, e.1.plain = key.plain → e = (key, v)) :
    lookup? key.plain (ofList (textKeyedFields fields)) = some (textKeyed v) := by
  rw [textKeyedFields_eq_map]
  refine find?_ofList_of_forall (Key.sharp_text _)
    (List.mem_map_of_mem (f := fun e => (Key.text e.1.plain, textKeyed e.2)) hmem) ?_
  intro e he hkey
  obtain ⟨field, hfield, rfl⟩ := List.mem_map.1 he
  rw [honly field hfield (Key.text.inj hkey)]

theorem lookup?_textKeyed_eq_none {fields : List (Key × Value)} {s : String}
    (h : ∀ e ∈ fields, e.1.plain ≠ s) : lookup? s (ofList (textKeyedFields fields)) = none := by
  rw [textKeyedFields_eq_map]
  refine find?_ofList_eq_none (Key.sharp_text _) fun e he hkey => ?_
  obtain ⟨field, hfield, rfl⟩ := List.mem_map.1 he
  exact h field hfield (Key.text.inj hkey)

/-! ## Fields -/

theorem mem_entriesFrom {index : Nat} {row : List Slot} {e : Key × Value} :
    e ∈ entriesFrom index row ↔
      ∃ (i : Nat) (slot : Slot), row[i]? = some slot ∧
        e = (slot.1.getD (.int (index + i : Nat)), slot.2) := by
  induction row generalizing index with
  | nil => simp [entriesFrom]
  | cons slot row ih =>
    rw [entriesFrom, List.mem_cons, ih]
    constructor
    · rintro (rfl | ⟨i, found, hi, rfl⟩)
      · exact ⟨0, slot, rfl, rfl⟩
      · exact ⟨i + 1, found, hi, by rw [Nat.add_assoc, Nat.add_comm 1 i]⟩
    · rintro ⟨i, found, hi, rfl⟩
      cases i with
      | zero =>
        obtain rfl : slot = found := Option.some.inj hi
        exact .inl rfl
      | succ i => exact .inr ⟨i, found, hi, by rw [Nat.add_assoc, Nat.add_comm 1 i]⟩

theorem tableOf?_of_isNamed {row : List Slot} {e : Key × Value}
    (he : e ∈ ofList (entriesFrom 0 row)) (hnamed : Key.isNamed e.1 = true) :
    tableOf? row = some (.table (ofList (entriesFrom 0 row))) := by
  rw [tableOf?, closedTable?, if_pos (List.any_eq_true.2 ⟨e, he, hnamed⟩)]

/-- A table with a name in it is found to have the field under that name. -/
theorem exists_lookup?_name {front back : List Slot} {name : List Char} {v : Value}
    (hname : IsFieldName name)
    (hother : ∀ slot ∈ front ++ back, ∀ key, slot.1 = some key → key.plain ≠ String.ofList name) :
    ∃ fields,
      tableOf? (front ++ (some (.text (String.ofList name)), v) :: back) = some (.table fields) ∧
        lookup? (String.ofList name) (ofList (textKeyedFields fields)) = some (textKeyed v) := by
  generalize hrow : front ++ (some (Key.text (String.ofList name)), v) :: back = row
  have honly : ∀ e ∈ entriesFrom 0 row, e.1.plain = String.ofList name →
      e = (.text (String.ofList name), v) := by
    intro e he hplain
    obtain ⟨i, ⟨key, w⟩, hslot, rfl⟩ := mem_entriesFrom.1 he
    cases key with
    | none => exact absurd hplain (plain_natural_ne hname _)
    | some key =>
      have hmem : (some key, w) ∈ front ++ (some (Key.text (String.ofList name)), v) :: back :=
        hrow ▸ List.mem_of_getElem? hslot
      rw [List.mem_append, List.mem_cons] at hmem
      rcases hmem with hmem | heq | hmem
      · exact absurd hplain (hother _ (List.mem_append_left _ hmem) key rfl)
      · cases heq
        rfl
      · exact absurd hplain (hother _ (List.mem_append_right _ hmem) key rfl)
  have hentry : (Key.text (String.ofList name), v) ∈ entriesFrom 0 row :=
    mem_entriesFrom.2 ⟨front.length, (some (.text (String.ofList name)), v), by simp [← hrow], rfl⟩
  have hsharp := Key.sharp_text (String.ofList name)
  have hfound := find?_ofList_of_forall hsharp hentry fun e he hkey => by
    rw [honly e he (by rw [hkey]; rfl)]
  obtain ⟨⟨key, w⟩, hmem, hkey, rfl⟩ := exists_mem_of_find? hfound
  obtain rfl := (hsharp.left key).1 hkey
  have honlyMap : ∀ e ∈ ofList (entriesFrom 0 row), e.1.plain = String.ofList name →
      e = (.text (String.ofList name), w) :=
    only_ofList (p := fun key : Key => key.plain = String.ofList name)
      (fun key hkey => by rw [← (hsharp.right key).1 hkey]; rfl) honly
  exact ⟨_, tableOf?_of_isNamed hmem rfl, lookup?_textKeyed hmem honlyMap⟩

section

variable {fields : List Field}
  (hnames : ∀ field ∈ fields, ∀ name, field.1 = some name → IsFieldName name)

include hnames

/-- The text of a number is the key of the field without a key at that place, if there is one. -/
theorem eq_of_plain_number {n : Nat} {e : Key × Value}
    (he : e ∈ entriesFrom 0 (fields.map Field.slot)) (hplain : e.1.plain = (Key.int n).plain) :
    fields[n]? = some (none, e.2) ∧ e.1 = .int n := by
  obtain ⟨i, slot, hslot, rfl⟩ := mem_entriesFrom.1 he
  rw [List.getElem?_map, Option.map_eq_some_iff] at hslot
  obtain ⟨⟨name, v⟩, hfield, rfl⟩ := hslot
  cases name with
  | none =>
    obtain rfl : 0 + i = n := plain_natural_inj hplain
    rw [Nat.zero_add]
    exact ⟨hfield, rfl⟩
  | some name =>
    exact absurd hplain.symm
      (plain_natural_ne (hnames _ (List.mem_of_getElem? hfield) name rfl) n)

/-- Fields without keys are found under their numbers, and nothing else is. -/
theorem lookup?_number (n : Nat) :
    lookup? (Key.int n).plain (ofList (textKeyedFields (entriesFrom 0 (fields.map Field.slot)))) =
      match fields[n]? with
      | some (none, v) => some (textKeyed v)
      | _ => none := by
  split
  · next v hfield =>
    refine lookup?_textKeyed (mem_entriesFrom.2 ⟨n, (none, v), ?_, ?_⟩)
      fun e he hplain => ?_
    · rw [List.getElem?_map, hfield]
      rfl
    · rw [Nat.zero_add]
      rfl
    · obtain ⟨hfound, hkey⟩ := eq_of_plain_number hnames he hplain
      rw [hfield] at hfound
      obtain ⟨key, w⟩ := e
      cases hfound
      exact congrArg (·, w) hkey
  · next hnone =>
    exact lookup?_textKeyed_eq_none fun e he hplain =>
      hnone e.2 (eq_of_plain_number hnames he hplain).1

end

/-- Fields with different names have different keys. -/
theorem distinct_entriesFrom_fields (index : Nat) {fields : List Field}
    (h : (fields.filterMap Prod.fst).Nodup) :
    Distinct (entriesFrom index (fields.map Field.slot)) := by
  induction fields generalizing index with
  | nil => exact List.Pairwise.nil
  | cons field fields ih =>
    obtain ⟨name, v⟩ := field
    have htail : (fields.filterMap Prod.fst).Nodup :=
      h.sublist ((List.sublist_cons_self _ _).filterMap _)
    refine List.pairwise_cons.2 ⟨fun e he => ?_, ih (index + 1) htail⟩
    obtain ⟨i, slot, hslot, rfl⟩ := mem_entriesFrom.1 he
    rw [List.getElem?_map, Option.map_eq_some_iff] at hslot
    obtain ⟨⟨other, w⟩, hother, rfl⟩ := hslot
    cases name with
    | none =>
      cases other with
      | none =>
        change ((index : Int) == ((index + 1 + i : Nat) : Int)) = false
        simp
        omega
      | some other => rfl
    | some name =>
      cases other with
      | none => rfl
      | some other =>
        have hnew : name ∉ fields.filterMap Prod.fst := (List.nodup_cons.1 h).1
        change (String.ofList name == String.ofList other) = false
        rw [beq_eq_false_iff_ne]
        intro heq
        refine hnew (List.mem_filterMap.2 ⟨(some other, w), List.mem_of_getElem? hother, ?_⟩)
        rw [String.ofList_injective heq]

end ModAlmanac.Lua
