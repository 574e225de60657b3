import ModAlmanac.Proofs.Lua.Entries

/-!
# A field among others

What one more field does to a literal table. Its source is cut at the place of the field (`Frame`),
so that the source with the field (`Frame.put`) and the one without it (`Frame.without`) are both
literal tables around the same others.

A field whose key no other one has is found under that key, and the others keep their keys and
values, but for the fields without a key behind it: these are numbered by their places among all
fields (`amid_textTable`).
-/

namespace ModAlmanac.Lua

open Number Text OrderedMap

/-! ## Sources with a place for a field -/

/-- Fields with a separator behind each. -/
inductive LiteralFields : List Slot → List Char → Prop
  | nil : LiteralFields [] []
  | cons {key : Option Key} {v : Value} {front s behind t : List Char} {c : Char} {row : List Slot}
      (hfront : Commented front) (h : LiteralField key v s) (hbehind : Commented behind)
      (hc : c = ',' ∨ c = ';') (hrow : LiteralFields row t) :
      LiteralFields ((key, v) :: row) (front ++ (s ++ (behind ++ c :: t)))

/-- The text around the place of a field: the fields in front of it with their separators, the gaps on
both sides of it, the separator behind it, and the fields behind that. -/
structure Frame where
  before : List Char
  lead : List Char
  trail : List Char
  separator : List Char
  behind : List Char

/-- The row with a field in its place. -/
def Frame.put (f : Frame) (field : List Char) : List Char :=
  f.before ++ (f.lead ++ (field ++ (f.trail ++ (f.separator ++ f.behind))))

/-- The row without a field in that place. -/
def Frame.without (f : Frame) : List Char :=
  f.before ++ (f.lead ++ (f.trail ++ f.behind))

/-- The fields in front of a place and behind it. Without a separator nothing stands behind it. -/
structure Frame.Holds (f : Frame) (front back : List Slot) : Prop where
  before : LiteralFields front f.before
  lead : Commented f.lead
  trail : Commented f.trail
  behind : f.separator = [] ∧ f.behind = [] ∧ back = [] ∨
    (f.separator = [','] ∨ f.separator = [';']) ∧ LiteralRow back f.behind

/-- What stands in front of a field's value. -/
inductive FieldHead : Option Key → List Char → Prop
  | item : FieldHead none []
  | named {name blank gap : List Char} (hname : IsFieldName name)
      (hblank : ∀ c ∈ blank, isBlank c = true) (hgap : Commented gap) :
      FieldHead (some (.text (String.ofList name))) (name ++ blank ++ '=' :: gap)
  | keyed {key : Key} {first : Value} {bracket behind gap : List Char}
      (hbracket : Scalar first bracket) (hkey : first.key? = some key) (hbehind : Commented behind)
      (hgap : Commented gap) : FieldHead (some key) ('[' :: bracket ++ ']' :: behind ++ '=' :: gap)

theorem FieldHead.field {key : Option Key} {head s : List Char} {v : Value} (h : FieldHead key head)
    (hv : Literal v s) : LiteralField key v (head ++ s) := by
  cases h with
  | item => exact .item hv
  | named hname hblank hgap =>
    have hfield := LiteralField.named hname hblank hgap hv
    simpa using hfield
  | keyed hbracket hkey hbehind hgap =>
    have hfield := LiteralField.keyed hbracket hkey hbehind hgap hv
    simpa using hfield

theorem commented_of_blanks {s : List Char} (h : ∀ c ∈ s, isBlank c = true) : Commented s := by
  induction s with
  | nil => exact .nil
  | cons c s ih =>
    obtain ⟨hc, hs⟩ := List.forall_mem_cons.1 h
    exact .blank hc (ih hs)

theorem Commented.append {s t : List Char} (hs : Commented s) (ht : Commented t) :
    Commented (s ++ t) := by
  induction hs with
  | nil => exact ht
  | blank hc _ ih => exact .blank hc ih
  | comment htext _ ih =>
    rw [List.cons_append, List.cons_append, List.append_assoc, List.cons_append]
    exact .comment htext ih

/-- A gap can stand in front of a row. -/
theorem LiteralRow.gap {gap s : List Char} {row : List Slot} (hgap : Commented gap)
    (h : LiteralRow row s) : LiteralRow row (gap ++ s) := by
  cases h with
  | nil h => exact .nil (hgap.append h)
  | last hfront h hv hbehind =>
    rw [← List.append_assoc]
    exact .last (hgap.append hfront) h hv hbehind
  | lastNil hfront hbehind =>
    rw [← List.append_assoc]
    exact .lastNil (hgap.append hfront) hbehind
  | more hfront h hbehind hc hrow =>
    rw [← List.append_assoc]
    exact .more (hgap.append hfront) h hbehind hc hrow

theorem LiteralFields.append {front back : List Slot} {s t : List Char} (h : LiteralFields front s)
    (hback : LiteralRow back t) : LiteralRow (front ++ back) (s ++ t) := by
  induction h with
  | nil => exact hback
  | cons hfront h hbehind hc _ ih =>
    rw [List.append_assoc, List.append_assoc, List.append_assoc, List.cons_append]
    exact .more hfront h hbehind hc ih

section

variable {f : Frame} {front back : List Slot} (h : f.Holds front back)

include h

theorem Frame.Holds.put {key : Option Key} {v : Value} {s : List Char} (hs : LiteralField key v s)
    (hv : key = none → v ≠ .nil) : LiteralRow (front ++ (key, v) :: back) (f.put s) := by
  refine h.before.append ?_
  rcases h.behind with ⟨hseparator, hbehind, rfl⟩ | ⟨hseparator, hrow⟩
  · rw [hseparator, hbehind, List.append_nil, List.append_nil]
    exact .last h.lead hs hv h.trail
  · rcases hseparator with hc | hc
    · rw [hc]
      exact .more h.lead hs h.trail (.inl rfl) hrow
    · rw [hc]
      exact .more h.lead hs h.trail (.inr rfl) hrow

theorem Frame.Holds.without : LiteralRow (front ++ back) f.without := by
  refine h.before.append (.gap h.lead ?_)
  rcases h.behind with ⟨-, hbehind, rfl⟩ | ⟨-, hrow⟩
  · rw [hbehind, List.append_nil]
    exact .nil h.trail
  · exact .gap h.trail hrow

/-- What stands behind the place of a field can stand behind its value. -/
theorem Frame.Holds.follows (rest : List Char) :
    Follows (f.trail ++ (f.separator ++ f.behind) ++ '}' :: rest) := by
  rw [List.append_assoc]
  refine Follows.commented h.trail ?_
  rcases h.behind with ⟨hseparator, hbehind, -⟩ | ⟨hc | hc, -⟩
  · rw [hseparator, hbehind]
    exact follows_cons (by decide) rest
  · rw [hc]
    exact follows_cons (by decide) _
  · rw [hc]
    exact follows_cons (by decide) _

end

/-- The place in front of a row. -/
def Frame.first (row : List Char) : Frame :=
  { before := [], lead := [], trail := [], separator := [','], behind := row }

theorem Frame.holds_first {back : List Slot} {row : List Char} (h : LiteralRow back row) :
    (first row).Holds [] back where
  before := .nil
  lead := .nil
  trail := .nil
  behind := .inr ⟨.inl rfl, h⟩

/-- A field with a whole number behind its name. -/
theorem literalField_whole {name blank gap digits : List Char} (hname : IsFieldName name)
    (hblank : ∀ c ∈ blank, isBlank c = true) (hgap : ∀ c ∈ gap, isBlank c = true)
    (hne : digits ≠ []) (hdigits : ∀ c ∈ digits, isDecimalDigit c = true) :
    LiteralField (some (.text (String.ofList name))) (.int (digitsValue digits))
      (name ++ blank ++ '=' :: (gap ++ digits)) :=
  .named hname hblank (commented_of_blanks hgap) (.scalar (Scalar.whole false hne hdigits))

theorem literalRow_two : LiteralRow [(some (.text "y"), .int 2)] ['y', '=', '2'] := by
  have hname : IsFieldName ['y'] := isFieldName_of_forall (by decide) (by decide) (by decide)
  have hfield := @literalField_whole ['y'] [] [] ['2'] hname (List.forall_mem_nil _)
    (List.forall_mem_nil _) (by decide) (List.forall_mem_singleton.2 (by decide))
  exact .last .nil hfield (fun h => nomatch h) .nil

/-! ## Sources written anew -/

theorem LiteralFields.exists_text {row : List Slot} {s : List Char} (h : LiteralFields row s) :
    ∃ text, ∀ rest, Yields false s text false rest := by
  induction h with
  | nil => exact ⟨[], yields_nil false⟩
  | cons hfront h hbehind hc _ ih =>
    obtain ⟨front, -, hfrontYields⟩ := exists_blanks hfront
    obtain ⟨text, hyields, -⟩ := h.exists_text
    obtain ⟨behind, -, hbehindYields⟩ := exists_blanks hbehind
    obtain ⟨more, hmore⟩ := ih
    exact ⟨_, fun rest =>
      yields_more false hfrontYields hyields hbehind hbehindYields hc (hmore rest)⟩

/-- What stands in front of a value is written anew without the value. -/
theorem FieldHead.exists_text {key : Option Key} {head : List Char} (h : FieldHead key head) :
    ∃ text, ∀ rest, rest.head? ≠ some '=' → Yields false head text false rest := by
  cases h with
  | item => exact ⟨[], fun rest _ => yields_nil false rest⟩
  | @named name blank gap hname hblank hgap =>
    obtain ⟨blanks, -, hgapYields⟩ := exists_blanks hgap
    refine ⟨name ++ blank ++ '=' :: (blanks ++ []), fun rest hrest => ?_⟩
    have hnamed := @yields_named false _ blanks [] [] rest _ _ hname hblank
      (hgap.head?_ne_sign hrest) (hgapYields false _) (yields_nil false rest)
    rwa [List.append_nil] at hnamed
  | keyed hbracket hkey hbehind hgap =>
    obtain ⟨bracketText, hbracketYields, -⟩ := hbracket.exists_text
    obtain ⟨behindText, -, hbehindYields⟩ := exists_blanks hbehind
    obtain ⟨blanks, -, hgapYields⟩ := exists_blanks hgap
    refine ⟨'[' :: bracketText ++ ']' :: behindText ++ '=' :: (blanks ++ []), fun rest hrest => ?_⟩
    have hkeyed := @yields_keyed false _ _ _ _ _ blanks [] [] rest hbracketYields hbehindYields
      (hgap.head?_ne_sign hrest) (hgapYields false _) (yields_nil false rest)
    rwa [List.append_nil] at hkeyed

/-! ## Entries -/

theorem entriesFrom_append (index : Nat) (front back : List Slot) :
    entriesFrom index (front ++ back) =
      entriesFrom index front ++ entriesFrom (index + front.length) back := by
  induction front generalizing index with
  | nil => rfl
  | cons slot front ih =>
    obtain ⟨key, v⟩ := slot
    rw [List.cons_append, entriesFrom, ih, entriesFrom, List.cons_append, List.length_cons,
      Nat.add_right_comm, Nat.add_assoc]

/-- Numbers are given to fields without a key only. -/
theorem entriesFrom_of_keyed {row : List Slot} (h : ∀ slot ∈ row, slot.1 ≠ none) (i j : Nat) :
    entriesFrom i row = entriesFrom j row := by
  induction row generalizing i j with
  | nil => rfl
  | cons slot row ih =>
    obtain ⟨key, v⟩ := slot
    obtain ⟨hslot, hrow⟩ := List.forall_mem_cons.1 h
    obtain ⟨key, rfl⟩ := Option.ne_none_iff_exists'.1 hslot
    rw [entriesFrom, entriesFrom, ih hrow (i + 1) (j + 1)]
    rfl

/-- The fields of a table with its keys as texts. -/
def textTable (entries : List (Key × Value)) : List (Key × Value) :=
  ofList (textKeyedFields (ofList entries))

/-- The key of a field, which is its number if it has no other. -/
def slotKey (front : List Slot) (key : Option Key) : Key :=
  key.getD (.int front.length)

/-- The entries of the fields around a place. -/
def entriesAround (front back : List Slot) : List (Key × Value) :=
  entriesFrom 0 front ++ entriesFrom (front.length + 1) back

/-- A key that is new behind the entries in front of it and that none behind it has, as a key and as a
text. -/
structure NewKey (key : Key) (front back : List (Key × Value)) : Prop where
  front : ∀ e ∈ front, e.1.plain ≠ key.plain ∧ (e.1 == key) = false
  back : ∀ e ∈ back, e.1.plain ≠ key.plain ∧ (key == e.1) = false

/-- The fields of a table that has a field among others: the field is found under its key, and the
others are as they would be around an empty place. -/
structure Amid (front back : List Slot) (key : Key) (v : Value) (fields : List (Key × Value)) :
    Prop where
  found : lookup? key.plain fields = some v
  others : fields.filter (fun e => !(e.1 == .text key.plain)) =
    textTable (entriesAround front back)

/-- The entries under one text can be taken out of a table before its keys are made texts. -/
theorem filter_textTable (entries : List (Key × Value)) (s : String) :
    (textTable entries).filter (fun e => !(e.1 == .text s)) =
      ofList (textKeyedFields ((ofList entries).filter fun e => decide (e.1.plain ≠ s))) := by
  have hsharp := Key.sharp_text s
  have hsame : ∀ k k' : Key, (k == k') = true → (!(k == .text s)) = !(k' == .text s) := by
    intro k k' hk
    congr 1
    rw [Bool.eq_iff_iff, hsharp.left, hsharp.left]
    constructor
    · rintro rfl
      exact ((hsharp.right k').1 hk).symm
    · rintro rfl
      exact (hsharp.left k).1 hk
  rw [textTable, filter_ofList (p := fun k : Key => !(k == .text s)) hsame, textKeyedFields_eq_map,
    textKeyedFields_eq_map, List.filter_map]
  congr 2
  refine List.filter_congr fun e _ => ?_
  rw [Bool.eq_iff_iff, Function.comp_apply, Bool.not_eq_true', decide_eq_true_iff,
    ← Bool.not_eq_true, hsharp.left]
  exact not_congr ⟨Key.text.inj, congrArg Key.text⟩

/-- A field with a new key is found under it, and leaves the others alone. -/
theorem amid_textTable {front back : List Slot} {key : Option Key}
    (h : NewKey (slotKey front key) (entriesFrom 0 front) (entriesFrom (front.length + 1) back))
    (v : Value) :
    Amid front back (slotKey front key) (textKeyed v)
      (textTable (entriesFrom 0 (front ++ (key, v) :: back))) := by
  have hentries : entriesFrom 0 (front ++ (key, v) :: back) =
      entriesFrom 0 front ++ (slotKey front key, v) :: entriesFrom (front.length + 1) back := by
    rw [entriesFrom_append, Nat.zero_add, entriesFrom]
    rfl
  generalize slotKey front key = own at h hentries
  have hkept : ∀ {k : Key}, k.plain ≠ own.plain → decide (k.plain ≠ own.plain) = true :=
    decide_eq_true
  obtain ⟨hothers, hown⟩ := @filter_ofList_among _ _ _ (fun k => decide (k.plain ≠ own.plain)) own v
    _ _ (decide_eq_false fun hne => hne rfl)
    (fun e he => ⟨hkept (h.front e he).1, (h.front e he).2⟩)
    (fun e he => ⟨hkept (h.back e he).1, (h.back e he).2⟩)
  rw [← hentries] at hothers hown
  have honly : ∀ e, e ∈ ofList (entriesFrom 0 (front ++ (key, v) :: back)) ∧
      e.1.plain = own.plain ↔ e = (own, v) := by
    intro e
    rw [← List.mem_singleton (a := e), ← hown, List.mem_filter, Bool.not_eq_true',
      decide_eq_false_iff_not, not_not]
  exact {
    found := lookup?_textKeyed ((honly _).2 rfl).1 fun e he hplain => (honly e).1 ⟨he, hplain⟩
    others := by rw [filter_textTable, hothers]; rfl }

/-- Fields behind a place that all have keys are where they would be without it. -/
theorem Amid.others_of_keyed {front back : List Slot} {key : Key} {v : Value}
    {fields : List (Key × Value)} (h : Amid front back key v fields)
    (hback : ∀ slot ∈ back, slot.1 ≠ none) :
    fields.filter (fun e => !(e.1 == .text key.plain)) = textTable (entriesFrom 0 (front ++ back)) := by
  rw [h.others, entriesAround, entriesFrom_append, Nat.zero_add,
    entriesFrom_of_keyed hback (front.length + 1) front.length]

/-! ## Decoded tables -/

theorem eq_of_closedTable? {fields found : List (Key × Value)}
    (h : closedTable? fields = some (.table found)) : found = fields := by
  unfold closedTable? at h
  split at h
  · cases h
    rfl
  · split at h
    · cases h
    · split at h
      · cases h
      · cases h
        rfl

/-- Fields of which none has the key nil make a list or a table. -/
theorem exists_tableOf? {row : List Slot} (h : ∀ slot ∈ row, slot.1 ≠ some .nil) :
    ∃ w, tableOf? row = some w := by
  have hkeys : ∀ e ∈ entriesFrom 0 row, Key.isNil e.1 = false := by
    intro e he
    obtain ⟨i, slot, hslot, rfl⟩ := mem_entriesFrom.1 he
    have hne := h slot (List.mem_of_getElem? hslot)
    rcases slot with ⟨_ | key, v⟩
    · rfl
    · cases key with
      | nil => exact absurd rfl hne
      | _ => rfl
  have hnone : (ofList (entriesFrom 0 row)).any (fun e => Key.isNil e.1) = false := by
    refine List.any_eq_false.2 fun e he => ?_
    have hkey := (forall_mem_ofList (P := fun k => Key.isNil k = false) (Q := fun _ : Value => True)
      (fun e he => ⟨hkeys e he, trivial⟩) e he).1
    rw [hkey]
    exact Bool.false_ne_true
  unfold tableOf? closedTable?
  rw [hnone, Bool.false_and, if_neg Bool.false_ne_true]
  split
  · exact ⟨_, rfl⟩
  · split
    · exact ⟨_, rfl⟩
    · exact ⟨_, rfl⟩

/-- A field with a text as its key makes a keyed table. -/
theorem tableOf?_of_text {row : List Slot} {t : String} {v : Value}
    (h : (some (.text t), v) ∈ row) :
    tableOf? row = some (.table (ofList (entriesFrom 0 row))) := by
  obtain ⟨i, hi⟩ := List.mem_iff_getElem?.1 h
  have hentry : (Key.text t, v) ∈ entriesFrom 0 row := mem_entriesFrom.2 ⟨i, _, hi, rfl⟩
  have hsharp := Key.sharp_text t
  have hfilter : (Key.text t, v) ∈ (entriesFrom 0 row).filter (·.1 == .text t) :=
    List.mem_filter.2 ⟨hentry, (hsharp.left _).2 rfl⟩
  obtain ⟨last, hlast⟩ : ∃ last, ((entriesFrom 0 row).filter (·.1 == .text t)).getLast? = some last :=
    ⟨_, List.getLast?_eq_some_getLast (List.ne_nil_of_mem hfilter)⟩
  have hfound := find?_union_of_sharp hsharp [] (entriesFrom 0 row)
  rw [hlast] at hfound
  obtain ⟨e, he, hkey, -⟩ := exists_mem_of_find? hfound
  exact tableOf?_of_isNamed he (by rw [(hsharp.left e.1).1 hkey]; rfl)

/-- The value of fields without keys. Without fields it is a table. -/
def itemsValue (items : List Value) : Value :=
  if items.isEmpty then .table [] else .list items

theorem tableOf?_items (items : List Value) :
    tableOf? (items.map (none, ·)) = some (itemsValue items) := by
  rw [tableOf?, ofList_eq_self (distinct_entriesFrom_items 0 items)]
  cases items with
  | nil => rfl
  | cons v items => exact closedTable?_items (List.cons_ne_nil v items)

theorem textKeyed_itemsValue (items : List Value) :
    textKeyed (itemsValue items) = itemsValue (items.map textKeyed) := by
  cases items with
  | nil => rfl
  | cons v items => exact congrArg Value.list (textKeyedItems_eq_map (v :: items))

/-- The fields of a keyed table are what its entries make. -/
theorem eq_textTable {row : List Slot} {v : Value} {fields : List (Key × Value)}
    (h : tableOf? row = some v) (hv : textKeyed v = .table fields) :
    fields = textTable (entriesFrom 0 row) := by
  cases v with
  | table found =>
    rw [textTable, ← eq_of_closedTable? h]
    exact (Value.table.inj hv).symm
  | list items => cases hv
  | _ => cases hv

/-- What a table gains by a field: decoded to `w`, next to the table without it, decoded to `u`. -/
structure Gains (front back : List Slot) (key : Option Key) (v u w : Value) : Prop where
  /-- A text among the keys makes a keyed table of it. -/
  keyed : ∀ slot ∈ front ++ (key, v) :: back, (∃ t, slot.1 = some (.text t)) →
    ∃ fields, w = .table fields
  /-- In a keyed table a field with a key of its own is added to the others. -/
  table : ∀ fields, w = .table fields →
    NewKey (slotKey front key) (entriesFrom 0 front) (entriesFrom (front.length + 1) back) →
    Amid front back (slotKey front key) (textKeyed v) fields
  /-- If nothing is numbered behind the field, the others are as they are without it. -/
  others : ∀ fields others, w = .table fields → u = .table others →
    NewKey (slotKey front key) (entriesFrom 0 front) (entriesFrom (front.length + 1) back) →
    (∀ slot ∈ back, slot.1 ≠ none) →
    fields.filter (fun e => !(e.1 == .text (slotKey front key).plain)) = others
  /-- An item is put between the others. -/
  items : key = none → ∀ before behind : List Value, front = before.map (none, ·) →
    back = behind.map (none, ·) →
    u = itemsValue ((before ++ behind).map textKeyed) ∧
      w = .list (before.map textKeyed ++ textKeyed v :: behind.map textKeyed)

theorem gains_of_tableOf? {front back : List Slot} {key : Option Key} {v u w : Value}
    (hu : tableOf? (front ++ back) = some u) (hw : tableOf? (front ++ (key, v) :: back) = some w) :
    Gains front back key v (textKeyed u) (textKeyed w) where
  keyed := by
    rintro ⟨_, x⟩ hslot ⟨t, rfl⟩
    rw [tableOf?_of_text hslot] at hw
    cases hw
    exact ⟨_, rfl⟩
  table := by
    intro fields hfields hnew
    rw [eq_textTable hw hfields]
    exact amid_textTable hnew v
  others := by
    intro fields others hfields hothers hnew hback
    rw [eq_textTable hw hfields, eq_textTable hu hothers]
    exact (amid_textTable hnew v).others_of_keyed hback
  items := by
    rintro rfl before behind rfl rfl
    have hitems := tableOf?_items (before ++ v :: behind)
    rw [List.map_append, List.map_cons, hw] at hitems
    rw [← List.map_append, tableOf?_items] at hu
    cases hu
    cases hitems
    have hmap : (before ++ v :: behind).map textKeyed =
        before.map textKeyed ++ textKeyed v :: behind.map textKeyed := by
      rw [List.map_append, List.map_cons]
    rw [textKeyed_itemsValue, textKeyed_itemsValue, hmap]
    exact ⟨rfl, if_neg (by simp)⟩

end ModAlmanac.Lua
