import ModAlmanac.Proofs.Expr.Lookup
import ModAlmanac.Proofs.Lua.Entries

/-!
# Places in the tables of a config

A config can hold a table whose fields have names or no keys, in any order. An expression that asks
for a place of it counts from one, as the source language does, and so does the reader of a list. But
a table with a name in it is no list: its decoder numbers the fields from zero on, those with names
among them. So a place leads to the item that `placed` tells (`evaluate_place`). It is the right one
in a table without names (`placed_of_no_name`), and where exactly one field in front of the item has
a name (`placed_eq_iff`).
-/

namespace ModAlmanac

open ModAlmanac.Expr Lua Number OrderedMap Text

/-! ## Items -/

/-- The values of the fields without keys. -/
def itemsOf (fields : List Field) : List Value :=
  fields.filterMap fun field => if field.1.isNone then some field.2 else none

/-- What a place of a table leads to, where the place is told by the number of places in front of
it. -/
def placed (fields : List Field) (before : Nat) : Value :=
  if fields.all (·.1.isNone) then (fields[before]?.map (·.2)).getD .nil
  else
    match fields[before + 1]? with
    | some (none, v) => v
    | _ => .nil

section

variable {fields : List Field} (h : fields.all (·.1.isNone) = true)

include h

theorem itemsOf_of_no_name : itemsOf fields = fields.map (·.2) := by
  rw [itemsOf, ← List.filterMap_eq_map]
  exact List.filterMap_congr fun field hfield => if_pos (List.all_eq_true.1 h field hfield)

theorem eq_map_of_no_name : fields = (fields.map (·.2)).map (none, ·) := by
  rw [List.map_map]
  refine (List.map_id fields).symm.trans (List.map_congr_left fun field hfield => ?_)
  obtain ⟨name, v⟩ := field
  obtain rfl : name = none := Option.isNone_iff_eq_none.1 (List.all_eq_true.1 h _ hfield)
  rfl

/-- In a table without names every item is at its place. -/
theorem placed_of_no_name (before : Nat) :
    placed fields before = (itemsOf fields)[before]?.getD .nil := by
  rw [placed, if_pos h, itemsOf_of_no_name h, List.getElem?_map]

end

theorem mem_itemsOf {fields : List Field} {v : Value} (h : (none, v) ∈ fields) :
    v ∈ itemsOf fields :=
  List.mem_filterMap.2 ⟨(none, v), h, rfl⟩

/-- In a table with a name an item is found at its place exactly if one name stands in front of it.
What else is found there is another item or nil. -/
theorem placed_eq_iff {front back : List Field} {v : Value}
    (hnamed : (front ++ (none, v) :: back).all (·.1.isNone) = false) (hv : v ≠ .nil)
    (hitems : (itemsOf (front ++ (none, v) :: back)).Nodup) :
    placed (front ++ (none, v) :: back) (itemsOf front).length = v ↔
      front.length = (itemsOf front).length + 1 := by
  rw [placed, hnamed, if_neg Bool.false_ne_true]
  constructor
  · intro h
    split at h
    · next w hfield =>
      subst h
      have hsplit : itemsOf (front ++ (none, w) :: back) = itemsOf front ++ w :: itemsOf back := by
        simp [itemsOf]
      rw [hsplit, List.nodup_middle, List.nodup_cons, List.mem_append, not_or] at hitems
      obtain ⟨⟨hfront, hback⟩, -⟩ := hitems
      rcases Nat.lt_trichotomy ((itemsOf front).length + 1) front.length with hlt | heq | hgt
      · rw [List.getElem?_append_left hlt] at hfield
        exact absurd (mem_itemsOf (List.mem_of_getElem? hfield)) hfront
      · exact heq.symm
      · obtain ⟨i, hi⟩ : ∃ i, (itemsOf front).length + 1 - front.length = i + 1 :=
          ⟨(itemsOf front).length - front.length, by omega⟩
        rw [List.getElem?_append_right hgt.le, hi, List.getElem?_cons_succ] at hfield
        exact absurd (mem_itemsOf (List.mem_of_getElem? hfield)) hback
    · exact absurd h.symm hv
  · intro h
    rw [← h]
    simp

/-! ## Lookup -/

/-- A place leads into a decoded table as `placed` tells. -/
theorem child?_place {fields : List Field} {v : Value}
    (hnames : ∀ field ∈ fields, ∀ name, field.1 = some name → IsFieldName name)
    (hdistinct : (fields.filterMap Prod.fst).Nodup)
    (hv : tableOf? (fields.map Field.slot) = some v) (before : Nat) :
    ((textKeyed v).child? (.place before)).getD .nil = textKeyed (placed fields before) := by
  cases hall : fields.all (·.1.isNone) with
  | true =>
    rw [placed, if_pos hall, ← List.getElem?_map]
    have hfields := eq_map_of_no_name hall
    generalize fields.map (·.2) = items at hfields ⊢
    subst hfields
    rw [tableOf?, slots_items, ofList_eq_self (distinct_entriesFrom_items 0 items)] at hv
    rcases items with _ | ⟨first, items⟩
    · obtain rfl : .table [] = v := Option.some.inj hv
      rfl
    · rw [closedTable?_items (List.cons_ne_nil _ _)] at hv
      obtain rfl := Option.some.inj hv
      rw [textKeyed, textKeyedItems_eq_map, Value.child?, List.getElem?_map]
      cases (first :: items)[before]? <;> rfl
  | false =>
    obtain ⟨field, hfield, hname⟩ := List.all_eq_false.1 hall
    obtain ⟨i, hi⟩ := List.mem_iff_getElem?.1 hfield
    obtain ⟨name, hsome⟩ : ∃ name, field.1 = some name := by
      simpa [Option.isNone_iff_eq_none, Option.ne_none_iff_exists'] using hname
    have hentries := ofList_eq_self (distinct_entriesFrom_fields 0 hdistinct)
    have hmem : (Key.text (String.ofList name), field.2) ∈
        ofList (entriesFrom 0 (fields.map Field.slot)) := by
      rw [hentries]
      refine mem_entriesFrom.2 ⟨i, field.slot, by rw [List.getElem?_map, hi]; rfl, ?_⟩
      rw [Field.slot, hsome]
      rfl
    rw [tableOf?_of_isNamed hmem rfl, hentries] at hv
    obtain rfl := Option.some.inj hv
    have hplace : (Segment.place before).key = (Key.int (before + 1 : Nat)).plain :=
      (plain_natural _).symm
    rw [textKeyed, Value.child?, hplace, lookup?_number hnames, placed, hall,
      if_neg Bool.false_ne_true]
    rcases fields[before + 1]? with _ | ⟨_ | _, _⟩ <;> rfl

/-- The config of a declaration is found to have a table under its name. -/
theorem Source.lookup?_decodeConfig {body source name : List Char} {front back : List Slot}
    {v : Value} (hbody : configSource? body = some ('{' :: source ++ ['}']))
    (hconfig : LiteralRow (front ++ (some (.text (String.ofList name)), v) :: back) source)
    (hname : IsFieldName name)
    (hother : ∀ slot ∈ front ++ back, ∀ key, slot.1 = some key → key.plain ≠ String.ofList name) :
    lookup? (String.ofList name) (decodeConfig body) = some (textKeyed v) := by
  obtain ⟨fields, htable, hfound⟩ := exists_lookup?_name (v := v) hname hother
  rw [decodeConfig, hbody]
  dsimp only
  rw [decodeTable_literal hconfig htable, textKeyed]
  exact hfound

/-! ## Expressions -/

theorem evaluate_indexed (name index : Expr.Word) (e : Entity) (context : Context) :
    evaluate ("card.ability.".toList ++ name.text ++ '[' :: index.text ++ [']']) e context =
      (Scope.of e context).resolve Root.card.name
        ("ability".toList :: [name.text, index.text]) := by
  let steps : List (Expr.Word × Spelling) :=
    [(abilityWord, .dotted), (name, .dotted), (index, .plain .empty .empty)]
  have hroot : "card.ability.".toList = "card".toList ++ '.' :: ("ability".toList ++ ['.']) := by
    decide
  have htext : "card.ability.".toList ++ name.text ++ '[' :: index.text ++ [']'] =
      pathText .card steps := by
    rw [hroot]
    simp [pathText, stepsText, steps, Spelling.text, Root.name]
  rw [htext, evaluate_pathText, segmentsOf_tight (by simp [steps, Spelling.trailing])]
  rfl

def placeText (name : List Char) (before : Nat) : List Char :=
  "card.ability.".toList ++ name ++ '[' :: Nat.toDigits 10 (before + 1) ++ [']']

/-- A name and a place behind the ability of a card lead into its config. -/
theorem evaluate_placeText {name : List Char} (hname : IsFieldName name) (before : Nat) (e : Entity)
    (context : Context) :
    evaluate (placeText name before) e context =
      .ok (((lookup? (String.ofList name) e.config).bind (·.child? (.place before))).getD .nil) := by
  obtain ⟨c, more, hcons, hc⟩ := hname.head
  let word : Expr.Word :=
    { text := name
      ne_nil := by rw [hcons]; exact List.cons_ne_nil _ _
      isWordChar := fun c hc => isWordChar_of_isAlphanum (hname.isNameChar c hc) }
  have hdigit : word.text.head?.any isAnyDigit = false := by
    have hany := (of_isNameStart hc).2.2.2.2.2
    simp [word, hcons, hany]
  have hpath := evaluate_indexed word (Segment.place before).word e context
  have hresolve := Scope.resolve_ability e context [.name word hdigit, .place before]
  have hreach : (Value.table e.config).reach? [.name word hdigit, .place before] =
      (lookup? (String.ofList name) e.config).bind (·.child? (.place before)) := by
    rw [Value.reach?, List.foldlM_cons, Value.child?]
    change (lookup? (String.ofList name) e.config).bind _ = _
    simp
  rw [hreach] at hresolve
  exact hpath.trans hresolve

/-- The place of a table in the config of a declaration leads to what `placed` tells. The config is
any literal table that has the table under its name, whatever its other fields are, and the table
has any literals with names and without keys in any order. -/
theorem evaluate_place {body source name : List Char} {front back : List Slot}
    {fields : List Field} {v : Value}
    (hbody : Source.configSource? body = some ('{' :: source ++ ['}']))
    (hconfig : LiteralRow (front ++ (some (.text (String.ofList name)), v) :: back) source)
    (hname : IsFieldName name)
    (hother : ∀ slot ∈ front ++ back, ∀ key, slot.1 = some key → key.plain ≠ String.ofList name)
    (hv : tableOf? (fields.map Field.slot) = some v)
    (hnames : ∀ field ∈ fields, ∀ name, field.1 = some name → IsFieldName name)
    (hdistinct : (fields.filterMap Prod.fst).Nodup) (before : Nat) (e : Entity)
    (context : Context) :
    evaluate (placeText name before) { e with config := Source.decodeConfig body } context =
      .ok (textKeyed (placed fields before)) := by
  have hfound := Source.lookup?_decodeConfig hbody hconfig hname hother
  rw [evaluate_placeText hname, hfound, Option.bind_some, child?_place hnames hdistinct hv]

/-! ### A table with a name in it -/

def mixedBody : List Char :=
  "config = \x7b t = \x7b 10, x = 1, 20 \x7d \x7d".toList

def mixedFields : List Field :=
  [(none, .int 10), (some ['x'], .int 1), (none, .int 20)]

def mixedTable : Value :=
  .table [(.int 0, .int 10), (.text "x", .int 1), (.int 2, .int 20)]

theorem mixedBody_configSource? : Source.configSource? mixedBody =
    some ('{' :: " t = \x7b 10, x = 1, 20 \x7d ".toList ++ ['}']) := by
  decide +kernel

theorem mixedFields_tableOf? : tableOf? (mixedFields.map Field.slot) = some mixedTable := by
  rfl

theorem isFieldName_t : IsFieldName ['t'] :=
  isFieldName_of_forall (by decide) (by decide) (by decide)

theorem literalRow_mixed :
    LiteralRow [(some (.text "t"), mixedTable)] " t = \x7b 10, x = 1, 20 \x7d ".toList := by
  have hx : IsFieldName ['x'] := isFieldName_of_forall (by decide) (by decide) (by decide)
  have hnone : Commented [] := .nil
  have hspace : Commented [' '] := .blank (by decide) .nil
  have hblank : ∀ c ∈ [' '], isBlank c = true := List.forall_mem_singleton.2 (by decide)
  have hwhole : ∀ digits : List Char, digits ≠ [] → digits.all Char.isDigit = true →
      Literal (.int (signed false (digitsValue digits))) digits :=
    fun digits hne h => .scalar (.whole false hne fun c hc =>
      isDecimalDigit_of_isDigit (List.all_eq_true.1 h c hc))
  have hten : Literal (.int 10) "10".toList := hwhole "10".toList (by decide) (by decide)
  have hone : Literal (.int 1) "1".toList := hwhole "1".toList (by decide) (by decide)
  have htwenty : Literal (.int 20) "20".toList := hwhole "20".toList (by decide) (by decide)
  have hnamed : LiteralField (some (.text "x")) (.int 1) "x = 1".toList :=
    .named hx hblank hspace hone
  have hrow : LiteralRow (mixedFields.map Field.slot) " 10, x = 1, 20 ".toList :=
    .more hspace (.item hten) hnone (.inl rfl) (.more hspace hnamed hnone (.inl rfl)
      (.last hspace (.item htwenty) (fun _ h => Value.noConfusion h) hspace))
  have htable : Literal mixedTable "\x7b 10, x = 1, 20 \x7d".toList :=
    .table hrow mixedFields_tableOf?
  exact .last hspace (.named isFieldName_t hblank hspace htable)
    (fun h => absurd h (by simp)) hspace

theorem isFieldName_mixedFields :
    ∀ field ∈ mixedFields, ∀ name, field.1 = some name → IsFieldName name := by
  intro field hfield name hname
  simp only [mixedFields, List.mem_cons, List.not_mem_nil, or_false] at hfield
  rcases hfield with rfl | rfl | rfl
  · cases hname
  · cases hname
    exact isFieldName_of_forall (by decide) (by decide) (by decide)
  · cases hname

/-- The second item has one name in front of it and is found at its place. -/
theorem evaluate_place_second :
    LiteralRow [(some (.text "t"), mixedTable)] " t = \x7b 10, x = 1, 20 \x7d ".toList ∧
      tableOf? (mixedFields.map Field.slot) = some mixedTable ∧
      evaluate "card.ability.t[2]".toList
          { (default : Entity) with config := Source.decodeConfig mixedBody } .standard =
        .ok (.int 20) := by
  have hplace := @evaluate_place _ _ ['t'] [] [] mixedFields mixedTable mixedBody_configSource?
    literalRow_mixed isFieldName_t (fun _ h => (List.not_mem_nil h).elim) mixedFields_tableOf?
    isFieldName_mixedFields (by decide) 1 default .standard
  have htext : placeText ['t'] 1 = "card.ability.t[2]".toList := by decide
  rw [htext] at hplace
  exact ⟨literalRow_mixed, mixedFields_tableOf?, hplace⟩

/-- The first item, which has no name in front of it, is not found at its place. -/
theorem first_item_missed :
    LiteralRow [(some (.text "t"), mixedTable)] " t = \x7b 10, x = 1, 20 \x7d ".toList ∧
      tableOf? (mixedFields.map Field.slot) = some mixedTable ∧
      (itemsOf mixedFields)[0]? = some (.int 10) ∧
      evaluate "card.ability.t[1]".toList
          { (default : Entity) with config := Source.decodeConfig mixedBody } .standard =
        .ok .nil := by
  have hfound := @Source.lookup?_decodeConfig _ _ ['t'] [] [] mixedTable mixedBody_configSource?
    literalRow_mixed isFieldName_t fun _ h => (List.not_mem_nil h).elim
  have hplace := evaluate_placeText isFieldName_t 0
    { (default : Entity) with config := Source.decodeConfig mixedBody } .standard
  have hchild := child?_place isFieldName_mixedFields (by decide) mixedFields_tableOf? 0
  have htext : placeText ['t'] 0 = "card.ability.t[1]".toList := by decide
  rw [htext, hfound, Option.bind_some, hchild] at hplace
  exact ⟨literalRow_mixed, mixedFields_tableOf?, rfl, hplace⟩

end ModAlmanac
