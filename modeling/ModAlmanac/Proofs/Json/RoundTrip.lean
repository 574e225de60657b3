import ModAlmanac.Proofs.Json.Number
import ModAlmanac.Proofs.Json.Text
import ModAlmanac.Proofs.TextKeys

/-!
# JSON documents are read back

Every value is written as JSON and read back (`parse?_valueText`). Keys lose their kind in a
document, so that what is read back is the value with the names of its keys for keys. This is the
value itself, with every table in its order, if its keys are texts to begin with
(`named_keyName_eq_self`).

The proof follows the value. Behind a value stands what does not continue a number, and behind the
items of a list or the fields of a table its closing bracket, with white space in front; the fuel
only has to exceed the length of the text (`value?_valueText`).
-/

namespace ModAlmanac.Json

open Number Text

/-! ## What is read back -/

/-- In a document a value with text keys keeps its keys. -/
theorem named_keyName_eq_self {v : Value} (h : v.hasTextKeys = true) : v.named keyName = v :=
  Value.named_eq_self (fun _ => rfl) h

/-! ## White space -/

theorem skipSpace_append {blank : List Char} (h : ∀ c ∈ blank, isSpace c = true) (s : List Char) :
    skipSpace (blank ++ s) = skipSpace s :=
  List.dropWhile_append_of_pos h

theorem skipSpace_cons {c : Char} (h : isSpace c = false) (s : List Char) :
    skipSpace (c :: s) = c :: s :=
  List.dropWhile_cons_of_neg (by rw [h]; exact Bool.false_ne_true)

theorem isSpace_of_mem_newLine {layout : Layout} {level : Nat} {c : Char}
    (h : c ∈ layout.newLine level) : isSpace c = true := by
  unfold Layout.newLine at h
  split at h
  · rcases List.mem_cons.1 h with rfl | h
    · rfl
    · rw [(List.mem_replicate.1 h).2]
      rfl
  · cases h

theorem separator_eq (layout : Layout) (level : Nat) :
    ∃ blank, layout.separator level = ',' :: blank ∧ ∀ c ∈ blank, isSpace c = true := by
  unfold Layout.separator
  split
  · exact ⟨_, rfl, fun _ => isSpace_of_mem_newLine⟩
  · exact ⟨[' '], rfl, List.forall_mem_singleton.2 rfl⟩

/-- White space does not continue a number. -/
theorem stopsBefore_newLine {layout : Layout} {level : Nat} {s : List Char}
    (h : StopsBefore continuesNumber s) :
    StopsBefore continuesNumber (layout.newLine level ++ s) := by
  unfold Layout.newLine
  split
  · exact stopsBefore_cons (by decide) _
  · exact h

/-! ## Scalars among values -/

/-- The first characters of numbers and words. -/
def startsScalar (c : Char) : Bool :=
  c.isDigit || ['-', 'n', 't', 'f', 'N', 'I'].contains c

/-- What a value never begins with, and what tells one that is no number and no word. -/
theorem startsScalar_ne {c : Char} (h : startsScalar c = true) :
    isSpace c = false ∧ c ≠ '\x22' ∧ c ≠ '[' ∧ c ≠ ']' ∧ c ≠ '{' ∧ c ≠ '}' := by
  have hspace : isSpace c = false := by
    cases hs : isSpace c with
    | false => rfl
    | true =>
      have hcases : ((c = ' ' ∨ c = '\t') ∨ c = '\n') ∨ c = '\r' := by
        simpa [isSpace] using hs
      rcases hcases with ((rfl | rfl) | rfl) | rfl <;> exact absurd h (by decide)
  refine ⟨hspace, ?_, ?_, ?_, ?_, ?_⟩ <;> (rintro rfl; exact absurd h (by decide))

/-- A digit begins a scalar, behind a sign or without one. -/
theorem startsScalar_signed (negative : Bool) {d : Char} (hd : d.isDigit = true)
    (more : List Char) : ∃ c behind,
      (if negative then ['-'] else []) ++ d :: more = c :: behind ∧ startsScalar c = true := by
  cases negative with
  | true => exact ⟨_, _, rfl, rfl⟩
  | false => exact ⟨_, _, rfl, by rw [startsScalar, hd, Bool.true_or]⟩

theorem intText_head (n : Int) : ∃ c more, intText n = c :: more ∧ startsScalar c = true := by
  obtain ⟨d, more, hmore, hd⟩ := exists_toDigits_cons n.natAbs
  rw [intText_eq, hmore]
  exact startsScalar_signed _ hd more

theorem doubleText_head (x : Float) :
    ∃ c more, doubleText x = c :: more ∧ startsScalar c = true := by
  unfold doubleText floatText
  split
  · next p hp =>
    obtain ⟨w, hw, htext, -⟩ := exists_written hp
    obtain ⟨d, more, hwhole⟩ := List.exists_cons_of_ne_nil hw.whole_ne_nil
    have hd : d.isDigit = true := hw.isDigit_whole d (by rw [hwhole]; exact List.mem_cons_self)
    rw [htext, Written.text, hwhole]
    exact startsScalar_signed _ hd _
  · split
    · exact ⟨_, _, rfl, rfl⟩
    · split
      · exact ⟨_, _, rfl, rfl⟩
      · exact ⟨_, _, rfl, rfl⟩

/-! ## One step of the reader -/

theorem value?_scalar {c : Char} (h : startsScalar c = true) (fuel : Nat) (s : List Char) :
    value? (fuel + 1) (c :: s) = scalar? (c :: s) := by
  obtain ⟨-, hquote, hlist, -, htable, -⟩ := startsScalar_ne h
  rw [value?]
  · rintro _ heq
    cases heq
    exact hquote rfl
  · rintro _ heq
    cases heq
    exact hlist rfl
  · rintro _ heq
    cases heq
    exact htable rfl

theorem value?_text (fuel : Nat) (s : List Char) :
    value? (fuel + 1) ('\x22' :: s) =
      (stringBehind? fuel s).map fun (text, after) => (.text (String.ofList text), after) :=
  rfl

theorem value?_emptyList {s after : List Char} (h : skipSpace s = ']' :: after) (fuel : Nat) :
    value? (fuel + 1) ('[' :: s) = some (.list [], after) := by
  simp [value?, h]

theorem value?_list {s : List Char} {c : Char} {more : List Char} (h : skipSpace s = c :: more)
    (hc : c ≠ ']') (fuel : Nat) :
    value? (fuel + 1) ('[' :: s) =
      (items? fuel (c :: more)).map fun (items, after) => (.list items, after) := by
  simp [value?, h, hc]

theorem value?_emptyTable {s after : List Char} (h : skipSpace s = '}' :: after) (fuel : Nat) :
    value? (fuel + 1) ('{' :: s) = some (.table [], after) := by
  simp [value?, h]

theorem value?_table {s : List Char} {c : Char} {more : List Char} (h : skipSpace s = c :: more)
    (hc : c ≠ '}') (fuel : Nat) :
    value? (fuel + 1) ('{' :: s) =
      (fields? fuel (c :: more)).map fun (fields, after) =>
        (.table (OrderedMap.ofList fields), after) := by
  simp [value?, h, hc]

theorem items?_last {s rest after : List Char} {item : Value} {fuel : Nat}
    (h : value? fuel s = some (item, rest)) (hclose : skipSpace rest = ']' :: after) :
    items? (fuel + 1) s = some ([item], after) := by
  simp [items?, h, hclose]

theorem items?_more {s rest more after : List Char} {item : Value} {items : List Value} {fuel : Nat}
    (h : value? fuel s = some (item, rest)) (hcomma : skipSpace rest = ',' :: more)
    (hmore : items? fuel (skipSpace more) = some (items, after)) :
    items? (fuel + 1) s = some (item :: items, after) := by
  simp [items?, h, hcomma, hmore]

/-- A field up to its value: its name in quotes, a colon and a space. -/
def fieldHead (ascii : Bool) (name : String) : List Char :=
  stringText ascii name ++ [':', ' ']

/-- The text of a field's name and the two characters behind it, up to the value. -/
theorem fieldHead_append (ascii : Bool) (name : String) (s : List Char) :
    fieldHead ascii name ++ s =
      '\x22' :: (name.toList.flatMap (stringChar ascii) ++ '\x22' :: ':' :: ' ' :: s) := by
  simp [fieldHead, stringText]

theorem length_le_fieldHead (ascii : Bool) (name : String) :
    name.toList.length + 2 ≤ (fieldHead ascii name).length := by
  have hlen := length_le_flatMap_stringChar ascii name.toList
  simp only [fieldHead, stringText, List.cons_append, List.length_cons, List.length_append,
    List.length_nil]
  omega

theorem skipSpace_space {c : Char} (h : isSpace c = false) (s : List Char) :
    skipSpace (' ' :: c :: s) = c :: s := by
  rw [← List.singleton_append, skipSpace_append (List.forall_mem_singleton.2 rfl), skipSpace_cons h]

section

variable {ascii : Bool} {name : String} {c : Char} {s rest after : List Char} {value : Value}
  {fuel : Nat} (hfuel : name.toList.length < fuel) (hc : isSpace c = false)
  (h : value? fuel (c :: s) = some (value, rest))

include hfuel hc h

/-- A field is read up to what stands behind its value. -/
theorem fields?_field :
    fields? (fuel + 1) (fieldHead ascii name ++ c :: s) =
      match skipSpace rest with
      | '}' :: after => some ([(.text name, value)], after)
      | ',' :: more =>
        (fields? fuel (skipSpace more)).bind fun (fields, after) =>
          some ((.text name, value) :: fields, after)
      | _ => none := by
  have hname := stringBehind?_stringText ascii hfuel (':' :: ' ' :: c :: s)
  have hcolon : skipSpace (':' :: ' ' :: c :: s) = ':' :: ' ' :: c :: s := skipSpace_cons rfl _
  rw [fieldHead_append]
  simp only [fields?, hname, hcolon, skipSpace_space hc, h, Option.bind_eq_bind, Option.bind_some,
    String.ofList_toList]
  rfl

theorem fields?_last (hclose : skipSpace rest = '}' :: after) :
    fields? (fuel + 1) (fieldHead ascii name ++ c :: s) = some ([(.text name, value)], after) := by
  rw [fields?_field hfuel hc h, hclose]
  rfl

theorem fields?_more {more : List Char} {fields : List (Key × Value)}
    (hcomma : skipSpace rest = ',' :: more)
    (hmore : fields? fuel (skipSpace more) = some (fields, after)) :
    fields? (fuel + 1) (fieldHead ascii name ++ c :: s) =
      some ((.text name, value) :: fields, after) := by
  rw [fields?_field hfuel hc h, hcomma]
  simp only [hmore, Option.bind_some]

end

/-! ## The parts of a text -/

section

variable (layout : Layout) (level : Nat)

/-- All items of a list, with their separators between them. -/
def itemsBody : List Value → List Char
  | [] => []
  | item :: rest => valueText layout level item ++ itemsText layout level rest

/-- All fields of a table, with their separators between them. -/
def fieldsBody : List (Key × Value) → List Char
  | [] => []
  | (key, value) :: rest =>
    fieldHead layout.ascii (keyName key) ++
      (valueText layout level value ++ fieldsText layout level rest)

theorem valueText_list (item : Value) (items : List Value) :
    valueText layout level (.list (item :: items)) =
      '[' :: (layout.newLine (level + 1) ++ (itemsBody layout (level + 1) (item :: items) ++
        (layout.newLine level ++ [']']))) := by
  simp [valueText, itemsBody]

theorem valueText_table (field : Key × Value) (fields : List (Key × Value)) :
    valueText layout level (.table (field :: fields)) =
      '{' :: (layout.newLine (level + 1) ++ (fieldsBody layout (level + 1) (field :: fields) ++
        (layout.newLine level ++ ['}']))) := by
  simp [valueText, fieldsBody, fieldHead]

theorem itemsText_cons (item : Value) (items : List Value) :
    itemsText layout level (item :: items) =
      layout.separator level ++ itemsBody layout level (item :: items) := by
  simp [itemsText, itemsBody]

theorem fieldsText_cons (field : Key × Value) (fields : List (Key × Value)) :
    fieldsText layout level (field :: fields) =
      layout.separator level ++ fieldsBody layout level (field :: fields) := by
  simp [fieldsText, fieldsBody, fieldHead]

/-- What a value begins with is no white space and closes nothing. -/
theorem valueText_head (v : Value) :
    ∃ c more, valueText layout level v = c :: more ∧ isSpace c = false ∧ c ≠ ']' ∧ c ≠ '}' := by
  have hscalar : ∀ {s : List Char}, (∃ c more, s = c :: more ∧ startsScalar c = true) →
      ∃ c more, s = c :: more ∧ isSpace c = false ∧ c ≠ ']' ∧ c ≠ '}' := by
    rintro s ⟨c, more, hs, hc⟩
    obtain ⟨hspace, -, -, hlist, -, htable⟩ := startsScalar_ne hc
    exact ⟨c, more, hs, hspace, hlist, htable⟩
  cases v with
  | nil => exact hscalar ⟨_, _, rfl, rfl⟩
  | bool b =>
    cases b with
    | false => exact hscalar ⟨_, _, rfl, rfl⟩
    | true => exact hscalar ⟨_, _, rfl, rfl⟩
  | int n => exact hscalar (intText_head n)
  | float x => exact hscalar (doubleText_head x)
  | text s => exact ⟨_, _, rfl, by decide, by decide, by decide⟩
  | list items =>
    cases items with
    | nil => exact ⟨_, _, rfl, by decide, by decide, by decide⟩
    | cons item items =>
      exact ⟨_, _, valueText_list layout level item items, by decide, by decide, by decide⟩
  | table fields =>
    cases fields with
    | nil => exact ⟨_, _, rfl, by decide, by decide, by decide⟩
    | cons field fields =>
      exact ⟨_, _, valueText_table layout level field fields, by decide, by decide, by decide⟩

theorem skipSpace_valueText (v : Value) (s : List Char) :
    skipSpace (valueText layout level v ++ s) = valueText layout level v ++ s := by
  obtain ⟨c, more, hv, hc, -, -⟩ := valueText_head layout level v
  rw [hv, List.cons_append, skipSpace_cons hc]

/-- Behind a separator the next item or field is found. -/
theorem skipSpace_separator (s : List Char) : ∃ more,
    skipSpace (layout.separator level ++ s) = ',' :: more ∧ skipSpace more = skipSpace s ∧
      StopsBefore continuesNumber (layout.separator level ++ s) ∧
        0 < (layout.separator level).length := by
  obtain ⟨blank, hsep, hblank⟩ := separator_eq layout level
  refine ⟨blank ++ s, ?_, skipSpace_append hblank s, ?_, ?_⟩
  · rw [hsep]
    exact skipSpace_cons rfl _
  · rw [hsep]
    exact stopsBefore_cons rfl _
  · rw [hsep]
    exact Nat.succ_pos _

end

/-! ## Values -/

/-- A scalar that is read back as a scalar is read back as a value. -/
theorem value?_of_scalar? {text rest : List Char} {v : Value} {fuel : Nat} (hfuel : 0 < fuel)
    (hhead : ∃ c more, text = c :: more ∧ startsScalar c = true)
    (h : scalar? (text ++ rest) = some (v, rest)) :
    value? fuel (text ++ rest) = some (v, rest) := by
  obtain ⟨c, more, rfl, hc⟩ := hhead
  obtain ⟨n, rfl⟩ := Nat.exists_eq_succ_of_ne_zero hfuel.ne'
  rw [List.cons_append] at h ⊢
  rw [value?_scalar hc, h]

/-- A written text is read back. -/
theorem value?_stringText (ascii : Bool) {text : String} {n : Nat}
    (hfuel : (stringText ascii text).length < n + 1) (rest : List Char) :
    value? (n + 1) (stringText ascii text ++ rest) = some (.text text, rest) := by
  have hlen := length_le_flatMap_stringChar ascii text.toList
  rw [stringText] at hfuel ⊢
  simp only [List.cons_append, List.length_cons, List.length_append] at hfuel
  have hread := stringBehind?_stringText ascii (show text.toList.length < n by omega) rest
  rw [List.cons_append, List.cons_append, List.append_assoc, List.singleton_append, value?_text,
    hread, Option.map_some]
  dsimp only
  rw [String.ofList_toList]

section

variable {layout : Layout} {level n : Nat} {rest : List Char}

/-- A list is read back if its items are, up to its closing bracket. -/
theorem value?_listText {item : Value} {items : List Value}
    (hread : items? n (itemsBody layout (level + 1) (item :: items) ++
      (layout.newLine level ++ ']' :: rest)) = some (namedItems keyName (item :: items), rest)) :
    value? (n + 1) (valueText layout level (.list (item :: items)) ++ rest) =
      some ((Value.list (item :: items)).named keyName, rest) := by
  obtain ⟨c, more, hitem, hc, hbracket, -⟩ := valueText_head layout (level + 1) item
  have hbody : itemsBody layout (level + 1) (item :: items) =
      c :: (more ++ itemsText layout (level + 1) items) := by
    rw [itemsBody, hitem, List.cons_append]
  rw [valueText_list]
  rw [hbody] at hread ⊢
  simp only [List.cons_append, List.append_assoc, List.nil_append] at hread ⊢
  rw [value?_list (by rw [skipSpace_append fun _ => isSpace_of_mem_newLine, skipSpace_cons hc])
    hbracket, hread, Option.map_some, Value.named_list]

/-- A table is read back if its fields are, up to its closing brace. -/
theorem value?_tableText {field : Key × Value} {fields : List (Key × Value)}
    (hread : fields? n (fieldsBody layout (level + 1) (field :: fields) ++
      (layout.newLine level ++ '}' :: rest)) = some (namedFields keyName (field :: fields), rest)) :
    value? (n + 1) (valueText layout level (.table (field :: fields)) ++ rest) =
      some ((Value.table (field :: fields)).named keyName, rest) := by
  obtain ⟨more, hbody⟩ :
      ∃ more, fieldsBody layout (level + 1) (field :: fields) = '\x22' :: more :=
    ⟨_, fieldHead_append _ _ _⟩
  rw [valueText_table]
  rw [hbody] at hread ⊢
  simp only [List.cons_append, List.append_assoc, List.nil_append] at hread ⊢
  rw [value?_table (by rw [skipSpace_append fun _ => isSpace_of_mem_newLine, skipSpace_cons rfl])
    (by decide), hread, Option.map_some, Value.named_table]

/-- What closes a list or a table stands behind a line end. -/
theorem closes_newLine (layout : Layout) (level : Nat) (close : Char) (rest : List Char)
    (hspace : isSpace close = false) (hnumber : continuesNumber close = false) :
    skipSpace (layout.newLine level ++ close :: rest) = close :: rest ∧
      StopsBefore continuesNumber (layout.newLine level ++ close :: rest) := by
  rw [skipSpace_append fun _ => isSpace_of_mem_newLine]
  exact ⟨skipSpace_cons hspace _, stopsBefore_newLine (stopsBefore_cons hnumber _)⟩

end

-- The induction is on what is written. Every step of a reader takes a character at least, so a fuel
-- above the length of the text is enough for all steps.
mutual

/-- A written value is read back. -/
theorem value?_valueText (layout : Layout) : ∀ (v : Value) (level fuel : Nat) (rest : List Char),
    (valueText layout level v).length < fuel → StopsBefore continuesNumber rest →
      value? fuel (valueText layout level v ++ rest) = some (v.named keyName, rest)
  | .nil, _, _, rest, hfuel, _ =>
    value?_of_scalar? (Nat.zero_lt_of_lt hfuel) ⟨_, _, rfl, rfl⟩ rfl
  | .bool true, _, _, rest, hfuel, _ =>
    value?_of_scalar? (Nat.zero_lt_of_lt hfuel) ⟨_, _, rfl, rfl⟩ rfl
  | .bool false, _, _, rest, hfuel, _ =>
    value?_of_scalar? (Nat.zero_lt_of_lt hfuel) ⟨_, _, rfl, rfl⟩ rfl
  | .int n, _, _, rest, hfuel, hrest => by
    rw [valueText] at hfuel ⊢
    exact value?_of_scalar? (Nat.zero_lt_of_lt hfuel) (intText_head n) (scalar?_intText n hrest)
  | .float x, _, _, rest, hfuel, hrest => by
    rw [valueText] at hfuel ⊢
    exact value?_of_scalar? (Nat.zero_lt_of_lt hfuel) (doubleText_head x)
      (scalar?_doubleText x hrest)
  | .text s, level, fuel, rest, hfuel, _ => by
    obtain ⟨n, rfl⟩ := Nat.exists_eq_succ_of_ne_zero (Nat.ne_zero_of_lt hfuel)
    rw [valueText] at hfuel ⊢
    exact value?_stringText layout.ascii hfuel rest
  | .list [], _, fuel, rest, hfuel, _ => by
    obtain ⟨n, rfl⟩ := Nat.exists_eq_succ_of_ne_zero (Nat.ne_zero_of_lt hfuel)
    rw [valueText]
    exact value?_emptyList (skipSpace_cons rfl _) n
  | .list (item :: items), level, fuel, rest, hfuel, _ => by
    obtain ⟨n, rfl⟩ := Nat.exists_eq_succ_of_ne_zero (Nat.ne_zero_of_lt hfuel)
    rw [valueText_list] at hfuel
    simp only [List.length_cons, List.length_append] at hfuel
    obtain ⟨hclose, hstop⟩ := closes_newLine layout level ']' rest rfl rfl
    exact value?_listText (items?_itemsBody layout (item :: items) (level + 1) n _ rest
      (List.cons_ne_nil _ _) (by omega) hclose hstop)
  | .table [], _, fuel, rest, hfuel, _ => by
    obtain ⟨n, rfl⟩ := Nat.exists_eq_succ_of_ne_zero (Nat.ne_zero_of_lt hfuel)
    rw [valueText]
    exact value?_emptyTable (skipSpace_cons rfl _) n
  | .table (field :: fields), level, fuel, rest, hfuel, _ => by
    obtain ⟨n, rfl⟩ := Nat.exists_eq_succ_of_ne_zero (Nat.ne_zero_of_lt hfuel)
    rw [valueText_table] at hfuel
    simp only [List.length_cons, List.length_append] at hfuel
    obtain ⟨hclose, hstop⟩ := closes_newLine layout level '}' rest rfl rfl
    exact value?_tableText (fields?_fieldsBody layout (field :: fields) (level + 1) n _ rest
      (List.cons_ne_nil _ _) (by omega) hclose hstop)

/-- The written items of a list are read back up to the closing bracket. -/
theorem items?_itemsBody (layout : Layout) : ∀ (items : List Value) (level fuel : Nat)
    (tail after : List Char), items ≠ [] →
      (itemsBody layout level items).length + 1 < fuel → skipSpace tail = ']' :: after →
        StopsBefore continuesNumber tail →
          items? fuel (itemsBody layout level items ++ tail) =
            some (namedItems keyName items, after)
  | [], _, _, _, _, hne, _, _, _ => absurd rfl hne
  | [item], level, fuel, tail, after, _, hfuel, hclose, hstop => by
    obtain ⟨n, rfl⟩ := Nat.exists_eq_succ_of_ne_zero (Nat.ne_zero_of_lt hfuel)
    rw [itemsBody, itemsText, List.append_nil] at hfuel ⊢
    exact items?_last (value?_valueText layout item level n tail (by omega) hstop) hclose
  | item :: next :: items, level, fuel, tail, after, _, hfuel, hclose, hstop => by
    obtain ⟨n, rfl⟩ := Nat.exists_eq_succ_of_ne_zero (Nat.ne_zero_of_lt hfuel)
    rw [itemsBody, itemsText_cons] at hfuel ⊢
    simp only [List.length_append] at hfuel
    obtain ⟨more, hcomma, hmore, hsep, hpos⟩ :=
      skipSpace_separator layout level (itemsBody layout level (next :: items) ++ tail)
    have hskip : skipSpace (itemsBody layout level (next :: items) ++ tail) =
        itemsBody layout level (next :: items) ++ tail := by
      rw [itemsBody, List.append_assoc, skipSpace_valueText]
    have hitem := value?_valueText layout item level n
      (layout.separator level ++ (itemsBody layout level (next :: items) ++ tail))
      (by omega) hsep
    have hitems := items?_itemsBody layout (next :: items) level n tail after (List.cons_ne_nil _ _)
      (by omega) hclose hstop
    rw [List.append_assoc, List.append_assoc]
    exact items?_more hitem hcomma (by rw [hmore, hskip]; exact hitems)

/-- The written fields of a table are read back up to the closing brace. -/
theorem fields?_fieldsBody (layout : Layout) : ∀ (fields : List (Key × Value)) (level fuel : Nat)
    (tail after : List Char), fields ≠ [] →
      (fieldsBody layout level fields).length < fuel → skipSpace tail = '}' :: after →
        StopsBefore continuesNumber tail →
          fields? fuel (fieldsBody layout level fields ++ tail) =
            some (namedFields keyName fields, after)
  | [], _, _, _, _, hne, _, _, _ => absurd rfl hne
  | [(key, value)], level, fuel, tail, after, _, hfuel, hclose, hstop => by
    obtain ⟨n, rfl⟩ := Nat.exists_eq_succ_of_ne_zero (Nat.ne_zero_of_lt hfuel)
    rw [fieldsBody, fieldsText, List.append_nil] at hfuel ⊢
    simp only [List.length_append] at hfuel
    have hname := length_le_fieldHead layout.ascii (keyName key)
    obtain ⟨c, more, hvalue, hc, -, -⟩ := valueText_head layout level value
    have hread := value?_valueText layout value level n tail (by omega) hstop
    rw [hvalue, List.cons_append] at hread
    rw [List.append_assoc, hvalue, List.cons_append]
    exact fields?_last (by omega) hc hread hclose
  | (key, value) :: next :: fields, level, fuel, tail, after, _, hfuel, hclose, hstop => by
    obtain ⟨n, rfl⟩ := Nat.exists_eq_succ_of_ne_zero (Nat.ne_zero_of_lt hfuel)
    rw [fieldsBody, fieldsText_cons] at hfuel ⊢
    simp only [List.length_append] at hfuel
    have hname := length_le_fieldHead layout.ascii (keyName key)
    obtain ⟨more, hcomma, hmore, hsep, hpos⟩ :=
      skipSpace_separator layout level (fieldsBody layout level (next :: fields) ++ tail)
    have hskip : skipSpace (fieldsBody layout level (next :: fields) ++ tail) =
        fieldsBody layout level (next :: fields) ++ tail := by
      rw [fieldsBody, List.append_assoc, fieldHead_append, skipSpace_cons rfl]
    obtain ⟨c, rest, hvalue, hc, -, -⟩ := valueText_head layout level value
    have hread := value?_valueText layout value level n
      (layout.separator level ++ (fieldsBody layout level (next :: fields) ++ tail))
      (by omega) hsep
    have hfields := fields?_fieldsBody layout (next :: fields) level n tail after
      (List.cons_ne_nil _ _) (by omega) hclose hstop
    rw [hvalue, List.cons_append] at hread
    rw [List.append_assoc, List.append_assoc, List.append_assoc, hvalue, List.cons_append]
    exact fields?_more (by omega) hc hread hcomma (by rw [hmore, hskip]; exact hfields)

end

/-- A written document is read back. -/
theorem parse?_valueText (layout : Layout) (v : Value) :
    parse? (valueText layout 0 v) = some (v.named keyName) := by
  have hread := value?_valueText layout v 0 (2 * (valueText layout 0 v).length + 2) [] (by omega)
    (stopsBefore_nil _)
  have hskip := skipSpace_valueText layout 0 v []
  rw [List.append_nil] at hread hskip
  unfold parse?
  rw [hskip, hread]
  rfl

end ModAlmanac.Json
