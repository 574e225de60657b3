import ModAlmanac.Proofs.Number.Digits
import ModAlmanac.Proofs.OrderedMap
import ModAlmanac.Proofs.Source.Declarations
import ModAlmanac.Proofs.Source.LoneFields
import ModAlmanac.Snapshot.Compile
import ModAlmanac.Source.Sheet

/-!
# Declared sheets are read back

A sheet is written as a flat declaration with a key, a path and perhaps two tile sizes, in any order.
No name of a field ends in another one, so that each is found in its own field only, wherever that
stands (`WrittenSheet.ofBody?_body`). The first closing brace is the one behind the last field, so
that the sheets of a source are read one after the other, whatever stands between them
(`collect_writtenSheets`).

Of two sheets with one key the later one counts. This does not depend on which of them are in one
source, since putting maps together is putting in their records one after the other
(`sheets_written`).
-/

namespace ModAlmanac.Source

open Lua Number Text

/-! ## Written sheets -/

/-- A text between two quotes of one kind that holds no quote, no equality sign and no brace. -/
structure PlainText where
  mark : Char
  chars : List Char
  isQuote_mark : isQuote mark = true
  ne_nil : chars ≠ []
  plain : ∀ c ∈ chars, isQuote c = false ∧ c ≠ '=' ∧ c ≠ '{' ∧ c ≠ '}'

def PlainText.text (t : PlainText) : List Char :=
  t.mark :: (t.chars ++ [t.mark])

/-- A natural number, written in decimal digits. -/
structure WrittenNumber where
  digits : List Char
  ne_nil : digits ≠ []
  isDecimalDigit_digits : ∀ c ∈ digits, isDecimalDigit c = true

def WrittenNumber.value (n : WrittenNumber) : Nat :=
  digitsValue n.digits

def WrittenNumber.plain (n : Nat) : WrittenNumber where
  digits := Nat.toDigits 10 n
  ne_nil := Nat.toDigits_ne_nil
  isDecimalDigit_digits := fun _ hc => isDecimalDigit_of_isDigit (isDigit_of_mem_toDigits hc)

/-- Every natural number can be written. -/
theorem WrittenNumber.value_plain (n : Nat) : (WrittenNumber.plain n).value = n :=
  digitsValue_toDigits n

theorem PlainText.mark_eq (t : PlainText) : t.mark = '\x22' ∨ t.mark = '\x27' := by
  simpa [isQuote] using t.isQuote_mark

theorem PlainText.isLoneValue_text (t : PlainText) : IsLoneValue t.text where
  head := ⟨t.mark, t.chars ++ [t.mark], rfl, by rcases t.mark_eq with h | h <;> rw [h] <;> decide⟩
  sign_not_mem := by
    have hmark : '=' ≠ t.mark := by rcases t.mark_eq with h | h <;> rw [h] <;> decide
    have hchars : '=' ∉ t.chars := fun hmem => (t.plain _ hmem).2.1 rfl
    simp [PlainText.text, hchars, hmark]

theorem WrittenNumber.isLoneValue_digits (n : WrittenNumber) : IsLoneValue n.digits where
  head := by
    obtain ⟨c, more, hdigits⟩ := List.exists_cons_of_ne_nil n.ne_nil
    refine ⟨c, more, hdigits, not_isBlank_of_isDecimalDigit (n.isDecimalDigit_digits c ?_)⟩
    rw [hdigits]
    exact List.mem_cons_self
  sign_not_mem := not_mem_of_forall n.isDecimalDigit_digits (by decide)

/-- The names of a sheet's fields. -/
def sheetNames : List String :=
  ["key", "path", "px", "py"]

theorem isPlainName_of_mem_sheetNames {name : String} (h : name ∈ sheetNames) :
    IsPlainName name.toList := by
  simp only [sheetNames, List.mem_cons, List.not_mem_nil, or_false] at h
  rcases h with rfl | rfl | rfl | rfl <;> exact isPlainName_of_all (by decide) (by decide)

/-- No name of a field ends in another one. -/
theorem eq_of_suffix_of_mem_sheetNames {name other : String} (h : name ∈ sheetNames)
    (hother : other ∈ sheetNames) (hends : name.toList <:+ other.toList) :
    other.toList = name.toList := by
  have hcheck : ∀ name ∈ sheetNames, ∀ other ∈ sheetNames,
      name.toList <:+ other.toList → other.toList = name.toList := by decide +kernel
  exact hcheck name h other hother hends

/-- What the fields of a sheet say, each laid out in its own way. -/
structure SheetFields where
  key : Layout × PlainText
  path : Layout × PlainText
  tileWidth : Option (Layout × WrittenNumber)
  tileHeight : Option (Layout × WrittenNumber)

/-- A field with a text, under a name of a sheet's fields. -/
def textField (name : String) (h : name ∈ sheetNames) (field : Layout × PlainText) : LoneField where
  layout := field.1
  name := name.toList
  value := field.2.text
  isPlainName := isPlainName_of_mem_sheetNames h
  isLoneValue := field.2.isLoneValue_text

/-- A field with a number, under a name of a sheet's fields. -/
def numberField (name : String) (h : name ∈ sheetNames) (field : Layout × WrittenNumber) :
    LoneField where
  layout := field.1
  name := name.toList
  value := field.2.digits
  isPlainName := isPlainName_of_mem_sheetNames h
  isLoneValue := field.2.isLoneValue_digits

namespace SheetFields

/-- The field of a name, if the sheet has it. -/
def fieldOf? (d : SheetFields) (name : String) : Option LoneField :=
  if name = "key" then some (textField "key" (by decide) d.key)
  else if name = "path" then some (textField "path" (by decide) d.path)
  else if name = "px" then d.tileWidth.map (numberField "px" (by decide))
  else if name = "py" then d.tileHeight.map (numberField "py" (by decide))
  else none

def fields (d : SheetFields) : List LoneField :=
  sheetNames.filterMap d.fieldOf?

/-- The sheet that the fields declare. -/
def sheet (d : SheetFields) : Sheet where
  key := String.ofList d.key.2.chars
  path := String.ofList d.path.2.chars
  tileWidth := d.tileWidth.elim 0 (·.2.value)
  tileHeight := d.tileHeight.elim 0 (·.2.value)

end SheetFields

/-- A sheet as it stands in a source: its fields in some order, perhaps a comma behind the last one,
and perhaps parentheses around the braces. -/
structure WrittenSheet where
  fields : SheetFields
  order : List LoneField
  trail : Option (List Char)
  gap : List Char
  parenthesis : Option (List Char)
  perm_order : order.Perm fields.fields
  isBlank_trail : ∀ blank ∈ trail, ∀ c ∈ blank, isBlank c = true
  isBlank_gap : ∀ c ∈ gap, isBlank c = true
  isBlank_parenthesis : ∀ blank, parenthesis = some blank → ∀ c ∈ blank, isBlank c = true

theorem forall_isBlank_none : ∀ blank ∈ (none : Option (List Char)), ∀ c ∈ blank, isBlank c = true :=
  fun _ h => absurd h (Option.not_mem_none _)

theorem forall_isBlank_some {blank : List Char} (h : ∀ c ∈ blank, isBlank c = true) :
    ∀ more ∈ some blank, ∀ c ∈ more, isBlank c = true :=
  fun _ hmore => Option.mem_some.1 hmore ▸ h

def WrittenSheet.body (w : WrittenSheet) : List Char :=
  joined (w.order.map LoneField.text ++ w.trail.toList)

/-! ## What the values read as -/

/-- The number at the front, without the text behind it. -/
def naturalValue? (value : List Char) : Option Nat :=
  (natural? value).map (·.1)

theorem findNumberD_eq (name : String) (body : List Char) :
    findNumberD name body = (search (fieldAt? naturalValue? name) body).getD 0 := by
  have hread : fieldAt? naturalValue? name =
      fun s => ((fieldValue? name s).bind natural?).map (·.1) := by
    funext s
    rw [fieldAt?, Option.map_bind]
    rfl
  rw [findNumberD, search_map, hread]

theorem PlainText.plainQuoted?_text (t : PlainText) (rest : List Char) :
    plainQuoted? (t.text ++ rest) = some t.chars := by
  have hchars : ∀ c ∈ t.chars, (!isQuote c) = true := fun c hc => by rw [(t.plain c hc).1]; rfl
  have hstop : StopsBefore (!isQuote ·) (t.mark :: rest) :=
    stopsBefore_cons (by rw [t.isQuote_mark]; rfl) rest
  have htext : t.text ++ rest = t.mark :: (t.chars ++ t.mark :: rest) := by
    simp [PlainText.text]
  rw [htext, plainQuoted?, if_pos t.isQuote_mark, takeWhile_append_of_stops hchars hstop,
    dropWhile_append_of_stops hchars hstop]
  cases hc : t.chars with
  | nil => exact absurd hc t.ne_nil
  | cons c more => rfl

theorem PlainText.naturalValue?_text (t : PlainText) (rest : List Char) :
    naturalValue? (t.text ++ rest) = none := by
  have hmark : isDecimalDigit t.mark = false := by
    rcases t.mark_eq with h | h <;> rw [h] <;> decide
  rw [naturalValue?, natural?, PlainText.text, List.cons_append, List.takeWhile_cons, hmark]
  rfl

theorem WrittenNumber.naturalValue?_digits (n : WrittenNumber) {rest : List Char}
    (hrest : StopsBefore isDecimalDigit rest) :
    naturalValue? (n.digits ++ rest) = some n.value := by
  rw [naturalValue?, natural?, takeWhile_append_of_stops n.isDecimalDigit_digits hrest]
  cases hdigits : n.digits with
  | nil => exact absurd hdigits n.ne_nil
  | cons c more => rw [WrittenNumber.value, hdigits]; rfl

theorem WrittenNumber.plainQuoted?_digits (n : WrittenNumber) (rest : List Char) :
    plainQuoted? (n.digits ++ rest) = none := by
  have hdigits := n.isDecimalDigit_digits
  obtain ⟨c, more, hn⟩ := List.exists_cons_of_ne_nil n.ne_nil
  rw [hn] at hdigits ⊢
  have hquote : isQuote c = false := by
    cases hc : isQuote c with
    | false => rfl
    | true =>
      have hdigit := hdigits c List.mem_cons_self
      simp only [isQuote, Bool.or_eq_true, decide_eq_true_eq] at hc
      rcases hc with rfl | rfl <;> exact absurd hdigit (by decide)
  rw [List.cons_append, plainQuoted?, hquote]
  rfl

theorem readsAlone_textField {name : String} (h : name ∈ sheetNames)
    (field : Layout × PlainText) :
    ReadsAlone plainQuoted? (textField name h field).value ∧
      ReadsAlone naturalValue? (textField name h field).value :=
  ⟨readsAlone_of_append fun rest _ => field.2.plainQuoted?_text rest,
    readsAlone_of_append fun rest _ => field.2.naturalValue?_text rest⟩

theorem readsAlone_numberField {name : String} (h : name ∈ sheetNames)
    (field : Layout × WrittenNumber) :
    ReadsAlone plainQuoted? (numberField name h field).value ∧
      ReadsAlone naturalValue? (numberField name h field).value :=
  ⟨readsAlone_of_append fun rest _ => field.2.plainQuoted?_digits rest,
    readsAlone_of_append fun _ hrest => field.2.naturalValue?_digits hrest⟩

/-! ## The fields of a sheet -/

namespace SheetFields

variable {d : SheetFields}

/-- What holds of a field with a text and of a field with a number holds of all fields. -/
theorem forall_fieldOf? {p : String → LoneField → Prop}
    (htext : ∀ name h field, p name (textField name h field))
    (hnumber : ∀ name h field, p name (numberField name h field)) {name : String} {f : LoneField}
    (hf : d.fieldOf? name = some f) : p name f := by
  unfold fieldOf? at hf
  split at hf
  · next hname => cases hf; exact hname ▸ htext ..
  split at hf
  · next hname => cases hf; exact hname ▸ htext ..
  split at hf
  · next hname =>
    obtain ⟨width, -, rfl⟩ := Option.map_eq_some_iff.1 hf
    exact hname ▸ hnumber ..
  split at hf
  · next hname =>
    obtain ⟨height, -, rfl⟩ := Option.map_eq_some_iff.1 hf
    exact hname ▸ hnumber ..
  · cases hf

theorem name_of_fieldOf? {name : String} {f : LoneField} (h : d.fieldOf? name = some f) :
    f.name = name.toList :=
  forall_fieldOf? (p := fun name f => f.name = name.toList) (fun _ _ _ => rfl) (fun _ _ _ => rfl) h

theorem readsAlone_of_mem {f : LoneField} (h : f ∈ d.fields) :
    ReadsAlone plainQuoted? f.value ∧ ReadsAlone naturalValue? f.value := by
  obtain ⟨name, -, hf⟩ := List.mem_filterMap.1 h
  exact forall_fieldOf? (p := fun _ f => ReadsAlone plainQuoted? f.value ∧
    ReadsAlone naturalValue? f.value) (fun _ => readsAlone_textField)
      (fun _ => readsAlone_numberField) hf

theorem filter_fields {name : String} (h : name ∈ sheetNames) :
    d.fields.filter (·.name = name.toList) = (d.fieldOf? name).toList := by
  have hone : ∀ other ∈ sheetNames, (d.fieldOf? other).filter (·.name = name.toList) =
      if other = name then d.fieldOf? name else none := by
    intro other _
    cases hf : d.fieldOf? other with
    | none =>
      split
      · next hsame => rw [← hsame, hf]; rfl
      · rfl
    | some f =>
      have hname := name_of_fieldOf? hf
      split
      · next hsame => rw [← hsame, hf, Option.filter_some, hname, hsame, if_pos (by simp)]
      · next hne =>
        have hdiffers : other.toList ≠ name.toList := fun heq => hne (String.toList_injective heq)
        rw [Option.filter_some, hname, if_neg (by simpa using hdiffers)]
  rw [fields, List.filter_filterMap, List.filterMap_congr hone]
  simp only [sheetNames, List.mem_cons, List.not_mem_nil, or_false] at h
  rcases h with rfl | rfl | rfl | rfl <;> simp [sheetNames, List.filterMap_cons] <;>
    cases d.fieldOf? _ <;> rfl

end SheetFields

/-! ## The body of a sheet -/

theorem eq_toList_of_perm {α : Type} {l : List α} {found : Option α} (h : l.Perm found.toList) :
    l = found.toList := by
  cases found with
  | none => exact h.eq_nil
  | some a => exact List.perm_singleton.1 h

namespace WrittenSheet

variable (w : WrittenSheet)

/-- In whatever order the fields stand, under a name the field of that name is found. -/
theorem search_body {α : Type} {read : List Char → Option α}
    (hread : ∀ f ∈ w.fields.fields, ReadsAlone read f.value) {name : String}
    (hname : name ∈ sheetNames) :
    search (fieldAt? read name) w.body = (w.fields.fieldOf? name).bind fun f => read f.value := by
  have hmem : ∀ f ∈ w.order, f ∈ w.fields.fields := fun f hf => w.perm_order.mem_iff.1 hf
  have hends : ∀ f ∈ w.order, name.toList <:+ f.name → f.name = name.toList := by
    intro f hf hsuffix
    obtain ⟨other, hother, hfound⟩ := List.mem_filterMap.1 (hmem f hf)
    rw [SheetFields.name_of_fieldOf? hfound] at hsuffix ⊢
    exact eq_of_suffix_of_mem_sheetNames hname hother hsuffix
  have hperm := w.perm_order.filter (·.name = name.toList)
  rw [SheetFields.filter_fields hname] at hperm
  rw [body, search_fields (isPlainName_of_mem_sheetNames hname) (fun f hf => hread f (hmem f hf))
    hends w.isBlank_trail, eq_toList_of_perm hperm]
  cases w.fields.fieldOf? name with
  | none => rfl
  | some f => exact List.findSome?_singleton

theorem findPlainQuoted?_body {name : String} (hname : name ∈ sheetNames) :
    findPlainQuoted? name w.body =
      (w.fields.fieldOf? name).bind fun f => plainQuoted? f.value :=
  w.search_body (fun _ hf => (SheetFields.readsAlone_of_mem hf).1) hname

theorem findNumberD_body {name : String} (hname : name ∈ sheetNames) :
    findNumberD name w.body =
      ((w.fields.fieldOf? name).bind fun f => naturalValue? f.value).getD 0 := by
  rw [findNumberD_eq, w.search_body (fun _ hf => (SheetFields.readsAlone_of_mem hf).2) hname]

/-- The body says what the fields say. -/
theorem ofBody?_body : Sheet.ofBody? w.body = some w.fields.sheet := by
  have htext : ∀ field : Layout × PlainText, plainQuoted? field.2.text = some field.2.chars :=
    fun field => read_of_append fun rest _ => field.2.plainQuoted?_text rest
  have hnumber : ∀ field : Layout × WrittenNumber,
      naturalValue? field.2.digits = some field.2.value :=
    fun field => read_of_append fun _ hrest => field.2.naturalValue?_digits hrest
  have hkey : findPlainQuoted? "key" w.body = some w.fields.key.2.chars :=
    (w.findPlainQuoted?_body (by decide)).trans (htext w.fields.key)
  have hpath : findPlainQuoted? "path" w.body = some w.fields.path.2.chars :=
    (w.findPlainQuoted?_body (by decide)).trans (htext w.fields.path)
  have hwidth : findNumberD "px" w.body = w.fields.tileWidth.elim 0 (·.2.value) := by
    rw [w.findNumberD_body (by decide)]
    cases hsize : w.fields.tileWidth with
    | none => simp [SheetFields.fieldOf?, hsize]
    | some width => simp [SheetFields.fieldOf?, hsize, numberField, hnumber]
  have hheight : findNumberD "py" w.body = w.fields.tileHeight.elim 0 (·.2.value) := by
    rw [w.findNumberD_body (by decide)]
    cases hsize : w.fields.tileHeight with
    | none => simp [SheetFields.fieldOf?, hsize]
    | some height => simp [SheetFields.fieldOf?, hsize, numberField, hnumber]
  rw [Sheet.ofBody?, hkey, hpath, hwidth, hheight]
  rfl

end WrittenSheet

/-! ## Flat bodies -/

theorem forall_mem_joined {p : Char → Prop} (hcomma : p ',') {parts : List (List Char)}
    (h : ∀ part ∈ parts, ∀ c ∈ part, p c) : ∀ c ∈ joined parts, p c := by
  induction parts with
  | nil => exact List.forall_mem_nil _
  | cons part parts ih =>
    obtain ⟨hpart, hparts⟩ := List.forall_mem_cons.1 h
    cases parts with
    | nil => exact hpart
    | cons next parts =>
      intro c hc
      rw [joined.eq_3 _ _ (List.cons_ne_nil _ _)] at hc
      rcases List.mem_append.1 hc with hc | hc
      · exact hpart c hc
      · rcases List.mem_cons.1 hc with rfl | hc
        · exact hcomma
        · exact ih hparts c hc

theorem LoneField.ne_brace {f : LoneField} (hname : ∀ c ∈ f.name, c ≠ '{' ∧ c ≠ '}')
    (hvalue : ∀ c ∈ f.value, c ≠ '{' ∧ c ≠ '}') : ∀ c ∈ f.text, c ≠ '{' ∧ c ≠ '}' := by
  intro c hc
  simp only [LoneField.text, Layout.field, List.mem_append, List.mem_cons] at hc
  rcases hc with hc | hc | hc | rfl | hc | hc | hc
  · exact ne_brace_of_isBlank f.layout.isBlank_lead c hc
  · exact hname c hc
  · exact ne_brace_of_isBlank f.layout.isBlank_blank c hc
  · decide
  · exact ne_brace_of_isBlank f.layout.isBlank_gap c hc
  · exact hvalue c hc
  · exact ne_brace_of_isBlank f.layout.isBlank_trail c hc

theorem PlainText.ne_brace_text (t : PlainText) : ∀ c ∈ t.text, c ≠ '{' ∧ c ≠ '}' := by
  have hmark : t.mark ≠ '{' ∧ t.mark ≠ '}' := by rcases t.mark_eq with h | h <;> rw [h] <;> decide
  intro c hc
  simp only [PlainText.text, List.mem_cons, List.mem_append, List.not_mem_nil, or_false] at hc
  rcases hc with rfl | hc | rfl
  · exact hmark
  · exact (t.plain c hc).2.2
  · exact hmark

theorem WrittenNumber.ne_brace_digits (n : WrittenNumber) :
    ∀ c ∈ n.digits, c ≠ '{' ∧ c ≠ '}' := by
  intro c hc
  have hdigit := n.isDecimalDigit_digits c hc
  constructor <;> rintro rfl <;> exact absurd hdigit (by decide)

theorem SheetFields.ne_brace_text {d : SheetFields} {f : LoneField} (h : f ∈ d.fields) :
    ∀ c ∈ f.text, c ≠ '{' ∧ c ≠ '}' := by
  have hnames : ∀ name ∈ sheetNames, ∀ c ∈ name.toList, c ≠ '{' ∧ c ≠ '}' := by
    simp [sheetNames]
  obtain ⟨name, -, hf⟩ := List.mem_filterMap.1 h
  exact forall_fieldOf? (p := fun _ f => ∀ c ∈ f.text, c ≠ '{' ∧ c ≠ '}')
    (fun name h field => LoneField.ne_brace (hnames name h) field.2.ne_brace_text)
    (fun name h field => LoneField.ne_brace (hnames name h) field.2.ne_brace_digits) hf

/-- No brace stands in the body of a sheet. -/
theorem WrittenSheet.ne_brace_body (w : WrittenSheet) : ∀ c ∈ w.body, c ≠ '{' ∧ c ≠ '}' := by
  refine forall_mem_joined (by decide) fun part hpart => ?_
  rcases List.mem_append.1 hpart with hpart | hpart
  · obtain ⟨f, hf, rfl⟩ := List.mem_map.1 hpart
    exact SheetFields.ne_brace_text (w.perm_order.mem_iff.1 hf)
  · exact ne_brace_of_isBlank (w.isBlank_trail part (Option.mem_toList.1 hpart))

/-! ## Sheets among other text -/

/-- The declaration of a sheet. -/
def WrittenSheet.declaration (w : WrittenSheet) : WrittenDeclaration where
  initial := 'A'
  more := "tlas".toList
  gap := w.gap
  parenthesis := w.parenthesis
  body := w.body
  isUpper_initial := by decide
  isKindChar_more := List.all_eq_true.1 (by decide)
  isBlank_gap := w.isBlank_gap
  isBlank_parenthesis := w.isBlank_parenthesis
  balanced_body := balanced_of_forall_ne w.ne_brace_body

/-- A source of sheets, each with the filler in front of it, and the filler behind the last. -/
def writtenSheets (parts : List (Filler × WrittenSheet)) (last : Filler) : List Char :=
  writtenSource (parts.map fun part => (part.1, part.2.declaration)) last

theorem sheetBody?_eq_none {s : List Char} (h : ¬ namespaceDot <+: s) : sheetBody? s = none := by
  have hname : namespaceDot <+: "SMODS.Atlas".toList := by decide
  rw [sheetBody?, isPrefixOf?_eq_none_iff.2 fun hword => h (hname.trans hword)]
  rfl

/-- What stands in front of the opening brace is passed over. -/
theorem WrittenSheet.dropBlank_opening (w : WrittenSheet) (rest : List Char) :
    dropBlank (dropParen (dropBlank (w.declaration.opening ++ '{' :: rest))) = '{' :: rest := by
  have hbrace : isBlank '{' = false := by decide
  rw [WrittenDeclaration.opening]
  change dropBlank (dropParen (dropBlank (w.gap ++ w.parenthesis.elim [] ('(' :: ·) ++ _))) = _
  cases hp : w.parenthesis with
  | none =>
    rw [Option.elim_none, List.append_nil, Text.dropBlank_append w.isBlank_gap hbrace, dropParen]
    · exact Text.dropBlank_append (List.forall_mem_nil _) hbrace rest
    · simp
  | some blank =>
    rw [Option.elim_some, List.append_assoc, List.cons_append,
      Text.dropBlank_append w.isBlank_gap (by decide), dropParen,
      Text.dropBlank_append (w.isBlank_parenthesis blank hp) hbrace]

/-- A sheet is read up to its closing brace. -/
theorem WrittenSheet.sheetBody?_text (w : WrittenSheet) (rest : List Char) :
    sheetBody? (w.declaration.text ++ rest) = some (w.body, w.declaration.closing ++ rest) := by
  have hname : w.declaration.text ++ rest = "SMODS.Atlas".toList ++ (w.declaration.opening ++
      '{' :: (w.body ++ '}' :: (w.declaration.closing ++ rest))) := by
    rw [w.declaration.text_append]
    rfl
  have hbody : ∀ c ∈ w.body, (decide (c ≠ '}')) = true := fun c hc =>
    decide_eq_true (w.ne_brace_body c hc).2
  have hstop : StopsBefore (fun c => decide (c ≠ '}')) ('}' :: (w.declaration.closing ++ rest)) :=
    stopsBefore_cons (by decide) _
  rw [hname, sheetBody?, isPrefixOf?_append]
  change ((afterBrace? (dropBlank (dropParen (dropBlank _)))).bind _) = _
  rw [w.dropBlank_opening, afterBrace?, Option.bind_some, takeWhile_append_of_stops hbody hstop,
    dropWhile_append_of_stops hbody hstop]

/-- The bodies of a source's sheets are read one after the other. -/
theorem collect_writtenSheets (parts : List (Filler × WrittenSheet)) (last : Filler) :
    collect sheetBody? (writtenSheets parts last) = parts.map (·.2.body) := by
  have hread : ∀ s, ¬ namespaceDot <+: s → sheetBody? s = none := fun _ => sheetBody?_eq_none
  rw [writtenSheets, writtenSource]
  induction parts with
  | nil => exact collect_eq_nil (last.passes_nil hread)
  | cons part parts ih =>
    obtain ⟨filler, w⟩ := part
    have hlt : ∀ rest : List Char,
        (w.declaration.closing ++ rest).length < (w.declaration.text ++ rest).length := by
      intro rest
      rw [w.declaration.text_append]
      simp only [List.length_append, List.length_cons]
      omega
    have hfiller : ∀ rest, Passes sheetBody? filler.text (w.declaration.text ++ rest) := fun rest =>
      w.declaration.text_append rest ▸ filler.passes hread _
    rw [List.map_cons, List.flatMap_cons, List.append_assoc, List.append_assoc,
      collect_append (hfiller _), collect_of_read (w.sheetBody?_text _) (hlt _),
      collect_append (w.declaration.passes_closing hread _), ih, List.map_cons]

/-! ## The sheets of a source -/

/-- The sheets that are declared in a source, in order. -/
def declaredSheets (parts : List (Filler × WrittenSheet)) : List Sheet :=
  parts.map (·.2.fields.sheet)

/-- Sheets by their keys, as they are put into a map. -/
def keyed (declared : List Sheet) : List (String × Sheet) :=
  declared.map fun sheet => (sheet.key, sheet)

/-- The sheets that count among declared ones: under each key, in the order in which the keys come
first, the last one. -/
def lastDeclared (declared : List Sheet) : List (String × Sheet) :=
  (declared.map (·.key)).eraseDups.filterMap fun key =>
    (declared.filter (·.key == key)).getLast?.map fun sheet => (key, sheet)

theorem ofList_keyed (declared : List Sheet) :
    OrderedMap.ofList (keyed declared) = lastDeclared declared := by
  rw [OrderedMap.ofList_eq_filterMap, keyed, List.map_map, lastDeclared]
  refine List.filterMap_congr fun key _ => ?_
  rw [List.filter_map, List.getLast?_map, Option.map_map]
  rfl

theorem sheets_writtenSheets (parts : List (Filler × WrittenSheet)) (last : Filler) :
    sheets (writtenSheets parts last) = OrderedMap.ofList (keyed (declaredSheets parts)) := by
  have hbodies : (parts.map (·.2.body)).filterMap Sheet.ofBody? = declaredSheets parts := by
    rw [List.filterMap_map, declaredSheets, ← List.filterMap_eq_map]
    exact List.filterMap_congr fun part _ => part.2.ofBody?_body
  rw [sheets, collect_writtenSheets, hbodies]
  rfl

theorem sheetsOfAll_writtenSheets (texts : List (List (Filler × WrittenSheet) × Filler)) :
    sheetsOfAll (texts.map fun text => String.ofList (writtenSheets text.1 text.2)) =
      OrderedMap.ofList (keyed (texts.flatMap fun text => declaredSheets text.1)) := by
  have hkeyed : keyed (texts.flatMap fun text => declaredSheets text.1) =
      (texts.map fun text => keyed (declaredSheets text.1)).flatten :=
    List.map_flatMap.trans List.flatMap_def
  rw [sheetsOfAll, hkeyed, ← OrderedMap.foldl_union_ofList, List.foldl_map, List.foldl_map]
  simp only [String.toList_ofList, sheets_writtenSheets]

/-- The sheets of a source are the last ones declared under each key, whatever stands between them
and however they are written, and putting together the sheets of several sources that declare the
same ones comes to the same. -/
theorem sheets_written (parts : List (Filler × WrittenSheet)) (last : Filler) :
    sheets (writtenSheets parts last) = lastDeclared (declaredSheets parts) ∧
      ∀ texts : List (List (Filler × WrittenSheet) × Filler),
        (texts.flatMap fun text => declaredSheets text.1) = declaredSheets parts →
          sheetsOfAll (texts.map fun text => String.ofList (writtenSheets text.1 text.2)) =
            sheets (writtenSheets parts last) := by
  have hsheets := sheets_writtenSheets parts last
  refine ⟨hsheets.trans (ofList_keyed _), fun texts hsplit => ?_⟩
  rw [sheetsOfAll_writtenSheets, hsplit, hsheets]

/-- The sheet `SMODS.Atlas({ py = 95 , px = 71 , path = "a.png" , key = 'jokers' })`. -/
def sizedSheet : WrittenSheet where
  fields :=
    { key := (Layout.spaced, ⟨'\x27', "jokers".toList, rfl, by decide, by simp [isQuote]⟩)
      path := (Layout.spaced, ⟨'\x22', "a.png".toList, rfl, by decide, by simp [isQuote]⟩)
      tileWidth := some (Layout.spaced, .plain 71)
      tileHeight := some (Layout.spaced, .plain 95) }
  order := List.reverse _
  trail := none
  gap := []
  parenthesis := some []
  perm_order := List.reverse_perm _
  isBlank_trail := forall_isBlank_none
  isBlank_gap := forall_isBlank_nil
  isBlank_parenthesis := forall_isBlank_some forall_isBlank_nil

/-- The sheet `SMODS.Atlas { key = "jokers" , path = "b.png" , }`. -/
def plainSheet : WrittenSheet where
  fields :=
    { key := (Layout.spaced, ⟨'\x22', "jokers".toList, rfl, by decide, by simp [isQuote]⟩)
      path := (Layout.spaced, ⟨'\x22', "b.png".toList, rfl, by decide, by simp [isQuote]⟩)
      tileWidth := none
      tileHeight := none }
  order := _
  trail := some [' ']
  gap := [' ']
  parenthesis := none
  perm_order := List.Perm.refl _
  isBlank_trail := forall_isBlank_some forall_isBlank_space
  isBlank_gap := forall_isBlank_space
  isBlank_parenthesis := forall_isBlank_none

/-- The later sheet counts, without the tile sizes of the earlier one, in one source as in two. -/
theorem sheets_written_apart :
    let empty : Filler := ⟨[], by decide⟩
    let parts := [(empty, sizedSheet), (empty, plainSheet)]
    let texts := [([(empty, sizedSheet)], empty), ([(empty, plainSheet)], empty)]
    (texts.flatMap fun text => declaredSheets text.1) = declaredSheets parts ∧
      sheetsOfAll (texts.map fun text => String.ofList (writtenSheets text.1 text.2)) =
        sheets (writtenSheets parts empty) ∧
      sheets (writtenSheets parts empty) =
        [("jokers", { key := "jokers", path := "b.png", tileWidth := 0, tileHeight := 0 })] := by
  intro empty parts texts
  have hwritten := sheets_written parts empty
  exact ⟨rfl, hwritten.2 texts rfl, hwritten.1.trans (by decide +kernel)⟩

end ModAlmanac.Source
