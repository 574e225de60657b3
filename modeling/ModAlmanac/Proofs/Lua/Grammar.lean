import ModAlmanac.Lua.Table
import ModAlmanac.Proofs.Number.Written
import ModAlmanac.Proofs.Text.Blank

/-!
# Written tables

The sources that write a table (`Written`), with all the freedom that a writer has: between two
tokens may stand white space and comments, and fields are separated by commas or semicolons, with or
without one behind the last field. A source loses its comments and its semicolons before it is read,
which leaves less freedom (`Writing.plain`), so the grammar takes that freedom as a parameter.

What is written ends where a field does: `Follows` describes what can stand behind a value.
-/

namespace ModAlmanac.Lua

open Number Text

/-! ## Gaps -/

/-- White space and comments, in any order. A comment goes on to the end of its line. -/
inductive Commented : List Char → Prop
  | nil : Commented []
  | blank {c : Char} {s : List Char} (hc : isBlank c = true) (h : Commented s) : Commented (c :: s)
  | comment {text s : List Char} (htext : '\n' ∉ text) (h : Commented s) :
      Commented ('-' :: '-' :: (text ++ '\n' :: s))

/-- The freedom in writing a table: what can stand between two tokens, and what between two
fields. -/
structure Writing where
  isGap : List Char → Prop
  isSeparator : Char → Prop

def Writing.free : Writing :=
  { isGap := Commented, isSeparator := fun c => c = ',' ∨ c = ';' }

def Writing.plain : Writing :=
  { isGap := fun s => ∀ c ∈ s, isBlank c = true, isSeparator := fun c => c = ',' }

/-! ## Values -/

/-- A text that stands between double quotes as it is. -/
def IsPlainText (s : List Char) : Prop :=
  ∀ c ∈ s, c ≠ '\x22' ∧ c ≠ '\\' ∧ c ≠ '\n'

/-- A name that a field can have: an ASCII identifier that begins with no literal word. -/
structure IsFieldName (name : List Char) : Prop where
  head : ∃ c more, name = c :: more ∧ isNameStart c = true
  isNameChar : ∀ c ∈ name, (c.isAlphanum || c = '_') = true
  noLiteral : ∀ word, isLiteralWord word = true → ¬ word <+: name

/-- What makes a field name, checked character by character. -/
theorem isFieldName_of_forall {c : Char} {more : List Char} (hc : isNameStart c = true)
    (hchars : ((c :: more).all fun c => c.isAlphanum || c = '_') = true)
    (hliteral : ∀ word ∈ (c :: more).inits, isLiteralWord word = false) :
    IsFieldName (c :: more) where
  head := ⟨c, more, rfl, hc⟩
  isNameChar := List.all_eq_true.1 hchars
  noLiteral word hword hstarts :=
    absurd (hliteral word ((List.mem_inits _ _).2 hstarts)) (by simp [hword])

def boolWord (b : Bool) : List Char :=
  if b then "true".toList else "false".toList

/-- A field of a table, under its name or without one. -/
abbrev Field := Option (List Char) × Value

mutual

/-- The sources that write a value. A table without fields counts as one with names. -/
inductive Written (w : Writing) : Value → List Char → Prop
  | text {s : List Char} (hs : IsPlainText s) :
      Written w (.text (String.ofList s)) ('\x22' :: s ++ ['\x22'])
  | int (n : Int) : Written w (.int n) (intText n)
  | bool (b : Bool) : Written w (.bool b) (boolWord b)
  | empty {gap : List Char} (hgap : w.isGap gap) : Written w (.table []) ('{' :: gap ++ ['}'])
  | list {items : List Value} {s : List Char} (h : WrittenRow w (items.map (none, ·)) s) :
      Written w (.list items) ('{' :: s ++ ['}'])
  | table {fields : List (List Char × Value)} {s : List Char}
      (hnames : (fields.map Prod.fst).Nodup)
      (h : WrittenRow w (fields.map fun field => (some field.1, field.2)) s) :
      Written w (.table (fields.map fun field => (.text (String.ofList field.1), field.2)))
        ('{' :: s ++ ['}'])

inductive WrittenField (w : Writing) : Option (List Char) → Value → List Char → Prop
  | item {v : Value} {s : List Char} (h : Written w v s) : WrittenField w none v s
  | named {name blank gap s : List Char} {v : Value} (hname : IsFieldName name)
      (hblank : ∀ c ∈ blank, isBlank c = true) (hgap : w.isGap gap) (h : Written w v s) :
      WrittenField w (some name) v (name ++ blank ++ '=' :: (gap ++ s))

/-- The sources that write the fields of a table, of which there is at least one. -/
inductive WrittenRow (w : Writing) : List Field → List Char → Prop
  | last {name : Option (List Char)} {v : Value} {front s behind : List Char}
      (hfront : w.isGap front) (h : WrittenField w name v s) (hbehind : w.isGap behind) :
      WrittenRow w [(name, v)] (front ++ (s ++ behind))
  | trailing {name : Option (List Char)} {v : Value} {front s behind after : List Char} {c : Char}
      (hfront : w.isGap front) (h : WrittenField w name v s) (hbehind : w.isGap behind)
      (hc : w.isSeparator c) (hafter : w.isGap after) :
      WrittenRow w [(name, v)] (front ++ (s ++ (behind ++ c :: after)))
  | more {name : Option (List Char)} {v : Value} {front s behind t : List Char} {c : Char}
      {row : List Field} (hfront : w.isGap front) (h : WrittenField w name v s)
      (hbehind : w.isGap behind) (hc : w.isSeparator c) (hrow : WrittenRow w row t) :
      WrittenRow w ((name, v) :: row) (front ++ (s ++ (behind ++ c :: t)))

end

/-- Whether a value is a list or a table. -/
def isCompound : Value → Bool
  | .list _ => true
  | .table _ => true
  | _ => false

theorem Written.exists_braces {w : Writing} {v : Value} {s : List Char} (h : Written w v s)
    (hv : isCompound v = true) : ∃ inner, s = '{' :: inner ++ ['}'] := by
  cases h with
  | text => cases hv
  | int => cases hv
  | bool => cases hv
  | empty => exact ⟨_, rfl⟩
  | list => exact ⟨_, rfl⟩
  | table => exact ⟨_, rfl⟩

/-! ## What a value begins with -/

/-- Whether a value can begin with a character. -/
def startsValue (c : Char) : Bool :=
  c.isDigit || ['\x22', '-', 't', 'f', '{'].contains c

theorem intText_cons (n : Int) :
    ∃ c more, intText n = c :: more ∧ (c = '-' ∨ c.isDigit = true) := by
  obtain ⟨d, more, hmore, hd⟩ := exists_toDigits_cons n.natAbs
  rw [intText_eq, hmore]
  cases decide (n < 0) with
  | true => exact ⟨'-', d :: more, rfl, .inl rfl⟩
  | false => exact ⟨d, more, rfl, .inr hd⟩

theorem Written.exists_cons {w : Writing} {v : Value} {s : List Char} (h : Written w v s) :
    ∃ c more, s = c :: more ∧ startsValue c = true := by
  cases h with
  | text => exact ⟨_, _, rfl, by decide⟩
  | int n =>
    obtain ⟨c, more, heq, hc⟩ := intText_cons n
    refine ⟨c, more, heq, ?_⟩
    rcases hc with rfl | hc
    · decide
    · rw [startsValue, hc, Bool.true_or]
  | bool b => cases b <;> exact ⟨_, _, rfl, by decide⟩
  | empty => exact ⟨_, _, rfl, by decide⟩
  | list => exact ⟨_, _, rfl, by decide⟩
  | table => exact ⟨_, _, rfl, by decide⟩

theorem toNat_lt_of_isDigit {c : Char} (h : c.isDigit = true) : c.toNat < 128 :=
  toNat_lt_of_isAlphanum (by rw [Char.isAlphanum, h, Bool.or_true, Bool.true_or])

theorem toNat_lt_of_isNameStart {c : Char} (h : isNameStart c = true) : c.toNat < 128 := by
  apply toNat_lt_of_isAlphanum
  rw [isNameStart] at h
  rw [Char.isAlphanum, Bool.or_right_comm, h, Bool.true_or]

theorem toNat_lt_of_startsValue {c : Char} (h : startsValue c = true) : c.toNat < 128 := by
  rcases Bool.or_eq_true_iff.1 h with h | h
  · exact toNat_lt_of_isDigit h
  · have hmem := List.contains_iff_mem.1 h
    simp only [List.mem_cons, List.not_mem_nil, or_false] at hmem
    rcases hmem with rfl | rfl | rfl | rfl | rfl <;> decide

/-- What begins a name begins nothing else. -/
theorem of_isNameStart {c : Char} (h : isNameStart c = true) :
    (c ≠ '\x22' ∧ c ≠ '\x27') ∧ c ≠ '-' ∧ c ≠ '.' ∧ c ≠ '[' ∧ c ≠ '\n' ∧ isAnyDigit c = false := by
  have := forall_ascii (p := fun c => !isNameStart c ||
    ((c ≠ '\x22' && c ≠ '\x27') && c ≠ '-' && c ≠ '.' && c ≠ '[' && c ≠ '\n' && !isAnyDigit c))
    (by decide +kernel) (toNat_lt_of_isNameStart h)
  simpa [h, and_assoc] using this

/-- What begins a field is no white space, and no mark that ends one. -/
theorem of_startsField {c : Char} (h : startsValue c = true ∨ isNameStart c = true) :
    isBlank c = false ∧ c ≠ '}' ∧ c ≠ ',' ∧ c ≠ '=' := by
  have := forall_ascii (p := fun c => !(startsValue c || isNameStart c) ||
    (!isBlank c && c ≠ '}' && c ≠ ',' && c ≠ '=')) (by decide +kernel)
    (h.elim toNat_lt_of_startsValue toNat_lt_of_isNameStart)
  simp only [Bool.or_eq_true_iff.2 h, Bool.not_true, Bool.false_or] at this
  simpa [and_assoc] using this

/-! ## What stands behind a value -/

/-- Whether a character can stand behind a value: white space, the beginning of a comment, a
separator or the closing brace. -/
def isStop (c : Char) : Bool :=
  isBlank c || ['-', ',', ';', '}'].contains c

/-- What holds of every character that can stand behind a value, checked one by one. -/
theorem forall_isStop {p : Char → Bool}
    (hblank : blankCodes.all (fun n => p (Char.ofNat n)) = true)
    (hmark : ['-', ',', ';', '}'].all p = true) {c : Char} (hc : isStop c = true) : p c = true := by
  rcases Bool.or_eq_true_iff.1 hc with hc | hc
  · exact forall_isBlank hblank hc
  · exact List.all_eq_true.1 hmark c (List.contains_iff_mem.1 hc)

/-- A text that can stand behind a value: it ends the value, and it makes no name of it. -/
structure Follows (rest : List Char) : Prop where
  isStop_head : ∀ c, rest.head? = some c → isStop c = true
  noSign : isSingleSign (dropBlank rest) = false

theorem follows_nil : Follows [] where
  isStop_head _ hc := nomatch hc
  noSign := rfl

theorem follows_cons {c : Char} (hc : ['-', ',', ';', '}'].contains c = true) (rest : List Char) :
    Follows (c :: rest) where
  isStop_head d hd := by
    cases hd
    rw [isStop, hc, Bool.or_true]
  noSign := by
    have hmem := List.contains_iff_mem.1 hc
    simp only [List.mem_cons, List.not_mem_nil, or_false] at hmem
    rcases hmem with rfl | rfl | rfl | rfl <;> rfl

theorem Follows.blank {c : Char} (hc : isBlank c = true) {rest : List Char} (h : Follows rest) :
    Follows (c :: rest) where
  isStop_head d hd := by
    cases hd
    rw [isStop, hc, Bool.true_or]
  noSign := by
    rw [dropBlank, List.dropWhile_cons_of_pos hc]
    exact h.noSign

theorem Follows.commented {gap rest : List Char} (hgap : Commented gap) (h : Follows rest) :
    Follows (gap ++ rest) := by
  induction hgap with
  | nil => exact h
  | blank hc _ ih => exact ih.blank hc
  | comment => exact follows_cons (by decide) _

theorem Follows.blanks {gap rest : List Char} (hgap : ∀ c ∈ gap, isBlank c = true)
    (h : Follows rest) : Follows (gap ++ rest) := by
  induction gap with
  | nil => exact h
  | cons c gap ih =>
    obtain ⟨hc, hgap⟩ := List.forall_mem_cons.1 hgap
    exact (ih hgap).blank hc

/-- What can stand behind a value stops it. -/
theorem Follows.stopsBefore {p : Char → Bool} {rest : List Char} (h : Follows rest)
    (hblank : blankCodes.all (fun n => !p (Char.ofNat n)) = true)
    (hmark : ['-', ',', ';', '}'].all (fun c => !p c) = true) : StopsBefore p rest := by
  intro c hc
  have := forall_isStop (p := fun c => !p c) hblank hmark (h.isStop_head c hc)
  simpa using this

/-- Whether a numeral goes on with a character. -/
def continuesNumeral (c : Char) : Bool :=
  isAnyDigit c || ['.', 'e', 'E', 'x', 'X'].contains c

theorem not_continuesNumeral {c : Char} (h : continuesNumeral c = false) :
    isAnyDigit c = false ∧ c ∉ ['.', 'e', 'E', 'x', 'X'] := by
  rw [continuesNumeral, Bool.or_eq_false_iff] at h
  exact ⟨h.1, fun hmem => Bool.false_ne_true (h.2.symm.trans (List.contains_iff_mem.2 hmem))⟩

theorem Follows.stopsNumeral {rest : List Char} (h : Follows rest) :
    StopsBefore continuesNumeral rest :=
  h.stopsBefore (by decide +kernel) (by decide +kernel)

theorem Follows.stopsWord {rest : List Char} (h : Follows rest) : StopsBefore isWordChar rest :=
  h.stopsBefore (by decide +kernel) (by decide +kernel)

/-- A text that can stand behind a scalar, between brackets too: no numeral and no word goes on with
it, and it makes no name of a word. -/
structure Ends (rest : List Char) : Prop where
  stopsNumeral : StopsBefore continuesNumeral rest
  stopsWord : StopsBefore isWordChar rest
  noSign : isSingleSign (dropBlank rest) = false

theorem Follows.ends {rest : List Char} (h : Follows rest) : Ends rest where
  stopsNumeral := h.stopsNumeral
  stopsWord := h.stopsWord
  noSign := h.noSign

theorem ends_bracket (rest : List Char) : Ends (']' :: rest) where
  stopsNumeral := stopsBefore_cons (by decide) rest
  stopsWord := stopsBefore_cons (by decide) rest
  noSign := rfl

end ModAlmanac.Lua
