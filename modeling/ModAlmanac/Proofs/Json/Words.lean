import ModAlmanac.Proofs.Finite
import ModAlmanac.Proofs.Json.RoundTrip
import ModAlmanac.Proofs.Number.Finite

/-!
# Words that JSON has no meaning for

Doubles without a notation in JSON are written as the words `NaN`, `Infinity` and `-Infinity`. Texts
may hold these words as well, between quotes, so that a document is looked at outside of its strings
(`outsideStrings`). There it holds one of the words exactly if the value that it writes is not
finite (`holdsForeignWord_iff`).

The words are the only ones with capital letters. What stands within a value is written within its
text (`infix_of_within`), so that a double that is not finite brings its word along; a finite value
is written without capitals (`scanned_valueText`).
-/

namespace ModAlmanac.Json

open Number Text

/-! ## Documents outside of their strings -/

/-- The text of a document without its strings. The flag tells whether a string has been opened; a
backslash in a string takes the next character with it. -/
def outsideStrings : Bool → List Char → List Char
  | _, [] => []
  | false, c :: rest =>
    if c = '\x22' then outsideStrings true rest else c :: outsideStrings false rest
  | true, [_] => []
  | true, c :: d :: rest =>
    if c = '\\' then outsideStrings true rest else outsideStrings (c ≠ '\x22') (d :: rest)

/-- Whether a document holds a word outside of its strings that is no JSON. -/
def HoldsForeignWord (document : List Char) : Prop :=
  "NaN".toList <:+: outsideStrings false document ∨
    "Infinity".toList <:+: outsideStrings false document

theorem outsideStrings_false_cons {c : Char} (h : c ≠ '\x22') (s : List Char) :
    outsideStrings false (c :: s) = c :: outsideStrings false s := by
  rw [outsideStrings, if_neg h]

theorem outsideStrings_true_escape (c : Char) (s : List Char) :
    outsideStrings true ('\\' :: c :: s) = outsideStrings true s := by
  rw [outsideStrings, if_pos rfl]

/-- A string goes on behind a character that is no quote and no backslash. -/
theorem outsideStrings_true_cons {c : Char} (hquote : c ≠ '\x22') (hescape : c ≠ '\\')
    (s : List Char) : outsideStrings true (c :: s) = outsideStrings true s := by
  cases s with
  | nil => rfl
  | cons d s => rw [outsideStrings, if_neg hescape, decide_eq_true hquote]

/-- The closing quote. -/
theorem outsideStrings_true_quote (s : List Char) :
    outsideStrings true ('\x22' :: s) = outsideStrings false s := by
  cases s with
  | nil => rfl
  | cons d s => rfl

/-! ## Strings -/

/-- A row of characters that neither close a string nor escape anything. -/
theorem outsideStrings_true_append {run : List Char}
    (h : ∀ c ∈ run, c ≠ '\x22' ∧ c ≠ '\\') (s : List Char) :
    outsideStrings true (run ++ s) = outsideStrings true s := by
  induction run with
  | nil => rfl
  | cons c run ih =>
    obtain ⟨hc, hrun⟩ := List.forall_mem_cons.1 h
    rw [List.cons_append, outsideStrings_true_cons hc.1 hc.2, ih hrun]

theorem ne_of_mem_hexPadded {n : Nat} (h : n < 0x10000) :
    ∀ c ∈ hexPadded 4 n, c ≠ '\x22' ∧ c ≠ '\\' := by
  have hdigit : ∀ d < 16, d.digitChar ≠ '\x22' ∧ d.digitChar ≠ '\\' := by decide
  rw [hexPadded_four h]
  simp only [List.forall_mem_cons]
  exact ⟨hdigit _ (by omega), hdigit _ (by omega), hdigit _ (by omega), hdigit _ (by omega),
    fun _ hc => absurd hc List.not_mem_nil⟩

theorem outsideStrings_escapedUnit {n : Nat} (h : n < 0x10000) (s : List Char) :
    outsideStrings true (escapedUnit n ++ s) = outsideStrings true s := by
  rw [escapedUnit, List.cons_append, List.cons_append, outsideStrings_true_escape,
    outsideStrings_true_append (ne_of_mem_hexPadded h)]

/-- A written character leaves a string open. -/
theorem outsideStrings_stringChar (ascii : Bool) (c : Char) (s : List Char) :
    outsideStrings true (stringChar ascii c ++ s) = outsideStrings true s := by
  have hrange := Utf8.toNat_lt_or_gt c
  unfold stringChar
  split
  · exact outsideStrings_true_escape _ s
  split
  · exact outsideStrings_true_escape _ s
  split
  · exact outsideStrings_true_escape _ s
  split
  · exact outsideStrings_true_escape _ s
  split
  · exact outsideStrings_true_escape _ s
  split
  · exact outsideStrings_true_escape _ s
  split
  · exact outsideStrings_true_escape _ s
  split
  · exact outsideStrings_escapedUnit (by omega) s
  split
  · unfold escapedUnits
    dsimp only
    split
    · exact outsideStrings_escapedUnit (by omega) s
    · rw [List.append_assoc, outsideStrings_escapedUnit (by omega),
        outsideStrings_escapedUnit (by omega)]
  · next hquote hescape _ _ _ _ _ _ _ => exact outsideStrings_true_cons hquote hescape s

/-- A written text is skipped. -/
theorem outsideStrings_stringText (ascii : Bool) (text : String) (s : List Char) :
    outsideStrings false (stringText ascii text ++ s) = outsideStrings false s := by
  have hbody : ∀ chars : List Char, outsideStrings true
      (chars.flatMap (stringChar ascii) ++ '\x22' :: s) = outsideStrings false s := by
    intro chars
    induction chars with
    | nil => exact outsideStrings_true_quote s
    | cons c chars ih => rw [List.flatMap_cons, List.append_assoc, outsideStrings_stringChar, ih]
  rw [stringText, List.cons_append, List.cons_append, List.append_assoc, List.singleton_append,
    outsideStrings, if_pos rfl, hbody]

/-! ## Parts of a document -/

/-- A part of a document that closes all strings it opens, and that has no capitals outside of them
under some condition. -/
structure Scanned (finite : Prop) (part : List Char) : Prop where
  closed : ∀ s, outsideStrings false (part ++ s) =
    outsideStrings false part ++ outsideStrings false s
  lower : finite → ∀ c ∈ outsideStrings false part, c.isUpper = false

theorem Scanned.append {p q : Prop} {a b : List Char} (ha : Scanned p a) (hb : Scanned q b) :
    Scanned (p ∧ q) (a ++ b) where
  closed s := by rw [List.append_assoc, ha.closed, hb.closed, ha.closed, List.append_assoc]
  lower h c hc := by
    rw [ha.closed] at hc
    rcases List.mem_append.1 hc with hc | hc
    · exact ha.lower h.1 c hc
    · exact hb.lower h.2 c hc

theorem Scanned.imp {p q : Prop} {part : List Char} (h : Scanned p part) (hqp : q → p) :
    Scanned q part :=
  ⟨h.closed, fun hq => h.lower (hqp hq)⟩

theorem outsideStrings_append_of_ne {part : List Char} (h : ∀ c ∈ part, c ≠ '\x22')
    (s : List Char) : outsideStrings false (part ++ s) = part ++ outsideStrings false s := by
  induction part with
  | nil => rfl
  | cons c part ih =>
    obtain ⟨hc, hpart⟩ := List.forall_mem_cons.1 h
    rw [List.cons_append, outsideStrings_false_cons hc, ih hpart, List.cons_append]

theorem outsideStrings_of_ne {part : List Char} (h : ∀ c ∈ part, c ≠ '\x22') :
    outsideStrings false part = part := by
  have hpart := outsideStrings_append_of_ne h []
  rwa [List.append_nil, outsideStrings, List.append_nil] at hpart

/-- A part without quotes. -/
theorem scanned_of_ne {p : Prop} {part : List Char} (hquote : ∀ c ∈ part, c ≠ '\x22')
    (hupper : p → ∀ c ∈ part, c.isUpper = false) : Scanned p part where
  closed s := by rw [outsideStrings_append_of_ne hquote, outsideStrings_of_ne hquote]
  lower := by rwa [outsideStrings_of_ne hquote]

/-- Whether a character is neither a quote nor a capital. -/
def isPlainChar (c : Char) : Bool :=
  c != '\x22' && !c.isUpper

theorem scanned_of_all {p : Prop} {part : List Char} (h : part.all isPlainChar = true) :
    Scanned p part := by
  have hplain : ∀ c ∈ part, c ≠ '\x22' ∧ c.isUpper = false := by
    simpa [isPlainChar] using h
  exact scanned_of_ne (fun c hc => (hplain c hc).1) fun _ c hc => (hplain c hc).2

theorem scanned_stringText (ascii : Bool) (text : String) :
    Scanned True (stringText ascii text) := by
  have hempty : outsideStrings false (stringText ascii text) = [] := by
    have htext := outsideStrings_stringText ascii text []
    rwa [List.append_nil] at htext
  refine ⟨fun s => ?_, fun _ => ?_⟩
  · rw [outsideStrings_stringText, hempty, List.nil_append]
  · rw [hempty]
    exact fun _ hc => absurd hc List.not_mem_nil

/-! ## Numbers -/

/-- What numerals are made of. -/
def IsNumeralChar (c : Char) : Prop :=
  c.isDigit = true ∨ c = '-' ∨ c = '+' ∨ c = '.' ∨ c = 'e'

theorem isPlainChar_of_isNumeralChar {c : Char} (h : IsNumeralChar c) : isPlainChar c = true := by
  rcases h with h | rfl | rfl | rfl | rfl
  · have hrange := Char.isDigit_iff_toNat.1 h
    have hquote : c ≠ '\x22' := by
      rintro rfl
      cases h
    have hupper : c.isUpper = false := by
      refine Bool.eq_false_iff.2 fun hupper => ?_
      simp only [Char.isUpper, ge_iff_le, UInt32.le_iff_toNat_le, decide_eq_true_eq] at hupper
      exact absurd (hupper.1.trans hrange.2) (by decide)
    simp [isPlainChar, hquote, hupper]
  all_goals rfl

theorem scanned_of_isNumeralChar {p : Prop} {part : List Char}
    (h : ∀ c ∈ part, IsNumeralChar c) : Scanned p part :=
  scanned_of_all (List.all_eq_true.2 fun c hc => isPlainChar_of_isNumeralChar (h c hc))

theorem isNumeralChar_of_mem_sign {negative : Bool} {c : Char}
    (h : c ∈ if negative then ['-'] else []) : IsNumeralChar c := by
  cases negative with
  | false => cases h
  | true => exact .inr (.inl (List.mem_singleton.1 h))

theorem scanned_intText {p : Prop} (n : Int) : Scanned p (intText n) := by
  rw [intText_eq]
  refine scanned_of_isNumeralChar fun c hc => ?_
  rcases List.mem_append.1 hc with hc | hc
  · exact isNumeralChar_of_mem_sign hc
  · exact .inl (isDigit_of_mem_toDigits hc)

theorem isNumeralChar_of_mem_text {w : Written} (hw : w.IsNumeral) {c : Char} (h : c ∈ w.text) :
    IsNumeralChar c := by
  rcases List.mem_append.1 h with h | h
  · exact .inl (hw.isDigit_whole c h)
  rcases List.mem_append.1 h with h | h
  · unfold pointText at h
    split at h
    · cases h
    · next hfraction =>
      rcases List.mem_cons.1 h with rfl | h
      · exact .inr (.inr (.inr (.inl rfl)))
      · exact .inl (hw.isDigit_fraction c (by rw [hfraction]; exact h))
  · unfold exponentText at h
    split at h
    · cases h
    · rcases List.mem_cons.1 h with rfl | h
      · exact .inr (.inr (.inr (.inr rfl)))
      rcases List.mem_cons.1 h with rfl | h
      · split
        · exact .inr (.inl rfl)
        · exact .inr (.inr (.inl rfl))
      · exact .inl (isDigit_of_mem_exponentDigits h)

/-- What a double that is not finite is written as. -/
theorem doubleText_of_not_isFinite {x : Float} (h : x.isFinite = false) :
    doubleText x = "NaN".toList ∨ doubleText x = "Infinity".toList ∨
      doubleText x = '-' :: "Infinity".toList := by
  unfold doubleText floatText
  rw [(isFinite_eq_false_iff x).1 h]
  dsimp only
  split
  · exact .inl rfl
  · split
    · exact .inr (.inr rfl)
    · exact .inr (.inl rfl)

theorem scanned_doubleText (x : Float) : Scanned (x.isFinite = true) (doubleText x) := by
  cases hx : x.isFinite with
  | true =>
    have hparts : parts? x ≠ none := fun h => by
      rw [(isFinite_eq_false_iff x).2 h] at hx
      cases hx
    obtain ⟨p, hp⟩ := Option.ne_none_iff_exists'.1 hparts
    obtain ⟨w, hw, htext, -⟩ := exists_written hp
    have hdouble : doubleText x = p.text := by
      unfold doubleText floatText
      rw [hp]
    rw [hdouble, htext]
    refine scanned_of_isNumeralChar fun c hc => ?_
    rcases List.mem_append.1 hc with hc | hc
    · exact isNumeralChar_of_mem_sign hc
    · exact isNumeralChar_of_mem_text hw.toIsNumeral hc
  | false =>
    have hquote : ∀ {word : List Char}, word.all (· != '\x22') = true →
        ∀ c ∈ word, c ≠ '\x22' := by simp
    refine scanned_of_ne ?_ fun h => nomatch h
    rcases doubleText_of_not_isFinite hx with h | h | h <;> (rw [h]; exact hquote rfl)

/-! ## Values -/

section

variable (layout : Layout)

theorem scanned_newLine (level : Nat) : Scanned True (layout.newLine level) := by
  refine scanned_of_all (List.all_eq_true.2 fun c hc => ?_)
  unfold Layout.newLine at hc
  split at hc
  · rcases List.mem_cons.1 hc with rfl | hc
    · rfl
    · rw [List.eq_of_mem_replicate hc]
      rfl
  · cases hc

theorem scanned_separator (level : Nat) : Scanned True (layout.separator level) := by
  have hcomma : Scanned True [','] := scanned_of_all rfl
  unfold Layout.separator
  split
  · exact (hcomma.append (scanned_newLine layout level)).imp fun _ => ⟨trivial, trivial⟩
  · exact scanned_of_all rfl

theorem scanned_fieldHead (name : String) : Scanned True (fieldHead layout.ascii name) := by
  have hcolon : Scanned True [':', ' '] := scanned_of_all rfl
  exact ((scanned_stringText layout.ascii name).append hcolon).imp fun _ => ⟨trivial, trivial⟩

/-- The text of a list or a table around the text of what it holds. -/
def enclosed (level : Nat) (opening closing : Char) (body : List Char) : List Char :=
  opening :: (layout.newLine (level + 1) ++ (body ++ (layout.newLine level ++ [closing])))

theorem Scanned.enclosed {p : Prop} {body : List Char} (h : Scanned p body) (level : Nat)
    {opening closing : Char} (hopening : isPlainChar opening = true)
    (hclosing : isPlainChar closing = true) :
    Scanned p (enclosed layout level opening closing body) := by
  have hfront : Scanned True [opening] := scanned_of_all (by simp [hopening])
  have hback : Scanned True [closing] := scanned_of_all (by simp [hclosing])
  have hall := hfront.append ((scanned_newLine layout (level + 1)).append
    (h.append ((scanned_newLine layout level).append hback)))
  exact hall.imp fun hp => ⟨trivial, trivial, hp, trivial, trivial⟩

theorem Scanned.infix_left {p : Prop} {a : List Char} (ha : Scanned p a) (b : List Char) :
    outsideStrings false a <:+: outsideStrings false (a ++ b) := by
  rw [ha.closed]
  exact (List.prefix_append _ _).isInfix

theorem Scanned.infix_right {p : Prop} {a : List Char} (ha : Scanned p a) (b : List Char) :
    outsideStrings false b <:+: outsideStrings false (a ++ b) := by
  rw [ha.closed]
  exact (List.suffix_append _ _).isInfix

theorem Scanned.infix_enclosed {p : Prop} {body : List Char} (h : Scanned p body) (level : Nat)
    {opening : Char} (hopening : isPlainChar opening = true) (closing : Char) :
    outsideStrings false body <:+:
      outsideStrings false (Json.enclosed layout level opening closing body) := by
  have hfront : Scanned True [opening] := scanned_of_all (by simp [hopening])
  have hline := hfront.append (scanned_newLine layout (level + 1))
  exact (h.infix_left _).trans (hline.infix_right _)

-- The induction is on what is written.
mutual

/-- A value closes its strings, and has no capitals outside of them if it is finite. -/
theorem scanned_valueText : ∀ (v : Value) (level : Nat),
    Scanned v.IsFinite (valueText layout level v)
  | .nil, _ => scanned_of_all rfl
  | .bool true, _ => scanned_of_all rfl
  | .bool false, _ => scanned_of_all rfl
  | .int n, _ => scanned_intText n
  | .float x, _ => (scanned_doubleText x).imp isFinite_float.1
  | .text s, _ => (scanned_stringText layout.ascii s).imp fun _ => trivial
  | .list [], _ => scanned_of_all rfl
  | .list (item :: items), level => by
    rw [valueText_list]
    exact ((scanned_itemsBody (item :: items) (level + 1)).imp isFinite_list.1).enclosed layout
      level rfl rfl
  | .table [], _ => scanned_of_all rfl
  | .table (field :: fields), level => by
    rw [valueText_table]
    exact ((scanned_fieldsBody (field :: fields) (level + 1)).imp isFinite_table.1).enclosed layout
      level rfl rfl

theorem scanned_itemsBody : ∀ (items : List Value) (level : Nat),
    Scanned (∀ v ∈ items, v.IsFinite) (itemsBody layout level items)
  | [], _ => scanned_of_all rfl
  | [item], level => by
    rw [itemsBody, itemsText, List.append_nil]
    exact (scanned_valueText item level).imp List.forall_mem_singleton.1
  | item :: next :: items, level => by
    rw [itemsBody, itemsText_cons]
    exact ((scanned_valueText item level).append ((scanned_separator layout level).append
      (scanned_itemsBody (next :: items) level))).imp fun h =>
        ⟨(List.forall_mem_cons.1 h).1, trivial, (List.forall_mem_cons.1 h).2⟩

theorem scanned_fieldsBody : ∀ (fields : List (Key × Value)) (level : Nat),
    Scanned (∀ e ∈ fields, e.2.IsFinite) (fieldsBody layout level fields)
  | [], _ => scanned_of_all rfl
  | [(key, value)], level => by
    rw [fieldsBody, fieldsText, List.append_nil]
    exact ((scanned_fieldHead layout (keyName key)).append (scanned_valueText value level)).imp
      fun h => ⟨trivial, h _ (List.mem_singleton.2 rfl)⟩
  | (key, value) :: next :: fields, level => by
    rw [fieldsBody, fieldsText_cons]
    exact ((scanned_fieldHead layout (keyName key)).append ((scanned_valueText value level).append
      ((scanned_separator layout level).append (scanned_fieldsBody (next :: fields) level)))).imp
        fun h => ⟨trivial, (List.forall_mem_cons.1 h).1, trivial, (List.forall_mem_cons.1 h).2⟩

end

theorem infix_itemsBody {v : Value} {items : List Value} (h : v ∈ items) (level : Nat) :
    outsideStrings false (valueText layout level v) <:+:
      outsideStrings false (itemsBody layout level items) := by
  induction items with
  | nil => cases h
  | cons item items ih =>
    have hitem := scanned_valueText layout item level
    rcases List.mem_cons.1 h with rfl | hmem
    · rw [itemsBody]
      exact hitem.infix_left _
    · obtain ⟨next, more, rfl⟩ := List.exists_cons_of_ne_nil (List.ne_nil_of_mem hmem)
      rw [itemsBody, itemsText_cons, ← List.append_assoc]
      exact (ih hmem).trans ((hitem.append (scanned_separator layout level)).infix_right _)

theorem infix_fieldsBody {e : Key × Value} {fields : List (Key × Value)} (h : e ∈ fields)
    (level : Nat) :
    outsideStrings false (valueText layout level e.2) <:+:
      outsideStrings false (fieldsBody layout level fields) := by
  induction fields with
  | nil => cases h
  | cons field fields ih =>
    obtain ⟨key, value⟩ := field
    have hvalue := scanned_valueText layout value level
    have hhead := scanned_fieldHead layout (keyName key)
    rw [fieldsBody]
    rcases List.mem_cons.1 h with rfl | hmem
    · exact (hvalue.infix_left _).trans (hhead.infix_right _)
    · obtain ⟨next, more, rfl⟩ := List.exists_cons_of_ne_nil (List.ne_nil_of_mem hmem)
      rw [fieldsText_cons, ← List.append_assoc, ← List.append_assoc]
      exact (ih hmem).trans
        (((hhead.append hvalue).append (scanned_separator layout level)).infix_right _)

/-- The text of what stands within a value is found in the text of the value. -/
theorem infix_of_within {w v : Value} (h : w.Within v) (level : Nat) :
    ∃ inner, outsideStrings false (valueText layout inner w) <:+:
      outsideStrings false (valueText layout level v) := by
  induction h generalizing level with
  | self => exact ⟨level, List.infix_refl _⟩
  | @item v items hv _ ih =>
    obtain ⟨inner, hinner⟩ := ih (level + 1)
    obtain ⟨item, more, rfl⟩ := List.exists_cons_of_ne_nil (List.ne_nil_of_mem hv)
    have hbody := scanned_itemsBody layout (item :: more) (level + 1)
    refine ⟨inner, (hinner.trans (infix_itemsBody layout hv (level + 1))).trans ?_⟩
    rw [valueText_list]
    exact hbody.infix_enclosed layout level rfl ']'
  | @field key v fields hv _ ih =>
    obtain ⟨inner, hinner⟩ := ih (level + 1)
    obtain ⟨field, more, rfl⟩ := List.exists_cons_of_ne_nil (List.ne_nil_of_mem hv)
    have hbody := scanned_fieldsBody layout (field :: more) (level + 1)
    refine ⟨inner, (hinner.trans (infix_fieldsBody layout hv (level + 1))).trans ?_⟩
    rw [valueText_table]
    exact hbody.infix_enclosed layout level rfl '}'

end

/-! ## Documents -/

theorem holdsForeignWord_doubleText {x : Float} (h : x.isFinite = false) :
    HoldsForeignWord (doubleText x) := by
  unfold HoldsForeignWord
  rcases doubleText_of_not_isFinite h with h | h | h
  · rw [h]
    exact .inl (List.infix_refl _)
  · rw [h]
    exact .inr (List.infix_refl _)
  · rw [h]
    exact .inr (List.suffix_cons '-' _).isInfix

/-- The document of a value holds a word that is no JSON exactly if the value is not finite. -/
theorem holdsForeignWord_iff (layout : Layout) (v : Value) :
    HoldsForeignWord (valueText layout 0 v) ↔ ¬v.IsFinite := by
  constructor
  · intro h hfinite
    have hlower := (scanned_valueText layout v 0).lower hfinite
    rcases h with h | h
    · exact absurd (hlower 'N' (h.subset (by decide))) (by decide)
    · exact absurd (hlower 'I' (h.subset (by decide))) (by decide)
  · intro h
    obtain ⟨x, hx, hfinite⟩ := not_isFinite_iff.1 h
    obtain ⟨inner, hinner⟩ := infix_of_within layout hx 0
    exact (holdsForeignWord_doubleText hfinite).imp (·.trans hinner) (·.trans hinner)

end ModAlmanac.Json
