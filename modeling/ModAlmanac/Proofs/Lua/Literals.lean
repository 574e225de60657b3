import ModAlmanac.Proofs.Lua.Scalars

/-!
# Literal tables

The sources of tables that are made of literals (`Literal`), nested to any depth, with fields of
every kind in any order: behind names, behind scalars in brackets, and without a key. A literal is
told together with its value. The value of a table is what its fields make (`tableOf?`), where a
field without a key is numbered by its place among all fields.

A literal is written anew as a text that is read back as its value (`Literal.exists_text`), so that
its source is decoded to it (`decodeTable_literal`).
-/

namespace ModAlmanac.Lua

open Number Text OrderedMap

/-! ## The grammar -/

/-- What the fields of a table make. -/
def tableOf? (row : List Slot) : Option Value :=
  closedTable? (ofList (entriesFrom 0 row))

mutual

inductive Literal : Value → List Char → Prop
  | scalar {v : Value} {s : List Char} (h : Scalar v s) : Literal v s
  | table {row : List Slot} {v : Value} {s : List Char} (h : LiteralRow row s)
      (hv : tableOf? row = some v) : Literal v ('{' :: s ++ ['}'])

inductive LiteralField : Option Key → Value → List Char → Prop
  | item {v : Value} {s : List Char} (h : Literal v s) : LiteralField none v s
  | named {name blank gap s : List Char} {v : Value} (hname : IsFieldName name)
      (hblank : ∀ c ∈ blank, isBlank c = true) (hgap : Commented gap) (h : Literal v s) :
      LiteralField (some (.text (String.ofList name))) v (name ++ blank ++ '=' :: (gap ++ s))
  | keyed {key : Key} {first v : Value} {bracket behind gap s : List Char}
      (hbracket : Scalar first bracket) (hkey : first.key? = some key) (hbehind : Commented behind)
      (hgap : Commented gap) (h : Literal v s) :
      LiteralField (some key) v ('[' :: bracket ++ ']' :: behind ++ '=' :: (gap ++ s))

/-- Fields with a separator behind each, which the last may lack. A nil without a key that nothing
stands behind makes no field. -/
inductive LiteralRow : List Slot → List Char → Prop
  | nil {gap : List Char} (hgap : Commented gap) : LiteralRow [] gap
  | last {key : Option Key} {v : Value} {front s behind : List Char} (hfront : Commented front)
      (h : LiteralField key v s) (hv : key = none → v ≠ .nil) (hbehind : Commented behind) :
      LiteralRow [(key, v)] (front ++ (s ++ behind))
  | lastNil {front behind : List Char} (hfront : Commented front) (hbehind : Commented behind) :
      LiteralRow [] (front ++ ("nil".toList ++ behind))
  | more {key : Option Key} {v : Value} {front s behind t : List Char} {c : Char} {row : List Slot}
      (hfront : Commented front) (h : LiteralField key v s) (hbehind : Commented behind)
      (hc : c = ',' ∨ c = ';') (hrow : LiteralRow row t) :
      LiteralRow ((key, v) :: row) (front ++ (s ++ (behind ++ c :: t)))

end

/-! ## Fields and rows in plain notation -/

/-- A literal in plain notation. -/
structure ReadsLiteral (v : Value) (s : List Char) : Prop where
  start : ∃ c more, s = c :: more ∧ c ≠ '}' ∧ c ≠ ','
  gap : ∀ rest, dropGap (s ++ rest) = s ++ rest
  reads : ReadsBack v s

theorem ReadsScalar.readsLiteral {v : Value} {s : List Char} (h : ReadsScalar v s) :
    ReadsLiteral v s where
  start := by
    obtain ⟨c, more, hs, hc⟩ := h.start
    simp only [List.mem_cons, List.not_mem_nil, or_false, not_or] at hc
    exact ⟨c, more, hs, hc.2.1, hc.2.2.2⟩
  gap := h.gap
  reads := h.readsBack

/-- A field in plain notation. Without a key, and with nothing behind it, a nil is dropped. -/
structure ReadsSlot (key : Option Key) (v : Value) (s : List Char) : Prop where
  start : ∃ c more, s = c :: more ∧ c ≠ '}'
  gap : ∀ rest, dropGap (s ++ rest) = s ++ rest
  before : ReadsBefore key v s
  field : (key = none → v ≠ .nil) → ReadsField key v s

theorem ReadsLiteral.slot {v : Value} {s : List Char} (h : ReadsLiteral v s) :
    ReadsSlot none v s where
  start := by
    obtain ⟨c, more, hs, hc, -⟩ := h.start
    exact ⟨c, more, hs, hc⟩
  gap := h.gap
  before := h.reads.before h.start h.gap
  field hv := h.reads.item h.start h.gap (hv rfl)

section

variable {key : Key} {v first : Value} {s name bracket blank gap : List Char}
  (hblank : ∀ c ∈ blank, isBlank c = true) (hgap : ∀ c ∈ gap, isBlank c = true)
  (h : ReadsLiteral v s)

include hblank hgap h

theorem ReadsLiteral.named (hname : IsFieldName name) :
    ReadsSlot (some (.text (String.ofList name))) v (name ++ blank ++ '=' :: (gap ++ s)) := by
  have hfield := h.reads.named hname hblank hgap
  obtain ⟨c, more, rfl, hc⟩ := hname.head
  obtain ⟨hspace, hclose, -⟩ := of_startsField (.inr hc)
  exact {
    start := ⟨c, _, rfl, hclose⟩
    gap := fun rest => dropGap_cons hspace fun heq => absurd heq (of_isNameStart hc).2.1
    before := hfield.comma
    field := fun _ => hfield }

theorem ReadsLiteral.keyed (hbracket : ReadsScalar first bracket) (hkey : first.key? = some key) :
    ReadsSlot (some key) v ('[' :: bracket ++ ']' :: blank ++ '=' :: (gap ++ s)) := by
  have hgapHead : ∀ rest, dropGap ('[' :: rest) = '[' :: rest := fun rest =>
    dropGap_cons (by decide) fun h => absurd h (by decide)
  have hfield : ReadsField (some key) v ('[' :: bracket ++ ']' :: blank ++ '=' :: (gap ++ s)) := by
    refine h.reads.behindSign ⟨'[', _, rfl, by decide⟩ (fun _ => hgapHead _)
      (fun fuel rest => ⟨']' :: (blank ++ '=' :: rest), ?_, dropGap_mark hblank (by decide) _⟩) hkey
      hgap
    have hread := hbracket.reads (']' :: (blank ++ '=' :: rest)) (ends_bracket _)
    obtain ⟨c, more, rfl, -⟩ := hbracket.start
    rw [List.append_assoc, List.cons_append, valueAt?, List.cons_append, hgapHead]
    exact hread
  exact {
    start := ⟨'[', _, rfl, by decide⟩
    gap := fun _ => hgapHead _
    before := hfield.comma
    field := fun _ => hfield }

end

/-- A row in plain notation: white space only, or something to read. -/
structure ReadsSlots (row : List Slot) (s : List Char) : Prop where
  start : row = [] ∧ (∀ c ∈ s, isBlank c = true) ∨ ∀ rest, ∃ c more, c ≠ '}' ∧
    dropGap (s ++ rest) = c :: more ∧ dropGap (c :: more) = c :: more
  row : ReadsRow row s

/-- Between its braces a row becomes what its fields make. -/
theorem ReadsSlots.braces {row : List Slot} {s : List Char} {v : Value} (h : ReadsSlots row s)
    (hv : tableOf? row = some v) : ReadsLiteral v ('{' :: s ++ ['}']) where
  start := ⟨'{', _, rfl, by decide⟩
  gap _ := dropGap_cons (by decide) fun h => absurd h (by decide)
  reads := by
    rcases h.start with ⟨rfl, hblank⟩ | hstart
    · obtain rfl : .table [] = v := Option.some.inj hv
      exact readsBack_empty hblank
    · exact h.row.braces hstart hv

section

variable {front behind : List Char} (hfront : ∀ c ∈ front, isBlank c = true)
  (hbehind : ∀ c ∈ behind, isBlank c = true)

include hfront hbehind

theorem readsSlots_last {key : Option Key} {v : Value} {s : List Char} (h : ReadsSlot key v s)
    (hv : key = none → v ≠ .nil) : ReadsSlots [(key, v)] (front ++ (s ++ behind)) where
  start := .inr (start_of_field hfront h.start h.gap)
  row := (h.field hv).last hfront hbehind

theorem readsSlots_more {key : Option Key} {v : Value} {s t : List Char} {row : List Slot}
    (h : ReadsSlot key v s) (hrow : ReadsSlots row t) :
    ReadsSlots ((key, v) :: row) (front ++ (s ++ (behind ++ ',' :: t))) where
  start := .inr (start_of_field hfront h.start h.gap)
  row := h.before.row hfront hbehind hrow.row

/-- A nil at the end leaves no entry. -/
theorem readsSlots_lastNil {s : List Char} (h : ReadsScalar .nil s) :
    ReadsSlots [] (front ++ (s ++ behind)) where
  start := .inr (start_of_field hfront h.readsLiteral.slot.start h.gap)
  row := by
    intro fuel fields index rest hfuel
    have hgap := h.gap (behind ++ '}' :: rest)
    have hread := h.readsBack
    obtain ⟨c, more, rfl, hc⟩ := h.start
    simp only [List.mem_cons, List.not_mem_nil, or_false, not_or] at hc
    simp only [List.length_append, List.length_cons] at hfuel
    obtain ⟨fuel, rfl⟩ : ∃ n, fuel = n + 2 := ⟨fuel - 2, by omega⟩
    have hvalue := hread (fuel + 1) (behind ++ '}' :: rest) (by rw [List.length_cons]; omega)
      (follows_mark hbehind (by decide) rest)
    rw [List.append_assoc, fieldsFrom?_gap (dropGap_blanks hfront _), List.append_assoc,
      fieldsFrom?_last hgap ⟨hc.1, hc.2.1, hc.2.2.2⟩ hvalue
        (dropGap_dropBracket hbehind (by decide) _),
      fieldsFrom?_close (dropGap_cons (by decide) fun h => absurd h (by decide))]
    rfl

end

/-! ## Literals are read back -/

theorem Literal.head?_ne_sign {v : Value} {s : List Char} (h : Literal v s) (rest : List Char) :
    (s ++ rest).head? ≠ some '=' := by
  cases h with
  | scalar h => exact h.head?_ne_sign rest
  | table h => exact fun heq => absurd (Option.some.inj heq) (by decide)

theorem yields_openBracket (flag : Bool) (rest : List Char) : Yields flag ['['] ['['] false rest := by
  rw [Yields, List.singleton_append, tokens_of_read (Token.read?_bracket (.inl rfl) rest)
    (Nat.lt_succ_self _), plainSource]
  rfl

theorem yields_closeBracket (flag : Bool) (rest : List Char) : Yields flag [']'] [']'] true rest := by
  rw [Yields, List.singleton_append, tokens_of_read (Token.read?_bracket (.inr rfl) rest)
    (Nat.lt_succ_self _), plainSource]
  rfl

/-- A field behind a key in brackets is written anew part by part. -/
theorem yields_keyed (flag : Bool)
    {bracket bracketText behind behindText gap gapText s text rest : List Char}
    (hbracket : ∀ flag rest, Ends rest → Yields flag bracket bracketText false rest)
    (hbehind : ∀ flag rest, Yields flag behind behindText flag rest)
    (hhead : (gap ++ (s ++ rest)).head? ≠ some '=')
    (hgap : Yields false gap gapText false (s ++ rest)) (hs : Yields false s text false rest) :
    Yields flag ('[' :: bracket ++ ']' :: behind ++ '=' :: (gap ++ s))
      ('[' :: bracketText ++ ']' :: behindText ++ '=' :: (gapText ++ text)) false rest := by
  rw [← List.append_assoc] at hhead
  have hsign := (yields_sign hhead).append (hgap.append hs)
  have hclose := (yields_closeBracket false _).append ((hbehind true _).append hsign)
  have hopen := (yields_openBracket flag _).append
    ((hbracket false _ (ends_bracket _)).append hclose)
  simpa using hopen

mutual

theorem Literal.exists_text : ∀ {v : Value} {s : List Char}, Literal v s →
    ∃ text, (∀ flag rest, Follows rest → Yields flag s text false rest) ∧ ReadsLiteral v text
  | _, _, .scalar h => by
    obtain ⟨text, hyields, hreads⟩ := h.exists_text
    exact ⟨text, fun flag rest hrest => hyields flag rest hrest.ends, hreads.readsLiteral⟩
  | _, _, .table h hv => by
    obtain ⟨text, hyields, hreads⟩ := h.exists_text
    exact ⟨_, fun flag rest _ => yields_braces flag (hyields _ (follows_cons (by decide) rest)),
      hreads.braces hv⟩

theorem LiteralField.exists_text : ∀ {key : Option Key} {v : Value} {s : List Char},
    LiteralField key v s →
    ∃ text, (∀ flag rest, Follows rest → Yields flag s text false rest) ∧ ReadsSlot key v text
  | _, _, _, .item h => by
    obtain ⟨text, hyields, hreads⟩ := h.exists_text
    exact ⟨text, hyields, hreads.slot⟩
  | _, _, _, .named hname hblank hgap h => by
    obtain ⟨blanks, hblanks, hgapYields⟩ := exists_blanks hgap
    obtain ⟨text, hyields, hreads⟩ := h.exists_text
    exact ⟨_, fun flag rest hrest => yields_named flag hname hblank
      (Commented.head?_ne_sign hgap (h.head?_ne_sign rest)) (hgapYields false _)
      (hyields false rest hrest), hreads.named hblank hblanks hname⟩
  | _, _, _, .keyed hbracket hkey hbehind hgap h => by
    obtain ⟨bracketText, hbracketYields, hbracketReads⟩ := hbracket.exists_text
    obtain ⟨behindText, hbehindBlank, hbehindYields⟩ := exists_blanks hbehind
    obtain ⟨blanks, hblanks, hgapYields⟩ := exists_blanks hgap
    obtain ⟨text, hyields, hreads⟩ := h.exists_text
    exact ⟨_, fun flag rest hrest => yields_keyed flag hbracketYields hbehindYields
      (Commented.head?_ne_sign hgap (h.head?_ne_sign rest)) (hgapYields false _)
      (hyields false rest hrest), hreads.keyed hbehindBlank hblanks hbracketReads hkey⟩

theorem LiteralRow.exists_text : ∀ {row : List Slot} {s : List Char}, LiteralRow row s →
    ∃ text, (∀ rest, Follows rest → Yields false s text false rest) ∧ ReadsSlots row text
  | _, _, .nil hgap => by
    obtain ⟨blanks, hblanks, hyields⟩ := exists_blanks hgap
    exact ⟨blanks, fun rest _ => hyields false rest, ⟨.inl ⟨rfl, hblanks⟩, readsRow_blanks hblanks⟩⟩
  | _, _, .last hfront h hv hbehind => by
    obtain ⟨front, hfront, hfrontYields⟩ := exists_blanks hfront
    obtain ⟨text, hyields, hreads⟩ := h.exists_text
    obtain ⟨behind, hblanks, hbehindYields⟩ := exists_blanks hbehind
    exact ⟨_, fun rest hrest =>
      yields_last false hfrontYields hyields hbehind hbehindYields hrest,
      readsSlots_last hfront hblanks hreads hv⟩
  | _, _, .lastNil hfront hbehind => by
    obtain ⟨front, hfront, hfrontYields⟩ := exists_blanks hfront
    obtain ⟨behind, hblanks, hbehindYields⟩ := exists_blanks hbehind
    have hnil : Scalar (wordValue "nil".toList) "nil".toList := .word (by decide)
    obtain ⟨text, hyields, hreads⟩ := hnil.exists_text
    exact ⟨_, fun rest hrest => yields_last false hfrontYields
      (fun flag rest hrest => hyields flag rest hrest.ends) hbehind hbehindYields hrest,
      readsSlots_lastNil hfront hblanks hreads⟩
  | _, _, .more hfront h hbehind hc hrow => by
    obtain ⟨front, hfront, hfrontYields⟩ := exists_blanks hfront
    obtain ⟨text, hyields, hreads⟩ := h.exists_text
    obtain ⟨behind, hblanks, hbehindYields⟩ := exists_blanks hbehind
    obtain ⟨more, hrowYields, hrowReads⟩ := hrow.exists_text
    exact ⟨_, fun rest hrest =>
      yields_more false hfrontYields hyields hbehind hbehindYields hc (hrowYields rest hrest),
      readsSlots_more hfront hblanks hreads hrowReads⟩

end

/-- The source of a literal table is decoded to the table, its keys made texts. -/
theorem decodeTable_literal {row : List Slot} {v : Value} {s : List Char} (h : LiteralRow row s)
    (hv : tableOf? row = some v) : decodeTable ('{' :: s ++ ['}']) = .ok (textKeyed v) := by
  obtain ⟨text, hyields, hreads⟩ := h.exists_text
  have hyield := yields_braces false (hyields _ (follows_cons (c := '}') (by decide) []))
  have hblank : ∀ c ∈ ([] : List Char), isBlank c = true := fun _ hc => (List.not_mem_nil hc).elim
  have hliteral := @literalSource_of_yields _ [] text [] hblank hblank
    (by rwa [List.append_nil])
  exact decodeTable_of_read hliteral rfl (hreads.braces hv).reads.readLiteral?

end ModAlmanac.Lua
