import ModAlmanac.Proofs.Expr.TextKeys
import ModAlmanac.Proofs.Lua.PlainSource
import ModAlmanac.Proofs.Lua.Reader

/-!
# Written tables are read back

The source of a table is decoded to the table (`decodeTable_written`), whatever freedom its writer
took.

The proof follows the grammar. A value is read from in front of whatever follows it (`ReadsBack`), a
field becomes an entry under its name or its number (`ReadsField`), and a row becomes the entries of
a table in order (`ReadsRow`). Every step takes a character or passes into a table, so that twice the
length of the source bounds the steps.
-/

namespace ModAlmanac.Lua

open Number Text OrderedMap

/-! ## Reading along the grammar -/

/-- A value is read from in front of whatever follows it. -/
def ReadsBack (v : Value) (s : List Char) : Prop :=
  ∀ fuel rest, 2 * s.length ≤ fuel → Follows rest → valueAt? fuel (s ++ rest) = some (v, rest)

theorem ReadsBack.readLiteral? {v : Value} {s : List Char} (h : ReadsBack v s) :
    readLiteral? s = some v := by
  have hread := h (2 * s.length + 2) [] (Nat.le_add_right _ _) follows_nil
  rw [List.append_nil] at hread
  rw [Lua.readLiteral?, hread, Option.map_some]

/-- A field becomes an entry in front of a comma. -/
def ReadsBefore (key : Option Key) (v : Value) (s : List Char) : Prop :=
  ∀ behind : List Char, (∀ c ∈ behind, isBlank c = true) → ∀ fuel fields index rest,
    2 * s.length + 1 ≤ fuel → ∃ left, fuel ≤ left + 2 ∧
      fieldsFrom? fuel fields .nil index (s ++ (behind ++ ',' :: rest)) =
        fieldsFrom? left (OrderedMap.insert (key.getD (.int index)) v fields) .nil (index + 1) rest

/-- A field becomes an entry, whether a comma stands behind it or the closing brace. -/
structure ReadsField (key : Option Key) (v : Value) (s : List Char) : Prop where
  comma : ReadsBefore key v s
  close : ∀ behind : List Char, (∀ c ∈ behind, isBlank c = true) → ∀ fuel fields index rest,
    2 * s.length + 1 ≤ fuel →
      fieldsFrom? fuel fields .nil index (s ++ (behind ++ '}' :: rest)) =
        (closedTable? (OrderedMap.insert (key.getD (.int index)) v fields)).map (·, rest)

/-- The fields of a table are added to the entries in order. -/
def ReadsRow (row : List Slot) (s : List Char) : Prop :=
  ∀ fuel fields index rest, 2 * s.length + 1 ≤ fuel →
    fieldsFrom? fuel fields .nil index (s ++ '}' :: rest) =
      (closedTable? (union fields (entriesFrom index row))).map (·, rest)

theorem dropGap_mark {behind : List Char} (hbehind : ∀ c ∈ behind, isBlank c = true) {c : Char}
    (hc : [',', '}', '='].contains c = true) (rest : List Char) :
    dropGap (behind ++ c :: rest) = c :: rest := by
  have hmem := List.contains_iff_mem.1 hc
  simp only [List.mem_cons, List.not_mem_nil, or_false] at hmem
  rw [dropGap_blanks hbehind]
  rcases hmem with rfl | rfl | rfl <;>
    exact dropGap_cons (by decide) fun h => absurd h (by decide)

theorem dropGap_dropBracket {behind : List Char} (hbehind : ∀ c ∈ behind, isBlank c = true)
    {c : Char} (hc : [',', '}', '='].contains c = true) (rest : List Char) :
    dropGap (dropBracket (behind ++ c :: rest)) = c :: rest := by
  have hkeep : dropBracket (behind ++ c :: rest) = behind ++ c :: rest := by
    unfold dropBracket
    split
    · next heq =>
      cases behind with
      | nil =>
        rw [(List.cons.inj heq).1] at hc
        cases hc
      | cons d behind =>
        have hd := hbehind d List.mem_cons_self
        rw [(List.cons.inj heq).1] at hd
        exact absurd hd (by decide)
    · rfl
  rw [hkeep, dropGap_mark hbehind hc]

theorem Written.dropGap_append {w : Writing} {v : Value} {s : List Char} (h : Written w v s)
    (rest : List Char) : dropGap (s ++ rest) = s ++ rest := by
  cases h with
  | int n =>
    obtain ⟨d, more, hmore, hd⟩ := exists_toDigits_cons n.natAbs
    rw [intText_eq, hmore, List.append_assoc]
    exact dropGap_number _ hd _
  | text => exact dropGap_cons (by decide) fun h => absurd h (by decide)
  | bool b =>
    cases b <;> exact dropGap_cons (by decide) fun h => absurd h (by decide)
  | empty => exact dropGap_cons (by decide) fun h => absurd h (by decide)
  | list => exact dropGap_cons (by decide) fun h => absurd h (by decide)
  | table => exact dropGap_cons (by decide) fun h => absurd h (by decide)

theorem Written.exists_start {w : Writing} {v : Value} {s : List Char} (h : Written w v s) :
    ∃ c more, s = c :: more ∧ c ≠ '}' ∧ c ≠ ',' := by
  obtain ⟨c, more, hs, hc⟩ := h.exists_cons
  obtain ⟨-, hclose, hcomma, -⟩ := of_startsField (.inl hc)
  exact ⟨c, more, hs, hclose, hcomma⟩

theorem Written.ne_nil {w : Writing} {v : Value} {s : List Char} (h : Written w v s) :
    v ≠ .nil := by
  cases h <;> exact fun heq => Value.noConfusion heq

theorem follows_mark {behind : List Char} (hbehind : ∀ c ∈ behind, isBlank c = true) {c : Char}
    (hc : ['-', ',', ';', '}'].contains c = true) (rest : List Char) :
    Follows (behind ++ c :: rest) :=
  (follows_cons hc rest).blanks hbehind

/-! ### Scalars -/

/-- A scalar at the front, and the text behind it. -/
def scalarOf? : List Char → Option (Value × List Char)
  | [] => none
  | c :: rest => scalarAt? c rest

/-- A scalar is read from in front of whatever ends it. -/
structure ReadsScalar (v : Value) (s : List Char) : Prop where
  start : ∃ c more, s = c :: more ∧ c ∉ ['{', '}', '[', ',']
  gap : ∀ rest, dropGap (s ++ rest) = s ++ rest
  reads : ∀ rest, Ends rest → scalarOf? (s ++ rest) = some (v, rest)

theorem ReadsScalar.readsBack {v : Value} {s : List Char} (h : ReadsScalar v s) :
    ReadsBack v s := by
  intro fuel rest hfuel hrest
  have hgap := h.gap rest
  have hread := h.reads rest hrest.ends
  obtain ⟨c, more, rfl, hc⟩ := h.start
  rw [List.length_cons] at hfuel
  obtain ⟨fuel, rfl⟩ : ∃ n, fuel = n + 1 := ⟨fuel - 1, by omega⟩
  simp only [List.mem_cons, List.not_mem_nil, or_false, not_or] at hc
  rw [List.cons_append] at hgap ⊢
  rw [valueAt?_scalar hgap hc.1 hc.2.2.1]
  exact hread

theorem readsScalar_string {q : Char} {pieces : List Piece} (hq : isQuote q = true)
    (hpieces : ∀ piece ∈ pieces, piece.Fits q) :
    ReadsScalar (.text (String.ofList (pieces.flatMap (Piece.value q))))
      (q :: pieces.flatMap Piece.source ++ [q]) := by
  have hmark : (q = '\x22' || q = '\x27') = true := hq
  have hquote : q = '\x22' ∨ q = '\x27' := by simpa using hmark
  refine ⟨⟨q, _, rfl, ?_⟩, fun rest => ?_, fun rest _ => ?_⟩
  · rcases hquote with rfl | rfl <;> decide
  · rcases hquote with rfl | rfl <;> exact dropGap_cons (by decide) fun h => absurd h (by decide)
  · have hbracket : q ≠ '[' := by
      rintro rfl
      exact absurd hq (by decide)
    rw [List.append_assoc, List.singleton_append, List.cons_append, scalarOf?, scalarAt?,
      if_neg hbracket, if_pos hmark, quotedString?_pieces hq hpieces]
    rfl

/-- A number begins with a digit, behind its sign if it has one. -/
theorem readsScalar_number {negative : Bool} {d : Char} {more : List Char} {v : Value}
    (hd : d.isDigit = true)
    (hread : ∀ rest, Ends rest →
      numberAt? ((if negative then ['-'] else []) ++ d :: more ++ rest) = some (v, rest)) :
    ReadsScalar v ((if negative then ['-'] else []) ++ d :: more) := by
  obtain ⟨c, behind, heq, hc⟩ : ∃ c behind,
      (if negative then ['-'] else []) ++ d :: more = c :: behind ∧ (c = '-' ∨ c.isDigit = true) := by
    cases negative with
    | true => exact ⟨'-', _, rfl, .inl rfl⟩
    | false => exact ⟨d, _, rfl, .inr hd⟩
  have hmark : c ∉ ['{', '}', '[', ',', '\x22', '\x27'] := by
    intro hmem
    simp only [List.mem_cons, List.not_mem_nil, or_false] at hmem
    rcases hmem with rfl | rfl | rfl | rfl | rfl | rfl <;> simp at hc
  simp only [List.mem_cons, List.not_mem_nil, or_false, not_or] at hmark
  obtain ⟨hopen, hclose, hbracket, hcomma, hdouble, hsingle⟩ := hmark
  have hnumber : (isAnyDigit c || c = '-') = true := by
    rcases hc with rfl | hc
    · rfl
    · rw [isAnyDigit, isDecimalDigit_of_isDigit hc, Bool.true_or, Bool.true_or]
  refine ⟨⟨c, behind, heq, ?_⟩, fun rest => ?_, fun rest hrest => ?_⟩
  · simp [hopen, hclose, hbracket, hcomma]
  · rw [List.append_assoc]
    exact dropGap_number negative hd _
  · have hread := hread rest hrest
    rw [heq, List.cons_append] at hread ⊢
    rw [scalarOf?, scalarAt?, if_neg hbracket, if_neg (by simp [hdouble, hsingle]), if_pos hnumber,
      hread]

theorem readsScalar_int (n : Int) : ReadsScalar (.int n) (intText n) := by
  obtain ⟨d, more, hmore, hd⟩ := exists_toDigits_cons n.natAbs
  have hread := fun rest (hrest : Ends rest) => numberAt?_int n hrest.stopsNumeral
  rw [intText_eq, hmore] at hread ⊢
  exact readsScalar_number hd hread

theorem readsScalar_word {word : List Char} (hword : isLiteralWord word = true) :
    ReadsScalar (wordValue word) word := by
  obtain ⟨c, more, rfl, hc, -⟩ := exists_of_isLiteralWord hword
  have hhead := of_isNameStart hc
  obtain ⟨hspace, hclose, hcomma, -⟩ := of_startsField (.inr hc)
  refine ⟨⟨c, more, rfl, ?_⟩, fun rest => dropGap_cons hspace fun h => absurd h hhead.2.1,
    fun rest hrest => scalarAt?_literalWord hword hrest.stopsWord⟩
  intro hmem
  simp only [List.mem_cons, List.not_mem_nil, or_false] at hmem
  rcases hmem with rfl | rfl | rfl | rfl
  · exact absurd hc (by decide)
  · exact hclose rfl
  · exact hhead.2.2.2.1 rfl
  · exact hcomma rfl

/-! ### Fields and rows -/

/-- A table that is read back becomes an entry as soon as its brace is closed. -/
theorem ReadsBack.inner {v : Value} {more : List Char} (hreads : ReadsBack v ('{' :: more))
    {fuel : Nat} (hfuel : 2 * ('{' :: more).length ≤ fuel + 1) {rest : List Char}
    (hrest : Follows rest) (fields : List (Key × Value)) (index : Nat) :
    fieldsFrom? (fuel + 1) fields .nil index ('{' :: more ++ rest) =
      fieldsFrom? fuel (OrderedMap.insert (.int index) v fields) .nil (index + 1) rest := by
  have hgap : dropGap ('{' :: (more ++ rest)) = '{' :: (more ++ rest) :=
    dropGap_cons (by decide) fun h => absurd h (by decide)
  have hinner := hreads (fuel + 1) rest hfuel hrest
  rw [List.cons_append, valueAt?_brace] at hinner
  exact fieldsFrom?_inner hgap hinner

section

variable {v : Value} {s : List Char} (hstart : ∃ c more, s = c :: more ∧ c ≠ '}' ∧ c ≠ ',')
  (hgap : ∀ rest, dropGap (s ++ rest) = s ++ rest) (hreads : ReadsBack v s)

include hstart hgap hreads

/-- A value that is read back becomes an entry under its number. -/
theorem ReadsBack.before : ReadsBefore none v s := by
  obtain ⟨c, more, rfl, hclose, hcomma⟩ := hstart
  intro behind hbehind fuel fields index rest hfuel
  obtain ⟨fuel, rfl⟩ : ∃ n, fuel = n + 2 := ⟨fuel - 2, by rw [List.length_cons] at hfuel; omega⟩
  have hfollows := follows_mark hbehind (c := ',') (by decide) rest
  by_cases hbrace : c = '{'
  · subst hbrace
    refine ⟨fuel, Nat.le_refl _, ?_⟩
    rw [hreads.inner (by omega) hfollows, fieldsFrom?_comma (dropGap_mark hbehind (by decide) _)]
    rfl
  · exact ⟨fuel + 1, by omega, fieldsFrom?_item (hgap _) ⟨hbrace, hclose, hcomma⟩
      (hreads (fuel + 1) _ (by omega) hfollows) (dropGap_dropBracket hbehind (by decide) _)⟩

theorem ReadsBack.item (hnil : v ≠ .nil) : ReadsField none v s := by
  refine ⟨hreads.before hstart hgap, fun behind hbehind fuel fields index rest hfuel => ?_⟩
  obtain ⟨c, more, rfl, hclose, hcomma⟩ := hstart
  obtain ⟨fuel, rfl⟩ : ∃ n, fuel = n + 2 := ⟨fuel - 2, by rw [List.length_cons] at hfuel; omega⟩
  have hfollows := follows_mark hbehind (c := '}') (by decide) rest
  by_cases hbrace : c = '{'
  · subst hbrace
    rw [hreads.inner (by omega) hfollows, fieldsFrom?_close (dropGap_mark hbehind (by decide) _)]
    rfl
  · rw [fieldsFrom?_last (hgap _) ⟨hbrace, hclose, hcomma⟩
      (hreads (fuel + 1) _ (by omega) hfollows) (dropGap_dropBracket hbehind (by decide) _),
      fieldsFrom?_closePending (dropGap_cons (by decide) fun h => absurd h (by decide)) hnil]
    rfl

end

/-- A value that is read back becomes an entry under the key in front of it, which is read in one
step up to the equality sign. -/
theorem ReadsBack.behindSign {key : Key} {first v : Value} {head gap s : List Char}
    (hstart : ∃ c more, head = c :: more ∧ c ≠ '{' ∧ c ≠ '}' ∧ c ≠ ',')
    (hhead : ∀ rest, dropGap (head ++ rest) = head ++ rest)
    (hfirst : ∀ fuel rest, ∃ behind,
      valueAt? (fuel + 1) (head ++ '=' :: rest) = some (first, behind) ∧
        dropGap (dropBracket behind) = '=' :: rest)
    (hkey : first.key? = some key) (hgap : ∀ c ∈ gap, isBlank c = true) (hreads : ReadsBack v s) :
    ReadsField (some key) v (head ++ '=' :: (gap ++ s)) := by
  obtain ⟨c, more, rfl, hmarks⟩ := hstart
  -- one step reads the key, the sign and the value
  have hstep : ∀ fuel fields index rest, 2 * s.length ≤ fuel + 1 → Follows rest →
      fieldsFrom? (fuel + 2) fields .nil index (c :: more ++ '=' :: (gap ++ s) ++ rest) =
        fieldsFrom? (fuel + 1) (OrderedMap.insert key v fields) .nil (index + 1) rest := by
    intro fuel fields index rest hfuel hrest
    have hvalue := hreads (fuel + 1) rest hfuel hrest
    rw [← valueAt?_blanks hgap] at hvalue
    obtain ⟨behind, hread, hbehind⟩ := hfirst fuel (gap ++ (s ++ rest))
    rw [show c :: more ++ '=' :: (gap ++ s) ++ rest =
      c :: more ++ '=' :: (gap ++ (s ++ rest)) by simp]
    exact fieldsFrom?_named (hhead _) hmarks hread hbehind hvalue hkey
  refine ⟨fun behind hbehind fuel fields index rest hfuel => ?_,
    fun behind hbehind fuel fields index rest hfuel => ?_⟩
  all_goals
    simp only [List.length_append, List.length_cons] at hfuel
    obtain ⟨fuel, rfl⟩ : ∃ n, fuel = n + 2 := ⟨fuel - 2, by omega⟩
  · refine ⟨fuel, Nat.le_refl _, ?_⟩
    rw [hstep fuel fields index _ (by omega) (follows_mark hbehind (by decide) rest),
      fieldsFrom?_comma (dropGap_mark hbehind (by decide) _)]
    rfl
  · rw [hstep fuel fields index _ (by omega) (follows_mark hbehind (by decide) rest),
      fieldsFrom?_close (dropGap_mark hbehind (by decide) _)]
    rfl

/-- A value that is read back becomes an entry under the name in front of it. -/
theorem ReadsBack.named {name blank gap s : List Char} {v : Value} (hname : IsFieldName name)
    (hblank : ∀ c ∈ blank, isBlank c = true) (hgap : ∀ c ∈ gap, isBlank c = true)
    (hreads : ReadsBack v s) :
    ReadsField (some (.text (String.ofList name))) v (name ++ blank ++ '=' :: (gap ++ s)) := by
  obtain ⟨c, more, rfl, hstart⟩ := hname.head
  obtain ⟨hspace, hclose, hcomma, -⟩ := of_startsField (.inr hstart)
  have hhead := of_isNameStart hstart
  have hbrace : c ≠ '{' := by
    rintro rfl
    exact absurd hstart (by decide)
  have hdrop : ∀ rest, dropGap (c :: rest) = c :: rest := fun _ =>
    dropGap_cons hspace fun heq => absurd heq hhead.2.1
  have hkey : (Value.text (String.ofList (c :: more))).key? =
      some (.text (String.ofList (c :: more))) := rfl
  refine hreads.behindSign ⟨c, more ++ blank, rfl, hbrace, hclose, hcomma⟩ (fun _ => hdrop _)
    (fun fuel rest => ⟨blank ++ '=' :: rest, ?_, dropGap_dropBracket hblank (by decide) _⟩) hkey hgap
  rw [List.append_assoc, List.cons_append, valueAt?_scalar (hdrop _) hbrace hhead.2.2.2.1,
    scalarAt?_name hname hstart (stopsWord_blanks hblank)]

section

variable {key : Option Key} {v : Value} {s front : List Char}

/-- The first field of a row stands behind its gap. -/
theorem ReadsField.last {behind : List Char} (hfront : ∀ c ∈ front, isBlank c = true)
    (h : ReadsField key v s) (hbehind : ∀ c ∈ behind, isBlank c = true) :
    ReadsRow [(key, v)] (front ++ (s ++ behind)) := by
  intro fuel fields index rest hfuel
  simp only [List.length_append] at hfuel
  obtain ⟨fuel, rfl⟩ : ∃ n, fuel = n + 1 := ⟨fuel - 1, by omega⟩
  rw [List.append_assoc, fieldsFrom?_gap (dropGap_blanks hfront _), List.append_assoc,
    h.close behind hbehind _ _ _ _ (by omega)]
  rfl

theorem ReadsBefore.row {behind t : List Char} {row : List Slot}
    (hfront : ∀ c ∈ front, isBlank c = true) (h : ReadsBefore key v s)
    (hbehind : ∀ c ∈ behind, isBlank c = true) (hrow : ReadsRow row t) :
    ReadsRow ((key, v) :: row) (front ++ (s ++ (behind ++ ',' :: t))) := by
  intro fuel fields index rest hfuel
  simp only [List.length_append, List.length_cons] at hfuel
  obtain ⟨fuel, rfl⟩ : ∃ n, fuel = n + 1 := ⟨fuel - 1, by omega⟩
  obtain ⟨left, hleft, hstep⟩ := h behind hbehind (fuel + 1) fields index (t ++ '}' :: rest) (by omega)
  rw [List.append_assoc, fieldsFrom?_gap (dropGap_blanks hfront _), List.append_assoc,
    List.append_assoc, List.cons_append, hstep, hrow left _ (index + 1) rest (by omega)]
  rfl

end

/-- White space behind the last comma is a row without fields. -/
theorem readsRow_blanks {gap : List Char} (hgap : ∀ c ∈ gap, isBlank c = true) :
    ReadsRow [] gap := by
  intro fuel fields index rest hfuel
  obtain ⟨fuel, rfl⟩ : ∃ n, fuel = n + 1 := ⟨fuel - 1, by omega⟩
  rw [fieldsFrom?_close (dropGap_mark hgap (by decide) _)]
  rfl

theorem WrittenField.exists_cons {w : Writing} {name : Option (List Char)} {v : Value}
    {s : List Char} (h : WrittenField w name v s) :
    ∃ c more, s = c :: more ∧ c ≠ '}' ∧ ∀ rest, dropGap (s ++ rest) = s ++ rest := by
  cases h with
  | item h =>
    obtain ⟨c, more, hs, hc⟩ := h.exists_cons
    exact ⟨c, more, hs, (of_startsField (.inl hc)).2.1, h.dropGap_append⟩
  | named hname =>
    obtain ⟨c, more, rfl, hc⟩ := hname.head
    obtain ⟨hspace, hclose, -⟩ := of_startsField (.inr hc)
    exact ⟨c, _, rfl, hclose, fun _ =>
      dropGap_cons hspace fun heq => absurd heq (of_isNameStart hc).2.1⟩

theorem WrittenRow.ne_nil {w : Writing} {row : List Field} {s : List Char}
    (h : WrittenRow w row s) : row ≠ [] := by
  cases h <;> exact List.cons_ne_nil _ _

/-- What a row begins with, behind its first gap. -/
theorem start_of_field {front s behind : List Char} (hfront : ∀ c ∈ front, isBlank c = true)
    (hstart : ∃ c more, s = c :: more ∧ c ≠ '}') (hgap : ∀ rest, dropGap (s ++ rest) = s ++ rest)
    (rest : List Char) : ∃ c more, c ≠ '}' ∧ dropGap (front ++ (s ++ behind) ++ rest) = c :: more ∧
      dropGap (c :: more) = c :: more := by
  obtain ⟨c, more, rfl, hc⟩ := hstart
  refine ⟨c, more ++ (behind ++ rest), hc, ?_, hgap (behind ++ rest)⟩
  rw [List.append_assoc, dropGap_blanks hfront, List.append_assoc]
  exact hgap _

/-- A row has something to read in front of the closing brace. -/
theorem WrittenRow.exists_start {row : List Field} {s : List Char} (h : WrittenRow .plain row s)
    (rest : List Char) :
    ∃ c more, c ≠ '}' ∧ dropGap (s ++ rest) = c :: more ∧ dropGap (c :: more) = c :: more := by
  obtain ⟨name, v, front, t, behind, rfl, hfront, ht⟩ : ∃ name v front t behind,
      s = front ++ (t ++ behind) ∧ (∀ c ∈ front, isBlank c = true) ∧
        WrittenField .plain name v t := by
    cases h with
    | last hfront h => exact ⟨_, _, _, _, _, rfl, hfront, h⟩
    | trailing hfront h => exact ⟨_, _, _, _, _, rfl, hfront, h⟩
    | more hfront h => exact ⟨_, _, _, _, _, rfl, hfront, h⟩
  obtain ⟨c, more, ht, hc, hgap⟩ := ht.exists_cons
  exact start_of_field hfront ⟨c, more, ht, hc⟩ hgap rest

/-- Between braces a row becomes what its entries make. -/
theorem ReadsRow.braces {row : List Slot} {s : List Char} {v : Value} (hrow : ReadsRow row s)
    (hstart : ∀ rest, ∃ c more, c ≠ '}' ∧ dropGap (s ++ rest) = c :: more ∧
      dropGap (c :: more) = c :: more)
    (hclosed : closedTable? (ofList (entriesFrom 0 row)) = some v) :
    ReadsBack v ('{' :: s ++ ['}']) := by
  intro fuel rest hfuel _
  simp only [List.length_append, List.length_cons, List.length_nil] at hfuel
  obtain ⟨fuel, rfl⟩ : ∃ n, fuel = n + 3 := ⟨fuel - 3, by omega⟩
  obtain ⟨c, more, hc, hfirst, hgap⟩ := hstart ('}' :: rest)
  have hfields := hrow (fuel + 1) [] 0 rest (by omega)
  rw [List.append_assoc, List.singleton_append, List.cons_append, valueAt?_brace,
    tableBehind?_fields hfirst hc, fieldsFrom?_gap (hgap.trans hfirst.symm), hfields]
  change (closedTable? (ofList _)).map _ = _
  rw [hclosed]
  rfl

theorem readsBack_text {s : List Char} (hs : IsPlainText s) :
    ReadsBack (.text (String.ofList s)) ('\x22' :: s ++ ['\x22']) := by
  have hstring := readsScalar_string (q := '\x22') (by decide) hs.fits
  rw [flatMap_source_plain, flatMap_value_plain] at hstring
  exact hstring.readsBack

theorem readsBack_bool (b : Bool) : ReadsBack (.bool b) (boolWord b) := by
  cases b with
  | false => exact (@readsScalar_word "false".toList (by decide)).readsBack
  | true => exact (@readsScalar_word "true".toList (by decide)).readsBack

theorem readsBack_empty {gap : List Char} (hgap : ∀ c ∈ gap, isBlank c = true) :
    ReadsBack (.table []) ('{' :: gap ++ ['}']) := by
  intro fuel rest hfuel _
  simp only [List.length_append, List.length_cons, List.length_nil] at hfuel
  obtain ⟨fuel, rfl⟩ : ∃ n, fuel = n + 2 := ⟨fuel - 2, by omega⟩
  rw [List.append_assoc, List.singleton_append, List.cons_append, valueAt?_brace,
    tableBehind?_empty (dropGap_mark hgap (by decide) rest)]

mutual

theorem Written.readsBack : ∀ {v : Value} {s : List Char}, Written .plain v s → ReadsBack v s
  | _, _, .text hs => readsBack_text hs
  | _, _, .int n => (readsScalar_int n).readsBack
  | _, _, .bool b => readsBack_bool b
  | _, _, .empty hgap => readsBack_empty hgap
  | _, _, @Written.list _ items _ hrow => by
    refine hrow.readsRow.braces hrow.exists_start ?_
    rw [slots_items, ofList_eq_self (distinct_entriesFrom_items 0 items)]
    exact closedTable?_items fun h => hrow.ne_nil (by rw [h]; rfl)
  | _, _, @Written.table _ fields _ hnames hrow => by
    refine hrow.readsRow.braces hrow.exists_start ?_
    rw [slots_named, entriesFrom_named, ofList_eq_self (distinct_named hnames)]
    exact closedTable?_named fun h => hrow.ne_nil (by rw [h]; rfl)

theorem WrittenField.readsField : ∀ {name : Option (List Char)} {v : Value} {s : List Char},
    WrittenField .plain name v s →
      ReadsField (name.map fun name => .text (String.ofList name)) v s
  | _, _, _, .item h => h.readsBack.item h.exists_start h.dropGap_append h.ne_nil
  | _, _, _, .named hname hblank hgap h => h.readsBack.named hname hblank hgap

theorem WrittenRow.readsRow : ∀ {row : List Field} {s : List Char},
    WrittenRow .plain row s → ReadsRow (row.map Field.slot) s
  | _, _, .last hfront h hbehind => h.readsField.last hfront hbehind
  | _, _, .trailing hfront h hbehind hc hafter => by
    obtain rfl := hc
    exact h.readsField.comma.row hfront hbehind (readsRow_blanks hafter)
  | _, _, .more hfront h hbehind hc hrow => by
    obtain rfl := hc
    exact h.readsField.comma.row hfront hbehind hrow.readsRow

end

/-! ## Decoding -/

mutual

/-- The keys of written tables are texts, and no two of one table are the same. -/
theorem Written.hasTextKeys : ∀ {v : Value} {s : List Char}, Written .free v s →
    v.hasTextKeys = true
  | _, _, .text _ => rfl
  | _, _, .int _ => rfl
  | _, _, .bool _ => rfl
  | _, _, .empty _ => rfl
  | _, _, .list hrow => hasTextKeys_list.2 fun v hv =>
    hrow.hasTextKeys (none, v) (List.mem_map_of_mem hv)
  | _, _, .table hnames hrow => hasTextKeys_table.2 ⟨distinct_named hnames, fun e he => by
    obtain ⟨field, hfield, rfl⟩ := List.mem_map.1 he
    exact ⟨rfl, hrow.hasTextKeys (some field.1, field.2)
      (List.mem_map_of_mem (f := fun field => (some field.1, field.2)) hfield)⟩⟩

theorem WrittenField.hasTextKeys : ∀ {name : Option (List Char)} {v : Value} {s : List Char},
    WrittenField .free name v s → v.hasTextKeys = true
  | _, _, _, .item h => h.hasTextKeys
  | _, _, _, .named _ _ _ h => h.hasTextKeys

theorem WrittenRow.hasTextKeys : ∀ {row : List Field} {s : List Char}, WrittenRow .free row s →
    ∀ field ∈ row, field.2.hasTextKeys = true
  | _, _, .last _ h _ => List.forall_mem_singleton.2 h.hasTextKeys
  | _, _, .trailing _ h _ _ _ => List.forall_mem_singleton.2 h.hasTextKeys
  | _, _, .more _ h _ _ hrow => List.forall_mem_cons.2 ⟨h.hasTextKeys, hrow.hasTextKeys⟩

end

/-- The source of a list or a table is decoded to that list or table. -/
theorem decodeTable_written {v : Value} {front s behind : List Char} (hv : isCompound v = true)
    (hfront : Commented front) (h : Written .free v s) (hbehind : Commented behind) :
    decodeTable (front ++ (s ++ behind)) = .ok v := by
  obtain ⟨text, htext, hliteral⟩ := literalSource_written hv hfront h hbehind
  have hread := htext.readsBack (2 * text.length + 2) [] (Nat.le_add_right _ _) follows_nil
  obtain ⟨inner, rfl⟩ := htext.exists_braces hv
  have hkeys : textKeyed v = v := by
    rw [textKeyed_eq_named]
    exact Value.named_eq_self (fun _ => rfl) h.hasTextKeys
  have hliteralRead : readLiteral? ('{' :: inner ++ ['}']) = some v := by
    rw [List.append_nil] at hread
    rw [readLiteral?, hread, Option.map_some]
  rw [decodeTable, hliteral]
  simp only [bind, Except.bind, List.cons_append] at hliteralRead ⊢
  rw [hliteralRead]
  exact congrArg Except.ok hkeys

/-- A table with a list in it, on two lines with a comment. -/
theorem decodeTable_written_of_comment :
    decodeTable "\x7b mult = -4; -- each\n odds = \x7b 1, true, \x7d \x7d\n".toList =
      .ok (.table [(.text "mult", .int (-4)), (.text "odds", .list [.int 1, .bool true])]) := by
  have hname : ∀ name ∈ ["mult".toList, "odds".toList], IsFieldName name := by
    have hstart : ∀ name ∈ ["mult".toList, "odds".toList],
        ∃ c more, name = c :: more ∧ isNameStart c = true := by
      intro name hmem
      simp only [List.mem_cons, List.not_mem_nil, or_false] at hmem
      rcases hmem with rfl | rfl <;> exact ⟨_, _, rfl, by decide⟩
    have hchars : ∀ name ∈ ["mult".toList, "odds".toList],
        (name.all fun c => c.isAlphanum || c = '_') = true := by decide
    have hliteral : ∀ name ∈ ["mult".toList, "odds".toList], ∀ word ∈ name.inits,
        isLiteralWord word = false := by decide
    exact fun name hmem =>
      { head := hstart name hmem
        isNameChar := List.all_eq_true.1 (hchars name hmem)
        noLiteral := fun word hword hstarts =>
          absurd (hliteral name hmem word ((List.mem_inits _ _).2 hstarts)) (by simp [hword]) }
  have hnone : Writing.free.isGap [] := .nil
  have hblank : ∀ c ∈ [' '], isBlank c = true := List.forall_mem_singleton.2 (by decide)
  have hspace : Writing.free.isGap [' '] := .blank (by decide) .nil
  have hline : Writing.free.isGap " -- each\n ".toList :=
    .blank (by decide) (@Commented.comment " each".toList [' '] (by decide) hspace)
  have hcomma : Writing.free.isSeparator ',' := .inl rfl
  have hsemicolon : Writing.free.isSeparator ';' := .inr rfl
  have hmult : WrittenField .free (some "mult".toList) (.int (-4)) "mult = -4".toList :=
    @WrittenField.named .free _ [' '] [' '] _ _ (hname _ (by decide)) hblank hspace (.int (-4))
  have hlist : Written .free (.list [.int 1, .bool true]) "\x7b 1, true, \x7d".toList :=
    @Written.list .free [.int 1, .bool true] _ (.more hspace (.item (.int 1)) hnone hcomma
      (.trailing hspace (.item (.bool true)) hnone hcomma hspace))
  have hodds : WrittenField .free (some "odds".toList) (.list [.int 1, .bool true])
      "odds = \x7b 1, true, \x7d".toList :=
    @WrittenField.named .free _ [' '] [' '] _ _ (hname _ (by decide)) hblank hspace hlist
  have htable : Written .free
      (.table [(.text "mult", .int (-4)), (.text "odds", .list [.int 1, .bool true])])
      "\x7b mult = -4; -- each\n odds = \x7b 1, true, \x7d \x7d".toList :=
    @Written.table .free
      [("mult".toList, .int (-4)), ("odds".toList, .list [.int 1, .bool true])] _ (by decide)
      (.more hspace hmult hnone hsemicolon (.last hline hodds hspace))
  have hbehind : Commented ['\n'] := .blank (by decide) .nil
  exact decodeTable_written rfl .nil htable hbehind

end ModAlmanac.Lua
