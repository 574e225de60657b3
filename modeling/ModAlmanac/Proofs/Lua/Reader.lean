import ModAlmanac.Proofs.Lua.Tokens
import ModAlmanac.Proofs.TextKeys

/-!
# Steps of the table reader

What the reader of a literal source does at one place: it passes over white space, reads a scalar
that is written there, and goes on with the next field, told by the character in front of it and the
one behind what it has read. The entries of a row (`entriesFrom`) make a list if they are numbered
from zero on (`closedTable?_items`) and a table if they have names (`closedTable?_named`).
-/

namespace ModAlmanac.Lua

open Number Text OrderedMap

/-! ## Gaps -/

theorem dropGap_cons_blank {c : Char} (hc : isBlank c = true) (rest : List Char) :
    dropGap (c :: rest) = dropGap rest := by
  have hminus : c ≠ '-' := by
    rintro rfl
    exact absurd hc (by decide)
  simp [dropGap, Gap.drop, hminus, hc]

theorem dropGap_blanks {gap : List Char} (hgap : ∀ c ∈ gap, isBlank c = true) (s : List Char) :
    dropGap (gap ++ s) = dropGap s := by
  induction gap with
  | nil => rfl
  | cons c gap ih =>
    obtain ⟨hc, hgap⟩ := List.forall_mem_cons.1 hgap
    rw [List.cons_append, dropGap_cons_blank hc, ih hgap]

/-- A gap ends at a character that is no white space and begins no comment. -/
theorem dropGap_cons {c : Char} {rest : List Char} (hc : isBlank c = false)
    (hminus : c = '-' → rest.head? ≠ some '-') : dropGap (c :: rest) = c :: rest := by
  by_cases hc' : c = '-'
  · subst hc'
    have hrest := hminus rfl
    cases rest with
    | nil => rfl
    | cons d rest =>
      have hd : d ≠ '-' := fun h => hrest (congrArg some h)
      simp [dropGap, Gap.drop, hd, hc]
  · simp [dropGap, Gap.drop, hc', hc]

/-- No gap stands in front of a number. -/
theorem dropGap_number (negative : Bool) {d : Char} (hd : d.isDigit = true) (rest : List Char) :
    dropGap ((if negative then ['-'] else []) ++ d :: rest) =
      (if negative then ['-'] else []) ++ d :: rest := by
  have hminus : d ≠ '-' := by
    rintro rfl
    cases hd
  have hblank : isBlank d = false := (of_startsField (.inl (by rw [startsValue, hd]; rfl))).1
  cases negative with
  | true => exact dropGap_cons (by decide) fun _ heq => hminus (Option.some.inj heq)
  | false => exact dropGap_cons hblank fun heq => absurd heq hminus

/-! ## Scalars -/

section

variable {rest : List Char}

theorem head?_digitValue?_ne {n : Nat} (h : 0 < n) :
    (Nat.toDigits 10 n).head?.bind digitValue? ≠ some 0 := by
  obtain ⟨d, more, hmore, hd⟩ := exists_toDigits_cons n
  have hzero := head?_toDigits_ne h
  rw [hmore] at hzero ⊢
  have hvalue := forall_ascii (p := fun d => !d.isDigit || d = '0' || d.toNat - 48 ≠ 0)
    (by decide) (toNat_lt_of_isDigit hd)
  rw [List.head?_cons, Option.bind_some, digitValue?_of_isDigit hd]
  intro heq
  simp [hd, Option.some.inj heq] at hvalue
  exact hzero (congrArg some hvalue)

theorem writtenNumber?_digits (negative : Bool) (n : Nat) :
    writtenNumber? negative (Nat.toDigits 10 n) [] =
      some (.int (if negative then -(n : Int) else n)) := by
  have hall : (Nat.toDigits 10 n).all isDecimalDigit = true :=
    List.all_eq_true.2 fun c hc => isDecimalDigit_of_isDigit (isDigit_of_mem_toDigits hc)
  have hplain : (decide ((Nat.toDigits 10 n).length = 1) ||
      decide ((Nat.toDigits 10 n).head?.bind digitValue? ≠ some 0) || decide (n = 0)) = true := by
    rcases Nat.eq_zero_or_pos n with rfl | hn
    · exact Bool.or_true _
    · have hhead := head?_digitValue?_ne hn
      rw [decide_eq_true hhead, Bool.or_true, Bool.true_or]
  unfold writtenNumber?
  dsimp only
  rw [hall, digitsValue_toDigits, hplain]
  rfl

theorem numberBehind?_digits (negative : Bool) (digits : List Char)
    (hrest : StopsBefore continuesNumeral rest) :
    numberBehind? negative digits rest =
      (writtenNumber? negative digits []).map fun v => (v, rest) := by
  unfold numberBehind?
  cases rest with
  | nil => rfl
  | cons c rest =>
    have hmark := not_mark_of_stops hrest rfl
    simp only [List.mem_cons, List.not_mem_nil, or_false, not_or] at hmark
    obtain ⟨hpoint, he, hE, hx, hX⟩ := hmark
    simp [hpoint, he, hE, hx, hX]

/-- The digits at the front are passed, behind the sign if there is one. -/
theorem numberAt?_run (negative : Bool) {run : List Char} (hne : run ≠ [])
    (hrun : ∀ c ∈ run, c.isDigit = true) (hrest : StopsBefore isAnyDigit rest) :
    numberAt? ((if negative then ['-'] else []) ++ (run ++ rest)) =
      numberBehind? negative run rest := by
  have hany : ∀ c ∈ run, isAnyDigit c = true := fun c hc => by
    rw [isAnyDigit, isDecimalDigit_of_isDigit (hrun c hc), Bool.true_or]
  have htake := takeWhile_append_of_stops hany hrest
  have hdrop := dropWhile_append_of_stops hany hrest
  cases negative with
  | true =>
    rw [if_pos rfl, List.singleton_append, numberAt?, htake, hdrop]
    split
    · exact absurd rfl hne
    · rfl
  | false =>
    rw [if_neg Bool.false_ne_true, List.nil_append]
    unfold numberAt?
    split
    · next heq =>
      obtain ⟨d, more, rfl⟩ := List.exists_cons_of_ne_nil hne
      have hd := hrun d List.mem_cons_self
      rw [(List.cons.inj heq).1] at hd
      cases hd
    · rw [htake, hdrop]

theorem numberAt?_int (n : Int) (hrest : StopsBefore continuesNumeral rest) :
    numberAt? (intText n ++ rest) = some (.int n, rest) := by
  have hvalue : (if decide (n < 0) = true then -(n.natAbs : Int) else n.natAbs) = n := by
    by_cases hn : n < 0
    · rw [decide_eq_true hn, if_pos rfl]
      omega
    · rw [decide_eq_false hn, if_neg Bool.false_ne_true]
      omega
  rw [intText_eq, List.append_assoc, numberAt?_run _ Nat.toDigits_ne_nil
    (fun _ => isDigit_of_mem_toDigits) fun c hc => (not_continuesNumeral (hrest c hc)).1,
    numberBehind?_digits _ _ hrest, writtenNumber?_digits, hvalue]
  rfl

theorem numberBehind?_fraction (negative : Bool) (digits : List Char) {fraction : List Char}
    (hne : fraction ≠ []) (hfraction : ∀ c ∈ fraction, c.isDigit = true)
    (hrest : StopsBefore continuesNumeral rest) :
    numberBehind? negative digits ('.' :: (fraction ++ rest)) =
      (writtenNumber? negative digits ('.' :: fraction)).map fun v => (v, rest) := by
  have hany : ∀ c ∈ fraction, isAnyDigit c = true := fun c hc => by
    rw [isAnyDigit, isDecimalDigit_of_isDigit (hfraction c hc), Bool.true_or]
  have hstops : StopsBefore isAnyDigit rest := fun c hc => (not_continuesNumeral (hrest c hc)).1
  unfold numberBehind?
  simp only [takeWhile_append_of_stops hany hstops, dropWhile_append_of_stops hany hstops]
  obtain ⟨d, more, rfl⟩ := List.exists_cons_of_ne_nil hne
  cases rest with
  | nil => simp
  | cons c rest =>
    have hmark := not_mark_of_stops hrest (c := c) rfl
    simp only [List.mem_cons, List.not_mem_nil, or_false, not_or] at hmark
    simp [hmark.2.1, hmark.2.2.1]

/-- A number with a point is read as the double nearest to it. -/
theorem numberAt?_double (negative : Bool) {w : Number.Written} (hw : w.IsNumeral)
    (hfraction : w.fraction ≠ []) (hexponent : w.exponent = none)
    (hrest : StopsBefore continuesNumeral rest) :
    numberAt? ((if negative then ['-'] else []) ++ (w.text ++ rest)) =
      some (.float (ofMagnitude negative w.decimal.magnitude), rest) := by
  have htext : w.text = w.whole ++ '.' :: w.fraction := by
    rw [Number.Written.text, hexponent, exponentText, List.append_nil,
      pointText_of_ne_nil hfraction]
  have hread := hw.floatOfText?_text negative
  rw [htext, ← List.append_assoc] at hread
  have hwritten : writtenNumber? negative w.whole ('.' :: w.fraction) =
      some (.float (ofMagnitude negative w.decimal.magnitude)) := by
    unfold writtenNumber?
    dsimp only
    rw [List.isEmpty_cons, Bool.and_false, Bool.false_and, if_neg Bool.false_ne_true, hread]
    rfl
  rw [htext, List.append_assoc, List.cons_append, numberAt?_run negative hw.whole_ne_nil
    hw.isDigit_whole (stopsBefore_cons (by decide) _),
    numberBehind?_fraction negative w.whole hfraction hw.isDigit_fraction hrest, hwritten]
  rfl

/-- A word goes on with word characters as long as it is no literal word. -/
theorem wordFrom_append {start more : List Char} (hmore : ∀ c ∈ more, isWordChar c = true)
    (hliteral : ∀ front, front <+: more → front ≠ more → isLiteralWord (start ++ front) = false)
    (rest : List Char) : wordFrom start (more ++ rest) = wordFrom (start ++ more) rest := by
  induction more generalizing start with
  | nil => rw [List.nil_append, List.append_nil]
  | cons c more ih =>
    obtain ⟨hc, hmore⟩ := List.forall_mem_cons.1 hmore
    have hstart : isLiteralWord start = false := by
      simpa using hliteral [] List.nil_prefix (List.cons_ne_nil c more).symm
    rw [List.cons_append, wordFrom, hc, hstart, Bool.not_false, Bool.and_true, if_pos rfl,
      ih hmore fun front hfront hne => ?_, List.append_assoc, List.singleton_append]
    rw [List.append_assoc]
    exact hliteral (c :: front) (List.cons_prefix_cons.2 ⟨rfl, hfront⟩) fun h =>
      hne (List.cons.inj h).2

theorem wordFrom_of_stops {word : List Char} (hrest : StopsBefore isWordChar rest) :
    wordFrom word rest = (word, rest) := by
  cases rest with
  | nil => rfl
  | cons c rest => rw [wordFrom, hrest c rfl, Bool.false_and, if_neg Bool.false_ne_true]

theorem scalarAt?_word {c : Char} (hc : isNameStart c = true) (rest : List Char) :
    scalarAt? c rest =
      some (wordValue (wordFrom [c] rest).1, (wordFrom [c] rest).2) := by
  obtain ⟨⟨hdouble, hsingle⟩, hminus, -, hbracket, hline, hdigit⟩ := of_isNameStart hc
  rw [scalarAt?, if_neg hbracket, if_neg (by simp [hdouble, hsingle]), hdigit,
    if_neg (by simp [hminus]), if_neg hline]

/-- A name that stands in front of something else is read as a text. -/
theorem scalarAt?_name {c : Char} {more : List Char} (hname : IsFieldName (c :: more))
    (hc : isNameStart c = true) (hrest : StopsBefore isWordChar rest) :
    scalarAt? c (more ++ rest) = some (.text (String.ofList (c :: more)), rest) := by
  have hword : ∀ d ∈ more, isWordChar d = true := fun d hd =>
    isWordChar_of_isAlphanum (hname.isNameChar d (List.mem_cons_of_mem c hd))
  have hliteral : ∀ front, front <+: more → isLiteralWord ([c] ++ front) = false :=
    fun front hfront => by
      cases h : isLiteralWord ([c] ++ front) with
      | false => rfl
      | true => exact absurd (List.cons_prefix_cons.2 ⟨rfl, hfront⟩) (hname.noLiteral _ h)
  have hvalue : wordValue (c :: more) = .text (String.ofList (c :: more)) := by
    have hnone := hliteral more (List.prefix_refl more)
    simp only [isLiteralWord, Bool.or_eq_false_iff, decide_eq_false_iff_not] at hnone
    obtain ⟨⟨htrue, hfalse⟩, hnil⟩ := hnone
    exact (if_neg htrue).trans ((if_neg hfalse).trans (if_neg hnil))
  rw [scalarAt?_word hc, wordFrom_append hword (fun front hfront _ => hliteral front hfront),
    wordFrom_of_stops hrest, List.singleton_append, hvalue]

/-- No literal word begins with another one. -/
theorem exists_of_isLiteralWord {word : List Char} (hword : isLiteralWord word = true) :
    ∃ c more, word = c :: more ∧ isNameStart c = true ∧ (∀ d ∈ more, isWordChar d = true) ∧
      ∀ front ∈ more.inits, front ≠ more → isLiteralWord ([c] ++ front) = false := by
  simp only [isLiteralWord, Bool.or_eq_true, decide_eq_true_eq] at hword
  rcases hword with (rfl | rfl) | rfl
  · exact ⟨'t', ['r', 'u', 'e'], rfl, by decide, forall_isWordChar (by decide), by decide⟩
  · exact ⟨'f', ['a', 'l', 's', 'e'], rfl, by decide, forall_isWordChar (by decide), by decide⟩
  · exact ⟨'n', ['i', 'l'], rfl, by decide, forall_isWordChar (by decide), by decide⟩

theorem scalarAt?_literalWord {c : Char} {more : List Char}
    (hword : isLiteralWord (c :: more) = true) (hrest : StopsBefore isWordChar rest) :
    scalarAt? c (more ++ rest) = some (wordValue (c :: more), rest) := by
  obtain ⟨_, _, heq, hc, hmore, hliteral⟩ := exists_of_isLiteralWord hword
  cases heq
  rw [scalarAt?_word hc, wordFrom_append hmore
    (fun front hfront => hliteral front ((List.mem_inits _ _).2 hfront)), wordFrom_of_stops hrest]
  rfl

end

/-! ## One step of the reader -/

section

variable {s rest : List Char} {fuel : Nat}

theorem valueAt?_blanks {gap : List Char} (hgap : ∀ c ∈ gap, isBlank c = true) (s : List Char)
    (fuel : Nat) : valueAt? fuel (gap ++ s) = valueAt? fuel s := by
  cases fuel with
  | zero => rfl
  | succ fuel => rw [valueAt?, valueAt?, dropGap_blanks hgap]

theorem valueAt?_scalar {c : Char} (hgap : dropGap (c :: rest) = c :: rest) (hbrace : c ≠ '{')
    (hbracket : c ≠ '[') (fuel : Nat) : valueAt? (fuel + 1) (c :: rest) = scalarAt? c rest := by
  rw [valueAt?, hgap]
  dsimp only
  rw [if_neg hbrace, if_neg hbracket]

theorem valueAt?_brace (fuel : Nat) (rest : List Char) :
    valueAt? (fuel + 1) ('{' :: rest) = tableBehind? fuel rest := by
  rw [valueAt?, dropGap_cons (by decide) (fun h => absurd h (by decide))]
  rfl

theorem tableBehind?_empty (h : dropGap s = '}' :: rest) (fuel : Nat) :
    tableBehind? (fuel + 1) s = some (.table [], rest) := by
  rw [tableBehind?, h]
  rfl

theorem tableBehind?_fields {c : Char} (h : dropGap s = c :: rest) (hc : c ≠ '}') (fuel : Nat) :
    tableBehind? (fuel + 1) s = fieldsFrom? fuel [] .nil 0 (c :: rest) := by
  rw [tableBehind?, h]
  split
  · next heq => exact absurd (List.cons.inj heq).1 hc
  · rfl

variable {fields : List (Key × Value)} {pending : Value} {index : Nat}

theorem fieldsFrom?_gap {t : List Char} (h : dropGap s = dropGap t) :
    fieldsFrom? (fuel + 1) fields pending index s =
      fieldsFrom? (fuel + 1) fields pending index t := by
  rw [fieldsFrom?.eq_def, fieldsFrom?.eq_def (fuel + 1) fields pending index t]
  dsimp only
  rw [h]

theorem fieldsFrom?_close (h : dropGap s = '}' :: rest) :
    fieldsFrom? (fuel + 1) fields .nil index s = (closedTable? fields).map (·, rest) := by
  rw [fieldsFrom?.eq_def]
  dsimp only
  rw [h]
  rfl

theorem fieldsFrom?_closePending (h : dropGap s = '}' :: rest) (hpending : pending ≠ .nil) :
    fieldsFrom? (fuel + 1) fields pending index s =
      (closedTable? (OrderedMap.insert (.int index) pending fields)).map (·, rest) := by
  rw [fieldsFrom?.eq_def]
  dsimp only
  rw [h]
  cases pending with
  | nil => exact absurd rfl hpending
  | _ => rfl

theorem fieldsFrom?_comma (h : dropGap s = ',' :: rest) :
    fieldsFrom? (fuel + 1) fields pending index s =
      fieldsFrom? fuel fields pending index rest := by
  rw [fieldsFrom?.eq_def]
  dsimp only
  rw [h]
  rfl

theorem fieldsFrom?_inner {inner : Value} {behind : List Char} (h : dropGap s = '{' :: rest)
    (hinner : tableBehind? fuel rest = some (inner, behind)) :
    fieldsFrom? (fuel + 1) fields pending index s =
      fieldsFrom? fuel (OrderedMap.insert (.int index) inner fields) pending (index + 1)
        behind := by
  rw [fieldsFrom?.eq_def]
  dsimp only
  rw [h]
  change (tableBehind? fuel rest).bind _ = _
  rw [hinner]
  rfl

section

variable {c : Char} {first : Value} {behind : List Char} (h : dropGap s = c :: rest)
  (hc : c ≠ '{' ∧ c ≠ '}' ∧ c ≠ ',') (hfirst : valueAt? fuel (c :: rest) = some (first, behind))

include h hc hfirst

/-- What becomes of a value that begins like no table depends on what stands behind it. -/
theorem fieldsFrom?_first :
    fieldsFrom? (fuel + 1) fields pending index s =
      match dropGap (dropBracket behind) with
      | '=' :: more => do
        let (value, more) ← valueAt? fuel more
        let key ← first.key?
        fieldsFrom? fuel (OrderedMap.insert key value fields) .nil (index + 1) more
      | ',' :: more =>
        fieldsFrom? fuel (OrderedMap.insert (.int index) first fields) .nil (index + 1) more
      | more => fieldsFrom? fuel fields first index more := by
  rw [fieldsFrom?.eq_def]
  dsimp only
  rw [h]
  split
  · next heq => cases heq
  · next heq => exact absurd (List.cons.inj heq).1 hc.1
  · next heq => exact absurd (List.cons.inj heq).1 hc.2.1
  · next heq => exact absurd (List.cons.inj heq).1 hc.2.2
  · rw [hfirst]
    rfl

theorem fieldsFrom?_item {more : List Char} (hbehind : dropGap (dropBracket behind) = ',' :: more) :
    fieldsFrom? (fuel + 1) fields pending index s =
      fieldsFrom? fuel (OrderedMap.insert (.int index) first fields) .nil (index + 1) more := by
  rw [fieldsFrom?_first h hc hfirst, hbehind]
  rfl

theorem fieldsFrom?_last {more : List Char} (hbehind : dropGap (dropBracket behind) = '}' :: more) :
    fieldsFrom? (fuel + 1) fields pending index s =
      fieldsFrom? fuel fields first index ('}' :: more) := by
  rw [fieldsFrom?_first h hc hfirst, hbehind]
  rfl

theorem fieldsFrom?_named {more after : List Char} {value : Value} {key : Key}
    (hbehind : dropGap (dropBracket behind) = '=' :: more)
    (hvalue : valueAt? fuel more = some (value, after)) (hkey : first.key? = some key) :
    fieldsFrom? (fuel + 1) fields pending index s =
      fieldsFrom? fuel (OrderedMap.insert key value fields) .nil (index + 1) after := by
  rw [fieldsFrom?_first h hc hfirst, hbehind]
  change (valueAt? fuel more).bind _ = _
  rw [hvalue, Option.bind_some, hkey]
  rfl

end

end

/-! ## The entries of a row -/

/-- A field of a table under its key, or without one. -/
abbrev Slot := Option Key × Value

/-- What a field with a name or without one becomes. -/
def Field.slot (field : Field) : Slot :=
  (field.1.map fun name => .text (String.ofList name), field.2)

theorem slots_items (items : List Value) :
    (items.map fun v => ((none, v) : Field)).map Field.slot = items.map (none, ·) := by
  simp [Field.slot, Function.comp_def]

theorem slots_named (fields : List (List Char × Value)) :
    (fields.map fun field => ((some field.1, field.2) : Field)).map Field.slot =
      fields.map fun field => (some (.text (String.ofList field.1)), field.2) := by
  simp [Field.slot, Function.comp_def]

/-- The entries of a table whose fields are numbered from some number on. A field without a key is
found under its number among all fields. -/
def entriesFrom (index : Nat) : List Slot → List (Key × Value)
  | [] => []
  | (key, v) :: row => (key.getD (.int index), v) :: entriesFrom (index + 1) row

@[simp] theorem length_entriesFrom (index : Nat) (row : List Slot) :
    (entriesFrom index row).length = row.length := by
  induction row generalizing index with
  | nil => rfl
  | cons field row ih => rw [entriesFrom, List.length_cons, ih, List.length_cons]

section

variable {items : List Value} {index : Nat}

theorem exists_int_of_mem_entriesFrom {e : Key × Value}
    (h : e ∈ entriesFrom index (items.map (none, ·))) : ∃ n : Nat, e.1 = .int n ∧ index ≤ n := by
  induction items generalizing index with
  | nil => cases h
  | cons v items ih =>
    rcases List.mem_cons.1 h with rfl | h
    · exact ⟨index, rfl, Nat.le_refl _⟩
    · obtain ⟨n, hn, hle⟩ := ih h
      exact ⟨n, hn, Nat.le_of_succ_le hle⟩

theorem exists_entry_of_lt (index : Nat) {n : Nat} (h : n < items.length) :
    ∃ e ∈ entriesFrom index (items.map (none, ·)), e.1 = .int (index + n : Nat) := by
  induction items generalizing index n with
  | nil => cases h
  | cons v items ih =>
    cases n with
    | zero => exact ⟨_, List.mem_cons_self, rfl⟩
    | succ n =>
      obtain ⟨e, he, hkey⟩ := ih (index + 1) (Nat.lt_of_succ_lt_succ h)
      refine ⟨e, List.mem_cons_of_mem _ he, ?_⟩
      rw [hkey]
      congr 2
      omega

theorem distinct_entriesFrom_items (index : Nat) (items : List Value) :
    Distinct (entriesFrom index (items.map (none, ·))) := by
  induction items generalizing index with
  | nil => exact List.Pairwise.nil
  | cons v items ih =>
    refine List.pairwise_cons.2 ⟨fun e he => ?_, ih (index + 1)⟩
    obtain ⟨n, hn, hle⟩ := exists_int_of_mem_entriesFrom he
    rw [hn]
    change ((index : Int) == (n : Int)) = false
    simp
    omega

/-- Items that come in order are put behind one another. -/
theorem foldl_insertAt (front : List Value) (items : List Value) :
    (entriesFrom front.length (items.map (none, ·))).foldl
      (fun items field => insertAt (Key.place field.1) field.2 items) front = front ++ items := by
  induction items generalizing front with
  | nil => exact (List.append_nil front).symm
  | cons v items ih =>
    have hinsert : insertAt (Key.place (.int front.length)) v front = front ++ [v] := by
      simp [insertAt, Key.place]
    have htail := ih (front ++ [v])
    rw [List.length_append, List.length_singleton, List.append_assoc] at htail
    rw [List.map_cons, entriesFrom, List.foldl_cons, Option.getD_none, hinsert]
    exact htail

theorem closedTable?_items (hne : items ≠ []) :
    closedTable? (entriesFrom 0 (items.map (none, ·))) = some (.list items) := by
  have hint : ∀ p : Key → Bool, (∀ n, p (.int n) = false) →
      ((entriesFrom 0 (items.map (none, ·))).any fun field => p field.1) = false := by
    intro p hp
    refine List.any_eq_false.2 fun e he => ?_
    obtain ⟨n, hn, -⟩ := exists_int_of_mem_entriesFrom he
    rw [hn, hp]
    exact Bool.false_ne_true
  have hnonempty : (entriesFrom 0 (items.map (none, ·))).isEmpty = false := by
    rw [List.isEmpty_eq_false_iff_exists_mem]
    obtain ⟨e, he, -⟩ := exists_entry_of_lt 0 (List.length_pos_iff.2 hne)
    exact ⟨e, he⟩
  have hrange : ((List.range items.length).all fun (i : Nat) =>
      (entriesFrom 0 (items.map (none, ·))).any fun field => field.1 == .int i) = true := by
    refine List.all_eq_true.2 fun i hi => List.any_eq_true.2 ?_
    obtain ⟨e, he, hkey⟩ := exists_entry_of_lt 0 (List.mem_range.1 hi)
    refine ⟨e, he, ?_⟩
    rw [hkey, Nat.zero_add]
    exact BEq.rfl (a := (i : Int))
  have hfold := foldl_insertAt [] items
  rw [closedTable?, hint Key.isNamed fun _ => rfl, hint Key.isNil fun _ => rfl, length_entriesFrom,
    List.length_map, hnonempty, hrange]
  simp only [Bool.false_and, Bool.not_false, Bool.true_and, if_true, Bool.false_eq_true, if_false]
  rw [show entriesFrom 0 _ = entriesFrom ([] : List Value).length _ from rfl, hfold,
    List.nil_append]

end

section

variable {fields : List (List Char × Value)}

theorem entriesFrom_named (index : Nat) (fields : List (List Char × Value)) :
    entriesFrom index (fields.map fun field => (some (.text (String.ofList field.1)), field.2)) =
      fields.map fun field => (.text (String.ofList field.1), field.2) := by
  induction fields generalizing index with
  | nil => rfl
  | cons field fields ih => rw [List.map_cons, entriesFrom, ih, List.map_cons]; rfl

theorem distinct_named (h : (fields.map Prod.fst).Nodup) :
    Distinct (fields.map fun field => (Key.text (String.ofList field.1), field.2)) := by
  refine List.pairwise_map.2 ((List.pairwise_map.1 h).imp fun hne => ?_)
  rw [Key.text_beq_text, beq_eq_false_iff_ne]
  exact fun heq => hne (String.ofList_injective heq)

theorem closedTable?_named (hne : fields ≠ []) :
    closedTable? (fields.map fun field => (.text (String.ofList field.1), field.2)) =
      some (.table (fields.map fun field => (.text (String.ofList field.1), field.2))) := by
  obtain ⟨field, more, rfl⟩ := List.exists_cons_of_ne_nil hne
  rw [closedTable?, if_pos (by rfl)]

end

end ModAlmanac.Lua
