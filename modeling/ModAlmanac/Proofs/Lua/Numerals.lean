import ModAlmanac.Proofs.Finite
import ModAlmanac.Proofs.Number.Finite
import ModAlmanac.Proofs.TextKeys
import ModAlmanac.Source.Config

/-!
# Numerals of a literal source

The numerals of a table are checked when its literal source is written, yet the reader of that
source may come upon others: text that was quoted at first can stand outside of a string there, and
two numerals can stand next to each other and be read as one. All that holds is that the value of a
table is finite if no text inside its literal source is a numeral out of range
(`isFinite_of_decodeTable`).

The reader goes over the literal source from front to back. Each of its steps gives a finite value
and leaves a rest of the literal source behind (`FiniteRead`), so that the numbers that it reads are
numerals inside the literal source.
-/

namespace ModAlmanac.Lua

open Number Text OrderedMap

/-- Whether no numeral inside a text is out of range. -/
def NumeralsInRange (s : List Char) : Prop :=
  ∀ numeral, numeral <:+: s → ¬WritesOutOfRange numeral

/-- A finite value that has been read of a text, and what is left of the text. -/
structure FiniteRead (literal : List Char) (v : Value) (rest : List Char) : Prop where
  isFinite : v.IsFinite
  suffix : rest <:+ literal

/-! ## Numbers -/

theorem isFinite_of_writtenNumber? {negative : Bool} {digits behind : List Char} {v : Value}
    (h : writtenNumber? negative digits behind = some v)
    (hrange : ¬WritesOutOfRange ((if negative then ['-'] else []) ++ digits ++ behind)) :
    v.IsFinite := by
  unfold writtenNumber? at h
  dsimp only at h
  split at h
  · cases h
    exact isFinite_int _
  · obtain ⟨x, hx, rfl⟩ := Option.map_eq_some_iff.1 h
    rw [isFinite_float, ← Bool.not_eq_false, isFinite_floatOfText?_iff hx]
    exact hrange

/-- The fraction behind the whole digits of a number, and the text behind it. A point without digits
behind it is passed. -/
def fractionBehind (s : List Char) : Option (List Char) × List Char :=
  match s with
  | '.' :: more =>
    match more.takeWhile isAnyDigit with
    | [] => (none, more)
    | run => (some ('.' :: run), more.dropWhile isAnyDigit)
  | rest => (some [], rest)

/-- A fraction is taken off the front of a text. -/
theorem fractionBehind_spec (s : List Char) :
    (∀ rest, fractionBehind s = (none, rest) → rest <:+ s) ∧
      ∀ fraction rest, fractionBehind s = (some fraction, rest) → fraction ++ rest = s := by
  unfold fractionBehind
  split
  · next more =>
    split
    · refine ⟨fun rest h => ?_, fun fraction rest h => by cases h⟩
      cases h
      exact List.suffix_cons _ _
    · refine ⟨fun rest h => (by cases h), fun fraction rest h => ?_⟩
      cases h
      rw [List.cons_append, List.takeWhile_append_dropWhile]
  · refine ⟨fun rest h => (by cases h), fun fraction rest h => ?_⟩
    cases h
    rfl

/-- A decimal number whose whole digits have been passed, and the text behind it. -/
def decimalBehind? (negative : Bool) (digits s : List Char) : Option (Value × List Char) :=
  let (fraction, rest) := fractionBehind s
  match fraction with
  | none => some (.int 0, rest)
  | some fraction =>
    match rest with
    | e :: more =>
      if e = 'e' || e = 'E' then
        match signedExponent more with
        | (none, after) => some (.int 0, after)
        | (some exponent, after) =>
          (writtenNumber? negative digits (fraction ++ e :: exponent)).map (·, after)
      else (writtenNumber? negative digits fraction).map (·, rest)
    | [] => (writtenNumber? negative digits fraction).map (·, rest)

/-- A number is an integer in hexadecimal digits, or it is decimal. -/
theorem numberBehind?_cases {negative : Bool} {digits s after : List Char} {v : Value}
    (h : numberBehind? negative digits s = some (v, after)) :
    (∃ n, v = .int n ∧ after <:+ s) ∨ decimalBehind? negative digits s = some (v, after) := by
  unfold numberBehind? at h
  dsimp only at h
  split at h
  · next more hhex =>
    have hmore : more <:+ s := by
      split at hhex
      · split at hhex
        · cases hhex
          exact List.suffix_cons _ _
        · cases hhex
      · cases hhex
    split at h
    · cases h
    · obtain ⟨n, -, heq⟩ := Option.map_eq_some_iff.1 h
      cases heq
      exact .inl ⟨n, rfl, (List.dropWhile_suffix _).trans hmore⟩
  · exact .inr h

theorem signedExponent_spec (s : List Char) :
    (∀ rest, signedExponent s = (none, rest) → rest <:+ s) ∧
      ∀ exponent rest, signedExponent s = (some exponent, rest) → exponent ++ rest = s := by
  unfold signedExponent
  split
  · refine ⟨fun rest h => ?_, fun exponent rest h => by cases h⟩
    cases h
    exact List.suffix_refl _
  · split
    · split
      · refine ⟨fun rest h => ?_, fun exponent rest h => by cases h⟩
        cases h
        exact List.suffix_cons _ _
      · refine ⟨fun rest h => (by cases h), fun exponent rest h => ?_⟩
        cases h
        rw [List.cons_append, List.takeWhile_append_dropWhile]
    · refine ⟨fun rest h => ?_, fun exponent rest h => by cases h⟩
      cases h
      exact List.suffix_refl _

/-! ## Rests of a text -/

theorem Gap.suffix_drop (gap : Gap) (s : List Char) : gap.drop s <:+ s := by
  fun_induction Gap.drop gap s with
  | case1 rest ih => exact ih.trans ⟨['-', '-', '[', '['], rfl⟩
  | case2 rest hlong ih => exact ih.trans ⟨['-', '-'], rfl⟩
  | case3 c rest hlong hline hblank ih => exact ih.trans (List.suffix_cons _ _)
  | case4 c rest hlong hline hblank => exact List.suffix_refl _
  | case5 rest ih => exact ih.trans (List.suffix_cons _ _)
  | case6 c rest hend ih => exact ih.trans (List.suffix_cons _ _)
  | case7 rest ih => exact ih.trans ⟨[']', ']'], rfl⟩
  | case8 c rest hend ih => exact ih.trans (List.suffix_cons _ _)
  | case9 gap => exact List.suffix_refl _

theorem suffix_dropGap (s : List Char) : dropGap s <:+ s :=
  Gap.suffix_drop .blanks s

theorem suffix_of_quotedString? {q : Char} {s inner after : List Char}
    (h : quotedString? q s = some (inner, after)) : after <:+ s := by
  fun_induction quotedString? q s generalizing inner with
  | case1 => cases h
  | case2 =>
    cases h
    exact List.suffix_cons _ _
  | case3 => cases h
  | case4 =>
    cases h
    exact List.suffix_cons _ _
  | case5 d rest hquote ih =>
    obtain ⟨⟨text, behind⟩, htext, heq⟩ := Option.map_eq_some_iff.1 h
    cases heq
    exact (ih htext).trans ⟨['\\', d], rfl⟩
  | case6 c d rest hquote hescape ih =>
    obtain ⟨⟨text, behind⟩, htext, heq⟩ := Option.map_eq_some_iff.1 h
    cases heq
    exact (ih htext).trans (List.suffix_cons _ _)

theorem suffix_of_bracketString? {s inner after : List Char}
    (h : bracketString? s = some (inner, after)) : after <:+ s := by
  fun_induction bracketString? s generalizing inner with
  | case1 => cases h
  | case2 => cases h
  | case3 c d rest hend =>
    cases h
    exact ⟨[c, d], rfl⟩
  | case4 c d rest hend ih =>
    obtain ⟨⟨text, behind⟩, htext, heq⟩ := Option.map_eq_some_iff.1 h
    cases heq
    exact (ih htext).trans (List.suffix_cons _ _)

theorem suffix_wordFrom (start s : List Char) : (wordFrom start s).2 <:+ s := by
  fun_induction wordFrom start s with
  | case1 start => exact List.suffix_refl _
  | case2 start c rest hword ih => exact ih.trans (List.suffix_cons _ _)
  | case3 start c rest hword => exact List.suffix_refl _

theorem suffix_dropBracket (s : List Char) : dropBracket s <:+ s := by
  unfold dropBracket
  split
  · exact List.suffix_cons _ _
  · exact List.suffix_refl _

/-! ## Values made of finite ones -/

theorem isFinite_wordValue (word : List Char) : (wordValue word).IsFinite := by
  unfold wordValue
  split
  · exact isFinite_bool true
  · split
    · exact isFinite_bool false
    · split
      · exact isFinite_nil
      · exact isFinite_text _

theorem isFinite_insertAt {place : Nat} {item : Value} {items : List Value}
    (hitem : item.IsFinite) (hitems : ∀ v ∈ items, v.IsFinite) :
    ∀ v ∈ insertAt place item items, v.IsFinite := by
  intro v hv
  rcases List.mem_append.1 hv with hv | hv
  · exact hitems v (List.mem_of_mem_take hv)
  · rcases List.mem_cons.1 hv with rfl | hv
    · exact hitem
    · exact hitems v (List.mem_of_mem_drop hv)

theorem isFinite_of_closedTable? {fields : List (Key × Value)} {v : Value}
    (hfields : ∀ e ∈ fields, e.2.IsFinite) (h : closedTable? fields = some v) : v.IsFinite := by
  unfold closedTable? at h
  split at h
  · cases h
    exact isFinite_table.2 hfields
  split at h
  · cases h
  split at h
  · cases h
    refine isFinite_list.2 (List.foldlRecOn
      (motive := fun items : List Value => ∀ v ∈ items, v.IsFinite) _ _
      (fun _ hv => absurd hv List.not_mem_nil) fun items hitems field hfield => ?_)
    exact isFinite_insertAt (hfields field hfield) hitems
  · cases h
    exact isFinite_table.2 hfields

theorem isFinite_insert {key : Key} {v : Value} {fields : List (Key × Value)}
    (hfields : ∀ e ∈ fields, e.2.IsFinite) (hv : v.IsFinite) :
    ∀ e ∈ OrderedMap.insert key v fields, e.2.IsFinite :=
  fun e he => (forall_mem_insert (P := fun _ => True)
    (fun e he => ⟨trivial, hfields e he⟩) trivial hv e he).2

/-! ## What is read -/

section

variable {literal : List Char} (hliteral : NumeralsInRange literal)

include hliteral

theorem finiteRead_of_writtenNumber? {negative : Bool} {digits behind rest after : List Char}
    {v : Value}
    (hs : (if negative then ['-'] else []) ++ digits ++ behind ++ rest <:+ literal)
    (h : (writtenNumber? negative digits behind).map (·, rest) = some (v, after)) :
    FiniteRead literal v after := by
  obtain ⟨w, hw, heq⟩ := Option.map_eq_some_iff.1 h
  cases heq
  refine ⟨isFinite_of_writtenNumber? hw (hliteral _ ?_), ?_⟩
  · exact (List.prefix_append _ _).isInfix.trans hs.isInfix
  · exact (List.suffix_append _ _).trans hs

theorem finiteRead_of_numberBehind? {negative : Bool} {digits rest after : List Char} {v : Value}
    (hs : (if negative then ['-'] else []) ++ digits ++ rest <:+ literal)
    (h : numberBehind? negative digits rest = some (v, after)) : FiniteRead literal v after := by
  have hrest : rest <:+ literal := (List.suffix_append _ _).trans hs
  rcases numberBehind?_cases h with ⟨n, rfl, hafter⟩ | h
  · exact ⟨isFinite_int n, hafter.trans hrest⟩
  obtain ⟨hpoint, hfraction⟩ := fractionBehind_spec rest
  unfold decimalBehind? at h
  generalize fractionBehind rest = found at h hpoint hfraction
  obtain ⟨fraction?, tail⟩ := found
  dsimp only at h
  split at h
  · cases h
    exact ⟨isFinite_int 0, (hpoint _ rfl).trans hrest⟩
  · next fraction =>
    rw [← hfraction _ _ rfl] at hs
    split at h
    · next e more =>
      obtain ⟨hsign, hexponent⟩ := signedExponent_spec more
      split at h
      · split at h
        · next behind hnone =>
          cases h
          have hmore : e :: more <:+ literal :=
            (List.suffix_append _ _).trans ((List.suffix_append _ _).trans hs)
          exact ⟨isFinite_int 0, (hsign _ hnone).trans ((List.suffix_cons _ _).trans hmore)⟩
        · next exponent behind hsome =>
          refine finiteRead_of_writtenNumber? hliteral ?_ h
          rw [← hexponent _ _ hsome] at hs
          simpa using hs
      · refine finiteRead_of_writtenNumber? hliteral ?_ h
        simpa using hs
    · refine finiteRead_of_writtenNumber? hliteral ?_ h
      simpa using hs

theorem finiteRead_of_numberAt? {s after : List Char} {v : Value} (hs : s <:+ literal)
    (h : numberAt? s = some (v, after)) : FiniteRead literal v after := by
  unfold numberAt? at h
  split at h
  · next rest =>
    split at h
    · cases h
      exact ⟨isFinite_int 0, (List.suffix_cons _ _).trans hs⟩
    · refine finiteRead_of_numberBehind? hliteral ?_ h
      rw [if_pos rfl, List.append_assoc, List.takeWhile_append_dropWhile]
      exact hs
  · refine finiteRead_of_numberBehind? hliteral ?_ h
    rw [if_neg Bool.false_ne_true, List.nil_append, List.takeWhile_append_dropWhile]
    exact hs

theorem finiteRead_of_scalarAt? {c : Char} {rest after : List Char} {v : Value}
    (hs : c :: rest <:+ literal) (h : scalarAt? c rest = some (v, after)) :
    FiniteRead literal v after := by
  have hrest : rest <:+ literal := (List.suffix_cons _ _).trans hs
  unfold scalarAt? at h
  split at h
  · obtain ⟨⟨text, behind⟩, htext, heq⟩ := Option.map_eq_some_iff.1 h
    cases heq
    exact ⟨isFinite_text _, (suffix_of_bracketString? htext).trans hrest⟩
  split at h
  · obtain ⟨⟨text, behind⟩, htext, heq⟩ := Option.map_eq_some_iff.1 h
    cases heq
    exact ⟨isFinite_text _, (suffix_of_quotedString? htext).trans hrest⟩
  split at h
  · exact finiteRead_of_numberAt? hliteral hs h
  · cases h
    exact ⟨isFinite_wordValue _, (suffix_wordFrom _ _).trans hrest⟩

end

-- The induction is on the fuel, one step of each of the three readers at a time.
mutual

theorem finiteRead_of_valueAt? (hliteral : NumeralsInRange literal) :
    ∀ (fuel : Nat) {s after : List Char} {v : Value},
    s <:+ literal → valueAt? fuel s = some (v, after) → FiniteRead literal v after
  | 0, _, _, _, _, h => by cases h
  | fuel + 1, s, after, v, hs, h => by
    have hgap := (suffix_dropGap s).trans hs
    rw [valueAt?] at h
    split at h
    · cases h
    · next c rest hrest =>
      rw [hrest] at hgap
      have htail := (List.suffix_cons c rest).trans hgap
      split at h
      · exact finiteRead_of_tableBehind? hliteral fuel htail h
      · split at h
        · split at h
          · cases h
          · exact finiteRead_of_scalarAt? hliteral htail h
        · exact finiteRead_of_scalarAt? hliteral hgap h

theorem finiteRead_of_tableBehind? (hliteral : NumeralsInRange literal) :
    ∀ (fuel : Nat) {s after : List Char} {v : Value},
    s <:+ literal → tableBehind? fuel s = some (v, after) → FiniteRead literal v after
  | 0, _, _, _, _, h => by cases h
  | fuel + 1, s, after, v, hs, h => by
    have hgap := (suffix_dropGap s).trans hs
    rw [tableBehind?] at h
    split at h
    · next rest hrest =>
      rw [hrest] at hgap
      cases h
      exact ⟨isFinite_table.2 fun _ he => absurd he List.not_mem_nil,
        (List.suffix_cons _ _).trans hgap⟩
    · exact finiteRead_of_fieldsFrom? hliteral fuel (fun _ he => absurd he List.not_mem_nil)
        isFinite_nil hgap h

theorem finiteRead_of_fieldsFrom? (hliteral : NumeralsInRange literal) :
    ∀ (fuel : Nat) {fields : List (Key × Value)}
    {pending : Value} {index : Nat} {s after : List Char} {v : Value},
    (∀ e ∈ fields, e.2.IsFinite) → pending.IsFinite → s <:+ literal →
      fieldsFrom? fuel fields pending index s = some (v, after) → FiniteRead literal v after
  | 0, _, _, _, _, _, _, _, _, _, h => by cases h
  | fuel + 1, fields, pending, index, s, after, v, hfields, hpending, hs, h => by
    have hgap := (suffix_dropGap s).trans hs
    rw [fieldsFrom?.eq_def] at h
    dsimp only at h
    split at h
    · cases h
    · next rest hrest =>
      rw [hrest] at hgap
      obtain ⟨⟨inner, behind⟩, hinner, h⟩ := Option.bind_eq_some_iff.1 h
      have htail := (List.suffix_cons _ _).trans hgap
      have hread := finiteRead_of_tableBehind? hliteral fuel htail hinner
      exact finiteRead_of_fieldsFrom? hliteral fuel (isFinite_insert hfields hread.isFinite)
        hpending hread.suffix h
    · next rest hrest =>
      rw [hrest] at hgap
      obtain ⟨w, hclosed, heq⟩ := Option.map_eq_some_iff.1 h
      cases heq
      refine ⟨isFinite_of_closedTable? ?_ hclosed, (List.suffix_cons _ _).trans hgap⟩
      split
      · exact hfields
      · exact isFinite_insert hfields hpending
    · next rest hrest =>
      rw [hrest] at hgap
      exact finiteRead_of_fieldsFrom? hliteral fuel hfields hpending
        ((List.suffix_cons _ _).trans hgap) h
    · obtain ⟨⟨first, rest⟩, hfirst, h⟩ := Option.bind_eq_some_iff.1 h
      have hread := finiteRead_of_valueAt? hliteral fuel hgap hfirst
      have hbehind := (suffix_dropGap (dropBracket rest)).trans
        ((suffix_dropBracket rest).trans hread.suffix)
      dsimp only at h
      split at h
      · next tail htail =>
        rw [htail] at hbehind
        obtain ⟨⟨value, behind⟩, hvalue, h⟩ := Option.bind_eq_some_iff.1 h
        obtain ⟨key, -, h⟩ := Option.bind_eq_some_iff.1 h
        have hvalueRead :=
          finiteRead_of_valueAt? hliteral fuel ((List.suffix_cons _ _).trans hbehind) hvalue
        exact finiteRead_of_fieldsFrom? hliteral fuel (isFinite_insert hfields hvalueRead.isFinite)
          isFinite_nil hvalueRead.suffix h
      · next tail htail =>
        rw [htail] at hbehind
        exact finiteRead_of_fieldsFrom? hliteral fuel (isFinite_insert hfields hread.isFinite)
          isFinite_nil ((List.suffix_cons _ _).trans hbehind) h
      · exact finiteRead_of_fieldsFrom? hliteral fuel hfields hread.isFinite hbehind h

end

/-! ## Decoded tables -/

mutual

theorem isFinite_textKeyed : ∀ {v : Value}, v.IsFinite → (textKeyed v).IsFinite
  | .nil, h => h
  | .bool _, h => h
  | .int _, h => h
  | .float _, h => h
  | .text _, h => h
  | .list items, h => isFinite_list.2 (isFinite_textKeyedItems (isFinite_list.1 h))
  | .table fields, h => by
    have hfields := isFinite_textKeyedFields (isFinite_table.1 h)
    exact isFinite_table.2 fun e he => (forall_mem_ofList (P := fun _ => True)
      (fun e he => ⟨trivial, hfields e he⟩) e he).2

theorem isFinite_textKeyedItems : ∀ {items : List Value}, (∀ v ∈ items, v.IsFinite) →
    ∀ v ∈ textKeyedItems items, v.IsFinite
  | [], _ => fun _ hv => absurd hv List.not_mem_nil
  | _ :: _, h => List.forall_mem_cons.2 ⟨isFinite_textKeyed (List.forall_mem_cons.1 h).1,
      isFinite_textKeyedItems (List.forall_mem_cons.1 h).2⟩

theorem isFinite_textKeyedFields : ∀ {fields : List (Key × Value)},
    (∀ e ∈ fields, e.2.IsFinite) → ∀ e ∈ textKeyedFields fields, e.2.IsFinite
  | [], _ => fun _ he => absurd he List.not_mem_nil
  | (_, _) :: _, h => List.forall_mem_cons.2 ⟨isFinite_textKeyed (List.forall_mem_cons.1 h).1,
      isFinite_textKeyedFields (List.forall_mem_cons.1 h).2⟩

end

/-- A table is finite if no numeral in its literal source is out of range. -/
theorem isFinite_of_decodeTable {source literal : List Char} {v : Value}
    (hsource : literalSource source = .ok literal) (hliteral : NumeralsInRange literal)
    (h : decodeTable source = .ok v) : v.IsFinite := by
  unfold decodeTable at h
  rw [hsource] at h
  simp only [bind, Except.bind] at h
  split at h
  · split at h
    · next value hread =>
      cases h
      obtain ⟨⟨w, rest⟩, hvalue, rfl⟩ := Option.map_eq_some_iff.1 hread
      exact isFinite_textKeyed
        (finiteRead_of_valueAt? hliteral _ (List.suffix_refl _) hvalue).isFinite
    · cases h
  · cases h

end ModAlmanac.Lua

namespace ModAlmanac.Source

open Lua Number

/-- A config that is not finite comes from a numeral out of range in its literal source. -/
theorem exists_numeral_of_decodeConfig {body : List Char}
    (h : ¬(Value.table (decodeConfig body)).IsFinite) :
    ∃ source literal numeral, configSource? body = some source ∧
      literalSource source = .ok literal ∧ numeral <:+: literal ∧ WritesOutOfRange numeral := by
  have hempty : (Value.table []).IsFinite :=
    isFinite_table.2 fun _ he => absurd he List.not_mem_nil
  unfold decodeConfig at h
  split at h
  · exact absurd hempty h
  · next source hsource =>
    split at h
    · next fields htable =>
      cases hliteral : literalSource source with
      | error e => simp [decodeTable, hliteral, bind, Except.bind] at htable
      | ok literal =>
        have hrange : ¬NumeralsInRange literal := fun hrange =>
          h (isFinite_of_decodeTable hliteral hrange htable)
        simp only [NumeralsInRange, not_forall, not_not] at hrange
        obtain ⟨numeral, hinfix, hwrites⟩ := hrange
        exact ⟨source, literal, numeral, hsource, hliteral, hinfix, hwrites⟩
    · exact absurd hempty h

end ModAlmanac.Source
