import ModAlmanac.Proofs.Lua.Insertions
import ModAlmanac.Proofs.Number.Finite

/-!
# Numerals in tables

What the tokenizer reads as a numeral stands for one value (`NumeralValue`): a hexadecimal or whole one
for an integer with its sign, any other for the nearest double. A double is written anew in its
shortest text, and refused if that has an exponent or the double is infinite (`refusal?`).

A refused numeral makes the whole source fail, since all that stands in front of it can be written
anew. One that is not refused is a scalar, so that the table gains its field and nothing else.
-/

namespace ModAlmanac.Lua

open Number Text OrderedMap

/-! ## Numerals -/

/-- What a numeral stands for: hexadecimal and whole ones are integers, all others are read as
doubles. -/
inductive NumeralValue (negative : Bool) : List Char → Value → Prop
  | hexadecimal (h : Hexadecimal) :
      NumeralValue negative h.text (.int (signed negative (hexDigitsValue h.digits)))
  | whole {digits : List Char} (hne : digits ≠ []) (hdigits : ∀ c ∈ digits, isDecimalDigit c = true) :
      NumeralValue negative digits (.int (signed negative (digitsValue digits)))
  | double {m : Mantissa} {x : Option Exponent} {y : Float} (hx : x = none ∨ m.whole ≠ [])
      (hpoint : m.fraction ≠ none ∨ x ≠ none)
      (hy : floatOfText? ((if negative then ['-'] else []) ++ (m.text ++ powerText x)) = some y) :
      NumeralValue negative (m.text ++ powerText x) (.float y)

/-- Why a numeral is refused: its double is infinite, or the shortest text of it has an exponent. -/
def refusal? (numeral : List Char) : Value → Option TableError
  | .float y =>
    if y.isFinite = false then some (.outOfRange numeral)
    else if 'e' ∈ floatText "inf" "nan" y then some (.needsExponent numeral)
    else none
  | _ => none

theorem refusal?_infinite (s : List Char) {y : Float} (h : parts? y = none) :
    refusal? s (.float y) = some (.outOfRange s) := by
  rw [refusal?, if_pos ((isFinite_eq_false_iff y).2 h)]

theorem refusal?_finite (s : List Char) {y : Float} {p : Parts} (h : parts? y = some p) :
    refusal? s (.float y) = if 'e' ∈ p.text then some (.needsExponent s) else none := by
  have hfinite : ¬ y.isFinite = false := by
    rw [isFinite_eq_false_iff, h]
    exact Option.some_ne_none p
  rw [refusal?, if_neg hfinite, floatText, h]

/-- What the tokenizer reads as a numeral stands for something. -/
theorem exists_numeralValue (negative : Bool) {s digits rest : List Char}
    (h : unsignedNumeral? s = some (digits, rest)) :
    s = digits ++ rest ∧ ∃ v, NumeralValue negative digits v := by
  unfold unsignedNumeral? at h
  split at h
  · next found hhex =>
    obtain rfl := Option.some.inj h
    obtain ⟨hex, rfl, hs⟩ := exists_hexadecimal hhex
    exact ⟨hs, _, .hexadecimal hex⟩
  · obtain ⟨m, x, rfl, hs, hx⟩ := exists_decimal h
    have hx : x = none ∨ m.whole ≠ [] := hx.imp_right fun h => h.resolve_left Bool.false_ne_true
    refine ⟨hs, ?_⟩
    by_cases hpoint : m.fraction = none ∧ x = none
    · obtain ⟨hfraction, rfl⟩ := hpoint
      have htext : m.text ++ powerText none = m.whole := by
        rw [powerText, List.append_nil, Mantissa.text, Mantissa.pointText, hfraction, List.append_nil]
      have hne : m.whole ≠ [] := m.ne_nil.resolve_right fun h => h (by rw [hfraction]; rfl)
      rw [htext]
      exact ⟨_, .whole hne m.isDigit_whole⟩
    · exact ⟨_, .double hx (not_and_or.1 hpoint) (floatOfText?_signed negative m x)⟩

/-- A number token is a numeral with a minus sign in front of it or without one. -/
theorem Token.exists_of_read?_number {s digits rest : List Char} {negative : Bool}
    (h : Token.read? s = some (.number negative digits, rest)) :
    ∃ unsigned, s = (if negative then ['-'] else []) ++ unsigned ∧
      unsignedNumeral? unsigned = some (digits, rest) := by
  cases s with
  | nil => cases h
  | cons c s =>
    unfold Token.read? at h
    dsimp only at h
    split at h
    · next hliteral =>
      split at hliteral
      · obtain ⟨_, -, heq⟩ := Option.map_eq_some_iff.1 hliteral
        cases heq.trans (Option.some.inj h)
      · cases hliteral
    · next hcomment =>
      split at hcomment
      · cases hcomment.trans h
      · cases hcomment
    · next hnumber =>
      obtain rfl := Option.some.inj h
      split at hnumber
      · next hminus =>
        obtain ⟨⟨_, _⟩, hread, heq⟩ := Option.map_eq_some_iff.1 hnumber
        cases heq
        exact ⟨s, by rw [hminus]; rfl, hread⟩
      · obtain ⟨⟨_, _⟩, hread, heq⟩ := Option.map_eq_some_iff.1 hnumber
        cases heq
        exact ⟨c :: s, rfl, hread⟩
    · split at h
      · split at h <;> cases h
      · split at h
        · cases h
        · split at h <;> cases h

section

variable {negative : Bool} {digits : List Char} {v : Value} (h : NumeralValue negative digits v)

include h

/-- A numeral that is not refused is a scalar of a literal source. -/
theorem NumeralValue.scalar
    (hv : refusal? ((if negative then ['-'] else []) ++ digits) v = none) :
    Scalar v ((if negative then ['-'] else []) ++ digits) := by
  cases h with
  | hexadecimal hex => exact .hexadecimal negative hex
  | whole hne hdigits => exact .whole negative hne hdigits
  | @double m x y hx hpoint hy =>
    obtain rfl := Option.some.inj ((floatOfText?_signed negative m x).symm.trans hy)
    cases hparts : parts? (ofMagnitude negative (m.decimal x).magnitude) with
    | none =>
      rw [refusal?_infinite _ hparts] at hv
      cases hv
    | some p =>
      rw [refusal?_finite _ hparts] at hv
      split at hv
      · cases hv
      · next hplain => exact .double negative hx hpoint hparts hplain

/-- A numeral that is refused is not written anew. -/
theorem NumeralValue.plainNumeral_of_refused {e : TableError}
    (hv : refusal? ((if negative then ['-'] else []) ++ digits) v = some e) :
    plainNumeral negative digits = .error e := by
  cases h with
  | hexadecimal hex => cases hv
  | whole hne hdigits => cases hv
  | @double m x y hx hpoint hy =>
    obtain rfl := Option.some.inj ((floatOfText?_signed negative m x).symm.trans hy)
    rw [plainNumeral_decimal negative hpoint]
    cases hparts : parts? (ofMagnitude negative (m.decimal x).magnitude) with
    | none =>
      rw [refusal?_infinite _ hparts] at hv
      exact congrArg Except.error (Option.some.inj hv)
    | some p =>
      rw [refusal?_finite _ hparts] at hv
      dsimp only
      split at hv
      · next hplain =>
        rw [if_pos (List.contains_iff_mem.2 hplain)]
        exact congrArg Except.error (Option.some.inj hv)
      · cases hv

theorem NumeralValue.head?_ne_sign (rest : List Char) :
    ((if negative then ['-'] else []) ++ (digits ++ rest)).head? ≠ some '=' := by
  rw [← List.append_assoc]
  cases h with
  | hexadecimal hex => exact (Scalar.hexadecimal negative hex).head?_ne_sign rest
  | whole hne hdigits => exact (Scalar.whole negative hne hdigits).head?_ne_sign rest
  | double => exact head?_ne_sign_of_numeral negative rest

/-- A numeral is read as a token of its own where nothing goes on with it. -/
theorem NumeralValue.unsignedNumeral? {rest : List Char} (hrest : Ends rest) :
    digits ≠ [] ∧ unsignedNumeral? (digits ++ rest) = some (digits, rest) := by
  cases h with
  | hexadecimal hex => exact ⟨List.cons_ne_nil _ _, unsignedNumeral?_hexadecimal hex hrest⟩
  | whole hne hdigits => exact ⟨hne, unsignedNumeral?_digits hne hdigits hrest.stopsNumeral⟩
  | @double m x y hx hpoint hy =>
    exact ⟨fun hnil => m.text_ne_nil (List.append_eq_nil_iff.1 hnil).1,
      unsignedNumeral?_decimal hx hrest.stopsNumeral⟩

end

/-! ## Fields -/

section

variable {negative : Bool} {digits head : List Char} {v : Value} {f : Frame} {front back : List Slot}
  {key : Option Key} (h : NumeralValue negative digits v) (hf : f.Holds front back)
  (hhead : FieldHead key head)

include h hf hhead

/-- The first part that is refused is the numeral, whatever stands behind it. -/
theorem decodeTable_refused {e : TableError}
    (hv : refusal? ((if negative then ['-'] else []) ++ digits) v = some e) :
    decodeTable ('{' :: f.put (head ++ ((if negative then ['-'] else []) ++ digits)) ++ ['}']) =
      .error e := by
  obtain ⟨rest, hrest, hput⟩ : ∃ rest, Follows rest ∧
      '{' :: f.put (head ++ ((if negative then ['-'] else []) ++ digits)) ++ ['}'] =
        ['{'] ++ (f.before ++ (f.lead ++ head)) ++
          ((if negative then ['-'] else []) ++ (digits ++ rest)) :=
    ⟨_, hf.follows [], by simp [Frame.put]⟩
  obtain ⟨hne, hread⟩ := h.unsignedNumeral? hrest.ends
  have htokens := tokens_of_read (Token.read?_numeral negative hne hread) (by
    have := List.length_pos_iff.2 hne
    simp only [List.length_append]
    omega)
  have herror : plainSource false
      (tokens ((if negative then ['-'] else []) ++ (digits ++ rest))) = .error e := by
    rw [htokens, plainSource, h.plainNumeral_of_refused hv]
  obtain ⟨before, hbefore⟩ := hf.before.exists_text
  obtain ⟨lead, -, hlead⟩ := exists_blanks hf.lead
  obtain ⟨text, htext⟩ := hhead.exists_text
  have hplace := (hlead false _).append (htext _ (h.head?_ne_sign rest))
  have hopen := (yields_mark false (c := '{') (by decide) _).append ((hbefore _).append hplace)
  have hliteral : literalSource
      ('{' :: f.put (head ++ ((if negative then ['-'] else []) ++ digits)) ++ ['}']) = .error e := by
    rw [hput, literalSource, hopen, herror]
    rfl
  rw [decodeTable, hliteral]
  rfl

theorem decodeTable_accepted
    (hv : refusal? ((if negative then ['-'] else []) ++ digits) v = none)
    (hnil : ∀ slot ∈ front ++ (key, v) :: back, slot.1 ≠ some .nil) :
    ∃ u w, decodeTable ('{' :: f.without ++ ['}']) = .ok u ∧
      decodeTable ('{' :: f.put (head ++ ((if negative then ['-'] else []) ++ digits)) ++ ['}']) =
        .ok w ∧ Gains front back key v u w := by
  have hne : v ≠ .nil := by
    cases h <;> exact fun h => Value.noConfusion h
  obtain ⟨w, hw⟩ := exists_tableOf? hnil
  obtain ⟨u, hu⟩ : ∃ u, tableOf? (front ++ back) = some u := by
    refine exists_tableOf? fun slot hslot => hnil slot ?_
    rcases List.mem_append.1 hslot with hslot | hslot
    · exact List.mem_append_left _ hslot
    · exact List.mem_append_right _ (List.mem_cons_of_mem _ hslot)
  have hrow := hf.put (hhead.field (.scalar (h.scalar hv))) fun _ => hne
  exact ⟨_, _, decodeTable_literal hf.without hu, decodeTable_literal hrow hw,
    gains_of_tableOf? hu hw⟩

end

/-- A numeral is refused exactly if its double is infinite or its shortest text has an exponent.
Otherwise the field that it is alone in has its value, and the table gains that field. -/
theorem decodeTable_numeral {s digits : List Char} {negative : Bool}
    (hs : Token.read? s = some (.number negative digits, [])) :
    (∃ v, NumeralValue negative digits v) ∧
      ∀ {v : Value} {f : Frame} {front back : List Slot} {key : Option Key} {head : List Char},
        NumeralValue negative digits v → f.Holds front back → FieldHead key head →
        (∀ slot ∈ front ++ (key, v) :: back, slot.1 ≠ some .nil) →
        match refusal? s v with
        | some e => decodeTable ('{' :: f.put (head ++ s) ++ ['}']) = .error e
        | none => ∃ u w, decodeTable ('{' :: f.without ++ ['}']) = .ok u ∧
            decodeTable ('{' :: f.put (head ++ s) ++ ['}']) = .ok w ∧ Gains front back key v u w := by
  obtain ⟨unsigned, rfl, hread⟩ := Token.exists_of_read?_number hs
  obtain ⟨hunsigned, hvalue⟩ := exists_numeralValue negative hread
  rw [List.append_nil] at hunsigned
  subst hunsigned
  refine ⟨hvalue, fun h hf hhead hnil => ?_⟩
  split
  · next hv => exact decodeTable_refused h hf hhead hv
  · next hv => exact decodeTable_accepted h hf hhead hv hnil

/-- A hexadecimal numeral with a minus sign, in front of another field. -/
theorem decodeTable_hexadecimal :
    ∃ fields others, decodeTable "\x7bk=-0x1F,y=2\x7d".toList = .ok (.table fields) ∧
      decodeTable "\x7by=2\x7d".toList = .ok (.table others) ∧
      lookup? "k" fields = some (.int (-31)) ∧
      fields.filter (fun e => !(e.1 == .text "k")) = others := by
  have hs : Token.read? "-0x1F".toList = some (.number true "0x1F".toList, []) := by decide +kernel
  have hvalue : NumeralValue true "0x1F".toList (.int (-31)) :=
    .hexadecimal ⟨false, ['1', 'F'], by decide, by simp; decide⟩
  have hname : IsFieldName ['k'] := isFieldName_of_forall (by decide) (by decide) (by decide)
  have hnone : ∀ c ∈ ([] : List Char), isBlank c = true := List.forall_mem_nil _
  obtain ⟨u, w, hu, hw, hgains⟩ := (decodeTable_numeral hs).2 hvalue (Frame.holds_first literalRow_two)
    (.named hname hnone .nil) (by simp)
  have htwo : decodeTable "\x7by=2\x7d".toList = .ok (textKeyed (.table [(.text "y", .int 2)])) :=
    decodeTable_literal literalRow_two rfl
  obtain rfl := Except.ok.inj (hu.symm.trans htwo)
  have hnew : NewKey (.text "k") (entriesFrom 0 []) (entriesFrom 1 [(some (.text "y"), .int 2)]) :=
    ⟨by simp [entriesFrom], by simp [entriesFrom]; decide⟩
  obtain ⟨fields, rfl⟩ := hgains.keyed _ List.mem_cons_self ⟨"k", rfl⟩
  exact ⟨fields, _, hw, hu, (hgains.table fields rfl hnew).found,
    hgains.others fields _ rfl rfl hnew (by simp)⟩

/-- A numeral behind a name gives the item behind it another number. -/
theorem item_renumbered :
    decodeTable "\x7bx=1,10\x7d".toList =
        .ok (.table [(.text "x", .int 1), (.text "1", .int 10)]) ∧
      decodeTable "\x7bx=1,k=5,10\x7d".toList =
        .ok (.table [(.text "x", .int 1), (.text "k", .int 5), (.text "2", .int 10)]) := by
  have hx : IsFieldName ['x'] := isFieldName_of_forall (by decide) (by decide) (by decide)
  have hk : IsFieldName ['k'] := isFieldName_of_forall (by decide) (by decide) (by decide)
  have hfirst := @literalField_whole ['x'] [] [] ['1'] hx (List.forall_mem_nil _)
    (List.forall_mem_nil _) (by decide) (List.forall_mem_singleton.2 (by decide))
  have hnamed := @literalField_whole ['k'] [] [] ['5'] hk (List.forall_mem_nil _)
    (List.forall_mem_nil _) (by decide) (List.forall_mem_singleton.2 (by decide))
  have hten : Scalar (.int 10) ['1', '0'] :=
    @Scalar.whole false ['1', '0'] (by decide) (by simp; decide)
  have hlast : LiteralRow [(none, .int 10)] ['1', '0'] :=
    .last .nil (.item (.scalar hten)) (fun _ h => nomatch h) .nil
  have hitem : LiteralRow [(some (.text "x"), .int 1), (none, .int 10)] "x=1,10".toList :=
    .more .nil hfirst .nil (.inl rfl) hlast
  have hnumeral : LiteralRow [(some (.text "x"), .int 1), (some (.text "k"), .int 5),
      (none, .int 10)] "x=1,k=5,10".toList :=
    .more .nil hfirst .nil (.inl rfl) (.more .nil hnamed .nil (.inl rfl) hlast)
  exact ⟨decodeTable_literal hitem rfl, decodeTable_literal hnumeral rfl⟩

end ModAlmanac.Lua
