import ModAlmanac.Proofs.Lua.Grammar
import ModAlmanac.Proofs.Lua.Strings
import ModAlmanac.Proofs.Number.Numerals

/-!
# The tokens of a written table

What the tokenizer reads at the front of a source, kind by kind: strings, comments, numerals, words
and names, marks and white space. Where a token ends depends on what stands behind it.
-/

namespace ModAlmanac.Lua

open Number Text

variable {c : Char} {rest : List Char}

theorem unsignedNumeral?_eq_none (hdigit : isDecimalDigit c = false) (hpoint : c ≠ '.')
    (s : List Char) : unsignedNumeral? (c :: s) = none := by
  have hzero : c ≠ '0' := by
    rintro rfl
    exact absurd hdigit (by decide)
  have hhex : hexPart? (c :: s) = none := by
    unfold hexPart?
    split
    · next heq => exact absurd (List.cons.inj heq).1 hzero
    · rfl
  have hdecimal : decimalPart? false (c :: s) = none := by
    unfold decimalPart?
    rw [List.takeWhile_cons_of_neg (by simp [hdigit])]
    dsimp only
    split
    · next heq => exact absurd (List.cons.inj heq).1 hpoint
    · rfl
  rw [unsignedNumeral?, hhex, hdecimal]

/-- What begins no string, no comment and no numeral is a word, a mark, white space or nothing. -/
theorem Token.read?_plain (hquote : c ≠ '\x22' ∧ c ≠ '\x27') (hminus : c ≠ '-')
    (hdigit : isDecimalDigit c = false) (hpoint : c ≠ '.') :
    Token.read? (c :: rest) =
      if isNameStart c then
        some (if isSingleSign (dropBlank (rest.dropWhile isWordChar)) then
            .name (c :: rest.takeWhile isWordChar) else .word (c :: rest.takeWhile isWordChar),
          rest.dropWhile isWordChar)
      else if "\x7b\x7d[],;".toList.contains c || isSingleSign (c :: rest) then
        some (.mark c, rest)
      else if isBlank c then
        some (.space (c :: rest.takeWhile isBlank), rest.dropWhile isBlank)
      else some (.other c, rest) := by
  have hnumeral := unsignedNumeral?_eq_none hdigit hpoint rest
  unfold Token.read?
  dsimp only
  rw [if_neg (by simp [hquote.1, hquote.2]), if_neg hminus, hnumeral]
  split
  · next heq => cases heq
  · next hcomment =>
    split at hcomment
    · exact absurd rfl hminus
    · cases hcomment
  · next heq => cases heq
  · rfl

theorem Token.read?_comment (text : List Char) :
    Token.read? ('-' :: '-' :: text) = some (.comment, text.dropWhile (· ≠ '\n')) := rfl

theorem IsPlainText.fits {s : List Char} (hs : IsPlainText s) :
    ∀ piece ∈ s.map Piece.plain, piece.Fits '\x22' := by
  intro piece hpiece
  obtain ⟨c, hc, rfl⟩ := List.mem_map.1 hpiece
  exact hs c hc

theorem Token.read?_string {q : Char} {pieces : List Piece} (hq : isQuote q = true)
    (hpieces : ∀ piece ∈ pieces, piece.Fits q) (rest : List Char) :
    Token.read? (q :: (pieces.flatMap Piece.source ++ q :: rest)) =
      some (.string (q :: pieces.flatMap Piece.source ++ [q]), rest) := by
  have hmark : (q = '\x22' || q = '\x27') = true := hq
  unfold Token.read?
  dsimp only
  rw [if_pos hmark, stringBody?_pieces hq hpieces]
  rfl

theorem not_mark_of_stops (hrest : StopsBefore continuesNumeral rest) {c : Char}
    (hc : rest.head? = some c) : c ∉ ['.', 'e', 'E', 'x', 'X'] :=
  (not_continuesNumeral (hrest c hc)).2

/-- No numeral goes on with what stops it. -/
theorem endsNumeral_of_stops (hrest : StopsBefore continuesNumeral rest) : EndsNumeral rest where
  stops c hc := by
    have hany := (not_continuesNumeral (hrest c hc)).1
    rw [isAnyDigit, Bool.or_eq_false_iff] at hany
    exact hany.1
  noPoint hpoint := absurd (by decide) (not_mark_of_stops hrest hpoint)
  noPower := by
    cases rest with
    | nil => rfl
    | cons c rest =>
      have hmark := not_mark_of_stops hrest (c := c) rfl
      simp only [List.mem_cons, not_or] at hmark
      unfold exponentPart?
      dsimp only
      rw [if_neg (by simp [hmark.2.1, hmark.2.2.1])]

theorem hexPart?_decimal (m : Mantissa) (x : Option Exponent)
    (hrest : StopsBefore continuesNumeral rest) :
    hexPart? (m.text ++ powerText x ++ rest) = none :=
  hexPart?_of_isNumeralChar (fun h => m.text_ne_nil (List.append_eq_nil_iff.1 h).1)
    (@isNumeralChar_decimal .absent m x)
    ⟨fun h => absurd (by decide) (not_mark_of_stops hrest h),
      fun h => absurd (by decide) (not_mark_of_stops hrest h)⟩

/-- A decimal numeral is read from in front of what it does not go on with. -/
theorem unsignedNumeral?_decimal {m : Mantissa} {x : Option Exponent}
    (hx : x = none ∨ m.whole ≠ []) (hrest : StopsBefore continuesNumeral rest) :
    unsignedNumeral? (m.text ++ powerText x ++ rest) = some (m.text ++ powerText x, rest) := by
  rw [unsignedNumeral?, hexPart?_decimal m x hrest, List.append_assoc]
  exact m.decimalPart?_text (hx.imp_right .inr) (endsNumeral_of_stops hrest)

theorem unsignedNumeral?_digits {run : List Char} (hne : run ≠ [])
    (hrun : ∀ c ∈ run, isDecimalDigit c = true) (hrest : StopsBefore continuesNumeral rest) :
    unsignedNumeral? (run ++ rest) = some (run, rest) := by
  have hread := unsignedNumeral?_decimal (m := wholeMantissa run hne hrun) (.inl rfl) hrest
  rwa [powerText, List.append_nil, wholeMantissa_text] at hread

theorem Token.read?_minus {d : Char} {more digits after : List Char} (hd : d ≠ '-')
    (h : unsignedNumeral? (d :: more) = some (digits, after)) :
    Token.read? ('-' :: d :: more) = some (.number true digits, after) := by
  unfold Token.read?
  dsimp only
  rw [if_neg (by decide), if_pos rfl, h]
  split
  · next heq => cases heq
  · next hcomment =>
    split at hcomment
    · next heq => exact absurd (List.cons.inj heq).1 hd
    · cases hcomment
  · next heq =>
    cases heq
    rfl
  · next heq => cases heq

theorem Token.read?_unsigned {digits after : List Char} (hquote : c ≠ '\x22' ∧ c ≠ '\x27')
    (hminus : c ≠ '-') (h : unsignedNumeral? (c :: rest) = some (digits, after)) :
    Token.read? (c :: rest) = some (.number false digits, after) := by
  unfold Token.read?
  dsimp only
  rw [if_neg (by simp [hquote.1, hquote.2]), if_neg hminus, h]
  split
  · next heq => cases heq
  · next hcomment =>
    split at hcomment
    · exact absurd rfl hminus
    · cases hcomment
  · next heq =>
    cases heq
    rfl
  · next heq => cases heq

/-- A numeral is read with the minus sign in front of it. -/
theorem Token.read?_numeral (negative : Bool) {digits : List Char} (hne : digits ≠ [])
    (h : unsignedNumeral? (digits ++ rest) = some (digits, rest)) :
    Token.read? ((if negative then ['-'] else []) ++ (digits ++ rest)) =
      some (.number negative digits, rest) := by
  obtain ⟨d, more, rfl⟩ := List.exists_cons_of_ne_nil hne
  rw [List.cons_append] at h ⊢
  have hd : isDecimalDigit d = true ∨ d = '.' := by
    by_contra hd
    rw [not_or, Bool.not_eq_true] at hd
    rw [unsignedNumeral?_eq_none hd.1 hd.2] at h
    cases h
  have hne : ∀ c, isDecimalDigit c = false → c ≠ '.' → d ≠ c := by
    rintro c hdigit hpoint rfl
    rcases hd with hd | hd
    · exact Bool.false_ne_true (hdigit.symm.trans hd)
    · exact hpoint hd
  have hminus := hne '-' (by decide) (by decide)
  cases negative with
  | true => exact read?_minus hminus h
  | false =>
    exact read?_unsigned ⟨hne '\x22' (by decide) (by decide), hne '\x27' (by decide) (by decide)⟩
      hminus h

/-! ## Words, marks and gaps -/

theorem Token.read?_word {word : List Char} (hstart : isNameStart c = true)
    (hword : ∀ d ∈ word, isWordChar d = true) (hrest : StopsBefore isWordChar rest) :
    Token.read? (c :: (word ++ rest)) =
      some (if isSingleSign (dropBlank rest) then .name (c :: word) else .word (c :: word),
        rest) := by
  obtain ⟨hquote, hminus, hpoint, -, -, hdigit⟩ := of_isNameStart hstart
  rw [isAnyDigit, Bool.or_eq_false_iff] at hdigit
  rw [Token.read?_plain hquote hminus hdigit.1 hpoint, if_pos hstart,
    takeWhile_append_of_stops hword hrest, dropWhile_append_of_stops hword hrest]

theorem Token.read?_mark (hc : ['{', '}', ',', ';'].contains c = true) (rest : List Char) :
    Token.read? (c :: rest) = some (.mark c, rest) := by
  have hmem := List.contains_iff_mem.1 hc
  simp only [List.mem_cons, List.not_mem_nil, or_false] at hmem
  rcases hmem with rfl | rfl | rfl | rfl
  all_goals
    rw [Token.read?_plain (by decide) (by decide) (by decide) (by decide)]
    rfl

theorem Token.read?_bracket (hc : c = '[' ∨ c = ']') (rest : List Char) :
    Token.read? (c :: rest) = some (.mark c, rest) := by
  rcases hc with rfl | rfl
  all_goals
    rw [Token.read?_plain (by decide) (by decide) (by decide) (by decide)]
    rfl

theorem Token.read?_sign (hrest : rest.head? ≠ some '=') :
    Token.read? ('=' :: rest) = some (.mark '=', rest) := by
  have hsign : isSingleSign ('=' :: rest) = true := by
    unfold isSingleSign
    split
    · next heq =>
      cases heq
      exact absurd rfl hrest
    · rfl
    · next hne => exact absurd rfl (hne _)
  rw [Token.read?_plain (by decide) (by decide) (by decide) (by decide), if_neg (by decide), hsign,
    Bool.or_true, if_pos rfl]

theorem Token.read?_blank (hc : isBlank c = true) (rest : List Char) :
    Token.read? (c :: rest) =
      some (.space (c :: rest.takeWhile isBlank), rest.dropWhile isBlank) := by
  have hother : (c ≠ '\x22' && c ≠ '\x27' && c ≠ '-' && c ≠ '.' && c ≠ '=' && !isDecimalDigit c &&
      !isNameStart c && !"\x7b\x7d[],;".toList.contains c) = true :=
    forall_isBlank (p := fun c => c ≠ '\x22' && c ≠ '\x27' && c ≠ '-' && c ≠ '.' && c ≠ '=' &&
      !isDecimalDigit c && !isNameStart c && !"\x7b\x7d[],;".toList.contains c)
      (by decide +kernel) hc
  simp only [Bool.and_eq_true, decide_eq_true_eq, Bool.not_eq_true'] at hother
  obtain ⟨⟨⟨⟨⟨⟨⟨hdouble, hsingle⟩, hminus⟩, hpoint⟩, hsign⟩, hdigit⟩, hname⟩, hmark⟩ := hother
  have hsingleSign : isSingleSign (c :: rest) = false := by
    unfold isSingleSign
    split
    · rfl
    · next heq => exact absurd (List.cons.inj heq).1 hsign
    · rfl
  rw [Token.read?_plain ⟨hdouble, hsingle⟩ hminus hdigit hpoint, hname, hmark, hsingleSign, hc]
  rfl

end ModAlmanac.Lua
