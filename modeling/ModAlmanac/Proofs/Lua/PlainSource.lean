import ModAlmanac.Proofs.Lua.Tokens
import ModAlmanac.Proofs.Text.Skipping

/-!
# A written table without its comments

Tokenizing the source of a written table and writing the tokens anew gives a source of the same table
without comments and semicolons (`Written.exists_plain`). Each part is written anew on its own
(`Yields`), as long as the flag behind one part is the flag in front of the next; the equality sign
behind a name is let through because the name is, and no other one occurs.
-/

namespace ModAlmanac.Lua

open Number Text

/-! ## Parts of a source -/

/-- A part of a source is written anew as `text`, where `rest` stands behind it; the flags tell
whether an equality sign may come next, in front of the part and behind it. -/
def Yields (before : Bool) (s text : List Char) (behind : Bool) (rest : List Char) : Prop :=
  plainSource before (tokens (s ++ rest)) = (plainSource behind (tokens rest)).map (text ++ ·)

theorem tokens_of_read {s after : List Char} {token : Token}
    (h : Token.read? s = some (token, after)) (hlt : after.length < s.length) :
    tokens s = token :: tokens after :=
  collect_of_read h hlt

theorem map_append_append (a b : List Char) (result : Except TableError (List Char)) :
    (result.map (b ++ ·)).map (a ++ ·) = result.map (a ++ b ++ ·) := by
  cases result with
  | error e => rfl
  | ok text => exact congrArg Except.ok (List.append_assoc a b text).symm

theorem Yields.append {a b c : Bool} {s t text more rest : List Char}
    (hs : Yields a s text b (t ++ rest)) (ht : Yields b t more c rest) :
    Yields a (s ++ t) (text ++ more) c rest := by
  rw [Yields, List.append_assoc, hs, ht, map_append_append]

theorem yields_nil (flag : Bool) (rest : List Char) : Yields flag [] [] flag rest := by
  rw [Yields, List.nil_append]
  cases plainSource flag (tokens rest) <;> rfl

section

variable {rest : List Char} (flag : Bool)

theorem yields_blank {c : Char} (hc : isBlank c = true) (rest : List Char) :
    Yields flag [c] [c] flag rest := by
  -- white space behind the character belongs to the same token
  have hrest : plainSource flag (tokens rest) =
      (plainSource flag (tokens (rest.dropWhile isBlank))).map (rest.takeWhile isBlank ++ ·) := by
    cases rest with
    | nil => exact yields_nil flag []
    | cons d rest =>
      cases hd : isBlank d with
      | false =>
        rw [List.takeWhile_cons_of_neg (by simp [hd]), List.dropWhile_cons_of_neg (by simp [hd])]
        exact yields_nil flag (d :: rest)
      | true =>
        rw [tokens_of_read (Token.read?_blank hd rest)
          (Nat.lt_succ_of_le (List.length_dropWhile_le _ _)), plainSource,
          List.takeWhile_cons_of_pos hd, List.dropWhile_cons_of_pos hd]
  rw [Yields, List.singleton_append, tokens_of_read (Token.read?_blank hc rest)
    (Nat.lt_succ_of_le (List.length_dropWhile_le _ _)), plainSource, hrest, map_append_append]
  rfl

theorem yields_blanks {gap : List Char} (hgap : ∀ c ∈ gap, isBlank c = true) (rest : List Char) :
    Yields flag gap gap flag rest := by
  induction gap with
  | nil => exact yields_nil flag rest
  | cons c gap ih =>
    obtain ⟨hc, hgap⟩ := List.forall_mem_cons.1 hgap
    exact (yields_blank flag hc (gap ++ rest)).append (ih hgap)

theorem yields_comment {text : List Char} (htext : '\n' ∉ text) (rest : List Char) :
    Yields flag ('-' :: '-' :: text) [] flag ('\n' :: rest) := by
  have hdrop : (text ++ '\n' :: rest).dropWhile (· ≠ '\n') = '\n' :: rest :=
    dropWhile_append_of_stops
      (fun c hc => decide_eq_true fun heq => htext (heq ▸ hc))
      (stopsBefore_cons (by decide) _)
  have hread := Token.read?_comment (text ++ '\n' :: rest)
  rw [hdrop] at hread
  rw [Yields, List.cons_append, List.cons_append,
    tokens_of_read hread (by simp; omega), plainSource]
  exact yields_nil flag ('\n' :: rest)

/-- Of a gap its white space is left. -/
theorem exists_blanks {gap : List Char} (hgap : Commented gap) :
    ∃ blanks, (∀ c ∈ blanks, isBlank c = true) ∧
      ∀ flag rest, Yields flag gap blanks flag rest := by
  induction hgap with
  | nil => exact ⟨[], fun _ hc => (List.not_mem_nil hc).elim, fun flag rest => yields_nil flag rest⟩
  | @blank c _ hc _ ih =>
    obtain ⟨blanks, hblanks, hyields⟩ := ih
    exact ⟨c :: blanks, List.forall_mem_cons.2 ⟨hc, hblanks⟩, fun flag rest =>
      (yields_blank flag hc _).append (hyields flag rest)⟩
  | @comment text s htext _ ih =>
    obtain ⟨blanks, hblanks, hyields⟩ := ih
    refine ⟨'\n' :: blanks, List.forall_mem_cons.2 ⟨by decide, hblanks⟩, fun flag rest => ?_⟩
    have hline := (yields_blank flag (c := '\n') (by decide) (s ++ rest)).append
      (hyields flag rest)
    exact (yields_comment flag htext (s ++ rest)).append hline

theorem yields_mark {c : Char} (hc : ['{', '}', ',', ';'].contains c = true) (rest : List Char) :
    Yields flag [c] [if c = ';' then ',' else c] false rest := by
  have hmem := List.contains_iff_mem.1 hc
  simp only [List.mem_cons, List.not_mem_nil, or_false] at hmem
  have hsign : (c = '=' && !flag) = false ∧ (c = ']') = false := by
    rcases hmem with rfl | rfl | rfl | rfl <;> simp
  rw [Yields, List.singleton_append, tokens_of_read (Token.read?_mark hc rest) (Nat.lt_succ_self _),
    plainSource, hsign.1, if_neg Bool.false_ne_true]
  simp only [hsign.2]
  rfl

theorem yields_separator {c : Char} (hc : Writing.free.isSeparator c) (rest : List Char) :
    Yields flag [c] [','] false rest := by
  rcases hc with rfl | rfl
  · exact yields_mark flag (by decide) rest
  · exact yields_mark flag (by decide) rest

theorem follows_separator {c : Char} (hc : Writing.free.isSeparator c) (rest : List Char) :
    Follows (c :: rest) := by
  rcases hc with rfl | rfl <;> exact follows_cons (by decide) rest

theorem yields_sign (hrest : rest.head? ≠ some '=') : Yields true ['='] ['='] false rest := by
  rw [Yields, List.singleton_append, tokens_of_read (Token.read?_sign hrest) (Nat.lt_succ_self _),
    plainSource]
  rfl

theorem yields_string {q : Char} {pieces : List Piece} (hq : isQuote q = true)
    (hpieces : ∀ piece ∈ pieces, piece.Fits q) (rest : List Char) :
    Yields flag (q :: pieces.flatMap Piece.source ++ [q]) (q :: pieces.flatMap Piece.source ++ [q])
      false rest := by
  have hread := Token.read?_string hq hpieces rest
  rw [Yields, List.append_assoc, List.cons_append, List.singleton_append,
    tokens_of_read hread (by simp; omega), plainSource]

theorem yields_text {s : List Char} (hs : IsPlainText s) (rest : List Char) :
    Yields flag ('\x22' :: s ++ ['\x22']) ('\x22' :: s ++ ['\x22']) false rest := by
  have hstring := yields_string flag (q := '\x22') (by decide) hs.fits rest
  rwa [flatMap_source_plain] at hstring

/-- A numeral is written anew in plain notation. -/
theorem yields_numeral {negative : Bool} {digits plain : List Char} (hne : digits ≠ [])
    (hread : unsignedNumeral? (digits ++ rest) = some (digits, rest))
    (hplain : plainNumeral negative digits = .ok plain) :
    Yields flag ((if negative then ['-'] else []) ++ digits) plain false rest := by
  have hlength := List.length_pos_iff.2 hne
  rw [Yields, List.append_assoc, tokens_of_read (Token.read?_numeral negative hne hread)
    (by simp only [List.length_append]; omega), plainSource, hplain]

/-- Digits of any script are written anew as an integer. -/
theorem plainNumeral_digits (negative : Bool) {digits : List Char} (hne : digits ≠ [])
    (hdigits : ∀ c ∈ digits, isDecimalDigit c = true) :
    plainNumeral negative digits =
      .ok (intText (if negative then -(digitsValue digits : Int) else digitsValue digits)) := by
  have hhex := hexPart?_decimal (wholeMantissa digits hne hdigits) none (stopsBefore_nil _)
  rw [powerText, List.append_nil, List.append_nil, wholeMantissa_text] at hhex
  rw [plainNumeral, hhex]
  dsimp only
  rw [if_pos (List.all_eq_true.2 hdigits)]

theorem plainNumeral_int (n : Int) :
    plainNumeral (decide (n < 0)) (Nat.toDigits 10 n.natAbs) = .ok (intText n) := by
  have hsigned : (if decide (n < 0) = true then -(n.natAbs : Int) else n.natAbs) = n := by
    rcases Int.lt_or_le n 0 with hn | hn
    · rw [decide_eq_true hn, if_pos rfl]
      omega
    · rw [decide_eq_false (Int.not_lt.2 hn), if_neg Bool.false_ne_true]
      omega
  rw [plainNumeral_digits _ Nat.toDigits_ne_nil
    (fun _ hc => isDecimalDigit_of_isDigit (isDigit_of_mem_toDigits hc)), digitsValue_toDigits,
    hsigned]

theorem yields_int (n : Int) (hrest : StopsBefore continuesNumeral rest) :
    Yields flag (intText n) (intText n) false rest := by
  have hdigits : ∀ c ∈ Nat.toDigits 10 n.natAbs, isDecimalDigit c = true :=
    fun _ hc => isDecimalDigit_of_isDigit (isDigit_of_mem_toDigits hc)
  have hyields := yields_numeral flag Nat.toDigits_ne_nil
    (unsignedNumeral?_digits Nat.toDigits_ne_nil hdigits hrest) (plainNumeral_int n)
  rwa [← intText_eq] at hyields

theorem yields_word {c : Char} {word : List Char} (hstart : isNameStart c = true)
    (hword : ∀ d ∈ word, isWordChar d = true) (hrest : StopsBefore isWordChar rest)
    (hsign : isSingleSign (dropBlank rest) = false) (hliteral : isLiteralWord (c :: word) = true) :
    Yields flag (c :: word) (c :: word) false rest := by
  rw [Yields, List.cons_append, tokens_of_read (Token.read?_word hstart hword hrest)
    (by simp), hsign, if_neg Bool.false_ne_true, plainSource, if_pos hliteral]

theorem yields_name {c : Char} {word : List Char} (hstart : isNameStart c = true)
    (hword : ∀ d ∈ word, isWordChar d = true) (hrest : StopsBefore isWordChar rest)
    (hsign : isSingleSign (dropBlank rest) = true) :
    Yields flag (c :: word) (c :: word) true rest := by
  rw [Yields, List.cons_append, tokens_of_read (Token.read?_word hstart hword hrest)
    (by simp), hsign, if_pos rfl, plainSource]

theorem yields_bool (b : Bool) (hrest : Follows rest) :
    Yields flag (boolWord b) (boolWord b) false rest := by
  cases b with
  | false =>
    exact yields_word flag (c := 'f') (by decide) (forall_isWordChar (by decide)) hrest.stopsWord
      hrest.noSign (by decide)
  | true =>
    exact yields_word flag (c := 't') (by decide) (forall_isWordChar (by decide)) hrest.stopsWord
      hrest.noSign (by decide)

/-- A part between braces. -/
theorem yields_braces {s text : List Char} (h : Yields false s text false ('}' :: rest)) :
    Yields flag ('{' :: s ++ ['}']) ('{' :: text ++ ['}']) false rest :=
  (yields_mark flag (c := '{') (by decide) (s ++ ['}'] ++ rest)).append <| by
    have hclose := h.append (yields_mark false (c := '}') (by decide) rest)
    exact hclose

end

/-! ## Written tables -/

theorem Commented.head?_ne_sign {gap rest : List Char} (hgap : Commented gap)
    (hrest : rest.head? ≠ some '=') : (gap ++ rest).head? ≠ some '=' := by
  cases hgap with
  | nil => exact hrest
  | blank hc =>
    intro heq
    obtain rfl := Option.some.inj heq
    exact absurd hc (by decide)
  | comment => exact fun heq => absurd (Option.some.inj heq) (by decide)

theorem Written.head?_ne_sign {w : Writing} {v : Value} {s : List Char} (h : Written w v s)
    (rest : List Char) : (s ++ rest).head? ≠ some '=' := by
  obtain ⟨c, more, rfl, hc⟩ := h.exists_cons
  intro heq
  obtain rfl := Option.some.inj heq
  exact absurd hc (by decide)

theorem isSingleSign_blanks {blank rest : List Char} (hblank : ∀ c ∈ blank, isBlank c = true)
    (hrest : rest.head? ≠ some '=') : isSingleSign (dropBlank (blank ++ '=' :: rest)) = true := by
  rw [dropBlank, dropWhile_append_of_stops hblank (stopsBefore_cons (by decide) rest)]
  unfold isSingleSign
  split
  · next heq =>
    cases heq
    exact absurd rfl hrest
  · rfl
  · next hne => exact absurd rfl (hne _)

theorem stopsWord_blanks {blank rest : List Char} (hblank : ∀ c ∈ blank, isBlank c = true) :
    StopsBefore isWordChar (blank ++ '=' :: rest) := by
  cases blank with
  | nil => exact stopsBefore_cons rfl rest
  | cons c blank =>
    exact stopsBefore_cons (not_isWordChar_of_isBlank (hblank c List.mem_cons_self)) _

section

variable (flag : Bool) {front frontText s text behind behindText rest : List Char}

/-- A field is written anew part by part. -/
theorem yields_named {name blank : List Char} (hname : IsFieldName name)
    (hblank : ∀ c ∈ blank, isBlank c = true) (hhead : (front ++ (s ++ rest)).head? ≠ some '=')
    (hfront : Yields false front frontText false (s ++ rest)) (hs : Yields false s text false rest) :
    Yields flag (name ++ blank ++ '=' :: (front ++ s)) (name ++ blank ++ '=' :: (frontText ++ text))
      false rest := by
  obtain ⟨c, more, rfl, hstart⟩ := hname.head
  have hword : ∀ d ∈ more, isWordChar d = true := fun d hd =>
    isWordChar_of_isAlphanum (hname.isNameChar d (List.mem_cons_of_mem c hd))
  rw [← List.append_assoc] at hhead
  have hbehind := (yields_blanks true hblank _).append ((yields_sign hhead).append (hfront.append hs))
  rw [List.append_assoc, List.append_assoc]
  refine Yields.append (yields_name flag hstart hword ?_ ?_) hbehind
  · rw [List.append_assoc]
    exact stopsWord_blanks hblank
  · rw [List.append_assoc]
    exact isSingleSign_blanks hblank hhead

variable (hfront : ∀ flag rest, Yields flag front frontText flag rest)
  (hs : ∀ flag rest, Follows rest → Yields flag s text false rest) (hgap : Commented behind)
  (hbehind : ∀ flag rest, Yields flag behind behindText flag rest)

include hfront hs hgap hbehind

/-- The last field of a row, in its gaps. -/
theorem yields_last (hrest : Follows rest) :
    Yields flag (front ++ (s ++ behind)) (frontText ++ (text ++ behindText)) false rest :=
  (hfront flag _).append ((hs flag _ (hrest.commented hgap)).append (hbehind false rest))

/-- A field with a separator and the rest of a row behind it. -/
theorem yields_more {c : Char} {t more : List Char} (hc : Writing.free.isSeparator c)
    (ht : Yields false t more false rest) :
    Yields flag (front ++ (s ++ (behind ++ c :: t))) (frontText ++ (text ++ (behindText ++ ',' :: more)))
      false rest := by
  have hseparator := (yields_separator false hc _).append ht
  have hvalue := hs flag (behind ++ c :: t ++ rest) (by
    rw [List.append_assoc]
    exact (follows_separator hc _).commented hgap)
  exact (hfront flag _).append (hvalue.append ((hbehind false _).append hseparator))

end

mutual

theorem Written.exists_plain : ∀ {v : Value} {s : List Char}, Written .free v s →
    ∃ text, Written .plain v text ∧
      ∀ flag rest, Follows rest → Yields flag s text false rest
  | _, _, .text hs => ⟨_, .text hs, fun flag rest _ => yields_text flag hs rest⟩
  | _, _, .int n => ⟨_, .int n, fun flag _ hrest => yields_int flag n hrest.stopsNumeral⟩
  | _, _, .bool b => ⟨_, .bool b, fun flag _ hrest => yields_bool flag b hrest⟩
  | _, _, .empty hgap => by
    obtain ⟨blanks, hblanks, hyields⟩ := exists_blanks hgap
    exact ⟨_, .empty hblanks, fun flag rest _ => yields_braces flag (hyields _ _)⟩
  | _, _, .list hrow => by
    obtain ⟨text, htext, hyields⟩ := hrow.exists_plain
    exact ⟨_, .list htext, fun flag rest _ =>
      yields_braces flag (hyields _ _ (follows_cons (by decide) rest))⟩
  | _, _, .table hnames hrow => by
    obtain ⟨text, htext, hyields⟩ := hrow.exists_plain
    exact ⟨_, .table hnames htext, fun flag rest _ =>
      yields_braces flag (hyields _ _ (follows_cons (by decide) rest))⟩

theorem WrittenField.exists_plain : ∀ {name : Option (List Char)} {v : Value} {s : List Char},
    WrittenField .free name v s →
    ∃ text, WrittenField .plain name v text ∧
      ∀ flag rest, Follows rest → Yields flag s text false rest
  | _, _, _, .item h => by
    obtain ⟨text, htext, hyields⟩ := h.exists_plain
    exact ⟨text, .item htext, hyields⟩
  | _, _, _, .named hname hblank hgap h => by
    obtain ⟨blanks, hblanks, hgapYields⟩ := exists_blanks hgap
    obtain ⟨text, htext, hyields⟩ := h.exists_plain
    exact ⟨_, .named hname hblank hblanks htext, fun flag rest hrest =>
      yields_named flag hname hblank (Commented.head?_ne_sign hgap (h.head?_ne_sign rest))
        (hgapYields false _) (hyields false rest hrest)⟩

theorem WrittenRow.exists_plain : ∀ {row : List Field} {s : List Char}, WrittenRow .free row s →
    ∃ text, WrittenRow .plain row text ∧
      ∀ flag rest, Follows rest → Yields flag s text false rest
  | _, _, .last hfront h hbehind => by
    obtain ⟨front, hfront, hfrontYields⟩ := exists_blanks hfront
    obtain ⟨text, htext, hyields⟩ := h.exists_plain
    obtain ⟨behind, hblanks, hbehindYields⟩ := exists_blanks hbehind
    exact ⟨_, .last hfront htext hblanks, fun flag rest hrest =>
      yields_last flag hfrontYields hyields hbehind hbehindYields hrest⟩
  | _, _, .trailing hfront h hbehind hc hafter => by
    obtain ⟨front, hfront, hfrontYields⟩ := exists_blanks hfront
    obtain ⟨text, htext, hyields⟩ := h.exists_plain
    obtain ⟨behind, hblanks, hbehindYields⟩ := exists_blanks hbehind
    obtain ⟨after, hafter, hafterYields⟩ := exists_blanks hafter
    exact ⟨_, .trailing (c := ',') hfront htext hblanks rfl hafter, fun flag rest _ =>
      yields_more flag hfrontYields hyields hbehind hbehindYields hc (hafterYields false rest)⟩
  | _, _, .more hfront h hbehind hc hrow => by
    obtain ⟨front, hfront, hfrontYields⟩ := exists_blanks hfront
    obtain ⟨text, htext, hyields⟩ := h.exists_plain
    obtain ⟨behind, hblanks, hbehindYields⟩ := exists_blanks hbehind
    obtain ⟨more, hmore, hrowYields⟩ := hrow.exists_plain
    exact ⟨_, .more (c := ',') hfront htext hblanks rfl hmore, fun flag rest hrest =>
      yields_more flag hfrontYields hyields hbehind hbehindYields hc (hrowYields false rest hrest)⟩

end

/-! ## Literal sources -/

/-- White space around the braces of a source that is written anew is trimmed. -/
theorem literalSource_of_yields {source front inner behind : List Char}
    (hfront : ∀ c ∈ front, isBlank c = true) (hbehind : ∀ c ∈ behind, isBlank c = true)
    (h : Yields false source (front ++ ('{' :: inner ++ ['}'] ++ behind)) false []) :
    literalSource source = .ok ('{' :: inner ++ ['}']) := by
  have hnil : plainSource false (tokens []) = .ok [] := by
    rw [tokens, collect, plainSource_nil]
  rw [Yields, List.append_nil, hnil] at h
  rw [literalSource, h]
  change Except.ok (trim (front ++ ('{' :: inner ++ ['}'] ++ behind) ++ [])) = _
  rw [List.append_nil, trim_surrounded hfront hbehind (by decide) (by decide)]

theorem decodeTable_of_read {source literal inner : List Char} {v : Value}
    (hliteral : literalSource source = .ok literal) (hbrace : literal = '{' :: inner)
    (hread : readLiteral? literal = some v) : decodeTable source = .ok (textKeyed v) := by
  subst hbrace
  rw [decodeTable, hliteral]
  simp only [bind, Except.bind]
  rw [hread]

/-- The literal source of a written table is the table without comments and semicolons. -/
theorem literalSource_written {v : Value} {front s behind : List Char} (hv : isCompound v = true)
    (hfront : Commented front) (h : Written .free v s) (hbehind : Commented behind) :
    ∃ text, Written .plain v text ∧ literalSource (front ++ (s ++ behind)) = .ok text := by
  obtain ⟨blanks, hblanks, hfrontYields⟩ := exists_blanks hfront
  obtain ⟨text, htext, hyields⟩ := h.exists_plain
  obtain ⟨more, hmore, hbehindYields⟩ := exists_blanks hbehind
  have hyield := yields_last false hfrontYields hyields hbehind hbehindYields follows_nil
  obtain ⟨inner, rfl⟩ := htext.exists_braces hv
  exact ⟨_, htext, literalSource_of_yields hblanks hmore hyield⟩

end ModAlmanac.Lua
