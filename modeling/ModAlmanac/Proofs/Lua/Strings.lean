import ModAlmanac.Lua.Quote
import ModAlmanac.Lua.Table

/-!
# Strings in pieces

What stands between the quotes of a string, piece by piece: a character, or a backslash and the
character that it takes with it. The tokenizer and the reader both find the closing quote behind the
pieces (`stringBody?_pieces`, `quotedString?_pieces`). The tokenizer keeps the pieces as they are
written, the reader drops the backslashes in front of quotes of the same kind.
-/

namespace ModAlmanac.Lua

inductive Piece where
  | plain (c : Char)
  | escaped (c : Char)

def Piece.source : Piece → List Char
  | .plain c => [c]
  | .escaped c => ['\\', c]

/-- What a piece stands for between two quotes. -/
def Piece.value (q : Char) : Piece → List Char
  | .plain c => [c]
  | .escaped c => if c = q then [c] else ['\\', c]

/-- Whether a piece can stand between two quotes. -/
def Piece.Fits (q : Char) : Piece → Prop
  | .plain c => c ≠ q ∧ c ≠ '\\' ∧ c ≠ '\n'
  | .escaped _ => True

def isQuote (c : Char) : Bool :=
  c = '\x22' || c = '\x27'

theorem ne_slash_of_isQuote {q : Char} (hq : isQuote q = true) : '\\' ≠ q := by
  rintro rfl
  exact absurd hq (by decide)

section

variable {q : Char} (hq : isQuote q = true)

include hq

/-- The tokenizer takes the pieces of a string one by one. -/
theorem stringBody?_piece {piece : Piece} (hpiece : piece.Fits q) {t : List Char} (ht : t ≠ []) :
    stringBody? q (piece.source ++ t) =
      (stringBody? q t).map fun (inner, after) => (piece.source ++ inner, after) := by
  cases piece with
  | plain c =>
    obtain ⟨hquote, hslash, hline⟩ := hpiece
    obtain ⟨d, more, rfl⟩ := List.exists_cons_of_ne_nil ht
    rw [Piece.source, List.singleton_append, stringBody?, if_neg hquote, if_neg hslash,
      if_neg hline]
    rfl
  | escaped c =>
    rw [Piece.source, List.cons_append, List.singleton_append, stringBody?,
      if_neg (ne_slash_of_isQuote hq), if_pos rfl]
    rfl

/-- The reader takes the pieces of a string one by one. -/
theorem quotedString?_piece {piece : Piece} (hpiece : piece.Fits q) {t : List Char} (ht : t ≠ []) :
    quotedString? q (piece.source ++ t) =
      (quotedString? q t).map fun (inner, after) => (piece.value q ++ inner, after) := by
  cases piece with
  | plain c =>
    obtain ⟨hquote, hslash, -⟩ := hpiece
    obtain ⟨d, more, rfl⟩ := List.exists_cons_of_ne_nil ht
    rw [Piece.source, List.singleton_append, quotedString?, if_neg hquote, if_neg hslash]
    rfl
  | escaped c =>
    rw [Piece.source, List.cons_append, List.singleton_append, quotedString?,
      if_neg (ne_slash_of_isQuote hq), if_pos rfl, Piece.value]
    split <;> rfl

variable {pieces : List Piece} (hpieces : ∀ piece ∈ pieces, piece.Fits q) (rest : List Char)

include hpieces

theorem stringBody?_pieces :
    stringBody? q (pieces.flatMap Piece.source ++ q :: rest) =
      some (pieces.flatMap Piece.source, rest) := by
  induction pieces with
  | nil => cases rest <;> simp [stringBody?]
  | cons piece pieces ih =>
    obtain ⟨hpiece, hpieces⟩ := List.forall_mem_cons.1 hpieces
    rw [List.flatMap_cons, List.append_assoc, stringBody?_piece hq hpiece (by simp), ih hpieces]
    rfl

theorem quotedString?_pieces :
    quotedString? q (pieces.flatMap Piece.source ++ q :: rest) =
      some (pieces.flatMap (Piece.value q), rest) := by
  induction pieces with
  | nil => cases rest <;> simp [quotedString?]
  | cons piece pieces ih =>
    obtain ⟨hpiece, hpieces⟩ := List.forall_mem_cons.1 hpieces
    rw [List.flatMap_cons, List.append_assoc, quotedString?_piece hq hpiece (by simp), ih hpieces]
    rfl

end

/-! ## Strings on one line -/

theorem closeQuote_mark (q : Char) (rest : List Char) : closeQuote q (q :: rest) = some ([], rest) := by
  cases rest with
  | nil => rw [closeQuote, if_pos rfl]
  | cons d rest => rw [closeQuote, if_pos rfl]

/-- A string that ends on its line is closed where the tokenizer closes it, whatever stands behind. -/
theorem closeQuote_of_stringBody? {q : Char} {s inner after : List Char}
    (h : stringBody? q s = some (inner, after)) (hline : '\n' ∉ inner) (rest : List Char) :
    closeQuote q (s ++ rest) = some (inner, after ++ rest) := by
  fun_induction stringBody? q s generalizing inner after with
  | case1 => cases h
  | case2 =>
    cases h
    exact closeQuote_mark q rest
  | case3 => cases h
  | case4 d s =>
    cases h
    exact closeQuote_mark q (d :: s ++ rest)
  | case5 d s hq ih =>
    obtain ⟨⟨more, behind⟩, hmore, heq⟩ := Option.map_eq_some_iff.1 h
    cases heq
    obtain ⟨-, hd, hline⟩ : '\n' ≠ '\\' ∧ '\n' ≠ d ∧ '\n' ∉ more := by simpa using hline
    rw [List.cons_append, List.cons_append, closeQuote, if_neg hq, if_neg (by decide),
      if_pos (by simpa using hd.symm), ih hmore hline]
  | case6 => cases h
  | case7 c d s hq hslash hn ih =>
    obtain ⟨⟨more, behind⟩, hmore, heq⟩ := Option.map_eq_some_iff.1 h
    cases heq
    rw [List.cons_append, List.cons_append, closeQuote, if_neg hq, if_neg hn,
      if_neg (by simp [hslash]), ← List.cons_append, ih hmore fun h => hline (List.mem_cons_of_mem c h)]
    rfl

/-! ## Plain text -/

/-- A text without escapes is made of its characters. -/
theorem flatMap_source_plain (s : List Char) : (s.map Piece.plain).flatMap Piece.source = s := by
  rw [List.flatMap_map]
  exact List.flatMap_singleton' s

theorem flatMap_value_plain (q : Char) (s : List Char) :
    (s.map Piece.plain).flatMap (Piece.value q) = s := by
  rw [List.flatMap_map]
  exact List.flatMap_singleton' s

end ModAlmanac.Lua
