import ModAlmanac.Proofs.Lua.Escapes
import ModAlmanac.Proofs.Text.Balanced

/-!
# Quoted text is read back

Any text can be put between quotes of either kind, with escapes for the quote, the backslash and the
line feed. What is read from there is the text itself (`quotedText?_quoteWith`,
`unescape_escapeFor`), since it is one of its spellings. The escapes neither open nor close braces
(`balanced_quoteWith`).

A character is escaped by two characters that are read together, so that no run of backslashes and
quotes hides the closing quote (`escapeCharFor_cases`).
-/

namespace ModAlmanac.Lua

open Text

def escapeChar (c : Char) : List Char :=
  if c = '\\' || c = '\x22' then ['\\', c]
  else if c = '\n' then ['\\', 'n']
  else [c]

def escape (s : List Char) : List Char :=
  s.flatMap escapeChar

/-- A text between double quotes. -/
def quote (s : List Char) : List Char :=
  '\x22' :: escape s ++ ['\x22']

/-! ## Either kind of quote -/

def escapeCharFor (q c : Char) : List Char :=
  if c = '\\' || c = q then ['\\', c]
  else if c = '\n' then ['\\', 'n']
  else [c]

def escapeFor (q : Char) (s : List Char) : List Char :=
  s.flatMap (escapeCharFor q)

/-- A text between two quotes of one kind. -/
def quoteWith (q : Char) (s : List Char) : List Char :=
  q :: escapeFor q s ++ [q]

section

variable {q : Char} (hq : q = '\x22' ∨ q = '\x27')

include hq

/-- A character is escaped by a backslash and one that stands for it, or stands for itself. -/
theorem escapeCharFor_cases (c : Char) :
    (∃ d, escapeCharFor q c = ['\\', d] ∧ d ≠ '\n' ∧ escaped d = c) ∨
      escapeCharFor q c = [c] ∧ c ≠ q ∧ c ≠ '\\' ∧ c ≠ '\n' := by
  unfold escapeCharFor
  split
  · next h =>
    refine .inl ⟨c, rfl, ?_⟩
    simp only [Bool.or_eq_true, decide_eq_true_eq] at h
    rcases h with rfl | rfl
    · decide
    · rcases hq with rfl | rfl <;> decide
  · next h =>
    simp only [Bool.or_eq_true, decide_eq_true_eq, not_or] at h
    split
    · next hline => exact .inl ⟨'n', rfl, by decide, by rw [hline]; decide⟩
    · next hline => exact .inr ⟨rfl, h.2, h.1, hline⟩

/-! ## Reading back -/

/-- The closing quote is the one behind the escaped text. -/
theorem closeQuote_escapeFor (s rest : List Char) :
    closeQuote q (escapeFor q s ++ q :: rest) = some (escapeFor q s, rest) := by
  have hslashQuote : '\\' ≠ q := by rcases hq with rfl | rfl <;> decide
  induction s with
  | nil => cases rest <;> simp [escapeFor, closeQuote]
  | cons c s ih =>
    obtain ⟨d, more, hmore⟩ : ∃ d more, escapeFor q s ++ q :: rest = d :: more :=
      List.exists_cons_of_ne_nil (by simp)
    rw [escapeFor, List.flatMap_cons, ← escapeFor, List.append_assoc]
    rcases escapeCharFor_cases hq c with ⟨e, hesc, hline, -⟩ | ⟨hesc, hquote, hslash, hline⟩
    · rw [hesc]
      simp [closeQuote, hslashQuote, hline, ih]
    · rw [hesc, hmore, List.singleton_append, closeQuote, if_neg hquote, if_neg hline,
        if_neg (by simp [hslash]), ← hmore, ih]
      rfl

theorem quotedText?_quoteWith (s rest : List Char) :
    quotedText? (quoteWith q s ++ rest) = some (escapeFor q s, rest) := by
  rw [quoteWith, List.append_assoc, List.singleton_append, List.cons_append, quotedText?,
    if_pos (by simpa using hq), closeQuote_escapeFor hq]

theorem spells_escapeFor (s : List Char) : Spells s (escapeFor q s) := by
  induction s with
  | nil => exact .nil
  | cons c s ih =>
    rw [escapeFor, List.flatMap_cons, ← escapeFor]
    refine .cons (spellsChar_iff.2 ?_) ih
    rcases escapeCharFor_cases hq c with ⟨d, hesc, -, hd⟩ | ⟨hesc, -, hslash, -⟩
    · exact .inr ⟨d, hesc, hd⟩
    · exact .inl ⟨hesc, hslash⟩

theorem unescape_escapeFor (s : List Char) : unescape (escapeFor q s) = s :=
  (spells_escapeFor hq s).unescape_eq

end

/-! ## What the escapes leave alone -/

theorem filter_escapeFor (q : Char) {p : Char → Bool} (hslash : p '\\' = false)
    (hline : p '\n' = false) (hletter : p 'n' = false) (s : List Char) :
    (escapeFor q s).filter p = s.filter p := by
  induction s with
  | nil => rfl
  | cons c s ih =>
    have hchar : (escapeCharFor q c).filter p = [c].filter p := by
      unfold escapeCharFor
      split
      · rw [List.filter_cons_of_neg (by simp [hslash])]
      · split
        · next h =>
          subst h
          simp [hslash, hline, hletter]
        · rfl
    rw [escapeFor, List.flatMap_cons, ← escapeFor, List.filter_append, ih, hchar,
      ← List.filter_append, List.singleton_append]

section

variable {q : Char} (hq : q = '\x22' ∨ q = '\x27')

include hq

theorem balanced_quoteWith {s : List Char} (h : Balanced '{' '}' s) :
    Balanced '{' '}' (quoteWith q s) := by
  have hmark : Balanced '{' '}' [q] := balanced_of_forall_ne <| List.forall_mem_singleton.2 <| by
    rcases hq with rfl | rfl <;> decide
  have hescape : Balanced '{' '}' (escapeFor q s) := by
    rw [← balanced_filter_iff (p := fun c => c = '{' || c = '}') (by decide) (by decide),
      filter_escapeFor q (by decide) (by decide) (by decide),
      balanced_filter_iff (by decide) (by decide)]
    exact h
  exact (hmark.append hescape).append hmark

theorem sign_not_mem_quoteWith {s : List Char} (h : '=' ∉ s) : '=' ∉ quoteWith q s := by
  have hmark : '=' ≠ q := by rcases hq with rfl | rfl <;> decide
  have hnil : s.filter (fun c => c = '=') = [] :=
    List.filter_eq_nil_iff.2 fun c hc heq => h (of_decide_eq_true heq ▸ hc)
  have hescape : '=' ∉ escapeFor q s := by
    intro hmem
    have hfilter : '=' ∈ (escapeFor q s).filter fun c => c = '=' :=
      List.mem_filter.2 ⟨hmem, by decide⟩
    rw [filter_escapeFor q (by decide) (by decide) (by decide), hnil] at hfilter
    cases hfilter
  simp [quoteWith, hescape, hmark]

end

/-! ## Double quotes -/

theorem quotedText?_quote (s rest : List Char) :
    quotedText? (quote s ++ rest) = some (escape s, rest) :=
  quotedText?_quoteWith (.inl rfl) s rest

theorem unescape_escape (s : List Char) : unescape (escape s) = s :=
  unescape_escapeFor (q := '\x22') (.inl rfl) s

theorem balanced_quote {s : List Char} (h : Balanced '{' '}' s) : Balanced '{' '}' (quote s) :=
  balanced_quoteWith (.inl rfl) h

theorem sign_not_mem_quote {s : List Char} (h : '=' ∉ s) : '=' ∉ quote s :=
  sign_not_mem_quoteWith (.inl rfl) h

end ModAlmanac.Lua
