import Mathlib
import ModAlmanac.Lua.Quote

/-!
# Escaped spellings

A text can be spelled with escapes in many ways, since a backslash may stand in front of any
character that is no letter of a control character (`SpellsChar`, `Spells`). Whichever way is
chosen, resolving the escapes gives the text, and what stands behind a spelling is resolved on its
own (`Spells.unescape_append`).

Spellings are told by their end alone: a text is one unless it ends in an odd number of backslashes
(`spells_iff`). A pair in front takes no part in that, however long the run of backslashes is that
the pair begins (`odd_trailingSlashes_escape`).
-/

namespace ModAlmanac.Lua

/-! ## Spellings -/

/-- The letters that stand for control characters behind a backslash. -/
def controls : List (Char × Char) :=
  [('b', '\x08'), ('f', '\x0c'), ('n', '\n'), ('r', '\r'), ('t', '\t')]

/-- How a character can be written: as itself, behind a backslash, or by its letter. -/
inductive SpellsChar : Char → List Char → Prop
  | plain {c : Char} (ne : c ≠ '\\') : SpellsChar c [c]
  | kept {c : Char} (not_letter : ∀ control ∈ controls, control.1 ≠ c) : SpellsChar c ['\\', c]
  | control {letter c : Char} (mem : (letter, c) ∈ controls) : SpellsChar c ['\\', letter]

/-- A text is written character by character. -/
inductive Spells : List Char → List Char → Prop
  | nil : Spells [] []
  | cons {c : Char} {s piece t : List Char} (head : SpellsChar c piece) (tail : Spells s t) :
    Spells (c :: s) (piece ++ t)

/-- What stands behind a backslash is written by it. -/
theorem spellsChar_escaped (d : Char) : SpellsChar (escaped d) ['\\', d] := by
  unfold escaped
  split_ifs with hb hf hn hr ht
  · exact .control (by simp [controls, hb])
  · exact .control (by simp [controls, hf])
  · exact .control (by simp [controls, hn])
  · exact .control (by simp [controls, hr])
  · exact .control (by simp [controls, ht])
  · exact .kept (by simp [controls, eq_comm, hb, hf, hn, hr, ht])

theorem spellsChar_iff {c : Char} {piece : List Char} :
    SpellsChar c piece ↔ piece = [c] ∧ c ≠ '\\' ∨ ∃ d, piece = ['\\', d] ∧ escaped d = c := by
  constructor
  · rintro (hne | hletter | hmem)
    · exact .inl ⟨rfl, hne⟩
    · refine .inr ⟨c, rfl, ?_⟩
      simp only [controls, List.forall_mem_cons] at hletter
      obtain ⟨hb, hf, hn, hr, ht, -⟩ := hletter
      simp [escaped, hb.symm, hf.symm, hn.symm, hr.symm, ht.symm]
    · refine .inr ⟨_, rfl, ?_⟩
      simp only [controls, List.mem_cons, List.not_mem_nil, or_false, Prod.mk.injEq] at hmem
      rcases hmem with ⟨rfl, rfl⟩ | ⟨rfl, rfl⟩ | ⟨rfl, rfl⟩ | ⟨rfl, rfl⟩ | ⟨rfl, rfl⟩ <;> rfl
  · rintro (⟨rfl, hne⟩ | ⟨d, rfl, rfl⟩)
    · exact .plain hne
    · exact spellsChar_escaped d

/-! ## Resolving -/

theorem unescape_cons_of_ne {c : Char} (hc : c ≠ '\\') (rest : List Char) :
    unescape (c :: rest) = c :: unescape rest := by
  cases rest with
  | nil => rfl
  | cons d rest => rw [unescape, if_neg hc]

theorem unescape_escape_cons (d : Char) (rest : List Char) :
    unescape ('\\' :: d :: rest) = escaped d :: unescape rest := by
  rw [unescape, if_pos rfl]

theorem SpellsChar.unescape_append {c : Char} {piece : List Char} (h : SpellsChar c piece)
    (rest : List Char) : unescape (piece ++ rest) = c :: unescape rest := by
  rcases spellsChar_iff.1 h with ⟨rfl, hne⟩ | ⟨d, rfl, rfl⟩
  · exact unescape_cons_of_ne hne rest
  · exact unescape_escape_cons d rest

/-- A spelling is resolved on its own, whatever stands behind it. -/
theorem Spells.unescape_append {s t : List Char} (h : Spells s t) (rest : List Char) :
    unescape (t ++ rest) = s ++ unescape rest := by
  induction h with
  | nil => rfl
  | cons head tail ih => rw [List.append_assoc, head.unescape_append, ih, List.cons_append]

theorem Spells.unescape_eq {s t : List Char} (h : Spells s t) : unescape t = s := by
  have hresolved := h.unescape_append []
  rwa [List.append_nil, unescape, List.append_nil] at hresolved

/-! ## The end of a spelling -/

/-- How many backslashes a text ends in. -/
def trailingSlashes (s : List Char) : Nat :=
  (s.rtakeWhile (· = '\\')).length

/-- A character in front counts if the whole text is made of backslashes. -/
theorem trailingSlashes_cons (c : Char) (s : List Char) :
    trailingSlashes (c :: s) =
      if c = '\\' ∧ ∀ d ∈ s, d = '\\' then trailingSlashes s + 1 else trailingSlashes s := by
  have hwhole : (s.reverse.takeWhile (· = '\\')).length = s.reverse.length ↔
      ∀ d ∈ s, d = '\\' := by
    rw [(List.takeWhile_sublist _).length_eq, List.takeWhile_eq_self_iff]
    simp
  rw [trailingSlashes, trailingSlashes, List.rtakeWhile, List.rtakeWhile, List.reverse_cons,
    List.takeWhile_append]
  by_cases hall : ∀ d ∈ s, d = '\\'
  · rw [if_pos (hwhole.2 hall), List.length_reverse, List.length_reverse, hwhole.2 hall]
    by_cases hc : c = '\\'
    · rw [if_pos ⟨hc, hall⟩]
      simp [hc]
    · simp [hc]
  · rw [if_neg (hwhole.not.2 hall), if_neg fun h => hall h.2]

/-- A backslash and the character behind it change nothing about the end. -/
theorem odd_trailingSlashes_escape (d : Char) (s : List Char) :
    Odd (trailingSlashes ('\\' :: d :: s)) ↔ Odd (trailingSlashes s) := by
  rw [trailingSlashes_cons, trailingSlashes_cons d]
  by_cases hall : d = '\\' ∧ ∀ e ∈ s, e = '\\'
  · rw [if_pos ⟨rfl, List.forall_mem_cons.2 hall⟩, if_pos hall, Nat.odd_add_one, Nat.odd_add_one,
      not_not]
  · rw [if_neg fun h => hall (List.forall_mem_cons.1 h.2), if_neg hall]

/-- A text that ends in no unfinished escape is a spelling of what it is resolved to. -/
theorem spells_unescape {t : List Char} (h : ¬ Odd (trailingSlashes t)) :
    Spells (unescape t) t := by
  fun_induction unescape t with
  | case1 => exact .nil
  | case2 c =>
    have hc : c ≠ '\\' := by
      rintro rfl
      exact h (by decide)
    exact .cons (.plain hc) .nil
  | case3 d rest ih =>
    rw [odd_trailingSlashes_escape] at h
    exact .cons (spellsChar_escaped d) (ih h)
  | case4 c d rest hc ih =>
    rw [trailingSlashes_cons, if_neg fun hslash => hc hslash.1] at h
    exact .cons (.plain hc) (ih h)

/-- No spelling ends in an unfinished escape. -/
theorem Spells.not_odd {s t : List Char} (h : Spells s t) : ¬ Odd (trailingSlashes t) := by
  induction h with
  | nil => decide
  | cons head tail ih =>
    rcases spellsChar_iff.1 head with ⟨rfl, hne⟩ | ⟨d, rfl, -⟩
    · rwa [List.singleton_append, trailingSlashes_cons, if_neg fun hslash => hne hslash.1]
    · rwa [List.cons_append, List.singleton_append, odd_trailingSlashes_escape]

theorem spells_iff {s t : List Char} :
    Spells s t ↔ ¬ Odd (trailingSlashes t) ∧ unescape t = s :=
  ⟨fun h => ⟨h.not_odd, h.unescape_eq⟩, fun ⟨hend, hs⟩ => hs ▸ spells_unescape hend⟩

/-! ## Texts in parts -/

/-- Resolving escapes gives a text back from each of its spellings, and every text is a spelling
unless it ends in an odd number of backslashes. Behind a text of that kind the escapes are resolved
as on their own. -/
theorem unescape_spellings :
    (∀ s t, Spells s t ↔ ¬ Odd (trailingSlashes t) ∧ unescape t = s) ∧
      ∀ x y, ¬ Odd (trailingSlashes x) → unescape (x ++ y) = unescape x ++ unescape y :=
  ⟨fun _ _ => spells_iff, fun _ y hend => (spells_unescape hend).unescape_append y⟩

/-- A quote, a line feed by its letter, a backslash and a line feed as it is, each behind a
backslash. A letter behind the first six characters is not taken for that of a line feed. -/
theorem unescape_spellings_slashes :
    let t := ['\\', '\x22', '\\', 'n', '\\', '\\']
    Spells ['\x22', '\n', '\\', '\n'] (t ++ ['\\', '\n']) ∧
      unescape (t ++ ['\\', '\n']) = ['\x22', '\n', '\\', '\n'] ∧
        ¬ Odd (trailingSlashes t) ∧ unescape (t ++ ['n']) = unescape t ++ ['n'] := by
  intro t
  have hquote : SpellsChar '\x22' ['\\', '\x22'] := .kept (by decide)
  have hletter : SpellsChar '\n' ['\\', 'n'] := .control (by decide)
  have hslash : SpellsChar '\\' ['\\', '\\'] := .kept (by decide)
  have hline : SpellsChar '\n' ['\\', '\n'] := .kept (by decide)
  have hspells := Spells.cons hquote (.cons hletter (.cons hslash (.cons hline .nil)))
  have hend : ¬ Odd (trailingSlashes t) := by decide
  exact ⟨hspells, ((unescape_spellings.1 _ _).1 hspells).2, hend,
    unescape_spellings.2 t ['n'] hend⟩

end ModAlmanac.Lua
