import Mathlib
import ModAlmanac.Text.Blank
import ModAlmanac.Text.Digit
import ModAlmanac.Text.Word

/-!
# Characters checked one by one

There are twenty-nine characters of white space (`mem_blankCodes`), so that what tells them apart
from the characters of names, numerals and marks can be checked one by one (`forall_isBlank`). The
same goes for the characters of ASCII (`forall_ascii`).
-/

namespace ModAlmanac.Text

def blankCodes : List Nat :=
  [0x09, 0x0A, 0x0B, 0x0C, 0x0D, 0x1C, 0x1D, 0x1E, 0x1F, 0x20, 0x85, 0xA0, 0x1680, 0x2000, 0x2001,
   0x2002, 0x2003, 0x2004, 0x2005, 0x2006, 0x2007, 0x2008, 0x2009, 0x200A, 0x2028, 0x2029, 0x202F,
   0x205F, 0x3000]

theorem mem_blankCodes {c : Char} (h : isBlank c = true) : c.toNat ∈ blankCodes := by
  simp only [isBlank, Bool.or_eq_true, Bool.and_eq_true, decide_eq_true_eq] at h
  simp only [blankCodes, List.mem_cons, List.not_mem_nil, or_false]
  omega

/-- What holds of every white space character, checked one by one. -/
theorem forall_isBlank {p : Char → Bool}
    (h : blankCodes.all (fun n => p (Char.ofNat n)) = true) {c : Char} (hc : isBlank c = true) :
    p c = true := by
  have := List.all_eq_true.1 h _ (mem_blankCodes hc)
  rwa [Char.ofNat_toNat] at this

theorem not_isWordChar_of_isBlank {c : Char} (h : isBlank c = true) : isWordChar c = false := by
  have := forall_isBlank (p := fun c => !isWordChar c) (by decide +kernel) h
  simpa using this

theorem ne_of_isBlank {c d : Char} (hc : isBlank c = true) (hd : isBlank d = false) : c ≠ d := by
  rintro rfl
  rw [hc] at hd
  cases hd

theorem ne_brace_of_isBlank {blank : List Char} (hblank : ∀ c ∈ blank, isBlank c = true) :
    ∀ c ∈ blank, c ≠ '{' ∧ c ≠ '}' :=
  fun c hc => ⟨ne_of_isBlank (hblank c hc) (by decide), ne_of_isBlank (hblank c hc) (by decide)⟩

theorem not_isDecimalDigit_of_isBlank {c : Char} (h : isBlank c = true) :
    isDecimalDigit c = false := by
  have := forall_isBlank (p := fun c => !isDecimalDigit c) (by decide +kernel) h
  simpa using this

theorem not_isBlank_of_isDecimalDigit {c : Char} (h : isDecimalDigit c = true) :
    isBlank c = false := by
  cases hblank : isBlank c with
  | false => rfl
  | true => exact h.symm.trans (not_isDecimalDigit_of_isBlank hblank)

/-- What holds of every ASCII character, checked one by one. -/
theorem forall_ascii {p : Char → Bool}
    (h : (List.range 128).all (fun n => p (Char.ofNat n)) = true) {c : Char} (hc : c.toNat < 128) :
    p c = true := by
  have := List.all_eq_true.1 h _ (List.mem_range.2 hc)
  rwa [Char.ofNat_toNat] at this

theorem toNat_lt_of_isAlphanum {c : Char} (h : (c.isAlphanum || c = '_') = true) :
    c.toNat < 128 := by
  have hval : c.toNat = c.val.toNat := rfl
  simp only [Char.isAlphanum, Char.isAlpha, Char.isUpper, Char.isLower, Char.isDigit,
    Bool.or_eq_true, Bool.and_eq_true, decide_eq_true_eq, ge_iff_le, UInt32.le_iff_toNat_le] at h
  rcases h with h | rfl
  · simp at h
    omega
  · decide

/-- A word character of ASCII. -/
theorem isWordChar_of_isAlphanum {c : Char} (h : (c.isAlphanum || c = '_') = true) :
    isWordChar c = true := by
  rw [isWordChar, h, Bool.true_or]

theorem forall_isWordChar {word : List Char}
    (h : (word.all fun c => c.isAlphanum || c = '_') = true) : ∀ c ∈ word, isWordChar c = true :=
  fun c hc => isWordChar_of_isAlphanum (List.all_eq_true.1 h c hc)

theorem forall_isBlank_nil : ∀ c ∈ ([] : List Char), isBlank c = true :=
  List.forall_mem_nil _

theorem forall_isBlank_space : ∀ c ∈ [' '], isBlank c = true :=
  List.forall_mem_singleton.2 (by decide)

theorem dropBlank_append {blanks : List Char} (hblanks : ∀ c ∈ blanks, isBlank c = true) {c : Char}
    (hc : isBlank c = false) (rest : List Char) : dropBlank (blanks ++ c :: rest) = c :: rest := by
  rw [dropBlank, List.dropWhile_append_of_pos hblanks, List.dropWhile_cons_of_neg (by simp [hc])]

theorem exists_blanks_dropBlank (s : List Char) :
    ∃ blanks, s = blanks ++ dropBlank s ∧ ∀ c ∈ blanks, isBlank c = true :=
  ⟨s.takeWhile isBlank, List.takeWhile_append_dropWhile.symm, fun _ hc => List.mem_takeWhile_imp hc⟩

/-- Trimming takes the white space around a text that neither begins nor ends with any. -/
theorem trim_surrounded {front behind inner : List Char} {c d : Char}
    (hfront : ∀ c ∈ front, isBlank c = true) (hbehind : ∀ c ∈ behind, isBlank c = true)
    (hc : isBlank c = false) (hd : isBlank d = false) :
    trim (front ++ (c :: inner ++ [d] ++ behind)) = c :: inner ++ [d] := by
  have hreverse : ∀ b ∈ behind.reverse, isBlank b = true :=
    fun b hb => hbehind b (List.mem_reverse.1 hb)
  rw [trim, trimOf, List.dropWhile_append_of_pos hfront, List.cons_append, List.cons_append,
    List.dropWhile_cons_of_neg (by simp [hc]), ← List.cons_append, ← List.cons_append,
    List.reverse_append, List.dropWhile_append_of_pos hreverse, List.reverse_append,
    List.reverse_singleton, List.singleton_append, List.dropWhile_cons_of_neg (by simp [hd]),
    List.reverse_cons, List.reverse_reverse]

/-- White space around a text is trimmed off with that of the text itself. -/
theorem trim_blanks {front behind : List Char} (hfront : ∀ c ∈ front, isBlank c = true)
    (hbehind : ∀ c ∈ behind, isBlank c = true) (s : List Char) :
    trim (front ++ (s ++ behind)) = trim s := by
  have hreverse : ∀ c ∈ behind.reverse, isBlank c = true :=
    fun c hc => hbehind c (List.mem_reverse.1 hc)
  rw [trim, trimOf, List.dropWhile_append_of_pos hfront, List.dropWhile_append, trim, trimOf]
  split
  · next hblank =>
    have hnil : behind.dropWhile isBlank = [] := List.dropWhile_eq_nil_iff.2 hbehind
    rw [hnil, List.isEmpty_iff.1 hblank]
  · rw [List.reverse_append, List.dropWhile_append_of_pos hreverse]

theorem trim_blanks_append {front : List Char} (hfront : ∀ c ∈ front, isBlank c = true)
    (s : List Char) : trim (front ++ s) = trim s := by
  have h := trim_blanks hfront (List.forall_mem_nil _) s
  rwa [List.append_nil] at h

theorem trim_append_blanks {behind : List Char} (hbehind : ∀ c ∈ behind, isBlank c = true)
    (s : List Char) : trim (s ++ behind) = trim s :=
  trim_blanks (List.forall_mem_nil _) hbehind s

/-- A text is what trimming leaves of it, with white space around. -/
theorem exists_blanks_trim (s : List Char) :
    ∃ front behind, s = front ++ (trim s ++ behind) ∧ (∀ c ∈ front, isBlank c = true) ∧
      ∀ c ∈ behind, isBlank c = true := by
  have hsplit : ∀ t : List Char, t = t.takeWhile isBlank ++ t.dropWhile isBlank :=
    fun t => List.takeWhile_append_dropWhile.symm
  refine ⟨s.takeWhile isBlank, ((s.dropWhile isBlank).reverse.takeWhile isBlank).reverse, ?_,
    fun c hc => List.mem_takeWhile_imp hc,
    fun c hc => List.mem_takeWhile_imp (List.mem_reverse.1 hc)⟩
  rw [trim, trimOf, ← List.reverse_append, ← hsplit, List.reverse_reverse, ← hsplit]

theorem trim_eq_nil_iff {s : List Char} : trim s = [] ↔ ∀ c ∈ s, isBlank c = true := by
  constructor
  · intro h
    obtain ⟨front, behind, hs, hfront, hbehind⟩ := exists_blanks_trim s
    rw [h, List.nil_append] at hs
    rw [hs]
    exact List.forall_mem_append.2 ⟨hfront, hbehind⟩
  · intro h
    have hnil : trim (s ++ []) = trim [] := trim_blanks_append h []
    rwa [List.append_nil] at hnil

@[simp] theorem trim_trim (s : List Char) : trim (trim s) = trim s := by
  obtain ⟨front, behind, hs, hfront, hbehind⟩ := exists_blanks_trim s
  have htrim : trim (front ++ (trim s ++ behind)) = trim (trim s) := trim_blanks hfront hbehind _
  rw [← htrim, ← hs]

end ModAlmanac.Text
