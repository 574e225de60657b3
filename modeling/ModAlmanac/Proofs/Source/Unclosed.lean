import ModAlmanac.Proofs.Source.Declarations

/-!
# A declaration that is never closed

Somewhere in a source a declaration breaks off: its brace opens and is never closed. The reader goes
through all of the source behind it before it gives up, and goes on inside of what it gave up on. No
other declaration is lost by that (`ofSource_unclosed`).

A declaration that was written whole closes what it opens (`WrittenDeclaration.balanced_text`), so
that the brace stays open up to the end (`staysOpen_textBehind`) and nothing is taken for the body.
From behind the brace the search passes over the rest of the broken line, and stands where it would
have stood without it.
-/

namespace ModAlmanac.Source

open Lua Text

/-- What is left of a declaration that breaks off: its head with the opening brace, and the rest of
the line. -/
def WrittenDeclaration.brokenOff (d : WrittenDeclaration) (junk : List Char) : List Char :=
  namespaceDot ++ (d.kind ++ (d.opening ++ '{' :: (junk ++ ['\n'])))

/-- Declarations, each with the filler in front of it. -/
def textBefore (front : List (Filler × WrittenDeclaration)) : List Char :=
  front.flatMap fun part => part.1.text ++ part.2.text

/-- Declarations, each with the filler behind it. -/
def textBehind (behind : List (WrittenDeclaration × Filler)) : List Char :=
  behind.flatMap fun part => part.1.text ++ part.2.text

/-! ## The brace stays open -/

theorem ne_brace_of_isKindChar {c : Char} (h : isKindChar c = true) : c ≠ '{' ∧ c ≠ '}' := by
  constructor <;> rintro rfl <;> exact absurd h (by decide)

theorem WrittenDeclaration.isKindChar_kind (d : WrittenDeclaration) :
    ∀ c ∈ d.kind, isKindChar c = true := by
  refine List.forall_mem_cons.2 ⟨?_, d.isKindChar_more⟩
  rw [isKindChar, Char.isAlphanum, Char.isAlpha, d.isUpper_initial]
  rfl

theorem WrittenDeclaration.balanced_opening (d : WrittenDeclaration) : Balanced '{' '}' d.opening := by
  have hblank : ∀ blank : List Char, (∀ c ∈ blank, isBlank c = true) → Balanced '{' '}' blank :=
    fun _ h => balanced_of_forall_ne (ne_brace_of_isBlank h)
  rw [WrittenDeclaration.opening]
  cases hp : d.parenthesis with
  | none => exact (hblank _ d.isBlank_gap).append balanced_nil
  | some blank =>
    have hparenthesis : Balanced '{' '}' ['('] := balanced_of_forall_ne (by simp)
    exact (hblank _ d.isBlank_gap).append
      (hparenthesis.append (hblank blank (d.isBlank_parenthesis blank hp)))

/-- A whole declaration closes what it opens. -/
theorem WrittenDeclaration.balanced_text (d : WrittenDeclaration) : Balanced '{' '}' d.text := by
  have hname : Balanced '{' '}' namespaceDot := balanced_of_forall_ne (by simp [namespaceDot])
  have hkind : Balanced '{' '}' d.kind :=
    balanced_of_forall_ne fun c hc => ne_brace_of_isKindChar (d.isKindChar_kind c hc)
  have hclosing : Balanced '{' '}' d.closing := by
    unfold WrittenDeclaration.closing
    split
    · exact balanced_of_forall_ne (by simp)
    · exact balanced_nil
  have htext : d.text = namespaceDot ++ d.kind ++ d.opening ++ (('{' :: d.body ++ ['}']) ++
      d.closing) := by
    simp [WrittenDeclaration.text]
  rw [htext]
  exact ((hname.append hkind).append d.balanced_opening).append
    ((d.balanced_body.nest (by decide)).append hclosing)

theorem staysOpen_textBehind {behind : List (WrittenDeclaration × Filler)}
    (h : ∀ part ∈ behind, StaysOpen '{' '}' part.2.text) : StaysOpen '{' '}' (textBehind behind) := by
  induction behind with
  | nil => exact balanced_nil.count_le
  | cons part behind ih =>
    obtain ⟨hpart, hbehind⟩ := List.forall_mem_cons.1 h
    rw [textBehind, List.flatMap_cons]
    exact (StaysOpen.append part.1.balanced_text.count_le hpart).append (ih hbehind)

/-! ## The search goes on -/

/-- The rest of a line is passed over if it does not name the namespace. -/
theorem passes_line {junk : List Char} (hjunk : ¬ namespaceDot <:+: junk) (rest : List Char) :
    Passes declaredKind? (junk ++ ['\n']) rest := by
  have hline : Passes declaredKind? junk ('\n' :: rest) := fun t _ ht =>
    declaredKind?_eq_none (not_prefix_append_cons (by decide)
      (fun hstart => hjunk (hstart.isInfix.trans ht.isInfix)) rest)
  refine hline.append (passes_of_forall fun c hc s => declaredKind?_eq_none ?_)
  rw [List.mem_singleton.1 hc]
  exact fun hstart => absurd (List.cons_prefix_cons.1 hstart).1 (by decide)

/-- Filler in front of declarations is passed over. -/
theorem passes_textBehind (filler : Filler) (behind : List (WrittenDeclaration × Filler)) :
    Passes declaredKind? filler.text (textBehind behind) := by
  cases behind with
  | nil => exact passes_last filler
  | cons part behind =>
    rw [textBehind, List.flatMap_cons, List.append_assoc, part.1.text_append]
    exact passes_filler filler _

theorem declarations_textBehind (filler : Filler) (behind : List (WrittenDeclaration × Filler)) :
    declarations (filler.text ++ textBehind behind) =
      behind.filterMap fun part => Declaration.ofBody? part.1.kind part.1.body := by
  induction behind generalizing filler with
  | nil => exact (congrArg declarations (List.append_nil _)).trans (declarations_last filler)
  | cons part behind ih =>
    rw [textBehind, List.flatMap_cons, List.append_assoc, declarations_text_append,
      declarations_closing_append, ← textBehind, ih, List.filterMap_cons]
    cases Declaration.ofBody? part.1.kind part.1.body with
    | none => rfl
    | some declaration => rfl

section

variable {before after junk : List Char} (hfiller : ¬ namespaceDot <:+: before ++ after)
  {behind : List (WrittenDeclaration × Filler)} (d : WrittenDeclaration)
  (hjunk : ¬ namespaceDot <:+: junk)

include hfiller hjunk

/-- A declaration that is never closed is left out, and the search goes on behind its line. -/
theorem declarations_brokenOff
    (hopen : StaysOpen '{' '}' (junk ++ '\n' :: (after ++ textBehind behind))) :
    declarations (before ++ (d.brokenOff junk ++ (after ++ textBehind behind))) =
      declarations (before ++ (after ++ textBehind behind)) := by
  have hbefore : ¬ namespaceDot <:+: before := fun h =>
    hfiller (h.trans (List.prefix_append before after).isInfix)
  have hclose : closeBrace (junk ++ '\n' :: (after ++ textBehind behind)) = none :=
    closeNested_eq_none (by decide) hopen 0
  have htext : d.brokenOff junk ++ (after ++ textBehind behind) = namespaceDot ++ (d.kind ++
      (d.opening ++ '{' :: (junk ++ '\n' :: (after ++ textBehind behind)))) := by
    simp [WrittenDeclaration.brokenOff]
  have hline : search declaredKind? (junk ++ '\n' :: (after ++ textBehind behind)) =
      search declaredKind? (after ++ textBehind behind) := by
    rw [List.append_cons]
    exact search_append (passes_line hjunk _)
  have hpass : Passes declaredKind? before (after ++ textBehind behind) :=
    (passes_textBehind ⟨before ++ after, hfiller⟩ behind).of_append
  have hhead := declarations_head ⟨before, hbefore⟩ d
    (junk ++ '\n' :: (after ++ textBehind behind))
  rw [hclose] at hhead
  rw [htext]
  exact hhead.trans (declarations_congr (hline.trans (search_append hpass).symm))

/-- A declaration that is never closed hides no other one, wherever outside of the others it stands:
the objects of a source are the same with it and without it, and they are those of all declarations
in front of it and behind it that have a key. -/
theorem ofSource_unclosed (front : List (Filler × WrittenDeclaration))
    (hopen : StaysOpen '{' '}' junk) (hafter : StaysOpen '{' '}' after)
    (hbehind : ∀ part ∈ behind, StaysOpen '{' '}' part.2.text) :
    Entity.ofSource
        (textBefore front ++ (before ++ (d.brokenOff junk ++ (after ++ textBehind behind)))) =
      Entity.ofSource (textBefore front ++ (before ++ (after ++ textBehind behind))) ∧
    Entity.ofSource (textBefore front ++ (before ++ (after ++ textBehind behind))) =
      ((front.map (·.2) ++ behind.map (·.1)).filterMap fun d =>
        Declaration.ofBody? d.kind d.body).map Entity.ofDeclaration := by
  have hline : StaysOpen '{' '}' ['\n'] := staysOpen_of_forall_ne (by simp)
  have hrest := hopen.append (hline.append (hafter.append (staysOpen_textBehind hbehind)))
  have hsame := declarations_brokenOff hfiller d hjunk hrest
  have hdeclared := declarations_textBehind ⟨before ++ after, hfiller⟩ behind
  rw [List.append_assoc] at hdeclared
  constructor
  · rw [Entity.ofSource, textBefore, declarations_parts_append, hsame, Entity.ofSource,
      declarations_parts_append]
  · rw [Entity.ofSource, textBefore, declarations_parts_append, hdeclared, List.filterMap_append,
      List.filterMap_map, List.filterMap_map]
    rfl

end

/-- The declaration `SMODS.Joker { key = 'j' }`. -/
def plainJoker : WrittenDeclaration where
  initial := 'J'
  more := "oker".toList
  gap := [' ']
  parenthesis := none
  body := " key = \x27j\x27 ".toList
  isUpper_initial := by decide
  isKindChar_more := List.all_eq_true.1 (by decide)
  isBlank_gap := forall_isBlank_space
  isBlank_parenthesis := by simp
  balanced_body := balanced_of_forall_ne (by simp)

/-- A declaration that breaks off in a nested table, in the middle of a comment between two others. -/
theorem ofSource_unclosed_between :
    let before := "\n-- more ".toList
    let after := "of them\n".toList
    let junk := " key = \x27x\x27, config = \x7b t = \x7b 1 \x7d, u = \x7b".toList
    (¬ namespaceDot <:+: before ++ after) ∧ (¬ namespaceDot <:+: junk) ∧
      StaysOpen '{' '}' junk ∧ StaysOpen '{' '}' after ∧ StaysOpen '{' '}' ['\n'] ∧
        Entity.ofSource (plainJoker.text ++
          (before ++ (plainJoker.brokenOff junk ++ (after ++ (plainJoker.text ++ ['\n']))))) =
            Entity.ofSource (plainJoker.text ++
              (before ++ (after ++ (plainJoker.text ++ ['\n'])))) := by
  intro before after junk
  have hfiller : ¬ namespaceDot <:+: before ++ after := by decide +kernel
  have hjunk : ¬ namespaceDot <:+: junk := by decide +kernel
  have hopen : StaysOpen '{' '}' junk := by decide +kernel
  have hafter : StaysOpen '{' '}' after := by decide +kernel
  have hline : StaysOpen '{' '}' ['\n'] := by decide
  let behind : List (WrittenDeclaration × Filler) := [(plainJoker, ⟨['\n'], by decide⟩)]
  have hbehind : ∀ part ∈ behind, StaysOpen '{' '}' part.2.text :=
    List.forall_mem_singleton.2 hline
  have hsame := (ofSource_unclosed hfiller plainJoker hjunk [(⟨[], by decide⟩, plainJoker)] hopen
    hafter hbehind).1
  exact ⟨hfiller, hjunk, hopen, hafter, hline, hsame⟩

end ModAlmanac.Source
