import ModAlmanac.Proofs.Expr.Occurrences
import ModAlmanac.Proofs.Number.Written

/-!
# Spelled paths

A segment of a path is spelled behind a point, or in brackets with or without quotes and with white
space inside (`Spelling`). All spellings read as the word itself, apart from a word without quotes
that white space follows: the bracket is read up to its end, so the white space becomes a part of
the segment (`Spelling.segment`).

However its segments are spelled, a path is read as its root with these segments
(`evaluate_pathText`). No operator is found in it, since it holds no operator character, and since
its white space stands in front of a point or at the end, where no word can begin.
-/

namespace ModAlmanac.Expr

open Number Text

/-! ## Spellings -/

/-- A name or a number, as it can stand between points. -/
structure Word where
  text : List Char
  ne_nil : text ≠ []
  isWordChar : ∀ c ∈ text, isWordChar c = true

structure Blanks where
  text : List Char
  isBlank : ∀ c ∈ text, isBlank c = true

def Blanks.empty : Blanks where
  text := []
  isBlank := by simp

@[simp] theorem Blanks.empty_text : Blanks.empty.text = [] := rfl

def Blanks.space : Blanks where
  text := [' ']
  isBlank c hc := by
    rw [List.mem_singleton.1 hc]
    rfl

inductive Quote where
  | single
  | double
  deriving Repr, DecidableEq

def Quote.mark : Quote → Char
  | .single => '\x27'
  | .double => '\x22'

/-- How a segment is spelled: behind a point, or in brackets, with white space inside. -/
inductive Spelling where
  | dotted
  | plain (before behind : Blanks)
  | quoted (quote : Quote) (before behind : Blanks)

def Spelling.text (w : Word) : Spelling → List Char
  | .dotted => '.' :: w.text
  | .plain before behind => '[' :: (before.text ++ (w.text ++ (behind.text ++ [']'])))
  | .quoted quote before behind =>
    '[' :: (before.text ++ quote.mark :: (w.text ++ quote.mark :: (behind.text ++ [']'])))

/-- The white space that a spelling leaves behind its word. -/
def Spelling.trailing : Spelling → List Char
  | .plain _ behind => behind.text
  | _ => []

/-- The segment that a spelling is read as. -/
def Spelling.segment (w : Word) (spelling : Spelling) : List Char :=
  w.text ++ spelling.trailing

/-- The names that paths begin with. -/
inductive Root where
  | settings
  | card
  | globals
  deriving Repr, DecidableEq

def Root.name : Root → List Char
  | .settings => "stg".toList
  | .card => "card".toList
  | .globals => "G".toList

def stepsText (steps : List (Word × Spelling)) : List Char :=
  steps.flatMap fun step => step.2.text step.1

def pathText (root : Root) (steps : List (Word × Spelling)) : List Char :=
  root.name ++ stepsText steps

def segmentsOf (steps : List (Word × Spelling)) : List (List Char) :=
  steps.map fun step => step.2.segment step.1

/-! ## Reading an index -/

theorem ne_of_isWordChar {c d : Char} (hc : Text.isWordChar c = true)
    (hd : Text.isWordChar d = false) : c ≠ d := by
  rintro rfl
  rw [hc] at hd
  cases hd

theorem isIndexChar_of_isWordChar {c : Char} (h : Text.isWordChar c = true) :
    isIndexChar c = true := by
  simp [isIndexChar, ne_of_isWordChar h (d := ']') (by decide),
    ne_of_isWordChar h (d := '\x22') (by decide), ne_of_isWordChar h (d := '\x27') (by decide)]

theorem isIndexChar_of_isBlank {c : Char} (h : Text.isBlank c = true) : isIndexChar c = true :=
  forall_isBlank (by decide) h

theorem Word.exists_cons (w : Word) :
    ∃ c more, w.text = c :: more ∧ Text.isWordChar c = true ∧
      ∀ d ∈ more, Text.isWordChar d = true := by
  obtain ⟨c, more, hw⟩ := List.exists_cons_of_ne_nil w.ne_nil
  have hchars := w.isWordChar
  rw [hw] at hchars
  exact ⟨c, more, hw, List.forall_mem_cons.1 hchars⟩

theorem not_isBlank_of_isWordChar {c : Char} (h : Text.isWordChar c = true) :
    Text.isBlank c = false := by
  cases hc : Text.isBlank c with
  | false => rfl
  | true =>
    rw [not_isWordChar_of_isBlank hc] at h
    cases h

theorem Quote.not_isBlank_mark (quote : Quote) : Text.isBlank quote.mark = false := by
  cases quote <;> decide

theorem Quote.mark_cases (quote : Quote) : quote.mark = '\x22' ∨ quote.mark = '\x27' := by
  cases quote
  · exact .inr rfl
  · exact .inl rfl

/-- A run of an index ends at a quote or at the closing bracket. -/
theorem index_run {run : List Char} (hrun : ∀ c ∈ run, isIndexChar c = true) {mark : Char}
    (hmark : isIndexChar mark = false) (rest : List Char) :
    (run ++ mark :: rest).takeWhile isIndexChar = run ∧
      (run ++ mark :: rest).dropWhile isIndexChar = mark :: rest :=
  ⟨takeWhile_append_of_stops hrun (stopsBefore_cons hmark rest),
    dropWhile_append_of_stops hrun (stopsBefore_cons hmark rest)⟩

theorem bracketIndex?_quoted (w : Word) (quote : Quote) (before behind : Blanks)
    (rest : List Char) :
    bracketIndex? (before.text ++
      quote.mark :: (w.text ++ quote.mark :: (behind.text ++ ']' :: rest))) =
        some (w.text, rest) := by
  have hmark : isIndexChar quote.mark = false := by
    cases quote <;> decide
  obtain ⟨htake, hdrop⟩ := index_run
    (fun c hc => isIndexChar_of_isWordChar (w.isWordChar c hc)) hmark (behind.text ++ ']' :: rest)
  have hquote : quote.mark = '\x22' ∨ quote.mark = '\x27' := quote.mark_cases
  rw [bracketIndex?, dropBlank_append before.isBlank quote.not_isBlank_mark]
  dsimp only
  rw [if_pos (by simpa using hquote), quotedIndex?, htake, hdrop]
  dsimp only
  rw [dropBlank_append behind.isBlank (by decide)]
  simp [w.ne_nil]

theorem bracketIndex?_plain (w : Word) (before behind : Blanks) (rest : List Char) :
    bracketIndex? (before.text ++ (w.text ++ (behind.text ++ ']' :: rest))) =
      some (w.text ++ behind.text, rest) := by
  obtain ⟨c, more, hw, hc, hmore⟩ := w.exists_cons
  have hrun : ∀ d ∈ more ++ behind.text, isIndexChar d = true := by
    intro d hd
    rcases List.mem_append.1 hd with hd | hd
    · exact isIndexChar_of_isWordChar (hmore d hd)
    · exact isIndexChar_of_isBlank (behind.isBlank d hd)
  obtain ⟨htake, hdrop⟩ := index_run hrun (by decide : isIndexChar ']' = false) rest
  rw [List.append_assoc] at htake hdrop
  rw [bracketIndex?, hw, List.cons_append, dropBlank_append before.isBlank
    (not_isBlank_of_isWordChar hc)]
  have hindex := isIndexChar_of_isWordChar hc
  simp only [isIndexChar, Bool.and_eq_true, decide_eq_true_eq] at hindex
  dsimp only
  rw [if_neg (by simp [hindex]), if_neg hindex.1.1, htake, hdrop]
  rfl

theorem passes_indices {s : List Char} (h : '[' ∉ s) (rest : List Char) :
    Passes indexSegment? s rest := by
  refine passes_of_forall fun c hc t => ?_
  have hne : c ≠ '[' := fun heq => h (heq ▸ hc)
  simp [indexSegment?, hne]

theorem Word.not_mem (w : Word) {c : Char} (hc : Text.isWordChar c = false) : c ∉ w.text := by
  intro h
  rw [w.isWordChar c h] at hc
  cases hc

theorem dotIndices_of_bracketIndex? {s name rest : List Char}
    (h : bracketIndex? s = some (name, rest)) :
    dotIndices ('[' :: s) = '.' :: (name ++ dotIndices rest) := by
  have hlen := length_bracketIndex? h
  have hread : indexSegment? ('[' :: s) = some ('.' :: name, rest) := by
    rw [indexSegment?, h]
    rfl
  exact replaceAll_of_read hread (by rw [List.length_cons]; omega)

/-- Every spelling reads as a point and its segment. -/
theorem dotIndices_spelled (w : Word) (spelling : Spelling) (rest : List Char) :
    dotIndices (spelling.text w ++ rest) = '.' :: (spelling.segment w ++ dotIndices rest) := by
  cases spelling with
  | dotted =>
    have hpoint : '[' ∉ '.' :: w.text := by simp [w.not_mem (c := '[') (by decide)]
    simpa [Spelling.text, Spelling.segment, Spelling.trailing, dotIndices] using
      replaceAll_append (passes_indices hpoint rest)
  | plain before behind =>
    simpa [Spelling.text, Spelling.segment, Spelling.trailing] using
      dotIndices_of_bracketIndex? (bracketIndex?_plain w before behind rest)
  | quoted quote before behind =>
    simpa [Spelling.text, Spelling.segment, Spelling.trailing] using
      dotIndices_of_bracketIndex? (bracketIndex?_quoted w quote before behind rest)

/-! ## Reading a path -/

/-- A root with its segments behind points. -/
def dottedText (root : Root) (segments : List (List Char)) : List Char :=
  root.name ++ segments.flatMap fun segment => '.' :: segment

theorem dotIndices_stepsText (steps : List (Word × Spelling)) :
    dotIndices (stepsText steps) = (segmentsOf steps).flatMap fun segment => '.' :: segment := by
  induction steps with
  | nil => exact dotIndices_eq_self (by simp [stepsText])
  | cons step steps ih =>
    rw [stepsText, List.flatMap_cons, dotIndices_spelled, ← stepsText, ih]
    rfl

theorem Root.isWordChar_name (root : Root) : ∀ c ∈ root.name, Text.isWordChar c = true := by
  cases root <;> exact forall_isWordChar (by decide)

theorem Root.not_mem_name (root : Root) : '[' ∉ root.name := by
  cases root <;> decide

theorem isTrimmed_singleton {c : Char} (h : Text.isBlank c = false) : IsTrimmed [c] where
  ne_nil := by simp
  head d hd := by
    cases hd
    exact h
  last d hd := by
    cases hd
    exact h

theorem Word.isTrimmed (w : Word) : IsTrimmed w.text where
  ne_nil := w.ne_nil
  head c hc := not_isBlank_of_isWordChar (w.isWordChar c (List.mem_of_mem_head? hc))
  last c hc := not_isBlank_of_isWordChar (w.isWordChar c (List.mem_of_getLast? hc))

theorem isTrimmed_spelled (w : Word) (spelling : Spelling) : IsTrimmed (spelling.text w) := by
  have hopen : IsTrimmed ['['] := isTrimmed_singleton (by decide)
  have hclose : IsTrimmed [']'] := isTrimmed_singleton (by decide)
  cases spelling with
  | dotted => exact (isTrimmed_singleton (by decide : Text.isBlank '.' = false)).append w.isTrimmed []
  | plain before behind =>
    simpa [Spelling.text] using hopen.append hclose (before.text ++ (w.text ++ behind.text))
  | quoted quote before behind =>
    simpa [Spelling.text] using hopen.append hclose
      (before.text ++ quote.mark :: (w.text ++ quote.mark :: behind.text))

theorem Root.isTrimmed_name (root : Root) : IsTrimmed root.name := by
  cases root
  · exact (isTrimmed_singleton (by decide : Text.isBlank 's' = false)).append
      (isTrimmed_singleton (by decide : Text.isBlank 'g' = false)) ['t']
  · exact (isTrimmed_singleton (by decide : Text.isBlank 'c' = false)).append
      (isTrimmed_singleton (by decide : Text.isBlank 'd' = false)) ['a', 'r']
  · exact isTrimmed_singleton (by decide)

theorem isTrimmed_pathText (root : Root) (steps : List (Word × Spelling)) :
    IsTrimmed (pathText root steps) := by
  rcases List.eq_nil_or_concat steps with rfl | ⟨front, ⟨w, spelling⟩, rfl⟩
  · simpa [pathText, stepsText] using root.isTrimmed_name
  · simpa [pathText, stepsText] using
      root.isTrimmed_name.append (isTrimmed_spelled w spelling) (stepsText front)

theorem prepared_pathText (root : Root) (steps : List (Word × Spelling)) :
    prepared (pathText root steps) = dottedText root (segmentsOf steps) := by
  have hhead : (pathText root steps).head? ≠ some '(' := by
    cases root <;> simp [pathText, Root.name]
  rw [prepared, (isTrimmed_pathText root steps).trim_eq, stripParens_of_head hhead, pathText,
    dotIndices, replaceAll_append (passes_indices root.not_mem_name _), ← dotIndices,
    dotIndices_stepsText, dottedText]

/-- White space in front of a point or at the end holds no front of a word between blanks. -/
theorem skips_blanks {blanks rest : List Char} (hblanks : ∀ c ∈ blanks, Text.isBlank c = true)
    (hrest : rest = [] ∨ rest.head? = some '.') {letter : Char}
    (hletter : Text.isBlank letter = false) (hpoint : letter ≠ '.') (more : List Char) :
    Skips (' ' :: letter :: more) blanks rest := by
  induction blanks with
  | nil => exact skips_nil _ rest
  | cons c blanks ih =>
    obtain ⟨hc, hblanks⟩ := List.forall_mem_cons.1 hblanks
    have hparen : c ≠ '(' ∧ c ≠ ')' :=
      ⟨ne_of_isBlank hc (by decide), ne_of_isBlank hc (by decide)⟩
    have hnext : (blanks ++ rest).head? ≠ some letter := by
      cases blanks with
      | nil =>
        rcases hrest with rfl | hrest
        · simp
        · rw [List.nil_append, hrest]
          simpa using hpoint.symm
      | cons d blanks =>
        rintro ⟨⟩
        rw [(List.forall_mem_cons.1 hblanks).1] at hletter
        cases hletter
    have hhead : Skips (' ' :: letter :: more) [c] (blanks ++ rest) := by
      refine skips_char hparen fun hprefix => hnext ?_
      obtain ⟨behind, hbehind⟩ := (List.cons_prefix_cons.1 hprefix).2
      rw [← hbehind]
      rfl
    exact hhead.append (ih hblanks)

theorem Spelling.isBlank_trailing (spelling : Spelling) :
    ∀ c ∈ spelling.trailing, Text.isBlank c = true := by
  cases spelling with
  | dotted => simp [trailing]
  | plain before behind => exact behind.isBlank
  | quoted quote before behind => simp [trailing]

theorem skips_segments {letter : Char} (hletter : Text.isBlank letter = false)
    (hpoint : letter ≠ '.') (more : List Char) (steps : List (Word × Spelling)) :
    Skips (' ' :: letter :: more) ((segmentsOf steps).flatMap fun segment => '.' :: segment)
      [] := by
  induction steps with
  | nil => exact skips_nil _ _
  | cons step steps ih =>
    obtain ⟨w, spelling⟩ := step
    have hword : Skips (' ' :: letter :: more) ('.' :: w.text) (spelling.trailing ++
        ((segmentsOf steps).flatMap fun segment => '.' :: segment) ++ []) := by
      refine skips_of_head (fun c hc => ?_) _
      rcases List.mem_cons.1 hc with rfl | hc
      · decide
      · have hc := w.isWordChar c hc
        exact ⟨⟨ne_of_isWordChar hc (by decide), ne_of_isWordChar hc (by decide)⟩,
          ne_of_isWordChar hc (by decide)⟩
    have hblanks : Skips (' ' :: letter :: more) spelling.trailing
        (((segmentsOf steps).flatMap fun segment => '.' :: segment) ++ []) := by
      refine skips_blanks spelling.isBlank_trailing ?_ hletter hpoint more
      cases steps with
      | nil => exact .inl rfl
      | cons step steps => exact .inr rfl
    simpa [segmentsOf, Spelling.segment] using hword.append (hblanks.append ih)

theorem splitDots_dotted {first : List Char} {segments : List (List Char)} (hfirst : '.' ∉ first)
    (hsegments : ∀ segment ∈ segments, '.' ∉ segment) :
    splitDots (first ++ segments.flatMap fun segment => '.' :: segment) = first :: segments := by
  induction segments generalizing first with
  | nil =>
    induction first with
    | nil => rfl
    | cons c first ih =>
      rw [List.mem_cons, not_or] at hfirst
      rw [List.cons_append, splitDots, if_neg fun h => hfirst.1 h.symm, ih hfirst.2]
      rfl
  | cons segment segments ih =>
    obtain ⟨hsegment, hsegments⟩ := List.forall_mem_cons.1 hsegments
    have hrest := ih hsegment hsegments
    induction first with
    | nil =>
      rw [List.nil_append, List.flatMap_cons, List.cons_append, splitDots, if_pos rfl, hrest]
    | cons c first ihFirst =>
      rw [List.mem_cons, not_or] at hfirst
      rw [List.cons_append, splitDots, if_neg fun h => hfirst.1 h.symm, ihFirst hfirst.2]
      rfl

theorem numeral?_eq_none {c : Char} (hc : c ∉ ['.', '+', '-', '\n'])
    (hdigit : isDecimalDigit c = false) (s : List Char) : numeral? (c :: s) = none := by
  simp only [List.mem_cons, List.not_mem_nil, or_false, not_or] at hc
  obtain ⟨t, ht⟩ : ∃ t, dropLineEnd (c :: s) = c :: t := by
    unfold dropLineEnd
    split
    · cases s with
      | nil => simp_all
      | cons d s => exact ⟨_, rfl⟩
    · exact ⟨s, rfl⟩
  have hhex : hexPart? (c :: t) = none := by
    unfold hexPart?
    split
    · next heq =>
      cases heq
      exact absurd hdigit (by decide)
    · rfl
  have hsign : splitSign (c :: t) = (false, c :: t) := by
    unfold splitSign
    split
    · simp_all
    · simp_all
    · rfl
  have hpart : decimalPart? true (c :: t) = none := by
    unfold decimalPart?
    rw [List.takeWhile_cons_of_neg (by simp [hdigit])]
    dsimp only
    split
    · simp_all
    · rfl
  rw [numeral?, ht, hhex, floatOfText?, hsign]
  dsimp only
  rw [hpart]
  rfl

/-- What stands in a path: the characters of its words, points and white space. -/
theorem mem_dottedText {root : Root} {steps : List (Word × Spelling)} {c : Char}
    (hc : c ∈ dottedText root (segmentsOf steps)) :
    Text.isWordChar c = true ∨ Text.isBlank c = true ∨ c = '.' := by
  rcases List.mem_append.1 hc with hc | hc
  · exact .inl (root.isWordChar_name c hc)
  · obtain ⟨segment, hsegment, hc⟩ := List.mem_flatMap.1 hc
    obtain ⟨⟨w, spelling⟩, -, rfl⟩ := List.mem_map.1 hsegment
    rcases List.mem_cons.1 hc with rfl | hc
    · exact .inr (.inr rfl)
    · rcases List.mem_append.1 hc with hc | hc
      · exact .inl (w.isWordChar c hc)
      · exact .inr (.inl (spelling.isBlank_trailing c hc))

section

variable (root : Root) (steps : List (Word × Spelling))

theorem not_mem_dottedText (mark : Char)
    (h : Text.isWordChar mark = false ∧ Text.isBlank mark = false ∧ mark ≠ '.') :
    mark ∉ dottedText root (segmentsOf steps) := by
  obtain ⟨hword, hblank, hpoint⟩ := h
  intro hmem
  rcases mem_dottedText hmem with h | h | h
  · simp [hword] at h
  · simp [hblank] at h
  · exact hpoint h

theorem splitArithmetic?_dottedText :
    splitArithmetic? (dottedText root (segmentsOf steps)) = none := by
  have hopen := not_mem_dottedText root steps '(' (by decide)
  have hclose := not_mem_dottedText root steps ')' (by decide)
  have hnone : ∀ mark, Text.isWordChar mark = false ∧ Text.isBlank mark = false ∧ mark ≠ '.' →
      splitTopLevel? [mark] (dottedText root (segmentsOf steps)) = none := by
    intro mark hmark
    have h := not_mem_dottedText root steps mark hmark
    exact splitTopLevel?_eq_none <| skips_of_head
      (fun c hc => ⟨⟨ne_of_mem_of_not_mem hc hopen, ne_of_mem_of_not_mem hc hclose⟩,
        ne_of_mem_of_not_mem hc h⟩) []
  simp [splitArithmetic?, spelling, hnone '*' (by decide), hnone '/' (by decide),
    hnone '+' (by decide), hnone '-' (by decide)]

/-- No word between blanks is found in a path, whatever white space its segments hold. -/
theorem splitTopLevel?_dottedText (letter : Char) (hletter : Text.isBlank letter = false)
    (hpoint : letter ≠ '.') (more : List Char) :
    splitTopLevel? (' ' :: letter :: more) (dottedText root (segmentsOf steps)) = none := by
  refine splitTopLevel?_eq_none (.append ?_ (skips_segments hletter hpoint more steps))
  refine skips_of_head (fun c hc => ?_) _
  have hc := root.isWordChar_name c hc
  exact ⟨⟨ne_of_isWordChar hc (by decide), ne_of_isWordChar hc (by decide)⟩,
    ne_of_isWordChar hc (by decide)⟩

theorem numeral?_dottedText : numeral? (dottedText root (segmentsOf steps)) = none := by
  cases root <;> exact numeral?_eq_none (by decide) (by decide) _

theorem pathOf_dottedText :
    pathOf (dottedText root (segmentsOf steps)) = .path root.name (segmentsOf steps) := by
  rw [pathOf, dottedText, splitDots_dotted]
  · exact fun h => ne_of_isWordChar (root.isWordChar_name _ h) (by decide) rfl
  · intro segment hsegment hpoint
    obtain ⟨⟨w, spelling⟩, -, rfl⟩ := List.mem_map.1 hsegment
    rcases List.mem_append.1 hpoint with h | h
    · exact ne_of_isWordChar (w.isWordChar _ h) (by decide) rfl
    · exact absurd (spelling.isBlank_trailing _ h) (by decide)

theorem parse_pathText :
    parse (pathText root steps) = .path root.name (segmentsOf steps) := by
  have hblank : (trim (pathText root steps)).isEmpty = false := by
    simp [(isTrimmed_pathText root steps).trim_eq, (isTrimmed_pathText root steps).ne_nil]
  have hor := splitTopLevel?_dottedText root steps 'o' (by decide) (by decide)
  have hand := splitTopLevel?_dottedText root steps 'a' (by decide) (by decide)
  rw [parse_eq, if_neg (by simp [hblank]), prepared_pathText, parsePrepared, orWord_eq, hor,
    andWord_eq, hand, splitArithmetic?_dottedText]
  dsimp only
  rw [numeral?_dottedText]
  exact pathOf_dottedText root steps

end

/-- However its segments are spelled, a path leads where its root and the segments lead. -/
theorem evaluate_pathText (root : Root) (steps : List (Word × Spelling)) (e : Entity)
    (context : Context) :
    evaluate (pathText root steps) e context =
      (Scope.of e context).resolve root.name (segmentsOf steps) := by
  rw [evaluate, parse_pathText]
  rfl

end ModAlmanac.Expr
