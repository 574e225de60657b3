import ModAlmanac.Proofs.Expr.Reading
import ModAlmanac.Proofs.Text.Blank
import ModAlmanac.Proofs.Text.Skipping

/-!
# Where operators stand

A search finds an operator that stands outside of parentheses (`Outside`) and gives nothing if there
is none (`splitTopLevel?_eq_none_iff`). What a text does not hold is skipped in it; for a word
between blanks the blank behind the text counts as well (`skips_spaced`).

Two texts and an operator between them are read as what the operator joins, if it is found between
them and nothing that is looked for earlier is found at all (`parse_either`, `parse_both`,
`parse_arith`). Behind an `and` there is no `or` left (`splitTopLevel?_behind`).
-/

namespace ModAlmanac.Expr

open Text

variable {operator rest : List Char}

/-! ## Occurrences -/

/-- An operator stands in a text outside of parentheses: in front of it as many are closed as are
opened. -/
def Outside (operator s : List Char) : Prop :=
  ∃ front behind, s = front ++ (operator ++ behind) ∧ front.count '(' = front.count ')'

theorem Outside.within {s t : List Char} (h : Outside operator t) (front behind : List Char)
    (hs : s = front ++ (t ++ behind)) (hfront : front.count '(' = front.count ')') :
    Outside operator s := by
  obtain ⟨before, after, rfl, hbefore⟩ := h
  refine ⟨front ++ before, after ++ behind, by simp [hs], ?_⟩
  rw [List.count_append, List.count_append, hfront, hbefore]

theorem splitFrom?_self {first : Char} {more : List Char} (hfirst : first ≠ '(' ∧ first ≠ ')')
    (behind : List Char) :
    splitFrom? (first :: more) 0 (first :: more ++ behind) = some ([], behind) := by
  have hprefix : (first :: more).isPrefixOf? (first :: (more ++ behind)) = some behind :=
    isPrefixOf?_append (first :: more) behind
  rw [List.cons_append, splitFrom?, if_neg hfirst.1, if_neg hfirst.2, if_pos rfl, hprefix]

/-- What is found in the rest of a text is found in the whole of it, or something in front of it. -/
theorem isSome_splitFrom?_append {front : List Char} {depth : Int}
    (h : (splitFrom? operator (depth + front.count '(' - front.count ')') rest).isSome) :
    (splitFrom? operator depth (front ++ rest)).isSome := by
  induction front generalizing depth with
  | nil => simpa using h
  | cons c front ih =>
    rw [List.cons_append, splitFrom?_cons]
    split
    · rfl
    · rw [Option.isSome_map]
      refine ih ?_
      rw [count_cons_eq '(' c front, count_cons_eq ')' c front] at h
      convert h using 3
      push_cast
      omega

/-- A search gives nothing exactly if the operator stands nowhere outside of parentheses. -/
theorem splitTopLevel?_eq_none_iff {first : Char} {more s : List Char}
    (hfirst : first ≠ '(' ∧ first ≠ ')') :
    splitTopLevel? (first :: more) s = none ↔ ¬ Outside (first :: more) s := by
  rw [splitTopLevel?, Option.map_eq_none_iff]
  constructor
  · rintro hnone ⟨front, behind, rfl, hcount⟩
    have hfound : (splitFrom? (first :: more) (0 + front.count '(' - front.count ')')
        (first :: more ++ behind)).isSome := by
      rw [show (0 : Int) + front.count '(' - front.count ')' = 0 by omega,
        splitFrom?_self hfirst]
      rfl
    have hsome := isSome_splitFrom?_append hfound
    rw [hnone] at hsome
    cases hsome
  · intro h
    have hskips : splitFrom? (first :: more) 0 (s ++ []) = _ :=
      splitFrom?_append fun front behind hs _ hcount hprefix => by
        rw [List.append_nil] at hprefix
        obtain ⟨after, rfl⟩ := hprefix
        exact h ⟨front, after, hs, by omega⟩
    rw [List.append_nil] at hskips
    rw [hskips]
    rfl

/-- The sides of an operator are what stands in front of it and behind it, outside of
parentheses. -/
theorem eq_of_splitFrom? {s front behind : List Char} {depth : Int}
    (h : splitFrom? operator depth s = some (front, behind)) :
    s = front ++ (operator ++ behind) ∧ depth + front.count '(' = front.count ')' := by
  induction s generalizing depth front with
  | nil => cases h
  | cons c s ih =>
    rw [splitFrom?_cons] at h
    split at h
    · next found =>
      cases h
      split at found
      · next hdepth =>
        exact ⟨by rw [eq_append_of_isPrefixOf? found, List.nil_append], by simp [hdepth.1]⟩
      · cases found
    · obtain ⟨⟨l, r⟩, hs, heq⟩ := Option.map_eq_some_iff.1 h
      cases heq
      obtain ⟨rfl, hcount⟩ := ih hs
      refine ⟨rfl, ?_⟩
      rw [count_cons_eq '(' c l, count_cons_eq ')' c l]
      push_cast
      omega

theorem balanced_blanks {s : List Char} (h : ∀ c ∈ s, isBlank c = true) : Balanced '(' ')' s :=
  balanced_of_forall_ne fun c hc =>
    ⟨ne_of_isBlank (h c hc) (by decide), ne_of_isBlank (h c hc) (by decide)⟩

/-! ## Skipping what does not occur -/

theorem skips_of_settled {part : List Char} (hcount : part.count '(' = part.count ')')
    (h : ∀ front behind, part = front ++ behind → behind ≠ [] →
      front.count '(' = front.count ')' → ¬ operator <+: behind ++ rest) :
    Skips operator part rest := by
  have happend : splitFrom? operator 0 (part ++ rest) = _ :=
    splitFrom?_append fun front behind hs hne hdepth => h front behind hs hne (by omega)
  rw [Skips, happend, hcount]
  simp

/-- A mark is skipped in a text that does not hold it outside of parentheses. -/
theorem skips_mark {mark : Char} {part : List Char} (hcount : part.count '(' = part.count ')')
    (h : ¬ Outside [mark] part) (rest : List Char) : Skips [mark] part rest := by
  refine skips_of_settled hcount fun front behind hs hne hfront hprefix => ?_
  obtain ⟨c, behind, rfl⟩ := List.exists_cons_of_ne_nil hne
  rw [List.cons_append, List.cons_prefix_cons] at hprefix
  exact h ⟨front, behind, by rw [hs, hprefix.1]; rfl, hfront⟩

/-- A word between blanks. -/
def spaced (letters : List Char) : List Char :=
  ' ' :: letters ++ [' ']

/-- Whether a text is empty or begins with a blank. -/
def BlankHeaded (s : List Char) : Prop :=
  ∀ c, s.head? = some c → c = ' '

theorem blankHeaded_nil : BlankHeaded [] :=
  fun _ hc => by cases hc

theorem blankHeaded_cons (s : List Char) : BlankHeaded (' ' :: s) :=
  fun _ hc => (Option.some.inj hc).symm

section

variable {part : List Char} (letters : List Char) (hletters : ' ' ∉ letters)

include hletters

/-- A word between blanks that begins in a text ends at the latest with the blank behind it. -/
theorem prefix_padded (hne : part ≠ []) (hrest : BlankHeaded rest)
    (h : spaced letters <+: part ++ rest) : spaced letters <+: part ++ [' '] := by
  cases rest with
  | nil =>
    rw [List.append_nil] at h
    exact h.trans (List.prefix_append part [' '])
  | cons c rest =>
    obtain rfl := hrest c rfl
    have hpadded : part ++ [' '] <+: part ++ ' ' :: rest := by simp
    rcases List.prefix_or_prefix_of_prefix h hpadded with h | h
    · exact h
    · rcases List.prefix_concat_iff.1 h with h | h
      · exact h ▸ List.prefix_rfl
      · -- the blank behind the text would be a letter of the word
        obtain ⟨d, part, rfl⟩ := List.exists_cons_of_ne_nil hne
        have hmem : part ++ [' '] <+: letters := (List.cons_prefix_cons.1 h).2
        exact absurd (hmem.subset (by simp)) hletters

/-- A word between blanks is skipped in a text that, with a blank behind it, does not hold it. -/
theorem skips_spaced (hcount : part.count '(' = part.count ')')
    (h : ¬ Outside (spaced letters) (part ++ [' '])) (hrest : BlankHeaded rest) :
    Skips (spaced letters) part rest := by
  refine skips_of_settled hcount fun front behind hs hne hfront hprefix => ?_
  obtain ⟨after, hafter⟩ := prefix_padded letters hletters hne hrest hprefix
  exact h ⟨front, after, by rw [hs, List.append_assoc, hafter], hfront⟩

/-- A word between blanks does not begin with the blank in front of a text that, with a blank on
either side, does not hold it. -/
theorem not_prefix_spaced (h : ¬ Outside (spaced letters) (' ' :: part ++ [' ']))
    (hrest : BlankHeaded rest) : ¬ spaced letters <+: ' ' :: (part ++ rest) := by
  intro hprefix
  obtain ⟨after, hafter⟩ :=
    prefix_padded letters hletters (List.cons_ne_nil ' ' part) hrest hprefix
  exact h ⟨[], after, hafter.symm, rfl⟩

end

/-! ## Preparing a text -/

/-- Trimming leaves a trimmed text or nothing. -/
theorem isTrimmed_trim {s : List Char} (h : trim s ≠ []) : IsTrimmed (trim s) where
  ne_nil := h
  head c hc := by
    obtain ⟨t, ht⟩ := List.head?_eq_some_iff.1 hc
    cases hblank : isBlank c with
    | false => rfl
    | true =>
      have htrim : trim ([c] ++ t) = trim t := trim_blanks_append (by simpa) t
      have hlength := length_trim_le t
      rw [← htrim, List.singleton_append, ← ht, trim_trim, ht, List.length_cons] at hlength
      omega
  last c hc := by
    obtain ⟨t, ht⟩ := List.getLast?_eq_some_iff.1 hc
    cases hblank : isBlank c with
    | false => rfl
    | true =>
      have htrim : trim (t ++ [c]) = trim t := trim_append_blanks (by simpa) t
      have hlength := length_trim_le t
      rw [← htrim, ← ht, trim_trim, ht, List.length_append, List.length_singleton] at hlength
      omega

/-- White space around a text does not count. -/
theorem parse_trim (s : List Char) : parse (trim s) = parse s := by
  rw [parse_eq, parse_eq s, prepared, prepared, trim_trim]

theorem stripParens_append {s rest : List Char} (hs : Balanced '(' ')' s) (hne : s ≠ [])
    (hrest : rest ≠ []) : stripParens (s ++ rest) = s ++ rest := by
  obtain ⟨c, s, rfl⟩ := List.exists_cons_of_ne_nil hne
  by_cases hc : c = '('
  · subst hc
    obtain ⟨inner, after, rfl, hinner⟩ := hs.exists_closed (by decide)
    have hopen : stripParens ('(' :: inner ++ [')'] ++ (after ++ rest)) = _ :=
      stripParens_open hinner (by simp [hrest])
    simpa using hopen
  · exact stripParens_of_head (by simpa using hc)

theorem dotIndices_eq_self {s : List Char} (h : '[' ∉ s) : dotIndices s = s := by
  refine replaceAll_eq_self (passes_of_forall fun c hc t => ?_)
  have hne : c ≠ '[' := fun heq => h (heq ▸ hc)
  simp [indexSegment?, hne]

/-- A trimmed text that neither begins with a parenthesis nor holds an index is searched as it
is. -/
theorem evaluate_of_head {s : List Char}
    (h : (trim s = s ∧ s ≠ []) ∧ s.head? ≠ some '(' ∧ '[' ∉ s) (e : Entity) (context : Context) :
    evaluate s e context = (parsePrepared s).eval (Scope.of e context) := by
  obtain ⟨⟨htrim, hne⟩, hhead, hindex⟩ := h
  rw [evaluate, parse_eq, prepared, htrim, stripParens_of_head hhead, dotIndices_eq_self hindex,
    if_neg (by simp [hne])]

/-- A trimmed text without an index that goes on behind a balanced one is searched as it is. -/
theorem parse_append {s rest : List Char} (htrimmed : IsTrimmed (s ++ rest))
    (hs : Balanced '(' ')' s) (hne : s ≠ []) (hrest : rest ≠ []) (hindex : '[' ∉ s ++ rest) :
    parse (s ++ rest) = parsePrepared (s ++ rest) := by
  rw [parse_eq, prepared, htrimmed.trim_eq, stripParens_append hs hne hrest,
    dotIndices_eq_self hindex, if_neg]
  simp [hne]

theorem exists_spelling_eq (operator : Operator) :
    ∃ mark, spelling operator = [mark] ∧ (mark ≠ '(' ∧ mark ≠ ')') ∧ mark ≠ '[' := by
  cases operator <;> exact ⟨_, rfl, by decide⟩

/-! ## Joined texts -/

section

variable {left right s : List Char}

theorem splitTopLevel?_joined {first : Char} {more : List Char}
    (hfirst : first ≠ '(' ∧ first ≠ ')')
    (hskips : Skips (first :: more) left (first :: more ++ right)) :
    splitTopLevel? (first :: more) (left ++ (first :: more ++ right)) =
      some (trim left, trim right) := by
  rw [Skips, splitFrom?_self hfirst] at hskips
  rw [splitTopLevel?_of_splitFrom? hskips, List.append_nil]

/-- Behind an `and` no `or` is found that was not found before. -/
theorem splitTopLevel?_behind {condition last : List Char} (hor : splitTopLevel? orWord s = none)
    (hand : splitTopLevel? andWord s = some (condition, last)) :
    splitTopLevel? orWord last = none := by
  obtain ⟨⟨front, behind⟩, hsplit, heq⟩ := Option.map_eq_some_iff.1 hand
  cases heq
  obtain ⟨rfl, hfront⟩ := eq_of_splitFrom? hsplit
  obtain ⟨blanks, more, hbehind, hblanks, -⟩ := exists_blanks_trim behind
  rw [orWord_eq, splitTopLevel?_eq_none_iff (by decide)] at hor ⊢
  refine fun hlast => hor (hlast.within (front ++ andWord ++ blanks) more ?_ ?_)
  · rw [List.append_assoc, List.append_assoc, ← hbehind]
  · have hsettled := (balanced_blanks hblanks).settled
    simp only [List.count_append, hsettled, andWord_eq]
    simp
    omega

theorem parse_either (hleft : IsTrimmed left) (hright : IsTrimmed right)
    (hbalanced : Balanced '(' ')' left) (hindex : '[' ∉ left ∧ '[' ∉ right)
    (hskips : Skips orWord left (orWord ++ right)) :
    parse (left ++ (orWord ++ right)) = .either (parse left) (parse right) := by
  have hfound : splitTopLevel? orWord (left ++ (orWord ++ right)) = some (left, right) := by
    rw [orWord_eq] at hskips ⊢
    rw [splitTopLevel?_joined (by decide) hskips, hleft.trim_eq, hright.trim_eq]
  rw [parse_append (hleft.append hright orWord) hbalanced hleft.ne_nil (by simp [orWord_eq])
    (by simp [hindex, orWord_eq]), parsePrepared, hfound]

theorem parse_both (hleft : IsTrimmed left) (hright : IsTrimmed right)
    (hbalanced : Balanced '(' ')' left) (hindex : '[' ∉ left ∧ '[' ∉ right)
    (hskips : Skips andWord left (andWord ++ right))
    (hor : splitTopLevel? orWord (left ++ (andWord ++ right)) = none) :
    parse (left ++ (andWord ++ right)) = .both (parse left) (parse right) := by
  have hfound : splitTopLevel? andWord (left ++ (andWord ++ right)) = some (left, right) := by
    rw [andWord_eq] at hskips ⊢
    rw [splitTopLevel?_joined (by decide) hskips, hleft.trim_eq, hright.trim_eq]
  rw [parse_append (hleft.append hright andWord) hbalanced hleft.ne_nil (by simp [andWord_eq])
    (by simp [hindex, andWord_eq]), parsePrepared, hor]
  simp only [hfound, splitTopLevel?_behind hor hfound]

/-- The white space at the two ends of two texts does not count, that between them is left. -/
theorem exists_trimmed_ends (hleft : trim left ≠ []) (hright : trim right ≠ []) :
    ∃ front l r behind, left = front ++ l ∧ right = r ++ behind ∧
      ((∀ c ∈ front, isBlank c = true) ∧ ∀ c ∈ behind, isBlank c = true) ∧
        (trim l = trim left ∧ trim r = trim right) ∧
          ∀ middle, IsTrimmed (l ++ (middle ++ r)) := by
  obtain ⟨front, gap, hfront, hblank, hgap⟩ := exists_blanks_trim left
  obtain ⟨gap', behind, hbehind, hgap', hblank'⟩ := exists_blanks_trim right
  have hl : trim (trim left ++ gap) = trim left := by rw [trim_append_blanks hgap, trim_trim]
  have hr : trim (gap' ++ trim right) = trim right := by rw [trim_blanks_append hgap', trim_trim]
  refine ⟨front, trim left ++ gap, gap' ++ trim right, behind, hfront, by simpa using hbehind,
    ⟨hblank, hblank'⟩, ⟨hl, hr⟩, fun middle => ?_⟩
  simpa using (isTrimmed_trim hleft).append (isTrimmed_trim hright) (gap ++ (middle ++ gap'))

/-- What is looked for in a text before an arithmetic operator is. -/
def soughtBefore (operator : Operator) : List (List Char) :=
  [orWord, andWord] ++ (earlier operator).map spelling

theorem parse_arith_of_isTrimmed {operator : Operator}
    (htrimmed : IsTrimmed (left ++ (spelling operator ++ right))) (hne : left ≠ [])
    (hbalanced : Balanced '(' ')' left) (hindex : '[' ∉ left ∧ '[' ∉ right)
    (hmark : ¬ Outside (spelling operator) left)
    (hsought : ∀ word ∈ soughtBefore operator,
      ¬ Outside word (left ++ (spelling operator ++ right))) :
    parse (left ++ (spelling operator ++ right)) = .arith operator (parse left) (parse right) := by
  obtain ⟨mark, hspelling, hparen, hbracket⟩ := exists_spelling_eq operator
  have hor : splitTopLevel? orWord (left ++ (spelling operator ++ right)) = none :=
    (splitTopLevel?_eq_none_iff (by decide)).2 (hsought orWord (by simp [soughtBefore]))
  have hand : splitTopLevel? andWord (left ++ (spelling operator ++ right)) = none :=
    (splitTopLevel?_eq_none_iff (by decide)).2 (hsought andWord (by simp [soughtBefore]))
  have hfound : splitTopLevel? (spelling operator) (left ++ (spelling operator ++ right)) =
      some (trim left, trim right) := by
    rw [hspelling] at hmark ⊢
    exact splitTopLevel?_joined hparen (skips_mark hbalanced.settled hmark _)
  have harith := splitArithmetic?_of_connective hfound fun other hother => by
    obtain ⟨mark', hspelling', hparen', -⟩ := exists_spelling_eq other
    have hnone := hsought (spelling other)
      (List.mem_append_right _ (List.mem_map_of_mem hother))
    rw [hspelling'] at hnone ⊢
    exact (splitTopLevel?_eq_none_iff hparen').2 hnone
  rw [parse_append htrimmed hbalanced hne (by simp [hspelling])
    (by simpa [hspelling, hindex] using hbracket.symm), parsePrepared]
  simp only [hor, hand, harith, parse_trim]

/-- An operator between two texts that are not blank is found if none stands in the first of them
and nothing that is looked for earlier stands anywhere. -/
theorem parse_arith {operator : Operator} (hleft : trim left ≠ []) (hright : trim right ≠ [])
    (hbalanced : Balanced '(' ')' left) (hindex : '[' ∉ left ∧ '[' ∉ right)
    (hmark : ¬ Outside (spelling operator) left)
    (hsought : ∀ word ∈ soughtBefore operator,
      ¬ Outside word (left ++ (spelling operator ++ right))) :
    parse (left ++ (spelling operator ++ right)) = .arith operator (parse left) (parse right) := by
  obtain ⟨front, l, r, behind, rfl, rfl, ⟨hfront, hbehind⟩, ⟨hl, hr⟩, htrimmed⟩ :=
    exists_trimmed_ends hleft hright
  have htext : front ++ l ++ (spelling operator ++ (r ++ behind)) =
      front ++ ((l ++ (spelling operator ++ r)) ++ behind) := by simp
  have hplain : ∀ c ∈ front, c ≠ '(' ∧ c ≠ ')' := fun c hc =>
    ⟨ne_of_isBlank (hfront c hc) (by decide), ne_of_isBlank (hfront c hc) (by decide)⟩
  have hsettled := (balanced_blanks hfront).settled
  have hinner : parse (l ++ (spelling operator ++ r)) = _ :=
    parse_arith_of_isTrimmed (htrimmed _) (fun hnil => hleft (by rw [← hl, hnil]; rfl))
      ((balanced_append_iff hplain).1 hbalanced)
      ⟨fun h => hindex.1 (List.mem_append_right _ h), fun h => hindex.2 (List.mem_append_left _ h)⟩
      (fun hout => hmark (hout.within front [] (by rw [List.append_nil]) hsettled))
      (fun word hword hout => hsought word hword (hout.within front behind htext hsettled))
  rw [htext, ← parse_trim, trim_blanks hfront hbehind, (htrimmed _).trim_eq, hinner,
    ← parse_trim l, hl, ← parse_trim r, hr, parse_trim, parse_trim]

end

end ModAlmanac.Expr
