import ModAlmanac.Proofs.Expr.Faults
import ModAlmanac.Proofs.Expr.Occurrences

/-!
# Chains of `or` and `and`

Operands with `and` between them, and `or` between those, are read from the front: each search finds
the first word of its kind, which is a join of the chain and never part of an operand
(`Disjunct.parse_text`, `parse_chainText`). Of the operands that `and` joins only the last one
counts. So the value of a chain is the first of the values of these last operands that holds, or the
very last one (`evaluate_chain`), and evaluation gets to no other operand.

The choice that `and` makes together with an `or` behind it is never read from any text, since that
`or` has been found before (`hasChoice_parse`).
-/

namespace ModAlmanac.Expr

open Text

/-! ## Texts of chains -/

/-- An operand of a chain. With a blank on either side it holds neither word of a chain outside of
parentheses. -/
structure Link where
  text : List Char
  isTrimmed : IsTrimmed text
  balanced : Balanced '(' ')' text
  bracket_not_mem : '[' ∉ text
  or_not_outside : ¬ Outside orWord (' ' :: text ++ [' '])
  and_not_outside : ¬ Outside andWord (' ' :: text ++ [' '])

/-- Operands that are joined by `and`. -/
structure Disjunct where
  front : List Link
  last : Link

def Disjunct.text (d : Disjunct) : List Char :=
  andWord.intercalate ((d.front ++ [d.last]).map Link.text)

def chainText (chain : List Disjunct) : List Char :=
  orWord.intercalate (chain.map Disjunct.text)

/-- The first of some values that holds, or else the last one; no value behind it is asked for. -/
def firstHolding : List (Except EvalError Value) → Except EvalError Value
  | [] => .ok .nil
  | [value] => value
  | value :: rest => do
    let v ← value
    if v.holds then .ok v else firstHolding rest

theorem Disjunct.text_nil (last : Link) : text ⟨[], last⟩ = last.text := by
  simp [text]

theorem Disjunct.text_cons (link : Link) (front : List Link) (last : Link) :
    text ⟨link :: front, last⟩ = link.text ++ (andWord ++ text ⟨front, last⟩) := by
  rw [text, List.cons_append, List.map_cons, List.intercalate_cons_of_ne_nil (by simp),
    List.append_assoc]
  rfl

theorem chainText_single (d : Disjunct) : chainText [d] = d.text := by
  simp [chainText]

theorem chainText_cons (first next : Disjunct) (rest : List Disjunct) :
    chainText (first :: next :: rest) =
      first.text ++ (orWord ++ chainText (next :: rest)) := by
  rw [chainText, List.map_cons, List.intercalate_cons_of_ne_nil (by simp), List.append_assoc]
  rfl

/-! ## Reading a disjunct -/

theorem Link.skips_or (link : Link) {rest : List Char} (hrest : BlankHeaded rest) :
    Skips orWord link.text rest := by
  refine skips_spaced ['o', 'r'] (by simp) link.balanced.settled (fun h => ?_) hrest
  exact link.or_not_outside (h.within [' '] [] (by simp) rfl)

theorem Link.skips_and (link : Link) {rest : List Char} (hrest : BlankHeaded rest) :
    Skips andWord link.text rest := by
  refine skips_spaced ['a', 'n', 'd'] (by simp) link.balanced.settled (fun h => ?_)
    hrest
  exact link.and_not_outside (h.within [' '] [] (by simp) rfl)

/-- A disjunct begins with an operand, and a blank stands behind that if it goes on. -/
theorem Disjunct.exists_text_eq (d : Disjunct) :
    ∃ (link : Link) (more : List Char), d.text = link.text ++ more ∧ BlankHeaded more := by
  obtain ⟨front, last⟩ := d
  cases front with
  | nil => exact ⟨last, [], by rw [text_nil, List.append_nil], blankHeaded_nil⟩
  | cons link front => exact ⟨link, _, text_cons link front last, blankHeaded_cons _⟩

theorem Disjunct.isTrimmed_text (d : Disjunct) : IsTrimmed d.text := by
  obtain ⟨front, last⟩ := d
  induction front with
  | nil => rw [text_nil]; exact last.isTrimmed
  | cons link front ih => rw [text_cons]; exact link.isTrimmed.append ih andWord

theorem Disjunct.balanced_text (d : Disjunct) : Balanced '(' ')' d.text := by
  obtain ⟨front, last⟩ := d
  induction front with
  | nil => rw [text_nil]; exact last.balanced
  | cons link front ih =>
    have hand : Balanced '(' ')' andWord := balanced_of_forall_ne (by simp [andWord_eq])
    rw [text_cons]
    exact link.balanced.append (hand.append ih)

theorem Disjunct.not_mem_text (d : Disjunct) : '[' ∉ d.text := by
  obtain ⟨front, last⟩ := d
  induction front with
  | nil => rw [text_nil]; exact last.bracket_not_mem
  | cons link front ih => simpa [text_cons, andWord_eq, link.bracket_not_mem] using ih

/-- No `or` is found in a disjunct. -/
theorem Disjunct.skips_or (d : Disjunct) {rest : List Char} (hrest : BlankHeaded rest) :
    Skips orWord d.text rest := by
  obtain ⟨front, last⟩ := d
  induction front with
  | nil => rw [text_nil]; exact last.skips_or hrest
  | cons link front ih =>
    obtain ⟨next, more, hnext, hmore⟩ := exists_text_eq ⟨front, last⟩
    have hjoined : ¬ orWord <+: ' ' :: (text ⟨front, last⟩ ++ rest) := by
      rw [hnext, List.append_assoc]
      refine not_prefix_spaced ['o', 'r'] (by simp) next.or_not_outside ?_
      cases more with
      | nil => exact hrest
      | cons c more => exact hmore
    have hand : Skips orWord andWord (text ⟨front, last⟩ ++ rest) := by
      rw [orWord_eq] at hjoined ⊢
      exact skips_word 'a' ['n', 'd'] (by decide) (by simp) hjoined
    rw [text_cons]
    exact Skips.append (link.skips_or (blankHeaded_cons _)) (hand.append ih)

/-- A disjunct is read as its first operand and the rest of it. -/
theorem Disjunct.parse_text (link : Link) (front : List Link) (last : Link) :
    parse (text ⟨link :: front, last⟩) = .both (parse link.text) (parse (text ⟨front, last⟩)) := by
  have hor := splitTopLevel?_eq_none (skips_or ⟨link :: front, last⟩ blankHeaded_nil)
  rw [text_cons] at hor ⊢
  exact parse_both link.isTrimmed (isTrimmed_text _) link.balanced
    ⟨link.bracket_not_mem, not_mem_text _⟩ (link.skips_and (blankHeaded_cons _)) hor

/-! ## Reading a chain -/

theorem isTrimmed_chainText (first : Disjunct) (rest : List Disjunct) :
    IsTrimmed (chainText (first :: rest)) := by
  induction rest generalizing first with
  | nil => rw [chainText_single]; exact first.isTrimmed_text
  | cons next rest ih => rw [chainText_cons]; exact first.isTrimmed_text.append (ih next) orWord

theorem not_mem_chainText (first : Disjunct) (rest : List Disjunct) :
    '[' ∉ chainText (first :: rest) := by
  induction rest generalizing first with
  | nil => rw [chainText_single]; exact first.not_mem_text
  | cons next rest ih => simpa [chainText_cons, orWord_eq, first.not_mem_text] using ih next

/-- A chain is read as its first disjunct and the rest of it. -/
theorem parse_chainText (first next : Disjunct) (rest : List Disjunct) :
    parse (chainText (first :: next :: rest)) =
      .either (parse first.text) (parse (chainText (next :: rest))) := by
  rw [chainText_cons]
  exact parse_either first.isTrimmed_text (isTrimmed_chainText next rest) first.balanced_text
    ⟨first.not_mem_text, not_mem_chainText next rest⟩ (first.skips_or (blankHeaded_cons _))

/-! ## The value of a chain -/

section

variable {scope : Scope} {sub : Expr}

/-- Of the operands that `and` joins the last one counts. -/
theorem Disjunct.eval_text (d : Disjunct) (scope : Scope) :
    (parse d.text).eval scope = (parse d.last.text).eval scope := by
  obtain ⟨front, last⟩ := d
  induction front with
  | nil => rw [text_nil]
  | cons link front ih => rw [parse_text, Expr.eval, ih]

theorem eval_chainText (first : Disjunct) (rest : List Disjunct) (scope : Scope) :
    (parse (chainText (first :: rest))).eval scope =
      firstHolding ((first :: rest).map fun d => (parse d.last.text).eval scope) := by
  induction rest generalizing first with
  | nil =>
    rw [chainText_single, first.eval_text]
    rfl
  | cons next rest ih =>
    rw [parse_chainText, Expr.eval, ih, first.eval_text]
    rfl

/-! ## What evaluation gets to -/

/-- Whether an expression joins operands of a chain: it is read from two or more disjuncts at the
end of the chain, or from two or more operands at the end of a disjunct. -/
def Joins (chain : List Disjunct) (sub : Expr) : Prop :=
  (∃ tail, tail <:+ chain ∧ 2 ≤ tail.length ∧ sub = parse (chainText tail)) ∨
    ∃ d ∈ chain, ∃ front, front <:+ d.front ∧ front ≠ [] ∧
      sub = parse (Disjunct.text ⟨front, d.last⟩)

theorem Joins.cons {chain : List Disjunct} (h : Joins chain sub) (first : Disjunct) :
    Joins (first :: chain) sub := by
  rcases h with ⟨tail, htail, hjoin⟩ | ⟨d, hd, hfront⟩
  · exact .inl ⟨tail, htail.trans (List.suffix_cons first chain), hjoin⟩
  · exact .inr ⟨d, List.mem_cons_of_mem _ hd, hfront⟩

/-- Evaluation of a disjunct gets to its joins and, of the operands, to the last one alone. -/
theorem Disjunct.cases_of_reaches {d : Disjunct} (h : Reaches scope (parse d.text) sub) :
    (∃ front, front <:+ d.front ∧ front ≠ [] ∧ sub = parse (text ⟨front, d.last⟩)) ∨
      Reaches scope (parse d.last.text) sub := by
  obtain ⟨front, last⟩ := d
  induction front with
  | nil =>
    rw [text_nil] at h
    exact .inr h
  | cons link front ih =>
    obtain ⟨whole, hwhole⟩ : ∃ whole, whole = parse (text ⟨link :: front, last⟩) := ⟨_, rfl⟩
    rw [← hwhole] at h
    cases h with
    | self => exact .inl ⟨link :: front, List.suffix_refl _, List.cons_ne_nil _ _, hwhole⟩
    | last h =>
      rw [parse_text] at hwhole
      cases hwhole
      rcases ih h with ⟨tail, htail, hne, heq⟩ | h
      · exact .inl ⟨tail, htail.trans (List.suffix_cons link front), hne, heq⟩
      · exact .inr h
    | _ =>
      rw [parse_text] at hwhole
      cases hwhole

/-- Evaluation of a chain gets to its joins and to the last operand of each disjunct alone. -/
theorem joins_or_reaches_last {first : Disjunct} {rest : List Disjunct}
    (h : Reaches scope (parse (chainText (first :: rest))) sub) :
    Joins (first :: rest) sub ∨ ∃ d ∈ first :: rest, Reaches scope (parse d.last.text) sub := by
  have hdisjunct : ∀ {first : Disjunct} {rest : List Disjunct},
      Reaches scope (parse first.text) sub →
        Joins (first :: rest) sub ∨ ∃ d ∈ first :: rest, Reaches scope (parse d.last.text) sub := by
    intro first rest h
    rcases Disjunct.cases_of_reaches h with h | h
    · exact .inl (.inr ⟨first, List.mem_cons_self, h⟩)
    · exact .inr ⟨first, List.mem_cons_self, h⟩
  induction rest generalizing first with
  | nil =>
    rw [chainText_single] at h
    exact hdisjunct h
  | cons next rest ih =>
    obtain ⟨whole, hwhole⟩ : ∃ whole, whole = parse (chainText (first :: next :: rest)) := ⟨_, rfl⟩
    rw [← hwhole] at h
    cases h with
    | self => exact .inl (.inl ⟨_, List.suffix_refl _, by simp, hwhole⟩)
    | eitherLeft h =>
      rw [parse_chainText] at hwhole
      cases hwhole
      exact hdisjunct h
    | eitherRight _ _ h =>
      rw [parse_chainText] at hwhole
      cases hwhole
      rcases ih h with h | ⟨d, hd, h⟩
      · exact .inl (h.cons first)
      · exact .inr ⟨d, List.mem_cons_of_mem _ hd, h⟩
    | _ =>
      rw [parse_chainText] at hwhole
      cases hwhole

end

/-! ## Choices -/

/-- Whether there is a choice in an expression. -/
def hasChoice : Expr → Bool
  | .choice _ _ _ => true
  | .either left right => hasChoice left || hasChoice right
  | .both condition last => hasChoice condition || hasChoice last
  | .arith _ left right => hasChoice left || hasChoice right
  | _ => false

theorem hasChoice_pathOf (s : List Char) : hasChoice (pathOf s) = false := by
  unfold pathOf
  split <;> rfl

/-- No text is read as a choice: the `or` that a choice needs behind its `and` has been found in
front of that. -/
theorem hasChoice_parse (s : List Char) : hasChoice (parse s) = false := by
  fun_induction parse s with
  | case1 => rfl
  | case2 s hblank left right hor ihl ihr => simp [hasChoice, ihl, ihr]
  | case3 s hblank hor condition rest hand yes no hbranch =>
    rw [splitTopLevel?_behind hor hand] at hbranch
    cases hbranch
  | case4 s hblank hor condition rest hand hbranch ihc ihr => simp [hasChoice, ihc, ihr]
  | case5 s hblank hor hand operator left right harith ihl ihr => simp [hasChoice, ihl, ihr]
  | case6 => rfl
  | case7 => exact hasChoice_pathOf _

/-! ## Chains -/

/-- A chain of disjuncts has the first of the values of their last operands that holds, or the very
last one. Evaluation gets to no other operand, and no choice is ever read from a text. -/
theorem evaluate_chain :
    (∀ (first : Disjunct) (rest : List Disjunct) (e : Entity) (context : Context),
      evaluate (chainText (first :: rest)) e context =
          firstHolding ((first :: rest).map fun d => evaluate d.last.text e context) ∧
        ∀ sub, Reaches (Scope.of e context) (parse (chainText (first :: rest))) sub →
          Joins (first :: rest) sub ∨
            ∃ d ∈ first :: rest, Reaches (Scope.of e context) (parse d.last.text) sub) ∧
    ∀ s, hasChoice (parse s) = false :=
  ⟨fun first rest e context =>
    ⟨eval_chainText first rest (Scope.of e context), fun _ => joins_or_reaches_last⟩,
    hasChoice_parse⟩

/-- An operand of one character is too short to hold a word. -/
def Link.ofChar (c : Char) (h : isBlank c = false ∧ (c ≠ '(' ∧ c ≠ ')') ∧ c ≠ '[') : Link where
  text := [c]
  isTrimmed :=
    { ne_nil := List.cons_ne_nil c []
      head := fun _ hc => Option.some.inj hc ▸ h.1
      last := fun _ hc => Option.some.inj hc ▸ h.1 }
  balanced := balanced_of_forall_ne (by simpa using h.2.1)
  bracket_not_mem := by simpa using h.2.2.symm
  or_not_outside := by
    rintro ⟨front, behind, heq, -⟩
    have hlength := congrArg List.length heq
    simp [orWord_eq] at hlength
    omega
  and_not_outside := by
    rintro ⟨front, behind, heq, -⟩
    have hlength := congrArg List.length heq
    simp [andWord_eq] at hlength
    omega

/-- The disjuncts of `x and y or z and 7 or 1`. -/
def unheldFirst : Disjunct × List Disjunct :=
  (⟨[.ofChar 'x' (by decide)], .ofChar 'y' (by decide)⟩,
    [⟨[.ofChar 'z' (by decide)], .ofChar '7' (by decide)⟩, ⟨[], .ofChar '1' (by decide)⟩])

/-- There is no `y`, so that `7` is the first of the last operands that holds; evaluation begins
with a join. -/
theorem evaluate_unheldFirst :
    evaluate "x and y or z and 7 or 1".toList default .standard = .ok (.int 7) ∧
      Reaches (Scope.of default .standard) (parse "x and y or z and 7 or 1".toList)
          (parse "x and y or z and 7 or 1".toList) ∧
        (Joins (unheldFirst.1 :: unheldFirst.2) (parse "x and y or z and 7 or 1".toList) ∨
          ∃ d ∈ unheldFirst.1 :: unheldFirst.2, Reaches (Scope.of default .standard)
            (parse d.last.text) (parse "x and y or z and 7 or 1".toList)) ∧
          hasChoice (parse "x and y or z and 7 or 1".toList) = false := by
  obtain ⟨hchain, hchoice⟩ := evaluate_chain
  obtain ⟨heval, hreaches⟩ := hchain unheldFirst.1 unheldFirst.2 default .standard
  have htext : "x and y or z and 7 or 1".toList = chainText (unheldFirst.1 :: unheldFirst.2) := rfl
  have hy : evaluate ['y'] default .standard = .ok .nil :=
    evaluate_of_head (by decide) _ _
  have h7 : evaluate ['7'] default .standard = .ok (.int 7) :=
    evaluate_of_head (by decide) _ _
  refine ⟨?_, .self _, ?_, hchoice _⟩
  · rw [htext, heval]
    simp only [unheldFirst, Link.ofChar, List.map_cons, hy, h7]
    rfl
  · rw [htext]
    exact hreaches _ (.self _)

end ModAlmanac.Expr
