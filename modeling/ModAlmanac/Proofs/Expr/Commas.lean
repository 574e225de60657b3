import ModAlmanac.Proofs.Expr.Occurrences

/-!
# Commas

A text is cut at its commas outside of parentheses. The first of them is the one that a search for a
comma finds, and the rest is cut in the same way (`splitCommasFrom_eq`); so the parts are those that
give back the text when they are joined and hold no such comma themselves (`splitCommas_eq_iff`).

A call is read from the first parenthesis of a text to the one that closes it, and its arguments
stand between the commas there (`callArguments?_eq_some_iff`).

So splitting and joining undo each other: any text is its parts joined, and parts that settle their
parentheses and hold no comma outside of them are what their join is split into, also behind the
parenthesis of a call (`splitCommas_joined`).
-/

namespace ModAlmanac.Expr

open Text

variable {s : List Char}

/-! ## The first comma -/

/-- The parts of a text that a search for a comma leaves. -/
def partsOf (s : List Char) : Option (List Char × List Char) → List (List Char)
  | none => [s]
  | some (left, right) => left :: splitCommas right

theorem consFirst_partsOf (c : Char) (s : List Char) (found : Option (List Char × List Char)) :
    consFirst c (partsOf s found) =
      partsOf (c :: s) (found.map fun (left, right) => (c :: left, right)) := by
  cases found <;> rfl

/-- The first cut is at the comma that a search finds; behind it no parenthesis counts as open. -/
theorem splitCommasFrom_eq (depth : Int) (s : List Char) :
    splitCommasFrom depth s = partsOf s (splitFrom? [','] depth s) := by
  induction s generalizing depth with
  | nil => rfl
  | cons c s ih =>
    rw [splitCommasFrom, splitFrom?]
    split
    · rw [ih, consFirst_partsOf]
    · split
      · rw [ih, consFirst_partsOf]
      · split
        · next hcomma =>
          obtain ⟨rfl, rfl⟩ : c = ',' ∧ depth = 0 := by simpa using hcomma
          rfl
        · next hcomma =>
          have hnone : (if depth = 0 then [','].isPrefixOf? (c :: s) else none) = none := by
            split
            · next hdepth =>
              refine isPrefixOf?_eq_none_iff.2 fun hprefix => hcomma ?_
              simp [hdepth, (List.cons_prefix_cons.1 hprefix).1.symm]
            · rfl
          rw [hnone, ih, consFirst_partsOf]

theorem splitCommas_of_not_outside (h : ¬ Outside [','] s) : splitCommas s = [s] := by
  have hnone := (splitTopLevel?_eq_none_iff (by decide)).2 h
  rw [splitCommas, splitCommasFrom_eq, Option.map_eq_none_iff.1 hnone]
  rfl

theorem splitCommas_cons {part : List Char} (hsettled : part.count '(' = part.count ')')
    (h : ¬ Outside [','] part) (rest : List Char) :
    splitCommas (part ++ ',' :: rest) = part :: splitCommas rest := by
  have hskips := skips_mark hsettled h (',' :: rest)
  have hself : splitFrom? [','] 0 (',' :: rest) = some ([], rest) :=
    splitFrom?_self (by decide) rest
  rw [Skips, hself] at hskips
  rw [splitCommas, splitCommasFrom_eq, hskips, Option.map_some, partsOf, List.append_nil]

/-! ## Parts -/

/-- The parts of a text between commas: joined they are the text, no part holds a comma outside of
its own parentheses, and only the last one may leave some open. -/
structure CommaParts (s : List Char) (parts : List (List Char)) : Prop where
  ne_nil : parts ≠ []
  joined : s = [','].intercalate parts
  comma_not_outside : ∀ part ∈ parts, ¬ Outside [','] part
  settled : ∀ part ∈ parts.dropLast, part.count '(' = part.count ')'

theorem intercalate_cons {part : List Char} {parts : List (List Char)} (h : parts ≠ []) :
    [','].intercalate (part :: parts) = part ++ ',' :: [','].intercalate parts := by
  rw [List.intercalate_cons_of_ne_nil h, List.append_assoc, List.singleton_append]

theorem mem_of_mem_intercalate {c : Char} (hc : c ≠ ',') {parts : List (List Char)}
    (h : c ∈ [','].intercalate parts) : ∃ part ∈ parts, c ∈ part := by
  induction parts with
  | nil => cases h
  | cons part parts ih =>
    by_cases hne : parts = []
    · subst hne
      rw [List.intercalate_singleton] at h
      exact ⟨part, List.mem_cons_self, h⟩
    · rw [intercalate_cons hne, List.mem_append, List.mem_cons] at h
      rcases h with h | rfl | h
      · exact ⟨part, List.mem_cons_self, h⟩
      · exact absurd rfl hc
      · obtain ⟨found, hfound, h⟩ := ih h
        exact ⟨found, List.mem_cons_of_mem part hfound, h⟩

theorem commaParts_single (h : ¬ Outside [','] s) : CommaParts s [s] where
  ne_nil := List.cons_ne_nil s []
  joined := List.intercalate_singleton.symm
  comma_not_outside := by simpa using h
  settled := by simp

theorem CommaParts.cons {part : List Char} {parts : List (List Char)} (h : CommaParts s parts)
    (hsettled : part.count '(' = part.count ')') (hpart : ¬ Outside [','] part) :
    CommaParts (part ++ ',' :: s) (part :: parts) where
  ne_nil := List.cons_ne_nil part parts
  joined := by rw [intercalate_cons h.ne_nil, ← h.joined]
  comma_not_outside := List.forall_mem_cons.2 ⟨hpart, h.comma_not_outside⟩
  settled := by
    rw [List.dropLast_cons_of_ne_nil h.ne_nil]
    exact List.forall_mem_cons.2 ⟨hsettled, h.settled⟩

theorem CommaParts.splitCommas_eq {parts : List (List Char)} (h : CommaParts s parts) :
    splitCommas s = parts := by
  obtain ⟨hne, rfl, hcomma, hsettled⟩ := h
  induction parts with
  | nil => exact absurd rfl hne
  | cons part parts ih =>
    obtain ⟨hpart, hcomma⟩ := List.forall_mem_cons.1 hcomma
    cases parts with
    | nil =>
      rw [List.intercalate_singleton]
      exact splitCommas_of_not_outside hpart
    | cons next parts =>
      have hnext : next :: parts ≠ [] := List.cons_ne_nil next parts
      rw [List.dropLast_cons_of_ne_nil hnext] at hsettled
      obtain ⟨hfirst, hsettled⟩ := List.forall_mem_cons.1 hsettled
      rw [intercalate_cons hnext, splitCommas_cons hfirst hpart, ih hnext hcomma hsettled]

/-- A mark that stands outside of parentheses somewhere does so in one place first. -/
theorem Outside.exists_first {mark : Char} (h : Outside [mark] s) :
    ∃ front behind, s = front ++ mark :: behind ∧ front.count '(' = front.count ')' ∧
      ¬ Outside [mark] front := by
  induction hn : s.length using Nat.strong_induction_on generalizing s with
  | _ n ih =>
    obtain ⟨front, behind, rfl, hfront⟩ := h
    by_cases hmark : Outside [mark] front
    · have hlt : front.length < n := by
        rw [← hn, List.length_append, List.length_append, List.length_singleton]
        omega
      obtain ⟨first, more, rfl, hfirst, hnone⟩ := ih front.length hlt hmark rfl
      exact ⟨first, more ++ mark :: behind, by simp, hfirst, hnone⟩
    · exact ⟨front, behind, rfl, hfront, hmark⟩

theorem commaParts_splitCommas (s : List Char) : CommaParts s (splitCommas s) := by
  induction hn : s.length using Nat.strong_induction_on generalizing s with
  | _ n ih =>
    by_cases hcomma : Outside [','] s
    · obtain ⟨part, rest, rfl, hsettled, hpart⟩ := hcomma.exists_first
      have hlt : rest.length < n := by
        rw [← hn, List.length_append, List.length_cons]
        omega
      rw [splitCommas_cons hsettled hpart]
      exact (ih rest.length hlt rest rfl).cons hsettled hpart
    · rw [splitCommas_of_not_outside hcomma]
      exact commaParts_single hcomma

theorem splitCommas_eq_iff {parts : List (List Char)} :
    splitCommas s = parts ↔ CommaParts s parts :=
  ⟨fun h => h ▸ commaParts_splitCommas s, CommaParts.splitCommas_eq⟩

/-! ## Calls -/

/-- The arguments of the first call in a text, which reaches from the first parenthesis to the one
that closes it. -/
def HasArguments (s : List Char) (arguments : List (List Char)) : Prop :=
  ∃ callee inner behind parts, s = callee ++ '(' :: (inner ++ ')' :: behind) ∧ '(' ∉ callee ∧
    Balanced '(' ')' inner ∧ CommaParts inner parts ∧ arguments = parts.map trim

theorem callArguments?_append {callee : List Char} (h : '(' ∉ callee) (rest : List Char) :
    callArguments? (callee ++ '(' :: rest) =
      (closeNested '(' ')' 0 rest).map fun (inner, _) => (splitCommas inner).map trim := by
  have hdrop : (callee ++ '(' :: rest).dropWhile (· ≠ '(') = '(' :: rest := by
    rw [List.dropWhile_append_of_pos fun c hc => by simpa using ne_of_mem_of_not_mem hc h]
    rfl
  rw [callArguments?, hdrop]

theorem callArguments?_eq_some_iff {arguments : List (List Char)} :
    callArguments? s = some arguments ↔ HasArguments s arguments := by
  constructor
  · intro h
    by_cases hmem : '(' ∈ s
    · obtain ⟨callee, rest, rfl, hcallee⟩ := List.eq_append_cons_of_mem hmem
      rw [callArguments?_append hcallee] at h
      obtain ⟨⟨inner, behind⟩, hclose, rfl⟩ := Option.map_eq_some_iff.1 h
      obtain ⟨rfl, hinner⟩ := (closeNested_eq_some_iff (by decide)).1 hclose
      exact ⟨callee, inner, behind, _, rfl, hcallee, hinner, commaParts_splitCommas inner, rfl⟩
    · have hdrop : s.dropWhile (· ≠ '(') = [] :=
        List.dropWhile_eq_nil_iff.2 fun c hc => by simpa using ne_of_mem_of_not_mem hc hmem
      rw [callArguments?, hdrop] at h
      cases h
  · rintro ⟨callee, inner, behind, parts, rfl, hcallee, hinner, hparts, rfl⟩
    rw [callArguments?_append hcallee, closeNested_balanced (by decide) hinner,
      ← hparts.splitCommas_eq]
    rfl

/-! ## Splitting and joining -/

/-- Joining the parts of a text with commas gives the text back, whatever its parentheses are like,
and no part has a comma outside of its own parentheses. A join of texts that each close as many
parentheses as they open, without such commas, is split into these texts. They are the arguments of
a call, trimmed, if none of them closes a parenthesis that it has not opened. -/
theorem splitCommas_joined :
    (∀ s, [','].intercalate (splitCommas s) = s ∧
        ∀ part ∈ splitCommas s, ¬ Outside [','] part) ∧
      ∀ parts, parts ≠ [] →
        (∀ part ∈ parts, part.count '(' = part.count ')' ∧ ¬ Outside [','] part) →
          splitCommas ([','].intercalate parts) = parts ∧
            ∀ callee tail, '(' ∉ callee → (∀ part ∈ parts, StaysOpen '(' ')' part) →
              callArguments? (callee ++ '(' :: ([','].intercalate parts ++ ')' :: tail)) =
                some (parts.map trim) := by
  refine ⟨fun s => ?_, fun parts hne hparts => ?_⟩
  · have hsplit := commaParts_splitCommas s
    exact ⟨hsplit.joined.symm, hsplit.comma_not_outside⟩
  · have hsplit : CommaParts ([','].intercalate parts) parts :=
      ⟨hne, rfl, fun part hpart => (hparts part hpart).2,
        fun part hpart => (hparts part (List.mem_of_mem_dropLast hpart)).1⟩
    refine ⟨hsplit.splitCommas_eq, fun callee tail hcallee hopen => ?_⟩
    have hcomma : Balanced '(' ')' [','] := balanced_of_forall_ne (by simp)
    have hbalanced : Balanced '(' ')' ([','].intercalate parts) :=
      hcomma.intercalate fun part hpart => ⟨(hparts part hpart).1, hopen part hpart⟩
    exact callArguments?_eq_some_iff.2
      ⟨callee, _, tail, parts, rfl, hcallee, hbalanced, hsplit, rfl⟩

/-- The comma of the inner call is no place to split at, and what stands behind the outer call does
not count. -/
theorem splitCommas_joined_calls :
    let parts := ["f(a, b)".toList, " 1 ".toList]
    let call := "min".toList ++ '(' :: ([','].intercalate parts ++ ')' :: ") (".toList)
    (∀ part ∈ parts, part.count '(' = part.count ')' ∧ ¬ Outside [','] part) ∧
      (∀ part ∈ parts, StaysOpen '(' ')' part) ∧
        call = "min(f(a, b), 1 )) (".toList ∧
          splitCommas "f(a, b), 1 ".toList = parts ∧
            callArguments? call = some ["f(a, b)".toList, "1".toList] := by
  intro parts call
  have hparts : ∀ part ∈ parts, part.count '(' = part.count ')' ∧ ¬ Outside [','] part := by
    have hnone : ∀ part ∈ parts,
        part.count '(' = part.count ')' ∧ splitTopLevel? [','] part = none := by decide
    exact fun part hpart =>
      (hnone part hpart).imp_right (splitTopLevel?_eq_none_iff (by decide)).1
  have hopen : ∀ part ∈ parts, StaysOpen '(' ')' part := by decide
  obtain ⟨hsplit, hcall⟩ := splitCommas_joined.2 parts (List.cons_ne_nil _ _) hparts
  exact ⟨hparts, hopen, by decide, hsplit, hcall "min".toList ") (".toList (by decide) hopen⟩

end ModAlmanac.Expr
