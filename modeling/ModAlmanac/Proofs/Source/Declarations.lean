import ModAlmanac.Proofs.Lua.Blocks
import ModAlmanac.Proofs.Number.Written
import ModAlmanac.Proofs.Text.Blank
import ModAlmanac.Proofs.Text.Skipping
import ModAlmanac.Snapshot.Basic

/-!
# Declarations among other text

A source is read as the declarations that it is made of, in order, whatever stands between them
(`ofSource_written`). One cursor runs over the text. From the end of a declaration it passes over
the filler, which does not name the namespace (`passes_filler`), and over what stands between the
kind and the opening brace; the body is balanced, so that the cursor comes to rest exactly behind
its closing brace (`declarations_text_append`). What a body declares inside is never looked at.
-/

namespace ModAlmanac.Source

open Lua Number Text

/-! ## Sources -/

/-- The name in front of the kind of every declaration. -/
def namespaceDot : List Char := "SMODS.".toList

/-- Whether a character can go on a kind. -/
def isKindChar (c : Char) : Bool :=
  c.isAlphanum || c = '_'

/-- A declaration as it stands in a source: the letters of its kind, white space, perhaps an opening
parenthesis with white space of its own, and a body between braces. -/
structure WrittenDeclaration where
  initial : Char
  more : List Char
  gap : List Char
  parenthesis : Option (List Char)
  body : List Char
  isUpper_initial : initial.isUpper = true
  isKindChar_more : ∀ c ∈ more, isKindChar c = true
  isBlank_gap : ∀ c ∈ gap, isBlank c = true
  isBlank_parenthesis : ∀ blank, parenthesis = some blank → ∀ c ∈ blank, isBlank c = true
  balanced_body : Balanced '{' '}' body

/-- Text between declarations: anything that does not name the namespace. -/
structure Filler where
  text : List Char
  not_infix : ¬ namespaceDot <:+: text

namespace WrittenDeclaration

def kind (d : WrittenDeclaration) : List Char :=
  d.initial :: d.more

/-- What stands between the kind and the opening brace. -/
def opening (d : WrittenDeclaration) : List Char :=
  d.gap ++ d.parenthesis.elim [] ('(' :: ·)

/-- What stands behind the closing brace. -/
def closing (d : WrittenDeclaration) : List Char :=
  if d.parenthesis.isSome then [')'] else []

def text (d : WrittenDeclaration) : List Char :=
  namespaceDot ++ d.kind ++ d.opening ++ '{' :: d.body ++ '}' :: d.closing

/-- The object that a declaration stands for, if its body has a quoted key: what its fields say is
read from its own body alone. -/
def entity? (d : WrittenDeclaration) : Option Entity :=
  (findQuoted? "key" d.body).map fun key =>
    { kind := .text (String.ofList d.kind)
      key := .text (String.ofList key)
      atlasKey := (findQuoted? "atlas" d.body).elim .nil fun atlas => .text (String.ofList atlas)
      position := (findPosition? d.body).map fun (x, y) => ((x : Int), (y : Int))
      body := .text (String.ofList (trim d.body))
      config := []
      vars := []
      infoQueue := [] }

end WrittenDeclaration

/-- A source: declarations, each with the filler in front of it, and the filler behind the last. -/
def writtenSource (parts : List (Filler × WrittenDeclaration)) (last : Filler) : List Char :=
  parts.flatMap (fun part => part.1.text ++ part.2.text) ++ last.text

/-! ## Filler -/

theorem declaredKind?_eq_none {s : List Char} (h : ¬ namespaceDot <+: s) :
    declaredKind? s = none := by
  unfold declaredKind?
  have hnone : "SMODS.".toList.isPrefixOf? s = none := isPrefixOf?_eq_none_iff.2 h
  rw [hnone]

/-- Filler is passed over in front of a declaration, by whatever reader looks for the name. -/
theorem Filler.passes {α : Type} {read : List Char → Option α}
    (hread : ∀ s, ¬ namespaceDot <+: s → read s = none) (filler : Filler) (rest : List Char) :
    Passes read filler.text (namespaceDot ++ rest) := by
  intro t hne ht
  refine hread _ (not_prefix_append (by decide) hne (fun h => ?_) rest)
  exact filler.not_infix (h.isInfix.trans ht.isInfix)

theorem Filler.passes_nil {α : Type} {read : List Char → Option α}
    (hread : ∀ s, ¬ namespaceDot <+: s → read s = none) (filler : Filler) :
    Passes read filler.text [] := by
  intro t hne ht
  rw [List.append_nil]
  refine hread _ fun h => ?_
  exact filler.not_infix (h.isInfix.trans ht.isInfix)

theorem passes_filler (filler : Filler) (rest : List Char) :
    Passes declaredKind? filler.text (namespaceDot ++ rest) :=
  filler.passes (fun _ => declaredKind?_eq_none) rest

theorem passes_last (filler : Filler) : Passes declaredKind? filler.text [] :=
  filler.passes_nil fun _ => declaredKind?_eq_none

/-- A closing parenthesis does not count. -/
theorem WrittenDeclaration.passes_closing {α : Type} {read : List Char → Option α}
    (hread : ∀ s, ¬ namespaceDot <+: s → read s = none) (d : WrittenDeclaration)
    (rest : List Char) : Passes read d.closing rest := by
  refine passes_of_forall fun c hc s => hread _ fun h => ?_
  have hc : c = ')' := by
    unfold WrittenDeclaration.closing at hc
    split at hc
    · exact List.mem_singleton.1 hc
    · cases hc
  rw [hc] at h
  exact absurd (List.cons_prefix_cons.1 h).1 (by decide)

/-! ## Declarations -/

theorem not_isKindChar_of_isBlank {c : Char} (h : isBlank c = true) : isKindChar c = false := by
  cases hkind : isKindChar c with
  | false => rfl
  | true =>
    exact absurd ((isWordChar_of_isAlphanum hkind).symm.trans (not_isWordChar_of_isBlank h))
      (by decide)

/-- The head of a declaration is read up to the end of its kind. -/
theorem declaredKind?_head (d : WrittenDeclaration) {rest : List Char}
    (hrest : StopsBefore isKindChar rest) :
    declaredKind? (namespaceDot ++ (d.kind ++ rest)) = some (d.kind, rest) := by
  have hdot : "SMODS.".toList.isPrefixOf? (namespaceDot ++ (d.kind ++ rest)) =
      some (d.kind ++ rest) := isPrefixOf?_append _ _
  unfold declaredKind?
  rw [hdot]
  have htake := takeWhile_append_of_stops d.isKindChar_more hrest
  have hdrop := dropWhile_append_of_stops d.isKindChar_more hrest
  unfold isKindChar at htake hdrop
  simp only [WrittenDeclaration.kind, List.cons_append, d.isUpper_initial, if_true, htake, hdrop]

/-- The reader, one declaration at a time. -/
theorem declarations_unfold (s : List Char) :
    declarations s =
      match search declaredKind? s with
      | none => []
      | some (kind, rest) =>
        match rest.dropWhile (· ≠ '{') with
        | [] => []
        | _ :: inside =>
          match closeBrace inside with
          | none => declarations inside
          | some (body, after) =>
            (Declaration.ofBody? kind body).toList ++ declarations after := by
  rw [declarations]
  split
  · next h => simp only [h]
  · next kind rest h =>
    simp only [h]
    split
    · next hbrace => simp only [hbrace]
    · next c inside hbrace =>
      simp only [hbrace]
      split
      · next hclose => simp only [hclose]
      · next body after hclose => simp only [hclose]

/-- What a text declares depends on its first declaration alone and what stands behind it. -/
theorem declarations_congr {s t : List Char}
    (h : search declaredKind? s = search declaredKind? t) : declarations s = declarations t := by
  rw [declarations_unfold, declarations_unfold t, h]

/-- What stands between a kind and the opening brace begins with no character of a kind and has no
opening brace. -/
theorem WrittenDeclaration.forall_opening (d : WrittenDeclaration) :
    ∀ c ∈ d.opening, isKindChar c = false ∧ c ≠ '{' := by
  have hblank : ∀ c, isBlank c = true → isKindChar c = false ∧ c ≠ '{' := fun c hc =>
    ⟨not_isKindChar_of_isBlank hc, by rintro rfl; exact absurd hc (by decide)⟩
  intro c hc
  rcases List.mem_append.1 hc with hc | hc
  · exact hblank c (d.isBlank_gap c hc)
  · cases hp : d.parenthesis with
    | none =>
      rw [hp] at hc
      cases hc
    | some blank =>
      rw [hp] at hc
      rcases List.mem_cons.1 hc with rfl | hc
      · decide
      · exact hblank c (d.isBlank_parenthesis blank hp c hc)

/-- Behind filler the head of a declaration is found, and what the declaration comes to depends on
whether its opening brace is closed. -/
theorem declarations_head (filler : Filler) (d : WrittenDeclaration) (rest : List Char) :
    declarations (filler.text ++ (namespaceDot ++ (d.kind ++ (d.opening ++ '{' :: rest)))) =
      match closeBrace rest with
      | none => declarations rest
      | some (body, after) => (Declaration.ofBody? d.kind body).toList ++ declarations after := by
  have hstop : StopsBefore isKindChar (d.opening ++ '{' :: rest) := by
    intro c hc
    cases ho : d.opening with
    | nil =>
      rw [ho] at hc
      cases hc
      decide
    | cons b more =>
      rw [ho] at hc
      cases hc
      exact (d.forall_opening c (by rw [ho]; exact List.mem_cons_self)).1
  have hkind : search declaredKind?
      (filler.text ++ (namespaceDot ++ (d.kind ++ (d.opening ++ '{' :: rest)))) =
        some (d.kind, d.opening ++ '{' :: rest) := by
    rw [search_append (passes_filler filler _)]
    exact search_of_read (declaredKind?_head d hstop)
  have hbrace : (d.opening ++ '{' :: rest).dropWhile (· ≠ '{') = '{' :: rest := by
    rw [List.dropWhile_append_of_pos fun c hc => by simpa using (d.forall_opening c hc).2]
    rfl
  rw [declarations_unfold, hkind]
  dsimp only
  rw [hbrace]

theorem WrittenDeclaration.text_append (d : WrittenDeclaration) (rest : List Char) :
    d.text ++ rest = namespaceDot ++ (d.kind ++ (d.opening ++
      '{' :: (d.body ++ '}' :: (d.closing ++ rest)))) := by
  simp [WrittenDeclaration.text]

/-- A declaration behind filler is read with its own kind and body, and the cursor goes on behind
its closing brace. -/
theorem declarations_text_append (filler : Filler) (d : WrittenDeclaration) (rest : List Char) :
    declarations (filler.text ++ (d.text ++ rest)) =
      (Declaration.ofBody? d.kind d.body).toList ++ declarations (d.closing ++ rest) := by
  rw [d.text_append, declarations_head, closeBrace_balanced d.balanced_body]

theorem declarations_closing_append (d : WrittenDeclaration) (rest : List Char) :
    declarations (d.closing ++ rest) = declarations rest :=
  declarations_congr (search_append (d.passes_closing (fun _ => declaredKind?_eq_none) rest))

theorem declarations_last (filler : Filler) : declarations filler.text = [] := by
  have hnone : search declaredKind? filler.text = none := search_eq_none (passes_last filler) rfl
  rw [declarations_unfold, hnone]

/-- Declarations are read one after the other, each with the filler in front of it. -/
theorem declarations_parts_append (parts : List (Filler × WrittenDeclaration)) (rest : List Char) :
    declarations (parts.flatMap (fun part => part.1.text ++ part.2.text) ++ rest) =
      (parts.filterMap fun part => Declaration.ofBody? part.2.kind part.2.body) ++
        declarations rest := by
  induction parts with
  | nil => rfl
  | cons part parts ih =>
    rw [List.flatMap_cons, List.append_assoc, List.append_assoc, declarations_text_append,
      declarations_closing_append, ih, List.filterMap_cons]
    cases Declaration.ofBody? part.2.kind part.2.body with
    | none => rfl
    | some declaration => rfl

/-- A source is read as its declarations that have a key, in order. -/
theorem declarations_written (parts : List (Filler × WrittenDeclaration)) (last : Filler) :
    declarations (writtenSource parts last) =
      parts.filterMap fun part => Declaration.ofBody? part.2.kind part.2.body := by
  rw [writtenSource, declarations_parts_append, declarations_last, List.append_nil]

/-- The objects of a source are those of its declarations whose bodies have a quoted key, in order,
each read from its own declaration alone: nothing is found in filler or inside another body, and
nothing is left out. -/
theorem ofSource_written (parts : List (Filler × WrittenDeclaration)) (last : Filler) :
    Entity.ofSource (writtenSource parts last) = parts.filterMap fun part => part.2.entity? := by
  rw [Entity.ofSource, declarations_written, List.map_filterMap]
  refine List.filterMap_congr fun part _ => ?_
  unfold Declaration.ofBody? WrittenDeclaration.entity?
  rw [Option.map_map]
  refine Option.map_congr fun key _ => ?_
  cases findQuoted? "atlas" part.2.body with
  | none => rfl
  | some atlas => rfl

end ModAlmanac.Source
