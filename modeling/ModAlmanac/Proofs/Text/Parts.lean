import Mathlib
import ModAlmanac.Text.Scan

/-!
# Searches part by part

A text is made of parts with commas between them. Where nothing is found across a comma (`Settled`),
the search goes over the parts one by one (`search_joined`), and the first part in which something is
found decides. The order of the parts does not matter exactly if all parts agree in which something is
found (`forall_perm_findSome?_iff`).
-/

namespace ModAlmanac.Text

section

variable {α : Type} {read : List Char → Option α}

/-- Whether a reader finds the same at every position of a part, whatever stands behind a comma that
follows the part. -/
def Settled (read : List Char → Option α) (part : List Char) : Prop :=
  ∀ t, t <:+ part → ∀ rest, read (t ++ ',' :: rest) = read t

theorem Settled.tail {c : Char} {part : List Char} (h : Settled read (c :: part)) :
    Settled read part :=
  fun t ht => h t (ht.trans (List.suffix_cons c part))

/-- A part is searched on its own, and then what stands behind the comma. -/
theorem search_settled {part : List Char} (h : Settled read part) (rest : List Char) :
    search read (part ++ ',' :: rest) = (search read part).or (search read rest) := by
  induction part with
  | nil =>
    have hcomma := h [] (List.suffix_refl _) rest
    rw [List.nil_append] at hcomma ⊢
    rw [search, search, hcomma]
    cases read [] with
    | none => rfl
    | some found => rfl
  | cons c part ih =>
    have hhere := h (c :: part) (List.suffix_refl _) rest
    rw [List.cons_append] at hhere ⊢
    rw [search, search, hhere]
    cases read (c :: part) with
    | none => exact ih h.tail
    | some found => rfl

/-- Parts with a comma between them. -/
def joined : List (List Char) → List Char
  | [] => []
  | [part] => part
  | part :: parts => part ++ ',' :: joined parts

/-- The first part in which something is found decides. -/
theorem search_joined {parts : List (List Char)} (h : ∀ part ∈ parts, Settled read part)
    (hnil : read [] = none) : search read (joined parts) = parts.findSome? (search read) := by
  induction parts with
  | nil => exact hnil
  | cons part parts ih =>
    obtain ⟨hpart, hparts⟩ := List.forall_mem_cons.1 h
    cases parts with
    | nil =>
      rw [joined, List.findSome?_cons, List.findSome?_nil]
      cases search read part with
      | none => rfl
      | some found => rfl
    | cons next parts =>
      rw [joined, search_settled hpart, ih hparts, List.findSome?_cons (a := part)]
      · cases search read part with
        | none => rfl
        | some found => rfl
      · exact fun h => List.cons_ne_nil _ _ h

end

/-- What is found first does not depend on the order exactly if all agree that find anything. -/
theorem forall_perm_findSome?_iff {α β : Type} {f : α → Option β} {l : List α} {found : Option β}
    (h : ∀ b ∈ found, ∃ a ∈ l, b ∈ f a) :
    (∀ order : List α, order.Perm l → order.findSome? f = found) ↔
      ∀ a ∈ l, ∀ b ∈ f a, b ∈ found := by
  constructor
  · intro horder a ha b hb
    obtain ⟨front, back, rfl⟩ := List.append_of_mem ha
    have hfirst := horder (a :: (front ++ back)) List.perm_middle.symm
    rw [List.findSome?_cons, hb] at hfirst
    exact hfirst.symm
  · intro hagree order hperm
    cases hfirst : order.findSome? f with
    | some b =>
      obtain ⟨front, a, back, rfl, hb, -⟩ := List.findSome?_eq_some_iff.1 hfirst
      exact (hagree a (hperm.subset (by simp)) b hb).symm
    | none =>
      cases found with
      | none => rfl
      | some b =>
        obtain ⟨a, ha, hb⟩ := h b rfl
        rw [List.findSome?_eq_none_iff.1 hfirst a (hperm.mem_iff.2 ha)] at hb
        cases hb

end ModAlmanac.Text
