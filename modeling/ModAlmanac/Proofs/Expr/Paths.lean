import ModAlmanac.Expr.Evaluate
import ModAlmanac.Proofs.Finite
import ModAlmanac.Proofs.FirstFault

/-!
# Paths lead into values

A path gives nil or something that stands within the value that it starts from
(`Value.within_of_follow`), which is the config, the card or the constants (`Scope.resolve_cases`).
Whatever holds of nil and of all that stands within these holds of what paths lead to.
-/

namespace ModAlmanac

open OrderedMap Text

theorem Value.within_of_lookup? {name : String} {fields : List (Key × Value)} {v : Value}
    (h : lookup? name fields = some v) : v.Within (.table fields) := by
  obtain ⟨e, he, -, rfl⟩ := exists_mem_of_find? h
  exact .field he .self

theorem within_lookupD (name : String) (fields : List (Key × Value)) :
    lookupD name fields = .nil ∨ (lookupD name fields).Within (.table fields) := by
  unfold lookupD
  cases h : lookup? name fields with
  | none => exact .inl rfl
  | some v => exact .inr (Value.within_of_lookup? h)

theorem within_of_itemAt {items : List Value} {segment : List Char} {v : Value}
    (h : itemAt items segment = .ok v) : v = .nil ∨ v.Within (.list items) := by
  unfold itemAt at h
  split at h
  · split at h
    · cases h
      exact .inl rfl
    · next place _ =>
      cases h
      cases hitem : items[place]? with
      | none => exact .inl rfl
      | some item => exact .inr (.item (List.mem_of_getElem? hitem) .self)
  · cases h

theorem Value.within_of_follow {v w : Value} {segments : List (List Char)}
    (h : v.follow segments = .ok w) : w = .nil ∨ w.Within v := by
  induction segments generalizing v with
  | nil =>
    cases h
    exact .inr .self
  | cons segment segments ih =>
    rw [Value.follow.eq_def] at h
    dsimp only at h
    split at h
    · split at h
      · next inner hinner => exact (ih h).imp id (·.trans (Value.within_of_lookup? hinner))
      · cases h
        exact .inl rfl
    · split at h
      · obtain ⟨inner, hinner, h⟩ := bind_eq_ok_iff.1 h
        rcases within_of_itemAt hinner with rfl | hinner
        · rcases ih h with rfl | hw
          · exact .inl rfl
          · cases hw
            exact .inl rfl
        · exact (ih h).imp id (·.trans hinner)
      · cases h
        exact .inl rfl
    · cases h
      exact .inl rfl

theorem within_of_extraFor? {config : List (Key × Value)} {segments : List (List Char)} {v : Value}
    (h : extraFor? config segments = some v) : v.Within (.table config) := by
  unfold extraFor? at h
  split at h
  · next extra hextra =>
    have hwithin := Value.within_of_lookup? hextra
    split at h
    · cases h
      exact hwithin
    · split at h
      · cases h
        exact hwithin
      · cases h
  · cases h

/-- What a path leads to: nil, or something within what the names of expressions stand for. -/
theorem Scope.resolve_cases {scope : Scope} {root : List Char} {segments : List (List Char)}
    {v : Value} (h : scope.resolve root segments = .ok v) :
    v = .nil ∨ v.Within (.table scope.config) ∨ v.Within (.table scope.card) ∨
      v.Within scope.globals := by
  unfold Scope.resolve at h
  split at h
  · split at h
    · next extra hextra =>
      exact (Value.within_of_follow h).imp id
        fun hv => .inl (hv.trans (within_of_extraFor? hextra))
    · exact (Value.within_of_follow h).imp id .inl
  · split at h
    · exact (Value.within_of_follow h).imp id fun hv => .inr (.inl hv)
    · split at h
      · exact (Value.within_of_follow h).imp id fun hv => .inr (.inr hv)
      · cases h
        exact .inl rfl

end ModAlmanac
