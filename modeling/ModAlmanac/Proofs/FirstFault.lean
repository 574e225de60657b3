/-!
# Chains that can fail

A chain of steps succeeds if all of them do, and fails with the first one that fails. The same is
true of a list of records that are worked off in order: what counts is the first one with a fault
(`FirstFault`). A chain made of the steps of several lists, one list after the other, fails with the
first step of them all that fails (`FailsWithFirst.bind`).
-/

namespace ModAlmanac

/-- Whether a chain fails with an error can be computed even if results cannot be compared. -/
instance decidableEqError {ε α : Type} [DecidableEq ε] (chain : Except ε α) (err : ε) :
    Decidable (chain = .error err) :=
  match chain with
  | .ok _ => isFalse fun h => by cases h
  | .error err' =>
    decidable_of_iff (err' = err) ⟨fun h => by rw [h], fun h => by cases h; rfl⟩

/-! ## Two steps -/

theorem bind_eq_ok_iff {ε α β : Type} {x : Except ε α} {f : α → Except ε β} {b : β} :
    (x >>= f) = .ok b ↔ ∃ a, x = .ok a ∧ f a = .ok b := by
  cases x with
  | error e =>
    constructor
    · intro h
      cases h
    · rintro ⟨a, ha, -⟩
      cases ha
  | ok a =>
    constructor
    · intro h
      exact ⟨a, rfl, h⟩
    · rintro ⟨a', ha, h⟩
      cases ha
      exact h

/-- A chain fails in its first step or behind it. -/
theorem bind_eq_error_iff {ε α β : Type} {x : Except ε α} {f : α → Except ε β} {e : ε} :
    (x >>= f) = .error e ↔ x = .error e ∨ ∃ a, x = .ok a ∧ f a = .error e := by
  cases x with
  | error e' =>
    constructor
    · intro h
      cases h
      exact .inl rfl
    · rintro (h | ⟨a, h, -⟩)
      · cases h
        rfl
      · cases h
  | ok a =>
    constructor
    · intro h
      exact .inr ⟨a, rfl, h⟩
    · rintro (h | ⟨a', h, hf⟩)
      · cases h
      · cases h
        exact hf

theorem map_eq_error_iff {ε α β : Type} {x : Except ε α} {f : α → β} {e : ε} :
    x.map f = .error e ↔ x = .error e := by
  cases x with
  | error e' => exact ⟨fun h => by cases h; rfl, fun h => by cases h; rfl⟩
  | ok a => exact iff_of_false (fun h => by cases h) (fun h => by cases h)

/-! ## Lists of steps -/

/-- The first of some records that has a fault, the ones in front of it being in order. -/
def FirstFault {α : Type} (inOrder fault : α → Prop) (records : List α) : Prop :=
  ∃ front r behind, records = front ++ r :: behind ∧ (∀ b ∈ front, inOrder b) ∧ fault r

theorem firstFault_nil {α : Type} {inOrder fault : α → Prop} : ¬FirstFault inOrder fault [] := by
  rintro ⟨front, r, behind, h, -⟩
  exact List.append_ne_nil_of_right_ne_nil front (List.cons_ne_nil _ _) h.symm

theorem firstFault_cons_iff {α : Type} {inOrder fault : α → Prop} {r : α} {records : List α} :
    FirstFault inOrder fault (r :: records) ↔
      fault r ∨ inOrder r ∧ FirstFault inOrder fault records := by
  constructor
  · rintro ⟨front, s, behind, h, hfront, hs⟩
    cases front with
    | nil =>
      rw [List.nil_append] at h
      cases h
      exact .inl hs
    | cons b front =>
      rw [List.cons_append] at h
      cases h
      obtain ⟨hb, hrest⟩ := List.forall_mem_cons.1 hfront
      exact .inr ⟨hb, front, s, behind, rfl, hrest, hs⟩
  · rintro (h | ⟨hr, front, s, behind, rfl, hfront, hs⟩)
    · exact ⟨[], r, records, rfl, List.forall_mem_nil _, h⟩
    · exact ⟨r :: front, s, behind, rfl, List.forall_mem_cons.2 ⟨hr, hfront⟩, hs⟩

theorem firstFault_append_iff {α : Type} {inOrder fault : α → Prop} {front back : List α} :
    FirstFault inOrder fault (front ++ back) ↔
      FirstFault inOrder fault front ∨
        (∀ r ∈ front, inOrder r) ∧ FirstFault inOrder fault back := by
  induction front with
  | nil =>
    rw [List.nil_append]
    exact ⟨fun h => .inr ⟨List.forall_mem_nil _, h⟩,
      fun h => h.elim (fun h => absurd h firstFault_nil) (·.2)⟩
  | cons r front ih =>
    rw [List.cons_append, firstFault_cons_iff, firstFault_cons_iff, ih, List.forall_mem_cons]
    grind

theorem firstFault_map_iff {α β : Type} {inOrder fault : β → Prop} {f : α → β} {records : List α} :
    FirstFault inOrder fault (records.map f) ↔
      FirstFault (fun r => inOrder (f r)) (fun r => fault (f r)) records := by
  induction records with
  | nil => exact iff_of_false firstFault_nil firstFault_nil
  | cons r records ih => rw [List.map_cons, firstFault_cons_iff, firstFault_cons_iff, ih]

/-! ## Chains made of steps -/

/-- The first step that fails, with an error. -/
def FirstFailure {ρ ε β : Type} (step : ρ → Except ε β) (err : ε) (records : List ρ) : Prop :=
  FirstFault (fun r => ∃ b, step r = .ok b) (fun r => step r = .error err) records

/-- A chain that fails exactly as the first of some steps does. -/
def FailsWithFirst {ρ ε α β : Type} (chain : Except ε α) (step : ρ → Except ε β)
    (records : List ρ) : Prop :=
  ∀ err, chain = .error err ↔ FirstFailure step err records

section FailsWithFirst

variable {ρ ε α β γ : Type} {step : ρ → Except ε β} {chain : Except ε α} {records : List ρ}

theorem exists_firstFailure_iff :
    (∃ err, FirstFailure step err records) ↔ ¬∀ r ∈ records, ∃ b, step r = .ok b := by
  induction records with
  | nil =>
    refine iff_of_false ?_ (fun h => h (List.forall_mem_nil _))
    rintro ⟨err, h⟩
    exact firstFault_nil h
  | cons r records ih =>
    rw [List.forall_mem_cons]
    constructor
    · rintro ⟨err, h⟩ ⟨⟨b, hb⟩, hrest⟩
      rcases firstFault_cons_iff.1 h with hr | ⟨-, hmore⟩
      · rw [hb] at hr
        cases hr
      · exact ih.1 ⟨err, hmore⟩ hrest
    · intro h
      cases hr : step r with
      | error err => exact ⟨err, firstFault_cons_iff.2 (.inl hr)⟩
      | ok b =>
        obtain ⟨err, hmore⟩ := ih.2 fun hrest => h ⟨⟨b, hr⟩, hrest⟩
        exact ⟨err, firstFault_cons_iff.2 (.inr ⟨⟨b, hr⟩, hmore⟩)⟩

/-- The chain has a result exactly if every step has one. -/
theorem FailsWithFirst.exists_ok_iff (h : FailsWithFirst chain step records) :
    (∃ a, chain = .ok a) ↔ ∀ r ∈ records, ∃ b, step r = .ok b := by
  constructor
  · rintro ⟨a, ha⟩
    refine Classical.byContradiction fun hnot => ?_
    obtain ⟨err, herr⟩ := exists_firstFailure_iff.2 hnot
    rw [← h err, ha] at herr
    cases herr
  · intro hall
    cases hchain : chain with
    | ok a => exact ⟨a, rfl⟩
    | error err => exact absurd hall (exists_firstFailure_iff.1 ⟨err, (h err).1 hchain⟩)

theorem FailsWithFirst.ok (a : α) : FailsWithFirst (.ok a) step [] :=
  fun _ => iff_of_false (fun h => by cases h) firstFault_nil

theorem FailsWithFirst.single (step : ρ → Except ε β) (r : ρ) :
    FailsWithFirst (step r) step [r] := by
  intro err
  rw [FirstFailure, firstFault_cons_iff]
  exact ⟨.inl, fun h => h.elim id fun hr => absurd hr.2 firstFault_nil⟩

theorem FailsWithFirst.map (h : FailsWithFirst chain step records) (f : α → γ) :
    FailsWithFirst (chain.map f) step records :=
  fun err => map_eq_error_iff.trans (h err)

theorem FailsWithFirst.bind {next : α → Except ε γ} {more : List ρ}
    (h : FailsWithFirst chain step records)
    (hnext : ∀ a, chain = .ok a → FailsWithFirst (next a) step more) :
    FailsWithFirst (chain >>= next) step (records ++ more) := by
  intro err
  unfold FirstFailure
  rw [bind_eq_error_iff, firstFault_append_iff, ← h.exists_ok_iff]
  refine or_congr (h err) ⟨?_, ?_⟩
  · rintro ⟨a, ha, herr⟩
    exact ⟨⟨a, ha⟩, (hnext a ha err).1 herr⟩
  · rintro ⟨⟨a, ha⟩, hmore⟩
    exact ⟨a, ha, (hnext a ha err).2 hmore⟩

end FailsWithFirst

end ModAlmanac
