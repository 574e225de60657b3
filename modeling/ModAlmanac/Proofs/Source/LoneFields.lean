import ModAlmanac.Proofs.Source.FieldOrders

/-!
# Fields with a single equality sign

A field whose value holds no equality sign has one sign only, so that whatever name is looked for in
it must end in front of that sign (`LoneField.suffix_of_fieldValue?`): the field shows something
under its own name and under the names that its own name ends in, and under no other one
(`LoneField.search_text`). Among fields of which no name ends in another one, what is found under a
name is what the fields of that name show (`search_fields`).
-/

namespace ModAlmanac.Source

open Lua Number Text

/-- A name as it is looked for: it holds no white space, no equality sign and no comma. -/
structure IsPlainName (name : List Char) : Prop where
  ne_nil : name ≠ []
  not_isBlank : ∀ c ∈ name, isBlank c = false
  sign_not_mem : '=' ∉ name
  comma_not_mem : ',' ∉ name

theorem isPlainName_of_all {name : List Char} (hne : name ≠ [])
    (h : name.all (fun c => !isBlank c && c ≠ '=' && c ≠ ',') = true) : IsPlainName name := by
  have hchar : ∀ c ∈ name, (isBlank c = false ∧ c ≠ '=') ∧ c ≠ ',' := by simpa using h
  exact ⟨hne, fun c hc => (hchar c hc).1.1, fun hsign => (hchar _ hsign).1.2 rfl,
    fun hcomma => (hchar _ hcomma).2 rfl⟩

/-- A value without an equality sign that begins with no white space. -/
structure IsLoneValue (value : List Char) : Prop where
  head : ∃ c more, value = c :: more ∧ isBlank c = false
  sign_not_mem : '=' ∉ value

theorem IsLoneValue.dropBlank_append {value : List Char} (h : IsLoneValue value)
    {gap : List Char} (hgap : ∀ c ∈ gap, isBlank c = true) (rest : List Char) :
    dropBlank (gap ++ (value ++ rest)) = value ++ rest := by
  obtain ⟨c, more, rfl, hc⟩ := h.head
  exact Text.dropBlank_append hgap hc (more ++ rest)

/-- A field with a plain name and a value without an equality sign. -/
structure LoneField where
  layout : Layout
  name : List Char
  value : List Char
  isPlainName : IsPlainName name
  isLoneValue : IsLoneValue value

def LoneField.text (f : LoneField) : List Char :=
  f.layout.field f.name f.value

section

variable {α : Type}

/-- What a reader of values finds in the value of a field at the front. -/
def fieldAt? (read : List Char → Option α) (name : String) (s : List Char) : Option α :=
  (fieldValue? name s).bind read

/-- Whether a reader finds the same in a value whatever stands behind it, as long as that is no
further digit. -/
def ReadsAlone (read : List Char → Option α) (value : List Char) : Prop :=
  ∀ rest, StopsBefore isDecimalDigit rest → read (value ++ rest) = read value

section

variable {read : List Char → Option α} {value : List Char} {found : Option α}
  (h : ∀ rest, StopsBefore isDecimalDigit rest → read (value ++ rest) = found)

include h

theorem read_of_append : read value = found := by
  rw [← h [] (stopsBefore_nil isDecimalDigit), List.append_nil]

theorem readsAlone_of_append : ReadsAlone read value :=
  fun rest hrest => (h rest hrest).trans (read_of_append h).symm

end

end

/-! ## The sign of a field -/

theorem exists_of_fieldValue? {name : String} {s value : List Char}
    (h : fieldValue? name s = some value) :
    ∃ blank behind, s = name.toList ++ (blank ++ '=' :: behind) ∧
      (∀ c ∈ blank, isBlank c = true) ∧ value = dropBlank behind := by
  obtain ⟨rest, hstart, hsign⟩ := Option.bind_eq_some_iff.1 h
  obtain ⟨blank, hrest, hblank⟩ := exists_blanks_dropBlank rest
  unfold afterSign? at hsign
  split at hsign
  · next behind hdrop =>
    cases hsign
    exact ⟨blank, behind, by rw [← hdrop, ← hrest]; exact eq_append_of_isPrefixOf? hstart, hblank,
      rfl⟩
  · cases hsign

/-- Two texts with white space behind them are the same if they end in none themselves. -/
theorem eq_of_append_blanks {s t blank more : List Char}
    (hs : ∀ c, s.getLast? = some c → isBlank c = false)
    (ht : ∀ c, t.getLast? = some c → isBlank c = false) (hblank : ∀ c ∈ blank, isBlank c = true)
    (hmore : ∀ c ∈ more, isBlank c = true) (h : s ++ blank = t ++ more) : s = t := by
  have hstrip : ∀ {s blank : List Char}, (∀ c, s.getLast? = some c → isBlank c = false) →
      (∀ c ∈ blank, isBlank c = true) → (s ++ blank).reverse.dropWhile isBlank = s.reverse := by
    intro s blank hs hblank
    rw [List.reverse_append]
    refine dropWhile_append_of_stops (fun c hc => hblank c (List.mem_reverse.1 hc)) fun c hc => ?_
    rw [List.head?_reverse] at hc
    exact hs c hc
  have hreverse := hstrip ht hmore
  rw [← h, hstrip hs hblank] at hreverse
  exact List.reverse_injective hreverse

/-- A text with one equality sign is divided at that sign only. -/
theorem eq_of_append_sign {front behind s t : List Char} (hfront : '=' ∉ front)
    (hbehind : '=' ∉ behind) (h : s ++ '=' :: t = front ++ '=' :: behind) :
    s = front ∧ t = behind := by
  rcases List.append_eq_append_iff.1 h with ⟨more, hmore, hrest⟩ | ⟨more, hmore, hrest⟩
  · cases more with
    | nil => exact ⟨by rw [hmore, List.append_nil], (List.cons.inj hrest).2⟩
    | cons c more =>
      obtain ⟨rfl, -⟩ := List.cons.inj hrest
      exact absurd (by rw [hmore]; simp) hfront
  · cases more with
    | nil => exact ⟨by rw [hmore, List.append_nil], (List.cons.inj hrest).2.symm⟩
    | cons c more =>
      obtain ⟨rfl, hmem⟩ := List.cons.inj hrest
      exact absurd (by rw [hmem]; simp) hbehind

/-- A name that is found in a field stands at the end of the field's own name, and what is found
behind the sign is the field's value. -/
theorem LoneField.suffix_of_fieldValue? (f : LoneField) {name : String}
    (hname : IsPlainName name.toList) {t found : List Char} (ht : t <:+ f.text)
    (h : fieldValue? name t = some found) :
    name.toList <:+ f.name ∧ found = f.value ++ f.layout.trail := by
  obtain ⟨blank, behind, rfl, hblank, rfl⟩ := exists_of_fieldValue? h
  obtain ⟨u, hu⟩ := ht
  have hfront : '=' ∉ f.layout.lead ++ (f.name ++ f.layout.blank) := by
    simp only [List.mem_append, not_or]
    exact ⟨not_mem_of_forall f.layout.isBlank_lead (by decide), f.isPlainName.sign_not_mem,
      not_mem_of_forall f.layout.isBlank_blank (by decide)⟩
  have hbehind : '=' ∉ f.layout.gap ++ (f.value ++ f.layout.trail) := by
    simp only [List.mem_append, not_or]
    exact ⟨not_mem_of_forall f.layout.isBlank_gap (by decide), f.isLoneValue.sign_not_mem,
      not_mem_of_forall f.layout.isBlank_trail (by decide)⟩
  have hsplit : (u ++ (name.toList ++ blank)) ++ '=' :: behind =
      (f.layout.lead ++ (f.name ++ f.layout.blank)) ++
        '=' :: (f.layout.gap ++ (f.value ++ f.layout.trail)) := by
    rw [LoneField.text, Layout.field] at hu
    simpa using hu
  obtain ⟨hnames, rfl⟩ := eq_of_append_sign hfront hbehind hsplit
  refine ⟨?_, f.isLoneValue.dropBlank_append f.layout.isBlank_gap f.layout.trail⟩
  have hlast : ∀ {word front : List Char}, IsPlainName word →
      ∀ c, (front ++ word).getLast? = some c → isBlank c = false := by
    intro word front hword c hc
    rw [List.getLast?_append_of_ne_nil _ hword.ne_nil] at hc
    exact hword.not_isBlank c (List.mem_of_getLast? hc)
  rw [← List.append_assoc, ← List.append_assoc] at hnames
  have hsame : u ++ name.toList = f.layout.lead ++ f.name :=
    eq_of_append_blanks (hlast hname) (hlast f.isPlainName) hblank f.layout.isBlank_blank hnames
  rcases List.append_eq_append_iff.1 hsame with ⟨more, hlead, hmore⟩ | ⟨more, -, hmore⟩
  · -- the name holds no white space, so that it does not begin in front of the field's own name
    cases more with
    | nil => exact ⟨[], hmore⟩
    | cons c more =>
      have hblank := f.layout.isBlank_lead c (by rw [hlead]; simp)
      rw [hname.not_isBlank c (by rw [hmore]; simp)] at hblank
      cases hblank
  · exact ⟨more, hmore.symm⟩

/-! ## What fields show -/

section

variable {α : Type} {read : List Char → Option α} {name : String}
  (hname : IsPlainName name.toList)

include hname

/-- White space begins no field. -/
theorem fieldValue?_blanks {t : List Char} (ht : ∀ c ∈ t, isBlank c = true) :
    fieldValue? name t = none := by
  refine fieldValue?_eq_none fun hstart => ?_
  obtain ⟨n, more, hn⟩ := List.exists_cons_of_ne_nil hname.ne_nil
  have hmem : n ∈ name.toList := by rw [hn]; exact List.mem_cons_self
  have hblank := ht n (hstart.subset hmem)
  rw [hname.not_isBlank n hmem] at hblank
  cases hblank

theorem fieldAt?_blanks {t : List Char} (ht : ∀ c ∈ t, isBlank c = true) :
    fieldAt? read name t = none := by
  rw [fieldAt?, fieldValue?_blanks hname ht]
  rfl

theorem search_fieldAt?_blanks {blank : List Char} (hblank : ∀ c ∈ blank, isBlank c = true) :
    search (fieldAt? read name) blank = none := by
  have hpasses : Passes (fieldAt? read name) blank [] := fun t _ ht => by
    rw [List.append_nil]
    exact fieldAt?_blanks hname fun c hc => hblank c (ht.subset hc)
  exact search_eq_none hpasses (fieldAt?_blanks hname (List.forall_mem_nil _))

theorem settled_fieldAt?_blanks {blank : List Char} (hblank : ∀ c ∈ blank, isBlank c = true) :
    Settled (fieldAt? read name) blank := by
  intro t ht rest
  have hnone := fieldValue?_blanks hname fun c hc => hblank c (ht.subset hc)
  rw [fieldAt?, fieldAt?, fieldValue?_comma hname.comma_not_mem, hnone]
  rfl

variable (f : LoneField) (hread : ReadsAlone read f.value)

include hread

/-- Where a name is found in a field at all, the field's value is read. -/
theorem LoneField.fieldAt?_of_suffix {t : List Char} (ht : t <:+ f.text) :
    fieldAt? read name t = (fieldValue? name t).bind fun _ => read f.value := by
  have hstop := stopsDigits_blanks f.layout.isBlank_trail (stopsBefore_nil isDecimalDigit)
  rw [List.append_nil] at hstop
  rw [fieldAt?]
  cases h : fieldValue? name t with
  | none => rfl
  | some found =>
    obtain ⟨-, rfl⟩ := f.suffix_of_fieldValue? hname ht h
    exact hread f.layout.trail hstop

/-- What a field shows does not depend on what stands behind a comma. -/
theorem LoneField.settled_fieldAt? : Settled (fieldAt? read name) f.text := by
  intro t ht rest
  rw [f.fieldAt?_of_suffix hname hread ht, fieldAt?, fieldValue?_comma hname.comma_not_mem]
  cases h : fieldValue? name t with
  | none => rfl
  | some found =>
    obtain ⟨-, rfl⟩ := f.suffix_of_fieldValue? hname ht h
    have hstop := stopsDigits_blanks f.layout.isBlank_trail
      (stopsBefore_cons (p := isDecimalDigit) (c := ',') (by decide) rest)
    rw [Option.map_some, Option.bind_some, Option.bind_some, List.append_assoc]
    exact hread _ hstop

/-- A field shows its value under its own name, and nothing under a name that its own name does not
end in. -/
theorem LoneField.search_text (hends : name.toList <:+ f.name → f.name = name.toList) :
    search (fieldAt? read name) f.text = if f.name = name.toList then read f.value else none := by
  have hnone : (∀ t, t <:+ f.text → fieldAt? read name t = none) →
      search (fieldAt? read name) f.text = none := fun h =>
    search_eq_none (fun t _ ht => by rw [List.append_nil]; exact h t ht) (h [] List.nil_suffix)
  split
  · next hsame =>
    cases hfound : read f.value with
    | none =>
      refine hnone fun t ht => ?_
      rw [f.fieldAt?_of_suffix hname hread ht, hfound]
      exact Option.bind_fun_none _
    | some found =>
      have hblank : ∀ c s, isBlank c = true → fieldAt? read name (c :: s) = none := by
        intro c s hc
        obtain ⟨n, more, hn⟩ := List.exists_cons_of_ne_nil hname.ne_nil
        have hne := ne_of_isBlank hc (hname.not_isBlank n (by rw [hn]; exact List.mem_cons_self))
        rw [fieldAt?, fieldValue?_cons_eq_none hn hne]
        rfl
      refine f.layout.search_field hblank ?_
      obtain ⟨c, more, hvalue, hc⟩ := f.isLoneValue.head
      have hsuffix : name.toList ++ (f.layout.blank ++ '=' :: (f.layout.gap ++
          (f.value ++ f.layout.trail))) <:+ f.text := by
        rw [LoneField.text, Layout.field, hsame]
        exact List.suffix_append _ _
      rw [hsame, f.fieldAt?_of_suffix hname hread hsuffix, hvalue, List.cons_append,
        fieldValue?_spaced name f.layout.isBlank_blank f.layout.isBlank_gap hc, Option.bind_some,
        ← hvalue, hfound]
  · next hne =>
    refine hnone fun t ht => ?_
    rw [fieldAt?]
    cases h : fieldValue? name t with
    | none => rfl
    | some found => exact absurd (hends (f.suffix_of_fieldValue? hname ht h).1) hne

end

/-- Among fields of which no name ends in another one, what is found under a name is what the first
field of that name shows; white space behind a last comma shows nothing. -/
theorem search_fields {α : Type} {read : List Char → Option α} {name : String}
    (hname : IsPlainName name.toList) {fields : List LoneField}
    (hread : ∀ f ∈ fields, ReadsAlone read f.value)
    (hends : ∀ f ∈ fields, name.toList <:+ f.name → f.name = name.toList)
    {trail : Option (List Char)} (htrail : ∀ blank ∈ trail, ∀ c ∈ blank, isBlank c = true) :
    search (fieldAt? read name) (joined (fields.map LoneField.text ++ trail.toList)) =
      (fields.filter (·.name = name.toList)).findSome? fun f => read f.value := by
  have hsettled : ∀ part ∈ fields.map LoneField.text ++ trail.toList,
      Settled (fieldAt? read name) part := by
    intro part hpart
    rcases List.mem_append.1 hpart with hpart | hpart
    · obtain ⟨f, hf, rfl⟩ := List.mem_map.1 hpart
      exact f.settled_fieldAt? hname (hread f hf)
    · exact settled_fieldAt?_blanks hname (htrail part (Option.mem_toList.1 hpart))
  have hblank : trail.toList.findSome? (search (fieldAt? read name)) = none :=
    List.findSome?_eq_none_iff.2 fun blank hb =>
      search_fieldAt?_blanks hname (htrail blank (Option.mem_toList.1 hb))
  rw [search_joined hsettled (fieldAt?_blanks hname (List.forall_mem_nil _)),
    List.findSome?_append, hblank, Option.or_none, List.findSome?_map]
  clear hsettled
  induction fields with
  | nil => rfl
  | cons f fields ih =>
    obtain ⟨hreadHead, hreadRest⟩ := List.forall_mem_cons.1 hread
    obtain ⟨hendsHead, hendsRest⟩ := List.forall_mem_cons.1 hends
    rw [List.findSome?_cons, ih hreadRest hendsRest, Function.comp_apply,
      f.search_text hname hreadHead hendsHead, List.filter_cons]
    by_cases hsame : f.name = name.toList
    · rw [if_pos hsame, if_pos (decide_eq_true hsame), List.findSome?_cons]
    · rw [if_neg hsame, if_neg (by simpa using hsame)]

end ModAlmanac.Source
