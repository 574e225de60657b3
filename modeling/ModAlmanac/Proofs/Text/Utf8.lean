import ModAlmanac.Text.Utf8

/-!
# Reading bytes that a text was written as

The bytes of a text are read back as its characters, none of them damaged (`parts_encode`). The
proof goes by the number of bytes of a character: the first byte tells how many follow and bounds
the next one (`start_of_two`, `start_of_three`, `start_of_four`), and every further byte brings six
bits of the code point (`partsFrom_more`, `partsFrom_last`).
-/

namespace ModAlmanac.Text.Utf8

variable {surrogates : Bool} {b : UInt8} {rest : List UInt8}

/-! ## First bytes -/

theorem start_of_one (h : b.toNat < 0x80) :
    start surrogates b = .inl (.char (charOfCode b.toNat)) := by
  unfold start
  exact if_pos (UInt8.lt_iff_toNat_lt.2 h)

theorem start_of_two (hlow : 0xC2 ≤ b.toNat) (hhigh : b.toNat < 0xE0) :
    start surrogates b = .inr
      { bytes := [b], code := b.toNat - 0xC0, missing := 1, low := 0x80, high := 0xBF } := by
  unfold start
  simp only [UInt8.lt_iff_toNat_lt, UInt8.toNat_ofNat]
  rw [if_neg (by omega), if_neg (by omega), if_pos (by omega)]

theorem start_of_three (hlow : 0xE0 ≤ b.toNat) (hhigh : b.toNat < 0xF0) :
    start surrogates b = .inr
      { bytes := [b]
        code := b.toNat - 0xE0
        missing := 2
        low := if b.toNat = 0xE0 then 0xA0 else 0x80
        high := if b.toNat = 0xED ∧ surrogates = false then 0x9F else 0xBF } := by
  unfold start
  simp only [UInt8.lt_iff_toNat_lt, ← UInt8.toNat_inj, UInt8.toNat_ofNat]
  rw [if_neg (by omega), if_neg (by omega), if_neg (by omega)]
  by_cases hfirst : b.toNat = 0xE0
  · simp [hfirst]
  · by_cases hsurrogate : b.toNat = 0xED
    · cases surrogates <;> simp [hsurrogate]
    · simp [hfirst, hsurrogate, hhigh]

theorem start_of_four (hlow : 0xF0 ≤ b.toNat) (hhigh : b.toNat < 0xF5) :
    start surrogates b = .inr
      { bytes := [b]
        code := b.toNat - 0xF0
        missing := 3
        low := if b.toNat = 0xF0 then 0x90 else 0x80
        high := if b.toNat = 0xF4 then 0x8F else 0xBF } := by
  unfold start
  simp only [UInt8.lt_iff_toNat_lt, ← UInt8.toNat_inj, UInt8.toNat_ofNat]
  rw [if_neg (by omega), if_neg (by omega), if_neg (by omega), if_neg (by omega),
    if_neg (by omega), if_neg (by omega)]
  by_cases hfirst : b.toNat = 0xF0
  · simp [hfirst]
  · by_cases hlast : b.toNat = 0xF4
    · simp [hlast]
    · have hmiddle : b.toNat < 0xF4 := by omega
      simp [hfirst, hlast, hmiddle]

/-! ## Further bytes -/

/-- A byte within the bounds adds its six bits. -/
theorem partsFrom_more {p : Pending} {more : Nat} (hlow : p.low.toNat ≤ b.toNat)
    (hhigh : b.toNat ≤ p.high.toNat) (hmissing : p.missing = more + 2) :
    partsFrom surrogates (some p) (b :: rest) =
      partsFrom surrogates
        (some { bytes := p.bytes ++ [b], code := p.code * 0x40 + (b.toNat - 0x80),
                missing := more + 1, low := 0x80, high := 0xBF }) rest := by
  rw [partsFrom, Pending.continue?]
  simp [UInt8.le_iff_toNat_le, hlow, hhigh, hmissing]

/-- The last byte completes the character. -/
theorem partsFrom_last {p : Pending} (hlow : p.low.toNat ≤ b.toNat) (hhigh : b.toNat ≤ p.high.toNat)
    (hmissing : p.missing = 1) :
    partsFrom surrogates (some p) (b :: rest) =
      .char (charOfCode (p.code * 0x40 + (b.toNat - 0x80))) :: partsFrom surrogates none rest := by
  rw [partsFrom, Pending.continue?]
  simp [UInt8.le_iff_toNat_le, hlow, hhigh, hmissing]

/-! ## Characters -/

/-- A character is no surrogate. -/
theorem toNat_lt_or_gt (c : Char) : c.toNat < 0xD800 ∨ 0xDFFF < c.toNat ∧ c.toNat < 0x110000 :=
  c.valid

theorem charOfCode_toNat (c : Char) : charOfCode c.toNat = c := by
  unfold charOfCode
  split
  · exact Char.ofNat_toNat c
  · next h => exact absurd c.valid h

theorem partsFrom_two {b₁ b₂ : UInt8} (h₁ : 0xC2 ≤ b₁.toNat) (h₁' : b₁.toNat < 0xE0)
    (h₂ : 0x80 ≤ b₂.toNat) (h₂' : b₂.toNat ≤ 0xBF) :
    partsFrom surrogates none (b₁ :: b₂ :: rest) =
      .char (charOfCode ((b₁.toNat - 0xC0) * 0x40 + (b₂.toNat - 0x80))) ::
        partsFrom surrogates none rest := by
  rw [partsFrom, start_of_two h₁ h₁']
  exact partsFrom_last h₂ h₂' rfl

/-- The second of three bytes is bounded so that no shorter form would do and no surrogate is
written. -/
theorem partsFrom_three {b₁ b₂ b₃ : UInt8} (h₁ : 0xE0 ≤ b₁.toNat) (h₁' : b₁.toNat < 0xF0)
    (h₂ : (if b₁.toNat = 0xE0 then 0xA0 else 0x80) ≤ b₂.toNat)
    (h₂' : b₂.toNat ≤ if b₁.toNat = 0xED then 0x9F else 0xBF)
    (h₃ : 0x80 ≤ b₃.toNat) (h₃' : b₃.toNat ≤ 0xBF) :
    partsFrom surrogates none (b₁ :: b₂ :: b₃ :: rest) =
      .char (charOfCode
        (((b₁.toNat - 0xE0) * 0x40 + (b₂.toNat - 0x80)) * 0x40 + (b₃.toNat - 0x80))) ::
          partsFrom surrogates none rest := by
  rw [partsFrom, start_of_three h₁ h₁']
  refine (partsFrom_more ?_ ?_ rfl).trans (partsFrom_last h₃ h₃' rfl)
  · rwa [apply_ite UInt8.toNat]
  · refine Nat.le_trans h₂' ?_
    cases surrogates <;> split <;> simp_all

/-- The second of four bytes is bounded so that no shorter form would do and the code point is
none too large. -/
theorem partsFrom_four {b₁ b₂ b₃ b₄ : UInt8} (h₁ : 0xF0 ≤ b₁.toNat) (h₁' : b₁.toNat < 0xF5)
    (h₂ : (if b₁.toNat = 0xF0 then 0x90 else 0x80) ≤ b₂.toNat)
    (h₂' : b₂.toNat ≤ if b₁.toNat = 0xF4 then 0x8F else 0xBF)
    (h₃ : 0x80 ≤ b₃.toNat) (h₃' : b₃.toNat ≤ 0xBF)
    (h₄ : 0x80 ≤ b₄.toNat) (h₄' : b₄.toNat ≤ 0xBF) :
    partsFrom surrogates none (b₁ :: b₂ :: b₃ :: b₄ :: rest) =
      .char (charOfCode
        ((((b₁.toNat - 0xF0) * 0x40 + (b₂.toNat - 0x80)) * 0x40 + (b₃.toNat - 0x80)) * 0x40 +
          (b₄.toNat - 0x80))) :: partsFrom surrogates none rest := by
  rw [partsFrom, start_of_four h₁ h₁']
  refine (partsFrom_more ?_ ?_ rfl).trans ?_
  · rwa [apply_ite UInt8.toNat]
  · rwa [apply_ite UInt8.toNat]
  · refine (partsFrom_more ?_ ?_ rfl).trans (partsFrom_last h₄ h₄' rfl)
    · exact h₃
    · exact h₃'

/-- The bytes of a character are read as that character. -/
theorem partsFrom_encodeChar (c : Char) :
    partsFrom surrogates none (String.utf8EncodeChar c ++ rest) =
      .char c :: partsFrom surrogates none rest := by
  have hc := charOfCode_toNat c
  have hvalid := toNat_lt_or_gt c
  have hbyte : ∀ m < 256, (UInt8.ofNat m).toNat = m := fun m hm => Nat.mod_eq_of_lt hm
  rw [String.utf8EncodeChar]
  change c.val.toNat < _ ∨ _ < c.val.toNat ∧ c.val.toNat < _ at hvalid
  change charOfCode c.val.toNat = c at hc
  generalize c.val.toNat = n at hc hvalid ⊢
  subst hc
  have hcode : ∀ {m}, m = n → Part.char (charOfCode m) :: partsFrom surrogates none rest =
      .char (charOfCode n) :: partsFrom surrogates none rest := fun h => by rw [h]
  split
  · next h =>
    have h₀ := hbyte n (by omega)
    rw [List.singleton_append, partsFrom, start_of_one (by omega), h₀]
  · split
    · next h =>
      have h₁ := hbyte (n / 64 % 32 + 192) (by omega)
      have h₂ := hbyte (n % 64 + 128) (by omega)
      exact (partsFrom_two (by omega) (by omega) (by omega) (by omega)).trans (hcode (by omega))
    · split
      · next h =>
        have h₁ := hbyte (n / 4096 % 16 + 224) (by omega)
        have h₂ := hbyte (n / 64 % 64 + 128) (by omega)
        have h₃ := hbyte (n % 64 + 128) (by omega)
        refine (partsFrom_three (by omega) (by omega) ?_ ?_ (by omega) (by omega)).trans
          (hcode (by omega))
        · split <;> omega
        · split <;> omega
      · have h₁ := hbyte (n / 262144 % 8 + 240) (by omega)
        have h₂ := hbyte (n / 4096 % 64 + 128) (by omega)
        have h₃ := hbyte (n / 64 % 64 + 128) (by omega)
        have h₄ := hbyte (n % 64 + 128) (by omega)
        refine (partsFrom_four (by omega) (by omega) ?_ ?_ (by omega) (by omega) (by omega)
          (by omega)).trans (hcode (by omega))
        · split <;> omega
        · split <;> omega

/-- The bytes of a text are read as its characters. -/
theorem parts_encode (surrogates : Bool) (s : List Char) :
    parts surrogates (encode s) = s.map .char := by
  unfold parts
  induction s with
  | nil => rfl
  | cons c s ih =>
    rw [encode, List.flatMap_cons, partsFrom_encodeChar, List.map_cons]
    exact congrArg _ ih

end ModAlmanac.Text.Utf8
