import ModAlmanac.Proofs.Text.Utf8
import ModAlmanac.Text.Percent

/-!
# Reading percent coding

A coded text stands for a text wherever it occurs (`Codes`): what is made of coded texts stands for
what is made of their texts (`Codes.append`), so that a whole address is read by reading its parts.
A coded text has none of the characters that an address is cut at (`not_mem_encode`). The value of a
query is read in the same way once its plus signs are spaces again (`queryText_queryValue`).
-/

namespace ModAlmanac.Text.Percent

/-! ## Bytes -/

theorem hexValue?_hexDigit : ∀ n < 16, hexValue? (hexDigit n) = some n := by decide

theorem decodeBytes_encodeByte (b : UInt8) (rest : List Char) :
    decodeBytes (encodeByte b ++ rest) = b :: decodeBytes rest := by
  have hbyte := b.toNat_lt
  have hhigh := hexValue?_hexDigit (b.toNat / 16) (by omega)
  have hlow := hexValue?_hexDigit (b.toNat % 16) (by omega)
  have hsum : b.toNat / 16 * 16 + b.toNat % 16 = b.toNat := by omega
  change decodeBytes ('%' :: hexDigit (b.toNat / 16) :: hexDigit (b.toNat % 16) :: rest) = _
  rw [decodeBytes, hhigh, hlow]
  dsimp only
  rw [hsum, UInt8.ofNat_toNat]

theorem decodeBytes_encodeBytes (bytes : List UInt8) (rest : List Char) :
    decodeBytes (bytes.flatMap encodeByte ++ rest) = bytes ++ decodeBytes rest := by
  induction bytes with
  | nil => rfl
  | cons b bytes ih =>
    rw [List.flatMap_cons, List.append_assoc, decodeBytes_encodeByte, ih, List.cons_append]

theorem decodeBytes_cons {c : Char} (h : c ≠ '%') (rest : List Char) :
    decodeBytes (c :: rest) = Utf8.encode [c] ++ decodeBytes rest := by
  rw [decodeBytes]
  intro a b behind hc _
  exact h hc

/-! ## Texts -/

/-- A coded text stands for a text, whatever comes behind it. -/
def Codes (coded text : List Char) : Prop :=
  ∀ rest, decodeBytes (coded ++ rest) = Utf8.encode text ++ decodeBytes rest

theorem Codes.append {coded coded' text text' : List Char} (h : Codes coded text)
    (h' : Codes coded' text') : Codes (coded ++ coded') (text ++ text') := by
  intro rest
  rw [List.append_assoc, h, h', Utf8.encode, Utf8.encode, Utf8.encode, List.flatMap_append,
    List.append_assoc]

theorem codes_nil : Codes [] [] := fun _ => rfl

/-- Whatever is no percent sign stands for itself. -/
theorem codes_self {s : List Char} (h : '%' ∉ s) : Codes s s := by
  induction s with
  | nil => exact codes_nil
  | cons c s ih =>
    obtain ⟨hc, hs⟩ := not_or.1 (mt List.mem_cons.2 h)
    have hone : Codes [c] [c] := decodeBytes_cons (Ne.symm hc)
    exact hone.append (ih hs)

theorem codes_encodeChar {safe : Char → Bool} (h : safe '%' = false) (c : Char) :
    Codes (encodeChar safe c) [c] := by
  unfold encodeChar
  split
  · next hc =>
    refine codes_self fun hmem => ?_
    rw [← List.mem_singleton.1 hmem, h] at hc
    revert hc
    decide
  · intro rest
    rw [decodeBytes_encodeBytes]
    simp [Utf8.encode]

/-- The coded form of a text stands for it. -/
theorem codes_encode {safe : Char → Bool} (h : safe '%' = false) (s : List Char) :
    Codes (encode safe s) s := by
  induction s with
  | nil => exact codes_nil
  | cons c s ih => exact (codes_encodeChar h c).append ih

/-- Decoding gives the text that a coded one stands for. -/
theorem decode_of_codes {coded text : List Char} (h : Codes coded text) : decode coded = text := by
  have hbytes := h []
  have hnil : decodeBytes [] = [] := by rw [decodeBytes]
  rw [List.append_nil, hnil, List.append_nil] at hbytes
  rw [decode, hbytes, Utf8.parts_encode, List.flatMap_map]
  exact List.flatMap_singleton' text

/-! ## Characters of coded texts -/

theorem isUnreserved_hexDigit : ∀ n < 16, isUnreserved (hexDigit n) = true := by decide

theorem mem_encode {safe : Char → Bool} {s : List Char} {c : Char} (h : c ∈ encode safe s) :
    isUnreserved c = true ∨ safe c = true ∨ c = '%' := by
  obtain ⟨d, -, hd⟩ := List.mem_flatMap.1 h
  unfold encodeChar at hd
  split at hd
  · next hplain =>
    rw [List.mem_singleton.1 hd]
    rcases Bool.or_eq_true_iff.1 hplain with hplain | hplain
    · exact .inl hplain
    · exact .inr (.inl hplain)
  · obtain ⟨b, -, hb⟩ := List.mem_flatMap.1 hd
    have hbyte := b.toNat_lt
    rcases List.mem_cons.1 hb with rfl | hb
    · exact .inr (.inr rfl)
    · refine .inl ?_
      rcases List.mem_cons.1 hb with rfl | hb
      · exact isUnreserved_hexDigit _ (by omega)
      · rw [List.mem_singleton.1 hb]
        exact isUnreserved_hexDigit _ (by omega)

/-- A character that is coded is in no coded text. -/
theorem not_mem_encode {safe : Char → Bool} {c : Char} (hcoded : isUnreserved c = false)
    (hsafe : safe c = false) (hsign : c ≠ '%') (s : List Char) : c ∉ encode safe s := by
  intro h
  rcases mem_encode h with hplain | hplain | hplain
  · rw [hplain] at hcoded
    cases hcoded
  · rw [hplain] at hsafe
    cases hsafe
  · exact hsign hplain

theorem not_mem_encodeChar {safe : Char → Bool} {c : Char} (hcoded : isUnreserved c = false)
    (hsafe : safe c = false) (hsign : c ≠ '%') (d : Char) : c ∉ encodeChar safe d := by
  have h := not_mem_encode hcoded hsafe hsign [d]
  rwa [encode, List.flatMap_singleton] at h

/-! ## Values of queries -/

/-- The text that a value of a query stands for. -/
def queryText (s : List Char) : List Char :=
  decode (s.map fun c => if c = '+' then ' ' else c)

/-- The value of a query stands for a text once its plus signs are spaces again. -/
theorem codes_queryValue (s : List Char) :
    Codes ((queryValue s).map fun c => if c = '+' then ' ' else c) s := by
  induction s with
  | nil => exact codes_nil
  | cons c s ih =>
    have hone : Codes ((if c = ' ' then ['+'] else encodeChar (fun _ => false) c).map
        fun c => if c = '+' then ' ' else c) [c] := by
      split
      · next hspace =>
        rw [hspace]
        exact codes_self (by decide)
      · have hsame : ∀ d ∈ encodeChar (fun _ => false) c, (if d = '+' then ' ' else d) = id d := by
          rintro d hd
          refine if_neg ?_
          rintro rfl
          exact not_mem_encodeChar (by decide) rfl (by decide) c hd
        rw [List.map_congr_left hsame, List.map_id]
        exact codes_encodeChar rfl c
    rw [queryValue, List.flatMap_cons, List.map_append]
    exact hone.append ih

theorem queryText_queryValue (s : List Char) : queryText (queryValue s) = s :=
  decode_of_codes (codes_queryValue s)

theorem not_mem_queryValue {c : Char} (hcoded : isUnreserved c = false) (hplus : c ≠ '+')
    (hsign : c ≠ '%') (s : List Char) : c ∉ queryValue s := by
  intro h
  obtain ⟨d, -, hd⟩ := List.mem_flatMap.1 h
  split at hd
  · exact hplus (List.mem_singleton.1 hd)
  · exact not_mem_encodeChar hcoded rfl hsign d hd

end ModAlmanac.Text.Percent
