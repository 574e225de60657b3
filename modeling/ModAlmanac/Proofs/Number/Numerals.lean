import ModAlmanac.Number.Numeral
import ModAlmanac.Proofs.Number.Digits

/-!
# Numerals in parts

The parts of a numeral: a sign, a mantissa with or without a point, an exponent with a sign of its
own, or hexadecimal digits. Each part carries what makes it one, and its reader gives it back in
front of a text that does not go on with it (`Mantissa.decimalPart?_text`, `Hexadecimal.hexPart?_text`).
What a reader finds is such a part (`exists_decimal`, `exists_hexadecimal`), and a decimal numeral is
read as the double nearest to the decimal that it denotes (`floatOfText?_text`).
-/

namespace ModAlmanac.Number

open Text

/-! ## Runs at the front of a text -/

/-- A text that does not go on with a character of some kind. -/
def StopsBefore (p : Char → Bool) (rest : List Char) : Prop :=
  ∀ c, rest.head? = some c → p c = false

theorem stopsBefore_nil (p : Char → Bool) : StopsBefore p [] :=
  fun _ h => nomatch h

theorem stopsBefore_cons {p : Char → Bool} {c : Char} (h : p c = false) (rest : List Char) :
    StopsBefore p (c :: rest) := by
  intro d hd
  cases hd
  exact h

theorem takeWhile_append_of_stops {p : Char → Bool} {run rest : List Char}
    (hrun : ∀ c ∈ run, p c = true) (hrest : StopsBefore p rest) :
    (run ++ rest).takeWhile p = run := by
  rw [List.takeWhile_append_of_pos hrun]
  cases rest with
  | nil => rw [List.takeWhile_nil, List.append_nil]
  | cons c rest =>
    rw [List.takeWhile_cons_of_neg (by rw [hrest c rfl]; exact Bool.false_ne_true),
      List.append_nil]

theorem dropWhile_append_of_stops {p : Char → Bool} {run rest : List Char}
    (hrun : ∀ c ∈ run, p c = true) (hrest : StopsBefore p rest) :
    (run ++ rest).dropWhile p = rest := by
  rw [List.dropWhile_append_of_pos hrun]
  cases rest with
  | nil => rfl
  | cons c rest => rw [List.dropWhile_cons_of_neg (by rw [hrest c rfl]; exact Bool.false_ne_true)]

/-! ## Parts -/

inductive Sign where
  | absent
  | plus
  | minus
  deriving Repr, DecidableEq

def Sign.text : Sign → List Char
  | .absent => []
  | .plus => ['+']
  | .minus => ['-']

def Sign.apply (sign : Sign) (n : Nat) : Int :=
  if sign = .minus then -(n : Int) else n

/-- The digits of a decimal numeral, with a point in front of them, among them, behind them or
nowhere. -/
structure Mantissa where
  whole : List Char
  fraction : Option (List Char)
  isDigit_whole : ∀ c ∈ whole, isDecimalDigit c = true
  isDigit_fraction : ∀ c ∈ fraction.getD [], isDecimalDigit c = true
  ne_nil : whole ≠ [] ∨ fraction.getD [] ≠ []

/-- What stands behind the digits in front of the point. -/
def Mantissa.pointText (m : Mantissa) : List Char :=
  match m.fraction with
  | none => []
  | some digits => '.' :: digits

def Mantissa.text (m : Mantissa) : List Char :=
  m.whole ++ m.pointText

structure Exponent where
  isUpper : Bool
  sign : Sign
  digits : List Char
  ne_nil : digits ≠ []
  isDigit : ∀ c ∈ digits, isDecimalDigit c = true

def Exponent.mark (x : Exponent) : Char :=
  if x.isUpper then 'E' else 'e'

def Exponent.text (x : Exponent) : List Char :=
  x.mark :: (x.sign.text ++ x.digits)

def Exponent.value (x : Exponent) : Int :=
  x.sign.apply (digitsValue x.digits)

def powerText : Option Exponent → List Char
  | none => []
  | some x => x.text

/-- The decimal that a mantissa and an exponent denote. -/
def Mantissa.decimal (m : Mantissa) (x : Option Exponent) : Decimal :=
  { digits := digitsValue (m.whole ++ m.fraction.getD [])
    exponent := (x.map Exponent.value).getD 0 - (m.fraction.getD []).length }

/-- Hexadecimal digits behind their mark. -/
structure Hexadecimal where
  isUpper : Bool
  digits : List Char
  ne_nil : digits ≠ []
  isHex : ∀ c ∈ digits, isHexDigit c = true

def Hexadecimal.text (h : Hexadecimal) : List Char :=
  '0' :: (if h.isUpper then 'X' else 'x') :: h.digits

/-! ## Signs and exponents -/

/-- The sign at the front of a text, and the text behind it. -/
def Sign.read : List Char → Sign × List Char
  | '-' :: rest => (.minus, rest)
  | '+' :: rest => (.plus, rest)
  | s => (.absent, s)

theorem Sign.text_append_read (s : List Char) : (read s).1.text ++ (read s).2 = s := by
  unfold read
  split <;> rfl

/-- Whether a text begins with no sign, so that it can stand behind one or behind none. -/
def Unsigned (s : List Char) : Prop :=
  s.head? ≠ some '-' ∧ s.head? ≠ some '+'

theorem Sign.read_of_unsigned {s : List Char} (hs : Unsigned s) : read s = (.absent, s) := by
  unfold read
  split
  · exact absurd rfl hs.1
  · exact absurd rfl hs.2
  · rfl

theorem Sign.read_append (sign : Sign) {s : List Char} (hs : Unsigned s) :
    read (sign.text ++ s) = (sign, s) := by
  cases sign with
  | plus => rfl
  | minus => rfl
  | absent => exact read_of_unsigned hs

theorem sign_cases (s : List Char) :
    (∃ rest, s = '-' :: rest) ∨ (∃ rest, s = '+' :: rest) ∨ Unsigned s := by
  by_cases hminus : s.head? = some '-'
  · exact .inl ⟨_, List.eq_cons_of_mem_head? hminus⟩
  · by_cases hplus : s.head? = some '+'
    · exact .inr (.inl ⟨_, List.eq_cons_of_mem_head? hplus⟩)
    · exact .inr (.inr ⟨hminus, hplus⟩)

theorem splitSign_eq (s : List Char) :
    splitSign s = (decide ((Sign.read s).1 = .minus), (Sign.read s).2) := by
  rcases sign_cases s with ⟨rest, rfl⟩ | ⟨rest, rfl⟩ | hs
  · rfl
  · rfl
  · rw [Sign.read_of_unsigned hs]
    unfold splitSign
    split
    · exact absurd rfl hs.1
    · exact absurd rfl hs.2
    · rfl

theorem exponentPart?_eq (e : Char) (s : List Char) :
    exponentPart? (e :: s) =
      if e = 'e' || e = 'E' then
        match (Sign.read s).2.takeWhile isDecimalDigit with
        | [] => none
        | run => some (e :: ((Sign.read s).1.text ++ run), (Sign.read s).2.dropWhile isDecimalDigit)
      else none := by
  rcases sign_cases s with ⟨rest, rfl⟩ | ⟨rest, rfl⟩ | hs
  · rfl
  · rfl
  · rw [Sign.read_of_unsigned hs]
    unfold exponentPart?
    split
    · next heq => cases heq
    · next heq =>
      cases heq
      split
      · split
        next heq =>
          split at heq
          · exact absurd rfl hs.1
          · exact absurd rfl hs.2
          · cases heq
            rfl
      · rfl

theorem unsigned_cons {c : Char} (hc : isDecimalDigit c = true) (s : List Char) :
    Unsigned (c :: s) := by
  constructor
  · rintro ⟨⟩
    exact absurd hc (by decide)
  · rintro ⟨⟩
    exact absurd hc (by decide)

theorem Exponent.unsigned (x : Exponent) (rest : List Char) : Unsigned (x.digits ++ rest) := by
  obtain ⟨c, more, hdigits⟩ := List.exists_cons_of_ne_nil x.ne_nil
  rw [hdigits]
  exact unsigned_cons (x.isDigit c (by rw [hdigits]; exact List.mem_cons_self)) _

theorem exponentPart?_append (x : Exponent) {rest : List Char}
    (hrest : StopsBefore isDecimalDigit rest) :
    exponentPart? (x.text ++ rest) = some (x.text, rest) := by
  have hmark : (x.mark = 'e' || x.mark = 'E') = true := by
    unfold Exponent.mark
    split <;> rfl
  obtain ⟨c, more, hdigits⟩ := List.exists_cons_of_ne_nil x.ne_nil
  rw [Exponent.text, List.cons_append, List.append_assoc, exponentPart?_eq, if_pos hmark,
    Sign.read_append x.sign (x.unsigned rest)]
  dsimp only
  rw [takeWhile_append_of_stops x.isDigit hrest, dropWhile_append_of_stops x.isDigit hrest, hdigits]

theorem exists_exponent {s run rest : List Char} (h : exponentPart? s = some (run, rest)) :
    ∃ x : Exponent, run = x.text ∧ s = run ++ rest := by
  cases s with
  | nil => cases h
  | cons e s =>
    rw [exponentPart?_eq] at h
    split at h
    · next hmark =>
      have hsplit := Sign.text_append_read s
      have hdigits := List.takeWhile_append_dropWhile (p := isDecimalDigit) (l := (Sign.read s).2)
      split at h
      · cases h
      · next hne =>
        cases h
        refine ⟨⟨decide (e = 'E'), (Sign.read s).1, _, hne, fun c hc => ?_⟩, ?_, ?_⟩
        · exact List.all_eq_true.1 List.all_takeWhile c hc
        · have : (if decide (e = 'E') = true then 'E' else 'e') = e := by
            by_cases hE : e = 'E'
            · simp [hE]
            · have he : e = 'e' := by simpa [hE] using hmark
              simp [he]
          rw [Exponent.text, Exponent.mark, this]
        · rw [List.cons_append, List.append_assoc, hdigits, hsplit]
    · cases h

/-! ## Mantissas -/

/-- What can stand behind a mantissa: no more digits, and no point. -/
structure EndsMantissa (rest : List Char) : Prop where
  stops : StopsBefore isDecimalDigit rest
  noPoint : rest.head? ≠ some '.'

theorem Mantissa.takeWhile_text (m : Mantissa) {rest : List Char} (hrest : EndsMantissa rest) :
    (m.text ++ rest).takeWhile isDecimalDigit = m.whole ∧
      (m.text ++ rest).dropWhile isDecimalDigit = m.pointText ++ rest := by
  have hstops : StopsBefore isDecimalDigit (m.pointText ++ rest) := by
    unfold pointText
    split
    · exact hrest.stops
    · exact stopsBefore_cons (by decide) _
  rw [text, List.append_assoc]
  exact ⟨takeWhile_append_of_stops m.isDigit_whole hstops,
    dropWhile_append_of_stops m.isDigit_whole hstops⟩

theorem eq_of_noPoint {α : Type} (f g : List Char → α) (s : List Char) :
    s.head? ≠ some '.' →
      (match s with
        | '.' :: more => f more
        | s => g s) = g s := by
  intro h
  split
  · exact absurd rfl h
  · rfl

theorem Mantissa.takeWhile_fraction {m : Mantissa} {digits : List Char}
    (h : m.fraction = some digits) {rest : List Char} (hrest : EndsMantissa rest) :
    (digits ++ rest).takeWhile isDecimalDigit = digits ∧
      (digits ++ rest).dropWhile isDecimalDigit = rest := by
  have hdigits : ∀ c ∈ digits, isDecimalDigit c = true := by
    simpa [h] using m.isDigit_fraction
  exact ⟨takeWhile_append_of_stops hdigits hrest.stops,
    dropWhile_append_of_stops hdigits hrest.stops⟩

/-- A mantissa is read, and with it the exponent behind it, which can be asked not to follow a
mantissa that begins with its point. -/
theorem Mantissa.decimalPart?_append (m : Mantissa) (pointExponent : Bool) {rest : List Char}
    (hrest : EndsMantissa rest) :
    decimalPart? pointExponent (m.text ++ rest) =
      match exponentPart? rest with
      | some (exponent, after) =>
        if pointExponent || !m.whole.isEmpty then some (m.text ++ exponent, after)
        else some (m.text, rest)
      | none => some (m.text, rest) := by
  obtain ⟨htake, hdrop⟩ := m.takeWhile_text hrest
  unfold decimalPart?
  rw [htake, hdrop]
  rcases Decidable.em (m.whole = []) with hwhole | hwhole
  · cases h : m.fraction with
    | none =>
      have := m.ne_nil
      simp [hwhole, h] at this
    | some digits =>
      have hne : digits ≠ [] := by
        have := m.ne_nil
        simpa [hwhole, h] using this
      obtain ⟨htake, hdrop⟩ := takeWhile_fraction h hrest
      obtain ⟨c, more, rfl⟩ := List.exists_cons_of_ne_nil hne
      have htext : m.text = '.' :: c :: more := by simp [text, pointText, hwhole, h]
      rw [hwhole, htext]
      simp only [List.cons_append] at htake hdrop ⊢
      simp only [htake, hdrop]
      cases pointExponent <;> cases exponentPart? rest <;> rfl
  · obtain ⟨c, more, hcons⟩ := List.exists_cons_of_ne_nil hwhole
    rw [hcons]
    cases h : m.fraction with
    | some digits =>
      obtain ⟨htake, hdrop⟩ := takeWhile_fraction h hrest
      have hpoint : m.pointText = '.' :: digits := by simp [pointText, h]
      rw [text, hpoint, hcons]
      simp only [List.cons_append, htake, hdrop]
      cases exponentPart? rest <;> simp
    | none =>
      have hpoint : m.pointText = [] := by simp [pointText, h]
      rw [text, hpoint, hcons]
      have hbehind := eq_of_noPoint
        (fun more' =>
          (c :: more ++ '.' :: more'.takeWhile isDecimalDigit, more'.dropWhile isDecimalDigit))
        (fun rest => (c :: more, rest)) rest hrest.noPoint
      simp only [List.nil_append, List.append_nil, List.isEmpty_cons, Bool.not_false, Bool.or_true,
        if_true]
      exact congrArg (fun parts : List Char × List Char =>
        match exponentPart? parts.2 with
        | some (exponent, after) => some (parts.1 ++ exponent, after)
        | none => some parts) hbehind

theorem Exponent.mark_cases (x : Exponent) : x.mark = 'e' ∨ x.mark = 'E' := by
  unfold mark
  split
  · exact .inr rfl
  · exact .inl rfl

theorem Exponent.endsMantissa (x : Exponent) (rest : List Char) : EndsMantissa (x.mark :: rest) := by
  rcases x.mark_cases with h | h
  · rw [h]
    exact ⟨stopsBefore_cons (by decide) _, by simp⟩
  · rw [h]
    exact ⟨stopsBefore_cons (by decide) _, by simp⟩

/-- What can stand behind a numeral: nothing that it goes on with. -/
structure EndsNumeral (rest : List Char) : Prop extends EndsMantissa rest where
  noPower : exponentPart? rest = none

theorem endsNumeral_nil : EndsNumeral [] where
  stops := stopsBefore_nil _
  noPoint := by simp
  noPower := rfl

theorem EndsNumeral.endsMantissa {rest : List Char} (h : EndsNumeral rest) (x : Option Exponent) :
    EndsMantissa (powerText x ++ rest) := by
  cases x with
  | none => exact h.toEndsMantissa
  | some x => exact x.endsMantissa _

theorem Mantissa.mem_text {m : Mantissa} {c : Char} (hc : c ∈ m.text) :
    isDecimalDigit c = true ∨ c = '.' := by
  rcases List.mem_append.1 hc with h | h
  · exact .inl (m.isDigit_whole c h)
  · unfold pointText at h
    split at h
    · cases h
    · next digits hfraction =>
      rcases List.mem_cons.1 h with rfl | h
      · exact .inr rfl
      · exact .inl (m.isDigit_fraction c (by simpa [hfraction] using h))

theorem Mantissa.text_ne_nil (m : Mantissa) : m.text ≠ [] := by
  intro h
  obtain ⟨hwhole, hpoint⟩ := List.append_eq_nil_iff.1 h
  rcases m.ne_nil with hne | hne
  · exact hne hwhole
  · unfold pointText at hpoint
    split at hpoint
    · next hfraction => exact hne (by rw [hfraction]; rfl)
    · cases hpoint

theorem Mantissa.unsigned (m : Mantissa) (rest : List Char) : Unsigned (m.text ++ rest) := by
  obtain ⟨c, more, htext⟩ := List.exists_cons_of_ne_nil m.text_ne_nil
  have hc := mem_text (m := m) (c := c) (by simp [htext])
  rw [htext]
  constructor
  · rintro ⟨⟩
    exact absurd hc (by decide)
  · rintro ⟨⟩
    exact absurd hc (by decide)

/-- A decimal numeral is read from in front of what ends it. -/
theorem Mantissa.decimalPart?_text (m : Mantissa) {x : Option Exponent} {pointExponent : Bool}
    (hx : x = none ∨ pointExponent = true ∨ m.whole ≠ []) {rest : List Char}
    (hrest : EndsNumeral rest) :
    decimalPart? pointExponent (m.text ++ (powerText x ++ rest)) =
      some (m.text ++ powerText x, rest) := by
  rw [m.decimalPart?_append pointExponent (hrest.endsMantissa x)]
  cases x with
  | none => simp [powerText, hrest.noPower]
  | some x =>
    have htakes : (pointExponent || !m.whole.isEmpty) = true := by
      simpa using hx
    rw [powerText, exponentPart?_append x hrest.stops]
    simp only [htakes, if_true]

/-- Digits without a point. -/
def wholeMantissa (digits : List Char) (hne : digits ≠ [])
    (hdigits : ∀ c ∈ digits, isDecimalDigit c = true) : Mantissa where
  whole := digits
  fraction := none
  isDigit_whole := hdigits
  isDigit_fraction := by simp
  ne_nil := .inl hne

theorem wholeMantissa_text {digits : List Char} (hne : digits ≠ [])
    (hdigits : ∀ c ∈ digits, isDecimalDigit c = true) :
    (wholeMantissa digits hne hdigits).text = digits :=
  List.append_nil digits

/-- A mantissa with what the reader of exponents makes of the text behind it. -/
theorem exists_power {m : Mantissa} (takes : Bool) {run behind rest : List Char}
    (h : (match exponentPart? behind with
      | some (exponent, after) =>
        if takes then some (m.text ++ exponent, after) else some (m.text, behind)
      | none => some (m.text, behind)) = some (run, rest)) :
    ∃ x, run = m.text ++ powerText x ∧ m.text ++ behind = run ++ rest ∧
      (x = none ∨ takes = true) := by
  split at h
  · next hexponent =>
    split at h
    · next htakes =>
      cases h
      obtain ⟨x, rfl, rfl⟩ := exists_exponent hexponent
      exact ⟨some x, rfl, by rw [List.append_assoc], .inr htakes⟩
    · cases h
      exact ⟨none, (List.append_nil _).symm, rfl, .inl rfl⟩
  · cases h
    exact ⟨none, (List.append_nil _).symm, rfl, .inl rfl⟩

/-- What is read as a decimal numeral is a mantissa with an exponent or without one. -/
theorem exists_decimal {pointExponent : Bool} {s run rest : List Char}
    (h : decimalPart? pointExponent s = some (run, rest)) :
    ∃ (m : Mantissa) (x : Option Exponent), run = m.text ++ powerText x ∧ s = run ++ rest ∧
      (x = none ∨ pointExponent = true ∨ m.whole ≠ []) := by
  have htaken : ∀ t : List Char, ∀ c ∈ t.takeWhile isDecimalDigit, isDecimalDigit c = true :=
    fun t c hc => List.all_eq_true.1 List.all_takeWhile c hc
  unfold decimalPart? at h
  split at h
  · split at h
    · next more _ =>
      split at h
      · cases h
      · next hne =>
        obtain ⟨x, hrun, hsplit, hx⟩ := exists_power (m := ⟨[], some (more.takeWhile isDecimalDigit),
          nofun, htaken more, .inr hne⟩) pointExponent h
        refine ⟨_, x, hrun, ?_, hx.imp_right .inl⟩
        rw [← hsplit]
        simp [Mantissa.text, Mantissa.pointText]
    · cases h
  · next hne =>
    have hsplit := List.takeWhile_append_dropWhile (p := isDecimalDigit) (l := s)
    by_cases hpoint : (s.dropWhile isDecimalDigit).head? = some '.'
    · obtain ⟨more, hmore⟩ : ∃ more, s.dropWhile isDecimalDigit = '.' :: more :=
        ⟨_, List.eq_cons_of_mem_head? hpoint⟩
      rw [hmore] at h hsplit
      obtain ⟨x, hrun, hbehind, -⟩ := exists_power (m := ⟨s.takeWhile isDecimalDigit,
        some (more.takeWhile isDecimalDigit), htaken s, htaken more, .inl hne⟩) true h
      refine ⟨_, x, hrun, hsplit.symm.trans ?_, .inr (.inr hne)⟩
      rw [← hbehind]
      simp [Mantissa.text, Mantissa.pointText]
    · have hwhole := eq_of_noPoint
        (fun more =>
          (s.takeWhile isDecimalDigit ++ '.' :: more.takeWhile isDecimalDigit,
            more.dropWhile isDecimalDigit))
        (fun rest => (s.takeWhile isDecimalDigit, rest)) _ hpoint
      have hparts := congrArg (fun parts : List Char × List Char =>
        match exponentPart? parts.2 with
        | some (exponent, after) => some (parts.1 ++ exponent, after)
        | none => some parts) hwhole
      have htext := wholeMantissa_text hne (htaken s)
      obtain ⟨x, hrun, hbehind, -⟩ := exists_power (m := wholeMantissa _ hne (htaken s)) true
        (by rw [htext]; exact hparts.symm.trans h)
      exact ⟨_, x, hrun, by rw [← hbehind, htext, hsplit], .inr (.inr hne)⟩

/-! ## The double that a numeral denotes -/

theorem signedDigitsValue_append (sign : Sign) {s : List Char} (hs : Unsigned s) :
    signedDigitsValue (sign.text ++ s) = sign.apply (digitsValue s) := by
  rw [signedDigitsValue, splitSign_eq, Sign.read_append sign hs]
  simp [Sign.apply]

/-- The digits in front of an exponent are passed, and the exponent is read. -/
theorem Mantissa.exponent_value (m : Mantissa) (x : Option Exponent) :
    (match ((m.pointText ++ powerText x).dropWhile fun c => c ≠ 'e' && c ≠ 'E') with
      | _ :: exponent => signedDigitsValue exponent
      | [] => 0) = (x.map Exponent.value).getD 0 := by
  have hpass : ∀ c ∈ m.pointText, (decide (c ≠ 'e') && decide (c ≠ 'E')) = true := by
    intro c hc
    have hdigit := mem_text (m := m) (c := c) (List.mem_append_right _ hc)
    rw [Bool.and_eq_true, decide_eq_true_iff, decide_eq_true_iff]
    constructor
    · rintro rfl
      exact absurd hdigit (by decide)
    · rintro rfl
      exact absurd hdigit (by decide)
  rw [List.dropWhile_append_of_pos hpass]
  cases x with
  | none => rfl
  | some x =>
    have hstop : ¬ (decide (x.mark ≠ 'e') && decide (x.mark ≠ 'E')) = true := by
      rcases x.mark_cases with h | h <;> simp [h]
    have hunsigned := x.unsigned []
    rw [List.append_nil] at hunsigned
    rw [powerText, Exponent.text,
      List.dropWhile_cons_of_neg (p := fun c => c ≠ 'e' && c ≠ 'E') hstop]
    exact signedDigitsValue_append x.sign hunsigned

theorem floatOfText?_text (sign : Sign) (m : Mantissa) (x : Option Exponent) :
    floatOfText? (sign.text ++ (m.text ++ powerText x)) =
      some (ofMagnitude (decide (sign = .minus)) (m.decimal x).magnitude) := by
  have hends : EndsMantissa (powerText x) := by
    simpa using endsNumeral_nil.endsMantissa x
  have hpart : decimalPart? true (m.text ++ powerText x) = some (m.text ++ powerText x, []) := by
    simpa using m.decimalPart?_text (x := x) (.inr (.inl rfl)) endsNumeral_nil
  obtain ⟨htake, hdrop⟩ := m.takeWhile_text hends
  unfold floatOfText?
  rw [splitSign_eq, Sign.read_append sign (m.unsigned _)]
  dsimp only
  rw [hpart]
  dsimp only
  rw [htake, hdrop]
  have hdecimal : ∀ (fraction : List Char) (power : Int), fraction = m.fraction.getD [] →
      power = (x.map Exponent.value).getD 0 →
        ({ digits := digitsValue (m.whole ++ fraction), exponent := power - fraction.length } :
          Decimal) = m.decimal x := by
    rintro _ _ rfl rfl
    rfl
  refine congrArg
    (fun d : Decimal => some (ofMagnitude (decide (sign = .minus)) d.magnitude))
    (hdecimal _ _ ?_ (m.exponent_value x))
  cases hfraction : m.fraction with
  | none =>
    have hpoint : m.pointText = [] := by simp [Mantissa.pointText, hfraction]
    rw [hpoint, List.nil_append]
    exact eq_of_noPoint _ _ _ hends.noPoint
  | some digits =>
    have hpoint : m.pointText = '.' :: digits := by simp [Mantissa.pointText, hfraction]
    rw [hpoint]
    exact (Mantissa.takeWhile_fraction hfraction hends).1

theorem floatOfText?_signed (negative : Bool) (m : Mantissa) (x : Option Exponent) :
    floatOfText? ((if negative then ['-'] else []) ++ (m.text ++ powerText x)) =
      some (ofMagnitude negative (m.decimal x).magnitude) := by
  cases negative with
  | true => exact floatOfText?_text .minus m x
  | false => exact floatOfText?_text .absent m x

/-- A numeral that is read as a double has a sign, a mantissa and an exponent. -/
theorem exists_of_floatOfText? {s : List Char} {x : Float} (h : floatOfText? s = some x) :
    ∃ (sign : Sign) (m : Mantissa) (power : Option Exponent),
      s = sign.text ++ (m.text ++ powerText power) := by
  unfold floatOfText? at h
  rw [splitSign_eq] at h
  dsimp only at h
  split at h
  · next hdecimal =>
    obtain ⟨m, power, hrun, hs, -⟩ := exists_decimal hdecimal
    rw [List.append_nil] at hs
    exact ⟨(Sign.read s).1, m, power, by rw [← hrun, ← hs, Sign.text_append_read]⟩
  · cases h

/-! ## Hexadecimal numerals -/

theorem Hexadecimal.hexPart?_text (h : Hexadecimal) {rest : List Char}
    (hrest : StopsBefore isHexDigit rest) : hexPart? (h.text ++ rest) = some (h.text, rest) := by
  obtain ⟨isUpper, digits, hne, hhex⟩ := h
  have htake := takeWhile_append_of_stops hhex hrest
  have hdrop := dropWhile_append_of_stops hhex hrest
  obtain ⟨c, more, rfl⟩ := List.exists_cons_of_ne_nil hne
  rw [List.cons_append] at htake hdrop
  cases isUpper <;> simp [text, hexPart?, htake, hdrop]

/-- What is read as a hexadecimal numeral is one. -/
theorem exists_hexadecimal {s run rest : List Char} (h : hexPart? s = some (run, rest)) :
    ∃ hex : Hexadecimal, run = hex.text ∧ s = run ++ rest := by
  unfold hexPart? at h
  split at h
  · next x more =>
    split at h
    · next hx =>
      split at h
      · cases h
      · next hne =>
        cases h
        refine ⟨⟨decide (x = 'X'), _, hne, fun c hc => List.all_eq_true.1 List.all_takeWhile c hc⟩,
          ?_, ?_⟩
        · by_cases hX : x = 'X'
          · simp [Hexadecimal.text, hX]
          · have hx : x = 'x' := by simpa [hX] using hx
            simp [Hexadecimal.text, hx]
        · simp [List.takeWhile_append_dropWhile]
    · cases h
  · cases h

/-- A text that holds no letter `x` and has none behind it is not hexadecimal. -/
theorem hexPart?_eq_none {s rest : List Char} (hs : s ≠ []) (hlower : 'x' ∉ s) (hupper : 'X' ∉ s)
    (hrest : rest.head? ≠ some 'x' ∧ rest.head? ≠ some 'X') : hexPart? (s ++ rest) = none := by
  obtain ⟨c, more, rfl⟩ := List.exists_cons_of_ne_nil hs
  rw [List.cons_append]
  unfold hexPart?
  split
  · next x behind heq =>
    have hx : ¬ (decide (x = 'x') || decide (x = 'X')) = true := by
      simp only [Bool.or_eq_true, decide_eq_true_eq]
      cases more with
      | nil =>
        have hhead : rest.head? = some x := by
          rw [← List.nil_append rest, (List.cons.inj heq).2]
          rfl
        rintro (rfl | rfl)
        · exact hrest.1 hhead
        · exact hrest.2 hhead
      | cons d more =>
        obtain rfl : d = x := (List.cons.inj (List.cons.inj heq).2).1
        rintro (rfl | rfl)
        · exact hlower (by simp)
        · exact hupper (by simp)
    rw [if_neg hx]
  · rfl

/-! ## The characters of numerals -/

theorem not_mem_of_forall {p : Char → Bool} {s : List Char} (hs : ∀ c ∈ s, p c = true) {c : Char}
    (hc : p c = false) : c ∉ s := by
  intro hmem
  rw [hs c hmem] at hc
  cases hc

/-- Whether a decimal numeral can hold a character. -/
def isNumeralChar (c : Char) : Bool :=
  isDecimalDigit c || ['.', 'e', 'E', '+', '-'].contains c

theorem isNumeralChar_of_isDecimalDigit {c : Char} (h : isDecimalDigit c = true) :
    isNumeralChar c = true := by
  simp [isNumeralChar, h]

theorem isNumeralChar_sign {sign : Sign} : ∀ c ∈ sign.text, isNumeralChar c = true := by
  intro c hc
  cases sign with
  | absent => cases hc
  | plus =>
    rw [List.mem_singleton.1 hc, isNumeralChar]
    rfl
  | minus =>
    rw [List.mem_singleton.1 hc, isNumeralChar]
    rfl

theorem isNumeralChar_mantissa {m : Mantissa} : ∀ c ∈ m.text, isNumeralChar c = true := by
  intro c hc
  rcases Mantissa.mem_text hc with h | rfl
  · exact isNumeralChar_of_isDecimalDigit h
  · decide

theorem isNumeralChar_mark (x : Exponent) : isNumeralChar x.mark = true := by
  rcases x.mark_cases with h | h <;> rw [h] <;> decide

theorem isNumeralChar_powerText {x : Option Exponent} :
    ∀ c ∈ powerText x, isNumeralChar c = true := by
  cases x with
  | none => simp [powerText]
  | some x =>
    rw [powerText, Exponent.text]
    intro c hc
    rcases List.mem_cons.1 hc with rfl | hc
    · exact isNumeralChar_mark x
    · rcases List.mem_append.1 hc with hc | hc
      · exact isNumeralChar_sign c hc
      · exact isNumeralChar_of_isDecimalDigit (x.isDigit c hc)

theorem isNumeralChar_decimal {sign : Sign} {m : Mantissa} {x : Option Exponent} :
    ∀ c ∈ sign.text ++ (m.text ++ powerText x), isNumeralChar c = true := by
  intro c hc
  rcases List.mem_append.1 hc with hc | hc
  · exact isNumeralChar_sign c hc
  · rcases List.mem_append.1 hc with hc | hc
    · exact isNumeralChar_mantissa c hc
    · exact isNumeralChar_powerText c hc

theorem hexPart?_of_isNumeralChar {s rest : List Char} (hne : s ≠ [])
    (hs : ∀ c ∈ s, isNumeralChar c = true) (hrest : rest.head? ≠ some 'x' ∧ rest.head? ≠ some 'X') :
    hexPart? (s ++ rest) = none :=
  hexPart?_eq_none hne (not_mem_of_forall hs (by decide)) (not_mem_of_forall hs (by decide)) hrest

end ModAlmanac.Number
