import CommandConsole.Binary64.Reading
import CommandConsole.Proofs.Binary64.Rounding

/-!
# Reading written decimals

The texts of decimals as a grammar: an optional sign, digits with an optional point among them, and
an optional exponent. Such a text denotes a rational number, and reading it gives what that number
is rounded to. The bounds on the exponent with which very small and very large decimals are told
early never make a difference.
-/

namespace CommandConsole.Binary64

open Magnitude

/-- The number that a decimal stands for. -/
def Decimal.value (d : Decimal) : ℚ :=
  Nat.ofDigitChars 10 d.digits 0 * 10 ^ d.exponent

section Rounding

variable {d : Decimal} {m : Magnitude} {negative : Bool}

/-- The value of a word of digits has at most that many digits. -/
theorem ofDigitChars_lt {digits : List Char} (h : ∀ c ∈ digits, c.isDigit = true) :
    Nat.ofDigitChars 10 digits 0 < 10 ^ digits.length := by
  induction digits with
  | nil => simp
  | cons c rest ih =>
    have hc := Char.isDigit_iff_toNat.mp (h c List.mem_cons_self)
    have hrest := ih fun c hc => h c (List.mem_cons_of_mem _ hc)
    have hdigit : c.toNat - '0'.toNat ≤ 9 := by
      have hnine : '9'.toNat = '0'.toNat + 9 := rfl
      omega
    rw [Nat.ofDigitChars_cons, Nat.ofDigitChars_eq_ofDigitChars_zero, Nat.mul_zero, Nat.zero_add,
      List.length_cons, Nat.pow_succ]
    have hle := Nat.mul_le_mul_left (10 ^ rest.length) hdigit
    omega

theorem isNearest_zero : IsNearest ⟨0, 0⟩ 0 := by
  have hzero : ofRatio? 0 1 = some ⟨0, 0⟩ := by decide +kernel
  have hnearest := (ofRatio?_eq_some_iff Nat.one_pos).mp hzero
  simpa using hnearest

/-- A number of at most half the least step of the format is rounded to zero. -/
theorem isNearest_zero_of_tiny {q : ℚ} (hq : 0 ≤ q) (hle : q * (2 * unitsPerOne) ≤ 1) :
    IsNearest ⟨0, 0⟩ q := by
  refine ⟨hq, isNearest_zero.proper, (contains_iff hq).mpr ?_⟩
  have hnonneg : 0 ≤ q * unitsPerOne := mul_nonneg hq Magnitude.unitsPerOne_pos.le
  have hreach : reach ⟨0, 0⟩ = 1 / 2 := if_neg (by decide)
  rw [if_pos (show Even 0 by decide), hreach]
  simp only [pow_zero, div_one, Nat.cast_zero]
  constructor <;> linarith

/-- What is rounded to a number of the format is below a bound. -/
theorem lt_of_isNearest {q : ℚ} (h : m.IsNearest q) : q < (10 ^ 400 : Nat) := by
  have hbound : 2 ^ (m.shift + 53) ≤ 10 ^ 400 * unitsPerOne := by
    refine (Nat.pow_le_pow_right (by decide) (Nat.add_le_add_right h.proper.shift_le 53)).trans ?_
    decide +kernel
  have hcast : (2 ^ (m.shift + 53) : ℚ) ≤ (10 ^ 400 : Nat) * unitsPerOne := by
    rw [← Nat.cast_mul]
    exact_mod_cast hbound
  exact lt_of_mul_lt_mul_right (h.lt_two_pow.trans_le hcast) Magnitude.unitsPerOne_pos.le

/-- Stated of the function: applied to numbers, the definition would be evaluated on them. -/
theorem ofRatio_def : ofRatio = fun negative num den =>
    match Magnitude.ofRatio? num den with
    | some m => .finite negative m
    | none => .infinite negative := by
  delta ofRatio
  exact rfl

theorem ofRatio_of_isNearest {num den : Nat} (hden : 0 < den) (h : m.IsNearest (num / den)) :
    ofRatio negative num den = .finite negative m := by
  rw [ofRatio_def]
  beta_reduce
  rw [(ofRatio?_eq_some_iff hden).mpr h]

/-- A decimal whose exponent lies far below its number of digits is less than half a step. -/
theorem Decimal.value_mul_le (hdigits : ∀ c ∈ d.digits, c.isDigit = true)
    (htiny : d.exponent < -(400 + d.digits.length : Int)) : d.value * (2 * unitsPerOne) ≤ 1 := by
  have hlt := ofDigitChars_lt hdigits
  have hsmall : d.value ≤ ((10 ^ 400 : Nat) : ℚ)⁻¹ := by
    calc d.value ≤ 10 ^ (d.digits.length : Int) * 10 ^ d.exponent := by
          refine mul_le_mul_of_nonneg_right ?_ (by positivity)
          exact_mod_cast hlt.le
      _ = 10 ^ (d.digits.length + d.exponent : Int) := (zpow_add₀ (by norm_num) _ _).symm
      _ ≤ 10 ^ (-(400 : Nat) : Int) := zpow_le_zpow_right₀ (by norm_num) (by omega)
      _ = ((10 ^ 400 : Nat) : ℚ)⁻¹ := by rw [zpow_neg, zpow_natCast, Nat.cast_pow, Nat.cast_ofNat]
  have hpower : (2 * unitsPerOne : ℚ) ≤ (10 ^ 400 : Nat) := by
    have hle : 2 * unitsPerOne ≤ 10 ^ 400 := by decide +kernel
    exact_mod_cast hle
  refine (mul_le_mul hsmall hpower ?_ ?_).trans inv_mul_le_one
  · exact mul_nonneg zero_le_two Magnitude.unitsPerOne_pos.le
  · exact inv_nonneg.mpr (Nat.cast_nonneg _)

/-- A decimal that is rounded to a number of the format is zero or has no great exponent. -/
theorem Decimal.exponent_le (h : m.IsNearest d.value)
    (hne : Nat.ofDigitChars 10 d.digits 0 ≠ 0) : d.exponent ≤ 400 := by
  by_contra hhuge
  have hlarge : ((10 ^ 400 : Nat) : ℚ) ≤ d.value := by
    calc ((10 ^ 400 : Nat) : ℚ) = 10 ^ ((400 : Nat) : Int) := by
          rw [zpow_natCast, Nat.cast_pow, Nat.cast_ofNat]
      _ ≤ 10 ^ d.exponent := zpow_le_zpow_right₀ (by norm_num) (by omega)
      _ ≤ d.value := by
          refine le_mul_of_one_le_left (by positivity) ?_
          exact_mod_cast Nat.one_le_iff_ne_zero.mpr hne
  exact absurd (lt_of_isNearest h) (not_lt_of_ge hlarge)

/-- A decimal is read as the number of the format to which it is rounded. -/
theorem ofDecimal_of_isNearest (hdigits : ∀ c ∈ d.digits, c.isDigit = true)
    (h : m.IsNearest d.value) : ofDecimal negative d = .finite negative m := by
  have hvalue : d.value = digitsValue d.digits * 10 ^ d.exponent := rfl
  have hexponent : digitsValue d.digits ≠ 0 → d.exponent ≤ 400 := Decimal.exponent_le h
  simp only [ofDecimal, Nat.pow_eq]
  generalize digitsValue d.digits = n at *
  by_cases hzero : n = 0
  · rw [hzero, Nat.cast_zero, zero_mul] at hvalue
    rw [hvalue] at h
    rw [if_pos (Or.inl hzero), h.unique isNearest_zero]
  · by_cases htiny : d.exponent < -(400 + d.digits.length : Int)
    · rw [if_pos (Or.inr htiny),
        h.unique (isNearest_zero_of_tiny h.nonneg (Decimal.value_mul_le hdigits htiny))]
    · rw [if_neg (not_or.mpr ⟨hzero, htiny⟩), if_neg (not_lt_of_ge (hexponent hzero))]
      by_cases hneg : d.exponent < 0
      · have hplaces : d.exponent = -(d.exponent.natAbs : Int) := by omega
        rw [if_pos hneg]
        refine ofRatio_of_isNearest (Nat.pow_pos (by decide)) ?_
        convert h using 1
        rw [hvalue, hplaces, zpow_neg, zpow_natCast, Int.natAbs_neg, Int.natAbs_natCast]
        push_cast
        rw [div_eq_mul_inv]
      · have hplaces : d.exponent = (d.exponent.natAbs : Int) := by omega
        rw [if_neg hneg]
        refine ofRatio_of_isNearest Nat.one_pos ?_
        convert h using 1
        rw [hvalue, hplaces, zpow_natCast, Int.natAbs_natCast]
        push_cast
        rw [div_one]

end Rounding

section Grammar

/-- The texts of a sign. -/
inductive SignText : Bool → List Char → Prop
  | absent : SignText false []
  | plus : SignText false ['+']
  | minus : SignText true ['-']

/-- The digits after the point, where the point may be missing. -/
inductive PointText : List Char → List Char → Prop
  | absent : PointText [] []
  | point {fraction : List Char} : (∀ c ∈ fraction, c.isDigit = true) →
      PointText fraction ('.' :: fraction)

/-- The texts of an exponent. -/
inductive ExponentText : Int → List Char → Prop
  | absent : ExponentText 0 []
  | marked {mark : Char} {negative : Bool} {sign digits : List Char} :
      mark = 'e' ∨ mark = 'E' → SignText negative sign → digits ≠ [] →
      (∀ c ∈ digits, c.isDigit = true) →
      ExponentText
        (if negative then -(Nat.ofDigitChars 10 digits 0 : Int) else Nat.ofDigitChars 10 digits 0)
        (mark :: (sign ++ digits))

/-- A text writes a decimal with a sign. -/
inductive Writes : List Char → Bool → Decimal → Prop
  | parts {negative : Bool} {sign whole fraction point exponent : List Char} {e : Int} :
      SignText negative sign → (∀ c ∈ whole, c.isDigit = true) → PointText fraction point →
      ExponentText e exponent → whole ++ fraction ≠ [] →
      Writes (sign ++ (whole ++ (point ++ exponent))) negative
        ⟨whole ++ fraction, e - fraction.length⟩

/-- A text denotes a number. -/
def Denotes (text : String) (q : ℚ) : Prop :=
  ∃ negative d, Writes text.toList negative d ∧ q = if negative then -d.value else d.value

variable {negative : Bool} {cs sign digits fraction point exponent rest : List Char} {c : Char}
  {e : Int} {d : Decimal}

theorem splitSign_append (hsign : SignText negative sign) (hc : c ≠ '-' ∧ c ≠ '+') :
    splitSign (sign ++ c :: rest) = (negative, c :: rest) := by
  cases hsign with
  | absent => simp [splitSign, hc.1, hc.2]
  | plus => rfl
  | minus => rfl

theorem not_sign_of_isDigit (hc : c.isDigit = true) : c ≠ '-' ∧ c ≠ '+' := by
  constructor
  · rintro rfl
    cases hc
  · rintro rfl
    cases hc

theorem readExponent?_of_text (h : ExponentText e exponent) : readExponent? exponent = some e := by
  cases h with
  | absent => rfl
  | @marked mark negative sign digits hmark hsign hne hdigits =>
    obtain ⟨c, rest, rfl⟩ := List.exists_cons_of_ne_nil hne
    have hc := not_sign_of_isDigit (hdigits c List.mem_cons_self)
    have hall : (c :: rest).all Char.isDigit = true := List.all_eq_true.mpr hdigits
    simp only [readExponent?, splitSign_append hsign hc]
    rw [if_pos hmark, if_pos ⟨hne, hall⟩]
    rfl

/-- The digits at the front of a text end where no digit follows. -/
theorem span_isDigit_append (hdigits : ∀ c ∈ digits, c.isDigit = true)
    (hrest : ∀ c ∈ rest.head?, c.isDigit = false) :
    (digits ++ rest).takeWhile Char.isDigit = digits ∧
      (digits ++ rest).dropWhile Char.isDigit = rest := by
  rw [List.takeWhile_append_of_pos hdigits, List.dropWhile_append_of_pos hdigits]
  cases rest with
  | nil => simp
  | cons c rest => simp [hrest c rfl]

theorem not_isDigit_head_exponent (h : ExponentText e exponent) :
    ∀ c ∈ exponent.head?, c.isDigit = false := by
  cases h with
  | absent => simp
  | marked hmark hsign hne hdigits =>
    intro c hc
    obtain rfl := Option.some_inj.mp hc
    rcases hmark with rfl | rfl <;> rfl

theorem not_isDigit_head_point (hpoint : PointText fraction point) (h : ExponentText e exponent) :
    ∀ c ∈ (point ++ exponent).head?, c.isDigit = false := by
  cases hpoint with
  | absent => exact not_isDigit_head_exponent h
  | point hfraction =>
    intro c hc
    obtain rfl := Option.some_inj.mp hc
    rfl

theorem splitFraction_append (hpoint : PointText fraction point) (h : ExponentText e exponent) :
    splitFraction (point ++ exponent) = (fraction, exponent) := by
  cases hpoint with
  | absent =>
    cases h with
    | absent => rfl
    | marked hmark hsign hne hdigits => rcases hmark with rfl | rfl <;> rfl
  | point hfraction =>
    obtain ⟨htake, hdrop⟩ := span_isDigit_append hfraction (not_isDigit_head_exponent h)
    rw [List.cons_append, splitFraction, htake, hdrop]

/-- The number that a text writes begins with a digit or a point. -/
theorem exists_cons_of_parts (hdigits : ∀ c ∈ digits, c.isDigit = true)
    (hpoint : PointText fraction point) (hne : digits ++ fraction ≠ []) :
    ∃ c rest, digits ++ (point ++ exponent) = c :: rest ∧ (c.isDigit = true ∨ c = '.') := by
  cases digits with
  | cons c rest => exact ⟨c, _, rfl, Or.inl (hdigits c List.mem_cons_self)⟩
  | nil =>
    cases hpoint with
    | absent => exact absurd rfl hne
    | point hfraction => exact ⟨'.', _, rfl, Or.inr rfl⟩

theorem toLower_eq_self (hc : c.isDigit = true ∨ c = '.') : c.toLower = c := by
  rcases hc with hdigit | rfl
  · have hnot : ¬ ('A'.val ≤ c.val ∧ c.val ≤ 'Z'.val) := by
      rintro ⟨hupper, -⟩
      have hnine : c.toNat ≤ 57 := (Char.isDigit_iff_toNat.mp hdigit).2
      have hletter : 65 ≤ c.toNat := UInt32.le_iff_toNat_le.mp hupper
      omega
    exact dif_neg hnot
  · decide

/-- No number is one of the words, which begin with a letter. -/
theorem isWord_eq_false (word : String) {letter : Char} {letters : List Char}
    (hword : word.toList = letter :: letters) (hletter : letter = 'n' ∨ letter = 'i')
    (hc : c.isDigit = true ∨ c = '.') : isWord word (c :: rest) = false := by
  have hne : c ≠ letter := by
    rintro rfl
    rcases hletter with rfl | rfl
    · rcases hc with hc | hc <;> cases hc
    · rcases hc with hc | hc <;> cases hc
  simp [isWord, hword, toLower_eq_self hc, hne]

/-- Reading a written decimal gives the number of the format for it. -/
theorem parse?_of_writes (h : Writes cs negative d) :
    parse? (String.ofList cs) = some (ofDecimal negative d) := by
  cases h with
  | @parts negative sign whole fraction point exponent e hsign hwhole hpoint hexponent hne =>
    obtain ⟨htake, hdrop⟩ := span_isDigit_append hwhole (not_isDigit_head_point hpoint hexponent)
    have hread : readDecimal? (whole ++ (point ++ exponent)) =
        some ⟨whole ++ fraction, e - fraction.length⟩ := by
      simp only [readDecimal?, htake, hdrop, splitFraction_append hpoint hexponent,
        readExponent?_of_text hexponent]
      rw [if_neg (by simpa using hne)]
      rfl
    obtain ⟨c, rest, hcons, hc⟩ : ∃ c rest, whole ++ (point ++ exponent) = c :: rest ∧
        (c.isDigit = true ∨ c = '.') := exists_cons_of_parts hwhole hpoint hne
    have hplain : c ≠ '-' ∧ c ≠ '+' := by
      rcases hc with hdigit | rfl
      · exact not_sign_of_isDigit hdigit
      · decide
    rw [hcons] at hread ⊢
    simp only [parse?, String.toList_ofList, splitSign_append hsign hplain,
      isWord_eq_false "nan" rfl (Or.inl rfl) hc, isWord_eq_false "inf" rfl (Or.inr rfl) hc,
      isWord_eq_false "infinity" rfl (Or.inr rfl) hc, hread]
    rfl

theorem isDigit_of_writes (h : Writes cs negative d) : ∀ c ∈ d.digits, c.isDigit = true := by
  cases h with
  | parts hsign hwhole hpoint hexponent hne =>
    intro c hc
    rcases List.mem_append.mp hc with hc | hc
    · exact hwhole c hc
    · cases hpoint with
      | absent => cases hc
      | point hfraction => exact hfraction c hc

/-- The characters of a written decimal. -/
def isDecimalChar (c : Char) : Bool :=
  c.isDigit || c ∈ ['+', '-', '.', 'e', 'E']

theorem isDecimalChar_of_sign (h : SignText negative sign) :
    ∀ c ∈ sign, isDecimalChar c = true := by
  cases h with
  | absent => exact List.forall_mem_nil _
  | plus => exact List.forall_mem_singleton.mpr rfl
  | minus => exact List.forall_mem_singleton.mpr rfl

theorem isDecimalChar_of_isDigit (h : c.isDigit = true) : isDecimalChar c = true := by
  rw [isDecimalChar, h, Bool.true_or]

theorem isDecimalChar_of_writes (h : Writes cs negative d) :
    ∀ c ∈ cs, isDecimalChar c = true := by
  cases h with
  | parts hsign hwhole hpoint hexponent hne =>
    intro c hc
    simp only [List.mem_append] at hc
    rcases hc with hc | hc | hc | hc
    · exact isDecimalChar_of_sign hsign c hc
    · exact isDecimalChar_of_isDigit (hwhole c hc)
    · cases hpoint with
      | absent => cases hc
      | point hfraction =>
        rcases List.mem_cons.mp hc with rfl | hc
        · decide
        · exact isDecimalChar_of_isDigit (hfraction c hc)
    · cases hexponent with
      | absent => cases hc
      | marked hmark hsign hdigits hall =>
        rcases List.mem_cons.mp hc with rfl | hc
        · rcases hmark with rfl | rfl <;> decide
        · rcases List.mem_append.mp hc with hc | hc
          · exact isDecimalChar_of_sign hsign c hc
          · exact isDecimalChar_of_isDigit (hall c hc)

theorem writes_digits (hsign : SignText negative sign) (hdigits : ∀ c ∈ digits, c.isDigit = true)
    (hne : digits ≠ []) : Writes (sign ++ digits) negative ⟨digits, 0⟩ := by
  have hparts := Writes.parts hsign hdigits .absent .absent (by simpa using hne)
  simpa using hparts

theorem writes_point (hsign : SignText negative sign) (hdigits : ∀ c ∈ digits, c.isDigit = true)
    (hfraction : ∀ c ∈ fraction, c.isDigit = true) (hne : digits ≠ []) :
    Writes (sign ++ (digits ++ '.' :: fraction)) negative
      ⟨digits ++ fraction, -fraction.length⟩ := by
  have hparts := Writes.parts hsign hdigits (.point hfraction) .absent (by simp [hne])
  simpa using hparts

theorem ofDigitChars_append_zero (digits fraction : List Char) :
    Nat.ofDigitChars 10 (digits ++ fraction) 0 =
      10 ^ fraction.length * Nat.ofDigitChars 10 digits 0 + Nat.ofDigitChars 10 fraction 0 := by
  rw [Nat.ofDigitChars_append]
  exact Nat.ofDigitChars_eq_ofDigitChars_zero

/-- Digits with a point among them denote the whole number in front of it and the fraction behind.
-/
theorem denotes_point {s t : List Char} (hs : ∀ c ∈ s, c.isDigit = true)
    (ht : ∀ c ∈ t, c.isDigit = true) (hne : s ≠ []) :
    Denotes (String.ofList (s ++ '.' :: t))
      (Nat.ofDigitChars 10 s 0 + Nat.ofDigitChars 10 t 0 / 10 ^ t.length) := by
  refine ⟨false, ⟨s ++ t, -t.length⟩, ?_, ?_⟩
  · rw [String.toList_ofList]
    exact writes_point .absent hs ht hne
  · rw [if_neg Bool.false_ne_true, Decimal.value, ofDigitChars_append_zero, zpow_neg,
      zpow_natCast]
    push_cast
    field_simp

/-- A text that denotes a number not below zero is read as the magnitude for it. -/
theorem parse?_of_denotes {text : String} {q : ℚ} {m : Magnitude} (h : Denotes text q)
    (hm : m.IsNearest q) : ∃ negative, parse? text = some (.finite negative m) ∧
      (Binary64.finite negative m).isBelowZero = false := by
  obtain ⟨negative, d, hwrites, hq⟩ := h
  have hparse := parse?_of_writes hwrites
  have hdigits := isDigit_of_writes hwrites
  rw [String.ofList_toList] at hparse
  rw [hparse]
  cases negative with
  | false =>
    rw [if_neg Bool.false_ne_true] at hq
    exact ⟨false, by rw [ofDecimal_of_isNearest hdigits (hq ▸ hm)], rfl⟩
  | true =>
    -- only zero can be written with the sign
    have hnonneg := hm.nonneg
    have hvalue : 0 ≤ d.value := mul_nonneg (Nat.cast_nonneg _) (by positivity)
    rw [if_pos rfl] at hq
    have hzero : d.value = 0 := by linarith
    rw [hq, hzero, neg_zero] at hm
    refine ⟨true, by rw [ofDecimal_of_isNearest hdigits (hzero ▸ hm)], ?_⟩
    rw [hm.unique isNearest_zero]
    rfl

end Grammar

end CommandConsole.Binary64
