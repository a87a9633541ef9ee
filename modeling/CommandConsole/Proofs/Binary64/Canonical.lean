import CommandConsole.Proofs.Binary64.Shortest

/-!
# Canonical decimals

A decimal is written canonically without superfluous zeros at its ends, as the shortest decimal of a
number is. Below `2 ^ 23` the numbers of the format are so close together that no two multiples of
`10 ^ -9` are rounded to the same one. A canonical decimal with at most nine fractional digits is
therefore the shortest one of the number it is rounded to, and its own text is displayed for it.
-/

namespace CommandConsole.Binary64

open Magnitude

section Digits

variable {c : Char} {digits : List Char}

theorem digitChar_toNat (hc : c.isDigit = true) : Nat.digitChar (c.toNat - '0'.toNat) = c := by
  obtain ⟨hlow, hhigh⟩ := Char.isDigit_iff_toNat.mp hc
  have hlow : 48 ≤ c.toNat := hlow
  have hhigh : c.toNat ≤ 57 := hhigh
  have hzero : '0'.toNat = 48 := rfl
  rw [hzero, ← Char.toNat_inj, Nat.toNat_digitChar_of_lt_ten (by omega)]
  omega

theorem digit_lt (hc : c.isDigit = true) : c.toNat - '0'.toNat < 10 := by
  have hhigh : c.toNat ≤ 57 := (Char.isDigit_iff_toNat.mp hc).2
  have hzero : '0'.toNat = 48 := rfl
  omega

/-- Digits behind those of a natural that is not zero are the digits of what they make of it. -/
theorem toDigits_append {n : Nat} (hn : 0 < n) (hdigits : ∀ c ∈ digits, c.isDigit = true) :
    Nat.toDigits 10 n ++ digits = Nat.toDigits 10 (Nat.ofDigitChars 10 digits n) := by
  induction digits generalizing n with
  | nil => rw [Nat.ofDigitChars_nil, List.append_nil]
  | cons c rest ih =>
    have hc := hdigits c List.mem_cons_self
    have hstep : Nat.toDigits 10 n ++ [c] = Nat.toDigits 10 (10 * n + (c.toNat - '0'.toNat)) := by
      rw [← Nat.toDigits_append_toDigits (by decide) hn (digit_lt hc),
        Nat.toDigits_of_lt_base (digit_lt hc), digitChar_toNat hc]
    rw [Nat.ofDigitChars_cons, ← ih (by omega) fun c hc => hdigits c (List.mem_cons_of_mem _ hc),
      ← hstep, List.append_assoc, List.singleton_append]

/-- Digits without a leading zero are the digits of their value. -/
theorem toDigits_ofDigitChars (hdigits : ∀ c ∈ digits, c.isDigit = true) (hne : digits ≠ [])
    (hhead : digits.head? ≠ some '0') : Nat.toDigits 10 (Nat.ofDigitChars 10 digits 0) = digits := by
  obtain ⟨c, rest, rfl⟩ := List.exists_cons_of_ne_nil hne
  have hc := hdigits c List.mem_cons_self
  have hpos : 0 < c.toNat - '0'.toNat := by
    have hlow : 48 ≤ c.toNat := (Char.isDigit_iff_toNat.mp hc).1
    have hzero : '0'.toNat = 48 := rfl
    have hother : c.toNat ≠ '0'.toNat := by
      rw [ne_eq, Char.toNat_inj]
      rintro rfl
      exact hhead rfl
    omega
  rw [Nat.ofDigitChars_cons, Nat.mul_zero, Nat.zero_add,
    ← toDigits_append hpos fun c hc => hdigits c (List.mem_cons_of_mem _ hc),
    Nat.toDigits_of_lt_base (digit_lt hc), digitChar_toNat hc, List.singleton_append]

/-- Digits are zeros and then the digits of their value, unless they are all zeros. -/
theorem eq_zeros_append (hdigits : ∀ c ∈ digits, c.isDigit = true)
    (hlast : ∃ c ∈ digits, c ≠ '0') :
    ∃ n, digits = List.replicate n '0' ++ Nat.toDigits 10 (Nat.ofDigitChars 10 digits 0) := by
  induction digits with
  | nil => simp at hlast
  | cons c rest ih =>
    by_cases hc : c = '0'
    · subst hc
      obtain ⟨n, hrest⟩ := ih (fun c hc => hdigits c (List.mem_cons_of_mem _ hc))
        (by simpa using hlast)
      refine ⟨n + 1, ?_⟩
      have hvalue : Nat.ofDigitChars 10 ('0' :: rest) 0 = Nat.ofDigitChars 10 rest 0 := by
        simp [Nat.ofDigitChars_cons]
      rw [hvalue, List.replicate_succ, List.cons_append, ← hrest]
    · refine ⟨0, ?_⟩
      rw [toDigits_ofDigitChars hdigits (List.cons_ne_nil _ _) (by simpa using hc)]
      rfl

end Digits

/-- The digits of a decimal that is written without superfluous zeros. -/
structure IsCanonical (whole fraction : List Char) : Prop where
  wholeDigits : ∀ c ∈ whole, c.isDigit = true
  nonempty : whole ≠ []
  /-- A zero in front stands by itself. -/
  leading : whole = ['0'] ∨ whole.head? ≠ some '0'
  fractionDigits : ∀ c ∈ fraction, c.isDigit = true
  /-- No zero stands at the end of the fraction. -/
  trailing : fraction.getLast? ≠ some '0'

/-- The text of a decimal, without a point if it has no fraction. -/
def decimalText (whole fraction : List Char) : List Char :=
  if fraction = [] then whole else whole ++ '.' :: fraction

namespace IsCanonical

variable {whole fraction : List Char}

theorem toDigits_whole (h : IsCanonical whole fraction) :
    Nat.toDigits 10 (Nat.ofDigitChars 10 whole 0) = whole := by
  rcases h.leading with hzero | hhead
  · rw [hzero]
    decide
  · exact toDigits_ofDigitChars h.wholeDigits h.nonempty hhead

theorem exists_ne_zero (h : IsCanonical whole fraction) (hne : fraction ≠ []) :
    ∃ c ∈ fraction, c ≠ '0' := by
  refine ⟨fraction.getLast hne, List.getLast_mem hne, fun hzero => h.trailing ?_⟩
  rw [List.getLast?_eq_some_getLast hne, hzero]

/-- A fraction does not end with a zero, so its digits are no multiple of ten. -/
theorem not_ten_dvd (h : IsCanonical whole fraction) (hne : fraction ≠ []) :
    ¬ 10 ∣ Nat.ofDigitChars 10 (whole ++ fraction) 0 := by
  obtain ⟨front, last, rfl⟩ := (List.eq_nil_or_concat fraction).resolve_left hne
  have hdigit := h.fractionDigits last (by simp)
  have hlast : last ≠ '0' := by
    rintro rfl
    exact h.trailing (by simp)
  have hlow : 48 ≤ last.toNat := (Char.isDigit_iff_toNat.mp hdigit).1
  have hlt := digit_lt hdigit
  have hzero : '0'.toNat = 48 := rfl
  have hother : last.toNat ≠ '0'.toNat := by rwa [ne_eq, Char.toNat_inj]
  rw [List.concat_eq_append, ← List.append_assoc, Nat.ofDigitChars_append, Nat.ofDigitChars_cons,
    Nat.ofDigitChars_nil]
  omega

theorem isDigit_append (h : IsCanonical whole fraction) :
    ∀ c ∈ whole ++ fraction, c.isDigit = true := by
  intro c hc
  rcases List.mem_append.mp hc with hc | hc
  · exact h.wholeDigits c hc
  · exact h.fractionDigits c hc

/-- A fraction with the whole number in front of it is written with a point. -/
theorem positional_point (h : IsCanonical whole fraction) (hne : fraction ≠ []) :
    positional (Nat.ofDigitChars 10 (whole ++ fraction) 0) (-fraction.length) =
      whole ++ '.' :: fraction := by
  have hlength := List.length_pos_of_ne_nil hne
  have hplaces : (-fraction.length : Int).natAbs = fraction.length := by omega
  rw [positional, if_neg (by omega), hplaces]
  rcases h.leading with hzero | hhead
  · -- nothing but zeros stands between the point and the digits
    obtain ⟨n, hzeros⟩ := eq_zeros_append h.fractionDigits (h.exists_ne_zero hne)
    have hvalue : Nat.ofDigitChars 10 (whole ++ fraction) 0 = Nat.ofDigitChars 10 fraction 0 := by
      rw [hzero, Nat.ofDigitChars_append]
      rfl
    rw [hvalue, hzero]
    generalize Nat.toDigits 10 (Nat.ofDigitChars 10 fraction 0) = word at hzeros ⊢
    have hcount : fraction.length = n + word.length := by
      rw [hzeros, List.length_append, List.length_replicate]
    rw [if_neg (by omega), hcount, Nat.add_sub_cancel, hzeros]
    rfl
  · have happend : (whole ++ fraction).head? ≠ some '0' := by
      rwa [List.head?_append_of_ne_nil _ h.nonempty]
    have hpositive := List.length_pos_of_ne_nil h.nonempty
    rw [toDigits_ofDigitChars h.isDigit_append (by simp [hne]) happend, List.length_append,
      if_pos (by omega), Nat.add_sub_cancel, List.take_left, List.drop_left]

end IsCanonical

/-- A natural with zeros behind it. -/
theorem positional_natCast {n : Nat} (hn : 0 < n) (k : Nat) :
    positional n k = Nat.toDigits 10 (n * 10 ^ k) := by
  rw [positional, if_pos (Int.natCast_nonneg k), Int.natAbs_natCast,
    toDigits_append hn (isDigit_of_mem_zeros k), Nat.ofDigitChars_replicate_zero, Nat.mul_comm]

section Grid

variable {n : Nat} {m : Magnitude} {q : ℚ}

/-- Of the multiples of `10 ^ -9` below `2 ^ 23`, only one is rounded to a number. -/
theorem abs_sub_lt_of_isNearest (hn : n < 2 ^ 23 * 10 ^ 9) (h : m.IsNearest (n / 10 ^ 9))
    (hq : m.IsNearest q) : |q - n / 10 ^ 9| < 1 / 10 ^ 9 := by
  have hbelow : (n + 1 : ℚ) / 10 ^ 9 ≤ 2 ^ 23 := by
    rw [div_le_iff₀ (by norm_num)]
    exact_mod_cast hn
  rw [add_div] at hbelow
  have hnear : |m.value - n / 10 ^ 9| ≤ 2 ^ 23 / 2 ^ 54 :=
    h.abs_value_sub_le (lt_of_lt_of_le (by norm_num) hbelow)
  have hvalue : m.value < 2 ^ 23 := by
    have hhigh := (abs_le.mp hnear).2
    norm_num at hhigh hbelow ⊢
    linarith
  have hnear' : |m.value - q| ≤ 2 ^ 23 / 2 ^ 54 := hq.abs_value_sub_le_of_value_lt hvalue
  calc |q - n / 10 ^ 9| = |(m.value - n / 10 ^ 9) - (m.value - q)| := by
        congr 1
        ring
    _ ≤ |m.value - n / 10 ^ 9| + |m.value - q| := abs_sub _ _
    _ ≤ 2 ^ 23 / 2 ^ 54 + 2 ^ 23 / 2 ^ 54 := add_le_add hnear hnear'
    _ < 1 / 10 ^ 9 := by norm_num

/-- So it is for any decimal with at most nine fractional digits. -/
theorem eq_of_isNearest {a b : Nat} (ha : a < 2 ^ 23 * 10 ^ 9) (h : m.IsNearest (a / 10 ^ 9))
    (h' : m.IsNearest (b / 10 ^ 9)) : b = a := by
  have hlt := abs_sub_lt_of_isNearest ha h h'
  rw [← sub_div, abs_div, abs_of_pos (show (0 : ℚ) < 10 ^ 9 by norm_num),
    div_lt_div_iff_of_pos_right (by norm_num)] at hlt
  have hclose : |(b : ℤ) - a| < 1 := by exact_mod_cast hlt
  rw [Int.abs_lt_one_iff] at hclose
  omega

/-- A number to which a multiple of `10 ^ -9` is rounded that is not zero is not zero. -/
theorem pos_of_isNearest (hn : n < 2 ^ 23 * 10 ^ 9) (h : m.IsNearest (n / 10 ^ 9)) (hpos : 0 < n) :
    0 < m.significand := by
  refine Nat.pos_of_ne_zero fun hzero => hpos.ne' ?_
  have hvalue : m.value = ((0 : Nat) : ℚ) / 10 ^ 9 := by
    rw [value_eq, hzero, Nat.cast_zero, zero_mul, zero_div, zero_div]
  have hself : m.IsNearest m.value := ⟨m.value_nonneg, h.proper, contains_value⟩
  rw [hvalue] at hself
  exact (eq_of_isNearest hn h hself).symm

theorem mul_zpow_eq (digits zeros : Nat) {places : Nat} (hplaces : places ≤ 9) :
    (digits * 10 ^ ((zeros : Int) - places) : ℚ) =
      (digits * 10 ^ zeros * 10 ^ (9 - places) : Nat) / 10 ^ 9 := by
  have hnine : (10 : ℚ) ^ 9 = 10 ^ places * 10 ^ (9 - places) := by
    rw [← pow_add, Nat.add_sub_cancel' hplaces]
  rw [zpow_sub₀ (by norm_num), zpow_natCast, zpow_natCast, hnine]
  push_cast
  field_simp

/-- A decimal with at most nine fractional digits is on the grid of `10 ^ -9`. -/
theorem mul_zpow_neg_eq (digits : Nat) {places : Nat} (hplaces : places ≤ 9) :
    (digits * 10 ^ (-places : Int) : ℚ) = (digits * 10 ^ (9 - places) : Nat) / 10 ^ 9 := by
  have hscaled := mul_zpow_eq digits 0 hplaces
  rwa [Nat.cast_zero, zero_sub, pow_zero, Nat.mul_one] at hscaled

theorem mul_pow_lt {digits places : Nat} (hplaces : places ≤ 9)
    (hlt : digits < 2 ^ 23 * 10 ^ places) : digits * 10 ^ (9 - places) < 2 ^ 23 * 10 ^ 9 := by
  calc digits * 10 ^ (9 - places)
      < 2 ^ 23 * 10 ^ places * 10 ^ (9 - places) :=
        Nat.mul_lt_mul_of_pos_right hlt (Nat.pow_pos (by decide))
    _ = 2 ^ 23 * 10 ^ 9 := by rw [Nat.mul_assoc, ← Nat.pow_add, Nat.add_sub_cancel' hplaces]

/-- The shortest decimal of a number to which `digits · 10 ^ -places` is rounded is that decimal,
maybe without some zeros at its end. -/
theorem exists_shortest_eq {digits places : Nat} (hplaces : places ≤ 9) (hpos : 0 < digits)
    (hlt : digits < 2 ^ 23 * 10 ^ places) (h : m.IsNearest (digits * 10 ^ (-places : Int))) :
    ∃ found zeros : Nat, 0 < found ∧ m.shortest = (found, (zeros : Int) - places) ∧
      found * 10 ^ zeros = digits := by
  have hn := mul_pow_lt hplaces hlt
  have hnearest := h
  rw [mul_zpow_neg_eq digits hplaces] at hnearest
  have hsignificand := pos_of_isNearest hn hnearest (Nat.mul_pos hpos (Nat.pow_pos (by decide)))
  obtain ⟨hcontains, hcoarsest⟩ := isShortest_shortest h.proper hsignificand
  -- the decimal itself is on a grid that is hit, so the first grid is no finer
  have hle := hcoarsest digits (-places) h.contains
  obtain ⟨zeros, hzeros⟩ : ∃ zeros : Nat, m.shortest.2 = zeros - places :=
    ⟨(m.shortest.2 + places).toNat, by omega⟩
  rw [hzeros, mul_zpow_eq _ _ hplaces] at hcontains
  have hsame := eq_of_isNearest hn hnearest ⟨by positivity, h.proper, hcontains⟩
  have hfound := Nat.eq_of_mul_eq_mul_right (Nat.pow_pos (by decide)) hsame
  refine ⟨m.shortest.1, zeros, Nat.pos_of_ne_zero ?_, Prod.ext rfl hzeros, hfound⟩
  intro hnone
  rw [hnone, Nat.zero_mul] at hfound
  omega

end Grid

section Display

variable {whole fraction : List Char} {m : Magnitude}

/-- The number that is written. -/
def decimalValue (whole fraction : List Char) : ℚ :=
  Nat.ofDigitChars 10 whole 0 + Nat.ofDigitChars 10 fraction 0 / 10 ^ fraction.length

theorem decimalValue_eq : decimalValue whole fraction =
    Nat.ofDigitChars 10 (whole ++ fraction) 0 * 10 ^ (-fraction.length : Int) := by
  rw [decimalValue, ofDigitChars_append_zero, zpow_neg, zpow_natCast]
  push_cast
  field_simp

theorem writes_decimalText (h : IsCanonical whole fraction) :
    ∃ d, Writes (decimalText whole fraction) false d ∧ d.value = decimalValue whole fraction := by
  unfold decimalText
  split
  · rename_i hempty
    refine ⟨_, writes_digits .absent h.wholeDigits h.nonempty, ?_⟩
    rw [hempty, decimalValue_eq, List.append_nil]
    rfl
  · exact ⟨_, writes_point .absent h.wholeDigits h.fractionDigits h.nonempty,
      decimalValue_eq.symm⟩

/-- A canonical decimal is read as the number to which it is rounded. -/
theorem parse?_decimalText (h : IsCanonical whole fraction)
    (hm : m.IsNearest (decimalValue whole fraction)) :
    parse? (String.ofList (decimalText whole fraction)) = some (finite false m) := by
  obtain ⟨d, hwrites, hvalue⟩ := writes_decimalText h
  rw [parse?_of_writes hwrites, ofDecimal_of_isNearest (isDigit_of_writes hwrites) (hvalue ▸ hm)]

theorem ofDigitChars_append_lt (h : IsCanonical whole fraction) {bound : Nat}
    (hlt : Nat.ofDigitChars 10 whole 0 < bound) :
    Nat.ofDigitChars 10 (whole ++ fraction) 0 < bound * 10 ^ fraction.length := by
  have hfraction := ofDigitChars_lt h.fractionDigits
  rw [ofDigitChars_append_zero]
  calc 10 ^ fraction.length * Nat.ofDigitChars 10 whole 0 + Nat.ofDigitChars 10 fraction 0
      < 10 ^ fraction.length * Nat.ofDigitChars 10 whole 0 + 10 ^ fraction.length :=
        Nat.add_lt_add_left hfraction _
    _ = (Nat.ofDigitChars 10 whole 0 + 1) * 10 ^ fraction.length := by
        rw [Nat.succ_mul, Nat.mul_comm]
    _ ≤ bound * 10 ^ fraction.length := Nat.mul_le_mul_right _ hlt

/-- A canonical decimal with at most nine fractional digits is a whole number of `10 ^ -9`. -/
theorem exists_eq_decimalValue (h : IsCanonical whole fraction) (hplaces : fraction.length ≤ 9)
    (hlt : Nat.ofDigitChars 10 whole 0 < 2 ^ 23) :
    ∃ n : Nat, n < 2 ^ 23 * 10 ^ 9 ∧ (n / 10 ^ 9 : ℚ) = decimalValue whole fraction := by
  refine ⟨_, mul_pow_lt hplaces (ofDigitChars_append_lt h hlt), ?_⟩
  rw [decimalValue_eq, mul_zpow_neg_eq _ hplaces]

theorem decimalValue_lt_one (h : IsCanonical ['0'] fraction) : decimalValue ['0'] fraction < 1 := by
  have hlt : (Nat.ofDigitChars 10 fraction 0 : ℚ) < 10 ^ fraction.length := by
    exact_mod_cast ofDigitChars_lt h.fractionDigits
  have hzero : Nat.ofDigitChars 10 ['0'] 0 = 0 := rfl
  rw [decimalValue, hzero, Nat.cast_zero, zero_add]
  exact (div_lt_one (by positivity)).mpr hlt

/-- What is displayed is the shortest decimal, without an exponent. -/
theorem display_eq {negative : Bool} : (finite negative m).display =
    signText negative ++ String.ofList (positional m.shortest.1 m.shortest.2) :=
  rfl

/-- Zero is written canonically in one way. -/
theorem IsCanonical.eq_zero (h : IsCanonical whole fraction)
    (hzero : Nat.ofDigitChars 10 (whole ++ fraction) 0 = 0) : whole = ['0'] ∧ fraction = [] := by
  have hempty : fraction = [] := by
    by_contra hne
    refine h.not_ten_dvd hne ?_
    rw [hzero]
    exact Nat.dvd_zero 10
  rw [hempty, List.append_nil] at hzero
  have hwhole := h.toDigits_whole
  rw [hzero] at hwhole
  exact ⟨hwhole.symm, hempty⟩

/-- A number to which a canonical decimal with at most nine fractional digits is rounded, below
`2 ^ 23`, is displayed as that decimal. -/
theorem display_of_isNearest (h : IsCanonical whole fraction) (hplaces : fraction.length ≤ 9)
    (hlt : Nat.ofDigitChars 10 whole 0 < 2 ^ 23)
    (hm : m.IsNearest (decimalValue whole fraction)) :
    (finite false m).display = String.ofList (decimalText whole fraction) := by
  have hdigits := ofDigitChars_append_lt h hlt
  rw [decimalValue_eq] at hm
  rcases Nat.eq_zero_or_pos (Nat.ofDigitChars 10 (whole ++ fraction) 0) with hzero | hpos
  · obtain ⟨rfl, rfl⟩ := h.eq_zero hzero
    rw [hzero, Nat.cast_zero, zero_mul] at hm
    rw [hm.unique isNearest_zero]
    decide +kernel
  · obtain ⟨found, zeros, hfound, hshortest, hsame⟩ := exists_shortest_eq hplaces hpos hdigits hm
    rw [display_eq, hshortest, signText, if_neg Bool.false_ne_true, String.empty_append, decimalText]
    split
    · rename_i hempty
      rw [hempty, List.append_nil] at hsame
      rw [hempty, List.length_nil, Nat.cast_zero, sub_zero, positional_natCast hfound, hsame,
        h.toDigits_whole]
    · rename_i hne
      -- a zero at the end of the digits would be one at the end of the fraction
      have hnone : zeros = 0 := by
        by_contra hsome
        refine h.not_ten_dvd hne (hsame ▸ Dvd.dvd.mul_left ?_ found)
        exact dvd_pow_self 10 hsome
      rw [hnone, pow_zero, Nat.mul_one] at hsame
      rw [hnone, hsame, Nat.cast_zero, zero_sub, h.positional_point hne]

end Display

end CommandConsole.Binary64
