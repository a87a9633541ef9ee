import CommandConsole.Binary64.Shortest
import CommandConsole.Proofs.Binary64.Reading
import Mathlib.Data.Rat.Floor

/-!
# The shortest decimal in the interval

Among the decimals that are rounded to a magnitude, the shortest has the greatest exponent. One of
the nineteen grids that are searched always has a point in the interval, so the search finds a
decimal there, and no coarser grid has one. A decimal that is found stands in the interval, hence it
is read back as the magnitude: every number of the format is read back from its text.
-/

namespace CommandConsole.Magnitude

section Interval

variable {i : Interval} {digits : Nat} {k : Int} {p q r : ℚ}

theorem quartersPerOne_pos : 0 < quartersPerOne :=
  Nat.mul_pos (by decide) Binary64.unitsPerOne_pos

theorem tenPower_pos (k : Int) : 0 < (tenPower k).1 ∧ 0 < (tenPower k).2 := by
  unfold tenPower
  split
  · exact ⟨Nat.one_pos, Nat.pow_pos (by decide)⟩
  · exact ⟨Nat.pow_pos (by decide), Nat.one_pos⟩

theorem cast_tenPower (k : Int) : ((tenPower k).1 / (tenPower k).2 : ℚ) = 10 ^ k := by
  unfold tenPower
  split
  · have hexponent : k = -(k.natAbs : Int) := by omega
    rw [hexponent, zpow_neg, zpow_natCast, Int.natAbs_neg, Int.natAbs_natCast]
    simp
  · have hexponent : k = (k.natAbs : Int) := by omega
    rw [hexponent, zpow_natCast, Int.natAbs_natCast]
    simp

theorem holds_iff : i.holds digits k = true ↔ i.Contains (digits * 10 ^ k) := by
  obtain ⟨-, hden⟩ := tenPower_pos k
  have hpos : (0 : ℚ) < (tenPower k).2 := by exact_mod_cast hden
  have hscaled : (digits * 10 ^ k * quartersPerOne : ℚ) =
      (digits * (tenPower k).1 * quartersPerOne : Nat) / (tenPower k).2 := by
    rw [← cast_tenPower]
    push_cast
    ring
  simp only [Interval.holds, Interval.Contains, hscaled]
  generalize digits * (tenPower k).1 * quartersPerOne = point
  rw [le_div_iff₀ hpos, div_le_iff₀ hpos, lt_div_iff₀ hpos, div_lt_iff₀ hpos]
  split
  · rw [Bool.and_eq_true, decide_eq_true_iff, decide_eq_true_iff]
    exact_mod_cast Iff.rfl
  · rw [Bool.and_eq_true, decide_eq_true_iff, decide_eq_true_iff]
    exact_mod_cast Iff.rfl

/-- What lies between two numbers of an interval lies in it. -/
theorem Interval.Contains.between (hp : i.Contains p) (hr : i.Contains r) (hpq : p ≤ q)
    (hqr : q ≤ r) : i.Contains q := by
  have hquarters : (0 : ℚ) ≤ quartersPerOne := Nat.cast_nonneg _
  have hlow := mul_le_mul_of_nonneg_right hpq hquarters
  have hhigh := mul_le_mul_of_nonneg_right hqr hquarters
  unfold Contains at *
  split at hp
  · rename_i hclosed
    rw [if_pos hclosed] at hr ⊢
    exact ⟨hp.1.trans hlow, hhigh.trans hr.2⟩
  · rename_i hopen
    rw [if_neg hopen] at hr ⊢
    exact ⟨hp.1.trans_le hlow, hhigh.trans_lt hr.2⟩

theorem contains_of_hit? (h : i.hit? k = some digits) : i.Contains (digits * 10 ^ k) := by
  rw [← holds_iff]
  simp only [Interval.hit?] at h
  split at h
  · cases h
  · rename_i hdown hup
    obtain rfl := Option.some_inj.mp h
    exact hdown
  · rename_i hdown hup
    obtain rfl := Option.some_inj.mp h
    exact hup
  · rename_i hdown hup
    split at h
    · obtain rfl := Option.some_inj.mp h
      exact hdown
    · obtain rfl := Option.some_inj.mp h
      exact hup

/-- The last point of a grid that is not above the middle. -/
def Interval.below (i : Interval) (k : Int) : Nat :=
  i.middle * (tenPower k).2 / ((tenPower k).1 * quartersPerOne)

/-- The middle stands between two points of a grid. -/
theorem Interval.below_spec (i : Interval) (k : Int) :
    (i.below k * 10 ^ k : ℚ) ≤ i.middle / quartersPerOne ∧
      (i.middle / quartersPerOne : ℚ) ≤ (i.below k + 1 : Nat) * 10 ^ k := by
  obtain ⟨hnum, hden⟩ := tenPower_pos k
  have hten : (0 : ℚ) ≤ 10 ^ k := by positivity
  have hgrid : 0 < (tenPower k).1 * quartersPerOne := Nat.mul_pos hnum quartersPerOne_pos
  have hdown := Nat.div_mul_le_self (i.middle * (tenPower k).2) ((tenPower k).1 * quartersPerOne)
  have hup := Nat.lt_div_mul_add (a := i.middle * (tenPower k).2) hgrid
  rw [← Nat.succ_mul] at hup
  rw [Interval.below]
  generalize i.middle * (tenPower k).2 / ((tenPower k).1 * quartersPerOne) = down at *
  have hcast : (i.middle / quartersPerOne : ℚ) =
      i.middle * (tenPower k).2 / ((tenPower k).1 * quartersPerOne) * 10 ^ k := by
    have hnum : ((tenPower k).1 : ℚ) ≠ 0 := by exact_mod_cast hnum.ne'
    have hden : ((tenPower k).2 : ℚ) ≠ 0 := by exact_mod_cast hden.ne'
    have hone : (quartersPerOne : ℚ) ≠ 0 := by exact_mod_cast quartersPerOne_pos.ne'
    rw [← cast_tenPower]
    generalize (quartersPerOne : ℚ) = one at *
    field_simp
  have hgrid : (0 : ℚ) < (tenPower k).1 * quartersPerOne := by exact_mod_cast hgrid
  rw [hcast]
  constructor
  · refine mul_le_mul_of_nonneg_right ((le_div_iff₀ hgrid).mpr ?_) hten
    exact_mod_cast hdown
  · refine mul_le_mul_of_nonneg_right ((div_le_iff₀ hgrid).mpr ?_) hten
    exact_mod_cast hup.le

/-- Where a grid has a point in the interval, a neighbour of the middle is one. -/
theorem holds_below_or (hmiddle : i.Contains (i.middle / quartersPerOne))
    (h : i.Contains (digits * 10 ^ k)) :
    i.holds (i.below k) k = true ∨ i.holds (i.below k + 1) k = true := by
  have hten : (0 : ℚ) ≤ 10 ^ k := by positivity
  obtain ⟨hlow, hhigh⟩ := i.below_spec k
  rw [holds_iff, holds_iff]
  rcases Nat.lt_or_ge (i.below k) digits with hlt | hge
  · refine Or.inr (hmiddle.between h hhigh (mul_le_mul_of_nonneg_right ?_ hten))
    exact_mod_cast hlt
  · refine Or.inl (h.between hmiddle (mul_le_mul_of_nonneg_right ?_ hten) hlow)
    exact_mod_cast hge

/-- So a grid with a point in the interval is hit. -/
theorem isSome_hit? (hmiddle : i.Contains (i.middle / quartersPerOne))
    (h : i.Contains (digits * 10 ^ k)) : (i.hit? k).isSome = true := by
  have hholds := holds_below_or hmiddle h
  rw [Interval.below] at hholds
  simp only [Interval.hit?]
  split
  · rename_i hdown hup
    rw [hdown, hup] at hholds
    simp at hholds
  · rfl
  · rfl
  · split <;> rfl

end Interval

section Search

variable {m : Magnitude}

/-- In steps of the magnitude, the number in the middle of its interval is the significand. -/
theorem value_steps : m.value * unitsPerOne / 2 ^ m.shift = m.significand := by
  have hunits := unitsPerOne_pos
  rw [value_eq]
  field_simp

theorem reach_pos : 0 < m.reach := by
  unfold reach
  split <;> norm_num

theorem value_nonneg : 0 ≤ m.value :=
  div_nonneg (Nat.cast_nonneg _) unitsPerOne_pos.le

/-- A magnitude lies in its own interval. -/
theorem contains_value : m.interval.Contains m.value := by
  have hreach := m.reach_pos
  rw [contains_iff value_nonneg, value_steps]
  split
  · constructor <;> linarith
  · constructor <;> linarith

theorem middle_eq : (m.interval.middle / quartersPerOne : ℚ) = m.value := by
  have hmiddle : m.interval.middle = 4 * m.units := rfl
  have hunits := unitsPerOne_pos
  rw [hmiddle, quartersPerOne, value]
  push_cast
  field_simp

theorem pos_units (hpos : 0 < m.significand) : 0 < m.units :=
  Nat.mul_pos hpos (Nat.pow_pos (by decide))

/-- The number of digits of a natural says between which powers of ten it lies. -/
theorem digitCount_spec {n : Nat} (hpos : 0 < n) :
    10 ^ (digitCount n - 1) ≤ n ∧ n < 10 ^ digitCount n ∧ 0 < digitCount n := by
  have hcount : 0 < digitCount n := Nat.length_toDigits_pos
  refine ⟨?_, (Nat.length_toDigits_le_iff (by decide) hcount).mp le_rfl, hcount⟩
  by_contra hlt
  rw [Nat.not_le] at hlt
  rcases Nat.eq_zero_or_pos (digitCount n - 1) with hzero | hone
  · rw [hzero] at hlt
    omega
  · have hle : digitCount n ≤ digitCount n - 1 :=
      (Nat.length_toDigits_le_iff (by decide) hone).mpr hlt
    omega

/-- The top exponent is the one of a power of ten around the magnitude. -/
theorem topExponent_spec (hpos : 0 < m.significand) :
    (10 : ℚ) ^ (m.topExponent - 1) ≤ m.value ∧ m.value ≤ 10 ^ m.topExponent := by
  have hunits := unitsPerOne_pos
  have hm : 0 < m.units := pos_units hpos
  have hmpos : (0 : ℚ) < m.units := by exact_mod_cast hm
  have hone := Binary64.unitsPerOne_pos
  unfold topExponent value
  split
  · rename_i hle
    obtain ⟨hlow, hhigh, hcount⟩ := digitCount_spec (Nat.div_pos hle hone)
    generalize digitCount (m.units / unitsPerOne) = count at *
    rw [Nat.le_div_iff_mul_le hone] at hlow
    rw [Nat.div_lt_iff_lt_mul hone] at hhigh
    constructor
    · have hexponent : (count : Int) - 1 = (count - 1 : Nat) := by omega
      rw [hexponent, zpow_natCast, le_div_iff₀ hunits]
      exact_mod_cast hlow
    · rw [zpow_natCast, div_le_iff₀ hunits]
      exact_mod_cast hhigh.le
  · rename_i hlt
    obtain ⟨hlow, hhigh, hcount⟩ := digitCount_spec (Nat.div_pos (Nat.le_of_not_le hlt) hm)
    generalize digitCount (unitsPerOne / m.units) = count at *
    rw [Nat.le_div_iff_mul_le hm] at hlow
    rw [Nat.div_lt_iff_lt_mul hm] at hhigh
    constructor
    · have hexponent : 1 - (count : Int) - 1 = -(count : Nat) := by omega
      rw [hexponent, zpow_neg, zpow_natCast, le_div_iff₀ hunits, inv_mul_le_iff₀ (by positivity)]
      exact_mod_cast hhigh.le
    · have hexponent : 1 - (count : Int) = -(count - 1 : Nat) := by omega
      rw [hexponent, zpow_neg, zpow_natCast, div_le_iff₀ hunits, le_inv_mul_iff₀ (by positivity)]
      exact_mod_cast hlow

theorem pos_of_contains {q : ℚ} (hpos : 0 < m.significand) (hq : 0 ≤ q)
    (h : m.interval.Contains q) : 0 < q := by
  refine lt_of_le_of_ne hq ?_
  rintro rfl
  have hone : (1 : ℚ) ≤ m.significand := by exact_mod_cast hpos
  have hnear := (abs_le.mp (nearestEven_of_contains le_rfl h).near).1
  rw [zero_mul, zero_div] at hnear
  linarith

/-- The interval ends far below the next power of ten but one. -/
theorem lt_of_contains {q : ℚ} (hpos : 0 < m.significand) (hq : 0 ≤ q)
    (h : m.interval.Contains q) : q < 10 * m.value := by
  have hunits := unitsPerOne_pos
  have hone : (1 : ℚ) ≤ m.significand := by exact_mod_cast hpos
  have hnear := (abs_le.mp (nearestEven_of_contains hq h).near).2
  have hsteps : q * unitsPerOne / 2 ^ m.shift < 10 * (m.value * unitsPerOne / 2 ^ m.shift) := by
    rw [value_steps]
    linarith
  rw [← mul_div_assoc, ← mul_assoc, div_lt_div_iff_of_pos_right (by positivity)] at hsteps
  exact lt_of_mul_lt_mul_right hsteps hunits.le

/-- No grid above the top one has a point in the interval. -/
theorem le_topExponent {digits : Nat} {k : Int} (hpos : 0 < m.significand)
    (h : m.interval.Contains (digits * 10 ^ k)) : k ≤ m.topExponent := by
  have hq : (0 : ℚ) ≤ digits * 10 ^ k := by positivity
  have hdigits : (1 : ℚ) ≤ digits := by
    have hne : digits ≠ 0 := by
      rintro rfl
      simpa using pos_of_contains hpos hq h
    exact_mod_cast Nat.one_le_iff_ne_zero.mpr hne
  have hlt : (10 : ℚ) ^ k < 10 ^ (m.topExponent + 1) := by
    calc (10 : ℚ) ^ k ≤ digits * 10 ^ k := le_mul_of_one_le_left (by positivity) hdigits
      _ < 10 * m.value := lt_of_contains hpos hq h
      _ ≤ 10 * 10 ^ m.topExponent := by linarith [(topExponent_spec hpos).2]
      _ = 10 ^ (m.topExponent + 1) := by rw [zpow_add_one₀ (by norm_num), mul_comm]
  rw [zpow_lt_zpow_iff_right₀ (by norm_num)] at hlt
  omega

/-- The finest grid that is searched has a point just above the magnitude. -/
theorem exists_close_finest (hpos : 0 < m.significand) :
    ∃ digits : Nat, m.value ≤ digits * 10 ^ (m.topExponent - 18) ∧
      (digits * 10 ^ (m.topExponent - 18) : ℚ) ≤ m.value + m.value / 10 ^ 17 := by
  have hgrid : (0 : ℚ) < 10 ^ (m.topExponent - 18) := by positivity
  have hstep : (10 : ℚ) ^ (m.topExponent - 18) ≤ m.value / 10 ^ 17 := by
    have hexponent : m.topExponent - 18 + (17 : Nat) = m.topExponent - 1 := by omega
    rw [le_div_iff₀ (by positivity), ← zpow_natCast, ← zpow_add₀ (by norm_num), hexponent]
    exact (topExponent_spec hpos).1
  have hlow := Nat.le_ceil (m.value / 10 ^ (m.topExponent - 18))
  have hhigh := Nat.ceil_lt_add_one (div_nonneg m.value_nonneg hgrid.le)
  rw [div_le_iff₀ hgrid] at hlow
  rw [← sub_lt_iff_lt_add, lt_div_iff₀ hgrid, sub_mul, one_mul] at hhigh
  exact ⟨_, hlow, by linarith⟩

/-- That point lies in the interval, since a significand has less than seventeen digits. -/
theorem exists_contains_finest (hm : m.IsProper) (hpos : 0 < m.significand) :
    ∃ digits : Nat, m.interval.Contains (digits * 10 ^ (m.topExponent - 18)) := by
  have hunits := unitsPerOne_pos
  have hreach := m.reach_pos
  obtain ⟨digits, hlow, hnear⟩ := exists_close_finest hpos
  refine ⟨digits, ?_⟩
  generalize (digits * 10 ^ (m.topExponent - 18) : ℚ) = q at *
  have hscale : ∀ {x y : ℚ}, x ≤ y →
      x * unitsPerOne / 2 ^ m.shift ≤ y * unitsPerOne / 2 ^ m.shift := fun hxy =>
    div_le_div_of_nonneg_right (mul_le_mul_of_nonneg_right hxy hunits.le) (by positivity)
  have hbelow := hscale hlow
  have habove := hscale hnear
  rw [value_steps] at hbelow
  rw [add_mul, add_div, div_mul_eq_mul_div, div_right_comm, value_steps] at habove
  have hsignificand : (m.significand : ℚ) < 2 * 2 ^ 52 := by
    rw [← cast_leastNormal]
    exact_mod_cast hm.significand_lt
  have hsmall : (m.significand : ℚ) / 10 ^ 17 < 1 / 2 := by
    rw [div_lt_iff₀ (by positivity)]
    linarith
  rw [contains_iff (value_nonneg.trans hlow)]
  split
  · constructor <;> linarith
  · constructor <;> linarith

/-- A decimal that is rounded to the magnitude, on a grid that is as coarse as can be. -/
structure IsShortest (m : Magnitude) (digits : Nat) (k : Int) : Prop where
  contains : m.interval.Contains (digits * 10 ^ k)
  /-- No coarser grid has a point in the interval. -/
  coarsest : ∀ (n : Nat) (j : Int), m.interval.Contains (n * 10 ^ j) → j ≤ k

/-- What is less than an element of a range stands in front of it. -/
theorem mem_of_range_eq {n first j : Nat} {before behind : List Nat}
    (h : List.range n = before ++ first :: behind) (hlt : j < first) : j ∈ before := by
  have hsorted : (before ++ first :: behind).Pairwise (· < ·) := h ▸ List.pairwise_lt_range
  have hfirst : first ∈ List.range n := by simp [h]
  have hmem : j ∈ before ++ first :: behind := by
    rw [← h, List.mem_range]
    exact hlt.trans (List.mem_range.mp hfirst)
  obtain ⟨-, hbehind, -⟩ := List.pairwise_append.mp hsorted
  rcases List.mem_append.mp hmem with hbefore | hrest
  · exact hbefore
  · rcases List.mem_cons.mp hrest with rfl | hlater
    · exact absurd hlt (Nat.lt_irrefl j)
    · have hgreater := List.rel_of_pairwise_cons hbehind hlater
      omega

/-- The search stops at the coarsest grid that has a point in the interval. -/
theorem isShortest_of_findSome? (hpos : 0 < m.significand) {n digits : Nat} {k : Int}
    (h : (List.range n).findSome? (fun (n : Nat) =>
      (m.interval.hit? (m.topExponent - n)).map (·, m.topExponent - (n : Int))) = some (digits, k)) :
    m.IsShortest digits k := by
  obtain ⟨before, first, behind, hrange, hfirst, hbefore⟩ := List.findSome?_eq_some_iff.mp h
  obtain ⟨found, hhit, hfound⟩ := Option.map_eq_some_iff.mp hfirst
  obtain ⟨rfl, rfl⟩ := Prod.mk.inj hfound
  refine ⟨contains_of_hit? hhit, fun n j hcontains => ?_⟩
  by_contra hlt
  -- a coarser grid that is hit is below the top one, so the search came across it before
  have htop := le_topExponent hpos hcontains
  obtain ⟨earlier, hearlier⟩ : ∃ earlier : Nat, j = m.topExponent - earlier :=
    ⟨(m.topExponent - j).toNat, by omega⟩
  have hmem : earlier ∈ before := mem_of_range_eq hrange (by omega)
  have hmissed := hbefore earlier hmem
  have hhit := isSome_hit? (middle_eq ▸ contains_value) (hearlier ▸ hcontains)
  rw [Option.map_eq_none_iff] at hmissed
  rw [hmissed] at hhit
  cases hhit

/-- The shortest decimal of a magnitude that is not zero is one of the coarsest grid. -/
theorem isShortest_shortest (hm : m.IsProper) (hpos : 0 < m.significand) :
    m.IsShortest m.shortest.1 m.shortest.2 := by
  obtain ⟨digits, hdigits⟩ := exists_contains_finest hm hpos
  have hsome : ((List.range 19).findSome? fun (n : Nat) =>
      (m.interval.hit? (m.topExponent - n)).map (·, m.topExponent - (n : Int))).isSome = true := by
    refine List.findSome?_isSome_iff.mpr ⟨18, by decide, ?_⟩
    rw [Option.isSome_map]
    exact isSome_hit? (middle_eq ▸ contains_value) hdigits
  obtain ⟨⟨found, k⟩, hfound⟩ := Option.isSome_iff_exists.mp hsome
  have hshortest : m.shortest = (found, k) := by
    rw [shortest, if_neg (pos_units hpos).ne']
    dsimp only
    rw [hfound, Option.getD_some]
  rw [hshortest]
  exact isShortest_of_findSome? hpos hfound

end Search

section Text

variable {m : Magnitude}

/-- The shortest decimal of a magnitude is rounded to the magnitude. -/
theorem isNearest_shortest (hm : m.IsProper) :
    m.IsNearest (m.shortest.1 * 10 ^ m.shortest.2) := by
  rcases Nat.eq_zero_or_pos m.significand with hzero | hpos
  · have hshift : m.shift = 0 := by
      refine hm.normal.resolve_right fun hle => ?_
      rw [hzero] at hle
      exact absurd hle (by decide)
    have hm : m = ⟨0, 0⟩ := by
      cases m
      simp_all
    have hshortest : shortest ⟨0, 0⟩ = (0, 0) := if_pos (Nat.zero_mul _)
    rw [hm, hshortest]
    simpa using Binary64.isNearest_zero
  · exact ⟨by positivity, hm, (isShortest_shortest hm hpos).contains⟩

theorem isDigit_of_mem_toDigits (digits : Nat) :
    ∀ c ∈ Nat.toDigits 10 digits, c.isDigit = true := fun _ hc =>
  Nat.isDigit_of_mem_toDigits (by decide) (by decide) hc

theorem isDigit_of_mem_zeros (n : Nat) : ∀ c ∈ List.replicate n '0', c.isDigit = true := by
  intro c hc
  rw [List.eq_of_mem_replicate hc]
  rfl

open Binary64

variable {negative : Bool} {sign : List Char} (hsign : SignText negative sign) (digits : Nat)
  {k : Int}

include hsign

theorem writes_positional_of_nonneg (hk : 0 ≤ k) :
    ∃ d, Writes (sign ++ positional digits k) negative d ∧ d.value = digits * 10 ^ k := by
  rw [positional, if_pos hk]
  refine ⟨_, writes_digits hsign ?_ (by simp [Nat.toDigits_ne_nil]), ?_⟩
  · intro c hc
    rcases List.mem_append.mp hc with hc | hc
    · exact isDigit_of_mem_toDigits digits c hc
    · exact isDigit_of_mem_zeros _ c hc
  · have hexponent : k = (k.natAbs : Int) := by omega
    rw [Decimal.value, Nat.ofDigitChars_append, Nat.ofDigitChars_ten_toDigits,
      Nat.ofDigitChars_replicate_zero, hexponent, zpow_natCast, Int.natAbs_natCast]
    push_cast
    ring

theorem writes_positional_of_lt (hk : k < 0)
    (hplaces : k.natAbs < (Nat.toDigits 10 digits).length) :
    ∃ d, Writes (sign ++ positional digits k) negative d ∧ d.value = digits * 10 ^ k := by
  rw [positional, if_neg (by omega), if_pos hplaces]
  have hword := isDigit_of_mem_toDigits digits
  have hvalue : Nat.ofDigitChars 10 (Nat.toDigits 10 digits) 0 = digits :=
    Nat.ofDigitChars_ten_toDigits
  generalize Nat.toDigits 10 digits = word at *
  have htake : word.take (word.length - k.natAbs) ≠ [] := by
    refine List.ne_nil_of_length_pos ?_
    rw [List.length_take]
    omega
  refine ⟨_, writes_point hsign (fun c hc => hword c (List.mem_of_mem_take hc))
    (fun c hc => hword c (List.mem_of_mem_drop hc)) htake, ?_⟩
  have hexponent : -((word.drop (word.length - k.natAbs)).length : Int) = k := by
    rw [List.length_drop]
    omega
  rw [hexponent, Decimal.value, List.take_append_drop, hvalue]

theorem writes_positional_of_le (hk : k < 0)
    (hplaces : (Nat.toDigits 10 digits).length ≤ k.natAbs) :
    ∃ d, Writes (sign ++ positional digits k) negative d ∧ d.value = digits * 10 ^ k := by
  rw [positional, if_neg (by omega), if_neg (by omega)]
  have hword := isDigit_of_mem_toDigits digits
  have hvalue : Nat.ofDigitChars 10 (Nat.toDigits 10 digits) 0 = digits :=
    Nat.ofDigitChars_ten_toDigits
  generalize Nat.toDigits 10 digits = word at *
  have hzero : ∀ c ∈ ['0'], c.isDigit = true := List.forall_mem_singleton.mpr rfl
  have hfraction : ∀ c ∈ List.replicate (k.natAbs - word.length) '0' ++ word,
      c.isDigit = true := by
    intro c hc
    rcases List.mem_append.mp hc with hc | hc
    · exact isDigit_of_mem_zeros _ c hc
    · exact hword c hc
  have hwrites := writes_point hsign hzero hfraction (List.cons_ne_nil _ _)
  refine ⟨_, hwrites, ?_⟩
  have hexponent : -((List.replicate (k.natAbs - word.length) '0' ++ word).length : Int) = k := by
    rw [List.length_append, List.length_replicate]
    omega
  rw [hexponent, Decimal.value, Nat.ofDigitChars_append, Nat.ofDigitChars_append,
    Nat.ofDigitChars_replicate_zero]
  simp [Nat.ofDigitChars_cons, hvalue]

/-- The text without an exponent writes the digits at their places. -/
theorem writes_positional (k : Int) :
    ∃ d, Writes (sign ++ positional digits k) negative d ∧ d.value = digits * 10 ^ k := by
  rcases lt_or_ge k 0 with hk | hk
  · rcases Nat.lt_or_ge k.natAbs (Nat.toDigits 10 digits).length with hplaces | hplaces
    · exact writes_positional_of_lt hsign digits hk hplaces
    · exact writes_positional_of_le hsign digits hk hplaces
  · exact writes_positional_of_nonneg hsign digits hk

end Text

end CommandConsole.Magnitude

namespace CommandConsole.Binary64

theorem signText_spec (negative : Bool) : SignText negative (signText negative).toList := by
  cases negative with
  | false => exact .absent
  | true => exact .minus

/-- What is displayed for a finite number is the text of its shortest decimal. -/
theorem writes_display (negative : Bool) {m : Magnitude} (hm : m.IsProper) :
    ∃ d, Writes (finite negative m).display.toList negative d ∧ m.IsNearest d.value := by
  obtain ⟨d, hwrites, hvalue⟩ :=
    Magnitude.writes_positional (signText_spec negative) m.shortest.1 m.shortest.2
  have hdisplay : (finite negative m).display.toList =
      (signText negative).toList ++ Magnitude.positional m.shortest.1 m.shortest.2 := by
    rw [← String.toList_ofList (l := Magnitude.positional m.shortest.1 m.shortest.2),
      ← String.toList_append]
    rfl
  rw [hdisplay]
  exact ⟨d, hwrites, hvalue ▸ Magnitude.isNearest_shortest hm⟩

/-- Every number of the format is read back from its text. -/
theorem parse?_display {x : Binary64} (hx : x.IsProper) : parse? x.display = some x := by
  cases x with
  | nan => decide +kernel
  | infinite negative => cases negative <;> decide +kernel
  | finite negative m =>
    obtain ⟨d, hwrites, hnearest⟩ := writes_display negative hx
    have hparse := parse?_of_writes hwrites
    rw [String.ofList_toList] at hparse
    rw [hparse, ofDecimal_of_isNearest (isDigit_of_writes hwrites) hnearest]

/-- A third takes sixteen digits. -/
example : (ofRatio false 1 3).display = "0.3333333333333333" := by decide +kernel

end CommandConsole.Binary64
