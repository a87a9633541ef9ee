import CommandConsole.Binary64.Shortest
import CommandConsole.Proofs.Binary64.Nearest
import Mathlib.Algebra.Order.Field.Power
import Mathlib.Algebra.Order.Floor.Semifield
import Mathlib.Data.Nat.Cast.Order.Field
import Mathlib.Tactic.FieldSimp
import Mathlib.Tactic.Positivity

/-!
# Rounding to a number of the format

A number that is not below zero is rounded in the binade in which it lies: scaled by the step
between the numbers of the format there, it is rounded to the nearest natural. The result is the one
magnitude of the format in whose interval the number lies, so the intervals say exactly what rounds
where, and a rounded number is at most half a step away.
-/

namespace CommandConsole.Magnitude

theorem unitsPerOne_pos : (0 : ℚ) < unitsPerOne := by
  exact_mod_cast Binary64.unitsPerOne_pos

/-- The number that a magnitude stands for. -/
def value (m : Magnitude) : ℚ :=
  m.units / unitsPerOne

/-- The number lies in the interval. -/
def Interval.Contains (i : Interval) (q : ℚ) : Prop :=
  if i.closed then i.low ≤ q * quartersPerOne ∧ q * quartersPerOne ≤ i.high
  else i.low < q * quartersPerOne ∧ q * quartersPerOne < i.high

/-- The number lies in the binade with a shift, and the significand is nearest to it there. -/
structure RoundsTo (q : ℚ) (shift significand : Nat) : Prop where
  below : q * unitsPerOne < 2 ^ (shift + 53)
  /-- The least binade has no lower end. -/
  above : shift = 0 ∨ 2 ^ (shift + 52) ≤ q * unitsPerOne
  nearest : NearestEven (q * unitsPerOne / 2 ^ shift) significand

/-- The magnitude of a rounded significand, which may have become too long by one digit. -/
def carry (shift significand : Nat) : Magnitude :=
  if significand = 2 * leastNormal then ⟨leastNormal, shift + 1⟩ else ⟨significand, shift⟩

section Algorithm

variable (num : Nat) {den : Nat}

theorem shiftFor_spec (n : Nat) :
    n < 2 ^ (shiftFor n + 53) ∧ (shiftFor n = 0 ∨ 2 ^ (shiftFor n + 52) ≤ n) := by
  have hlt : n < 2 ^ (n.log2 + 1) := Nat.lt_log2_self
  by_cases hlog : n.log2 ≤ 52
  · have hshift : shiftFor n = 0 := Nat.sub_eq_zero_of_le hlog
    rw [hshift]
    exact ⟨hlt.trans_le (Nat.pow_le_pow_right (by decide) (by omega)), Or.inl rfl⟩
  · have hne : n ≠ 0 := by
      rintro rfl
      simp at hlog
    have hshift : shiftFor n + 52 = n.log2 := Nat.sub_add_cancel (by omega)
    refine ⟨hlt.trans_le (Nat.pow_le_pow_right (by decide) (by omega)), Or.inr ?_⟩
    rw [hshift]
    exact Nat.log2_self_le hne

/-- The quotient is rounded in the binade in which it lies. -/
theorem roundsTo_roundDiv (hden : 0 < den) :
    RoundsTo (num / den) (shiftFor (num * unitsPerOne / den))
      (roundDiv (num * unitsPerOne)
        (den * Nat.pow 2 (shiftFor (num * unitsPerOne / den)))) := by
  obtain ⟨hlt, hle⟩ := shiftFor_spec (num * unitsPerOne / den)
  generalize shiftFor (num * unitsPerOne / den) = shift at *
  have hpos : (0 : ℚ) < den := by exact_mod_cast hden
  have hscaled : (num / den * unitsPerOne : ℚ) = (num * unitsPerOne : Nat) / den := by
    push_cast
    ring
  constructor
  · rw [hscaled, div_lt_iff₀ hpos]
    exact_mod_cast (Nat.div_lt_iff_lt_mul hden).mp hlt
  · refine hle.imp id fun hle => ?_
    rw [hscaled, le_div_iff₀ hpos]
    exact_mod_cast (Nat.le_div_iff_mul_le hden).mp hle
  · have hnearest := nearestEven_roundDiv (num * unitsPerOne)
      (Nat.mul_pos hden (Nat.pow_pos (n := shift) (show 0 < 2 by decide)))
    rw [hscaled, div_div]
    exact_mod_cast hnearest

theorem ofRatio?_eq_carry : ofRatio? num den =
    let shift := shiftFor (num * unitsPerOne / den)
    let m := carry shift (roundDiv (num * unitsPerOne) (den * Nat.pow 2 shift))
    if m.shift ≤ greatestShift then some m else none :=
  rfl

end Algorithm

section Intervals

variable {m : Magnitude} {q : ℚ}

/-- How far the interval reaches below a magnitude, in its steps: the least significand that is not
subnormal has a closer neighbour below. -/
def reach (m : Magnitude) : ℚ :=
  if m.significand = leastNormal ∧ m.shift ≠ 0 then 1 / 4 else 1 / 2

theorem cast_low (hpos : 0 < m.significand) :
    (m.interval.low : ℚ) = 4 * (m.significand - m.reach) * 2 ^ m.shift := by
  have hunits : m.units = m.significand * 2 ^ m.shift := rfl
  have hunit : (2 ^ m.shift : Nat) ≤ m.units := hunits ▸ Nat.le_mul_of_pos_left _ hpos
  have hlow : m.interval.low = 4 * m.units -
      if m.significand = leastNormal ∧ m.shift ≠ 0 then 2 ^ m.shift else 2 * 2 ^ m.shift := rfl
  rw [hlow, reach, hunits] at *
  split
  · rw [Nat.cast_sub (by omega)]
    push_cast
    ring
  · rw [Nat.cast_sub (by omega)]
    push_cast
    ring

theorem cast_high : (m.interval.high : ℚ) = 4 * (m.significand + 1 / 2) * 2 ^ m.shift := by
  have hhigh : m.interval.high = 4 * (m.significand * 2 ^ m.shift) + 2 * 2 ^ m.shift := rfl
  rw [hhigh]
  push_cast
  ring

theorem closed_iff : m.interval.closed = true ↔ Even m.significand := by
  simp only [interval, decide_eq_true_eq, Nat.even_iff]

/-- A number lies in the interval of a magnitude when it is near to the significand, in steps. -/
theorem contains_iff (hq : 0 ≤ q) : m.interval.Contains q ↔
    if Even m.significand then
      m.significand - m.reach ≤ q * unitsPerOne / 2 ^ m.shift ∧
        q * unitsPerOne / 2 ^ m.shift ≤ m.significand + 1 / 2
    else
      m.significand - m.reach < q * unitsPerOne / 2 ^ m.shift ∧
        q * unitsPerOne / 2 ^ m.shift < m.significand + 1 / 2 := by
  have hstep : (0 : ℚ) < 4 * 2 ^ m.shift := by positivity
  have hscaled : q * (quartersPerOne : Nat) =
      q * unitsPerOne / 2 ^ m.shift * (4 * 2 ^ m.shift) := by
    rw [quartersPerOne, Nat.cast_mul]
    generalize (unitsPerOne : ℚ) = units
    push_cast
    field_simp
  have hhigh : (m.interval.high : ℚ) = (m.significand + 1 / 2) * (4 * 2 ^ m.shift) := by
    rw [cast_high]
    ring
  have hnonneg : 0 ≤ q * unitsPerOne / 2 ^ m.shift :=
    div_nonneg (mul_nonneg hq unitsPerOne_pos.le) (by positivity)
  simp only [Interval.Contains, closed_iff, hscaled, hhigh]
  generalize q * unitsPerOne / 2 ^ m.shift = steps at *
  rcases Nat.eq_zero_or_pos m.significand with hzero | hpos
  · have hlow : m.interval.low = 0 := by
      have hlow : m.interval.low = 4 * (m.significand * 2 ^ m.shift) - _ := rfl
      rw [hlow, hzero, Nat.zero_mul, Nat.mul_zero, Nat.zero_sub]
    have hreach : m.reach = 1 / 2 := by simp [reach, hzero, leastNormal]
    have hleft : 0 ≤ steps * (4 * 2 ^ m.shift) := by positivity
    rw [hlow, hzero, hreach, if_pos (by simp), if_pos (by simp), mul_le_mul_iff_left₀ hstep]
    simp only [Nat.cast_zero, hleft, true_and, iff_and_self]
    intro _
    linarith
  · have hlow : (m.interval.low : ℚ) = (m.significand - m.reach) * (4 * 2 ^ m.shift) := by
      rw [cast_low hpos]
      ring
    rw [hlow, mul_le_mul_iff_left₀ hstep, mul_le_mul_iff_left₀ hstep, mul_lt_mul_iff_left₀ hstep,
      mul_lt_mul_iff_left₀ hstep]

end Intervals

section Rounding

variable {m : Magnitude} {q : ℚ} {shift significand : Nat}

theorem cast_leastNormal : (leastNormal : ℚ) = 2 ^ 52 := by
  norm_num [leastNormal]

/-- The number in steps of its binade. -/
theorem RoundsTo.steps_lt (h : RoundsTo q shift significand) :
    q * unitsPerOne / 2 ^ shift < 2 ^ 53 := by
  rw [div_lt_iff₀ (by positivity), ← pow_add, Nat.add_comm]
  exact h.below

theorem RoundsTo.le_steps (h : RoundsTo q shift significand) (hshift : shift ≠ 0) :
    2 ^ 52 ≤ q * unitsPerOne / 2 ^ shift := by
  rw [le_div_iff₀ (by positivity), ← pow_add, Nat.add_comm]
  exact h.above.resolve_left hshift

/-- A number lies in one binade and is rounded there to one significand. -/
theorem RoundsTo.unique {shift' significand' : Nat} (h : RoundsTo q shift significand)
    (h' : RoundsTo q shift' significand') : shift = shift' ∧ significand = significand' := by
  have hle : ∀ {s t R T : Nat}, RoundsTo q s R → RoundsTo q t T → t ≤ s := by
    intro s t R T hs ht
    by_contra hlt
    have habove := ht.above.resolve_left (by omega)
    have hpow : (2 ^ (s + 53) : ℚ) ≤ 2 ^ (t + 52) :=
      pow_le_pow_right₀ (by norm_num) (by omega)
    exact absurd hs.below (not_lt_of_ge (hpow.trans habove))
  have hshift : shift = shift' := Nat.le_antisymm (hle h' h) (hle h h')
  subst hshift
  exact ⟨rfl, h.nearest.unique h'.nearest⟩

/-- A rounded significand is at most the least one that is too long. -/
theorem RoundsTo.significand_le (h : RoundsTo q shift significand) :
    significand ≤ 2 * leastNormal := by
  have hlt := h.steps_lt
  have hnear := (abs_le.mp h.nearest.near).1
  have hle : (significand : ℚ) < (2 * leastNormal : Nat) + 1 := by
    push_cast
    rw [cast_leastNormal]
    linarith
  exact Nat.lt_succ_iff.mp (by exact_mod_cast hle)

theorem RoundsTo.le_significand (h : RoundsTo q shift significand) (hshift : shift ≠ 0) :
    leastNormal ≤ significand := by
  have hle := h.le_steps hshift
  have hnear := (abs_le.mp h.nearest.near).2
  have hlt : (leastNormal : ℚ) < significand + 1 := by
    rw [cast_leastNormal]
    linarith
  exact Nat.lt_succ_iff.mp (by exact_mod_cast hlt)

/-- The rounded number has the form of the format, unless it is too large for it. -/
theorem RoundsTo.isProper (h : RoundsTo q shift significand)
    (hle : (carry shift significand).shift ≤ greatestShift) :
    (carry shift significand).IsProper := by
  unfold carry at *
  split at hle
  · rename_i hlong
    rw [if_pos hlong]
    exact ⟨show leastNormal < 2 * leastNormal by decide, Or.inr le_rfl, hle⟩
  · rename_i hshort
    rw [if_neg hshort]
    refine ⟨lt_of_le_of_ne h.significand_le hshort, ?_, hle⟩
    rcases Nat.eq_zero_or_pos shift with hzero | hpos
    · exact Or.inl hzero
    · exact Or.inr (h.le_significand hpos.ne')

/-- A number lies in the interval of what it is rounded to. -/
theorem RoundsTo.contains (hq : 0 ≤ q) (h : RoundsTo q shift significand) :
    (carry shift significand).interval.Contains q := by
  have hlt := h.steps_lt
  obtain ⟨hlow, hhigh⟩ := abs_le.mp h.nearest.near
  rw [contains_iff hq]
  unfold carry
  split
  · -- just below a power of two, half a step is a quarter of a step of the power
    rename_i hlong
    have hsteps : q * unitsPerOne / 2 ^ (shift + 1) = q * unitsPerOne / 2 ^ shift / 2 := by
      rw [pow_succ, div_div]
    rw [hlong] at hlow
    push_cast at hlow
    rw [cast_leastNormal] at hlow
    rw [if_pos (show Even leastNormal by decide), hsteps, cast_leastNormal]
    have hreach : reach ⟨leastNormal, shift + 1⟩ = 1 / 4 := if_pos ⟨rfl, Nat.succ_ne_zero _⟩
    rw [hreach]
    constructor <;> linarith
  · rename_i hshort
    by_cases hleast : significand = leastNormal ∧ shift ≠ 0
    · have heven : Even significand := hleast.1 ▸ by decide
      have hle := h.le_steps hleast.2
      have hreach : reach ⟨significand, shift⟩ = 1 / 4 := if_pos hleast
      rw [if_pos heven, hreach]
      dsimp only
      refine ⟨?_, by linarith⟩
      rw [hleast.1, cast_leastNormal]
      linarith
    · have hreach : reach ⟨significand, shift⟩ = 1 / 2 := if_neg hleast
      rw [hreach]
      split
      · constructor <;> dsimp only <;> linarith
      · rename_i hodd
        have hne : |q * unitsPerOne / 2 ^ shift - significand| ≠ 1 / 2 :=
          fun htie => hodd (h.nearest.even htie)
        obtain ⟨hlow, hhigh⟩ := abs_lt.mp (lt_of_le_of_ne h.nearest.near hne)
        constructor <;> dsimp only <;> linarith

theorem reach_le : m.reach ≤ 1 / 2 := by
  unfold reach
  split <;> norm_num

/-- In its own binade a number of the interval has the significand as its nearest natural. -/
theorem nearestEven_of_contains (hq : 0 ≤ q) (h : m.interval.Contains q) :
    NearestEven (q * unitsPerOne / 2 ^ m.shift) m.significand := by
  have hreach := m.reach_le
  rw [contains_iff hq] at h
  split at h
  · rename_i heven
    exact ⟨abs_le.mpr ⟨by linarith [h.1], by linarith [h.2]⟩, fun _ => heven⟩
  · have hlt : |q * unitsPerOne / 2 ^ m.shift - m.significand| < 1 / 2 :=
      abs_lt.mpr ⟨by linarith [h.1], by linarith [h.2]⟩
    exact ⟨hlt.le, fun htie => absurd htie hlt.ne⟩

/-- The magnitude is the one of the format to which a number is rounded. -/
structure IsNearest (m : Magnitude) (q : ℚ) : Prop where
  nonneg : 0 ≤ q
  proper : m.IsProper
  contains : m.interval.Contains q

/-- In steps of a magnitude, the numbers that are rounded to it lie below the greatest binade. -/
theorem IsNearest.lt_two_pow (h : m.IsNearest q) : q * unitsPerOne < 2 ^ (m.shift + 53) := by
  have hnear := (abs_le.mp (nearestEven_of_contains h.nonneg h.contains).near).2
  have hsignificand : (m.significand : ℚ) + 1 ≤ 2 * 2 ^ 52 := by
    rw [← cast_leastNormal]
    exact_mod_cast h.proper.significand_lt
  rw [Nat.add_comm, pow_add, ← div_lt_iff₀ (by positivity)]
  linarith

/-- What is rounded to a magnitude is rounded to it in the binade in which it lies. -/
theorem IsNearest.exists_roundsTo (h : m.IsNearest q) :
    ∃ shift significand, RoundsTo q shift significand ∧ carry shift significand = m := by
  have hnearest := nearestEven_of_contains h.nonneg h.contains
  have hstep : (0 : ℚ) < 2 ^ m.shift := by positivity
  obtain ⟨hlow, hhigh⟩ := abs_le.mp hnearest.near
  have hcarry : carry m.shift m.significand = m := if_neg (Nat.ne_of_lt h.proper.significand_lt)
  by_cases habove : m.shift = 0 ∨ 2 ^ (m.shift + 52) ≤ q * unitsPerOne
  · exact ⟨m.shift, m.significand, ⟨h.lt_two_pow, habove, hnearest⟩, hcarry⟩
  · -- below the power of two the steps are half as wide, and the significand is too long there
    obtain ⟨hshift, hlt⟩ := not_or.mp habove
    rw [not_le, Nat.add_comm, pow_add, ← div_lt_iff₀ hstep] at hlt
    have hnormal : leastNormal ≤ m.significand := h.proper.normal.resolve_left hshift
    have hleast : m.significand = leastNormal := by
      refine Nat.le_antisymm (Nat.lt_succ_iff.mp ?_) hnormal
      have hlt : (m.significand : ℚ) < leastNormal + 1 := by
        rw [cast_leastNormal]
        linarith
      exact_mod_cast hlt
    have hreach : m.reach = 1 / 4 := if_pos ⟨hleast, hshift⟩
    have hcontains := h.contains
    rw [contains_iff h.nonneg, if_pos (hleast ▸ by decide), hreach, hleast, cast_leastNormal]
      at hcontains
    obtain ⟨shift, hsucc⟩ := Nat.exists_eq_succ_of_ne_zero hshift
    have hhalf : q * unitsPerOne / 2 ^ m.shift = q * unitsPerOne / 2 ^ shift / 2 := by
      rw [hsucc, pow_succ, div_div]
    rw [hhalf] at hlt hcontains
    refine ⟨shift, 2 * leastNormal, ⟨?_, Or.inr ?_, ?_, fun _ => by decide⟩, ?_⟩
    · rw [Nat.add_comm, pow_add, ← div_lt_iff₀ (by positivity)]
      linarith
    · rw [Nat.add_comm, pow_add, ← le_div_iff₀ (by positivity)]
      linarith [hcontains.1]
    · push_cast
      rw [cast_leastNormal, abs_le]
      constructor <;> linarith [hcontains.1]
    · rw [carry, if_pos rfl, ← hleast, ← Nat.succ_eq_add_one, ← hsucc]

/-- A number is rounded to one magnitude. -/
theorem IsNearest.unique {m' : Magnitude} (h : m.IsNearest q) (h' : m'.IsNearest q) : m = m' := by
  obtain ⟨shift, significand, hrounds, rfl⟩ := h.exists_roundsTo
  obtain ⟨shift', significand', hrounds', rfl⟩ := h'.exists_roundsTo
  obtain ⟨rfl, rfl⟩ := hrounds.unique hrounds'
  rfl

/-- The intervals say what rounds where: a quotient is rounded to the magnitude around it. -/
theorem ofRatio?_eq_some_iff {num den : Nat} (hden : 0 < den) :
    ofRatio? num den = some m ↔ m.IsNearest (num / den) := by
  have hq : (0 : ℚ) ≤ num / den := by positivity
  have hrounds := roundsTo_roundDiv num hden
  rw [ofRatio?_eq_carry]
  constructor
  · intro h
    obtain ⟨hle, hm⟩ := Option.ite_none_right_eq_some.mp h
    obtain rfl := Option.some_inj.mp hm
    exact ⟨hq, hrounds.isProper hle, hrounds.contains hq⟩
  · intro h
    obtain ⟨shift, significand, hrounds', rfl⟩ := h.exists_roundsTo
    obtain ⟨rfl, rfl⟩ := hrounds'.unique hrounds
    exact if_pos h.proper.shift_le

theorem value_eq : m.value = m.significand * 2 ^ m.shift / unitsPerOne := by
  rw [value, show m.units = m.significand * 2 ^ m.shift from rfl]
  push_cast
  rfl

theorem value_carry : (carry shift significand).value = significand * 2 ^ shift / unitsPerOne := by
  unfold carry
  split
  · rename_i hlong
    rw [value_eq, hlong]
    push_cast
    ring
  · exact value_eq

/-- A number is at most half a step away from its nearest natural, counted in steps. -/
theorem abs_sub_le_of_nearestEven (h : NearestEven (q * unitsPerOne / 2 ^ shift) significand) :
    |significand * 2 ^ shift / unitsPerOne - q| ≤ 2 ^ shift / (2 * unitsPerOne) := by
  have hunits := unitsPerOne_pos
  have hstep : (0 : ℚ) < 2 ^ shift / unitsPerOne := div_pos (by positivity) hunits
  have hscaled : significand * 2 ^ shift / unitsPerOne - q =
      -(q * unitsPerOne / 2 ^ shift - significand) * (2 ^ shift / unitsPerOne) := by
    field_simp
    ring
  rw [hscaled, abs_mul, abs_neg, abs_of_pos hstep]
  calc |q * unitsPerOne / 2 ^ shift - significand| * (2 ^ shift / unitsPerOne)
      ≤ 1 / 2 * (2 ^ shift / unitsPerOne) := mul_le_mul_of_nonneg_right h.near hstep.le
    _ = 2 ^ shift / (2 * unitsPerOne) := by
      field_simp

/-- Below a power of two the step is at most the one of the binade below the power. -/
theorem RoundsTo.shift_le {e : Nat} (h : RoundsTo q shift significand)
    (hlt : q * unitsPerOne < 2 ^ (e + 53)) : shift ≤ e := by
  rcases h.above with hzero | habove
  · omega
  · have hpow : (2 ^ (shift + 52) : ℚ) < 2 ^ (e + 53) := habove.trans_lt hlt
    rw [pow_lt_pow_iff_right₀ (by norm_num)] at hpow
    omega

theorem unitsPerOne_eq : (unitsPerOne : ℚ) = 2 ^ 1021 * 2 ^ 53 := by
  have hpower : unitsPerOne = 2 ^ 1021 * 2 ^ 53 := by decide +kernel
  rw [hpower, Nat.cast_mul, Nat.cast_pow, Nat.cast_pow, Nat.cast_ofNat]

/-- Below `2 ^ b` a number lies in a binade up to the one with shift `b + 1021`. -/
theorem RoundsTo.shift_le_of_lt {b : Nat} (h : RoundsTo q shift significand) (hlt : q < 2 ^ b) :
    shift ≤ b + 1021 := by
  refine h.shift_le ?_
  calc q * unitsPerOne < 2 ^ b * unitsPerOne := mul_lt_mul_of_pos_right hlt unitsPerOne_pos
    _ = 2 ^ (b + 1021 + 53) := by rw [unitsPerOne_eq, pow_add, pow_add, mul_assoc]

theorem IsProper.shift_le_of_value_lt {b : Nat} (hm : m.IsProper) (hlt : m.value < 2 ^ b) :
    m.shift ≤ b + 1021 := by
  rcases hm.normal with hzero | hnormal
  · omega
  · have hcast : (2 ^ 52 : ℚ) ≤ m.significand := by
      rw [← cast_leastNormal]
      exact_mod_cast hnormal
    rw [value_eq, div_lt_iff₀ unitsPerOne_pos] at hlt
    have hpow : (2 : ℚ) ^ (52 + m.shift) < 2 ^ (b + 1021 + 53) := by
      calc (2 : ℚ) ^ (52 + m.shift) = 2 ^ 52 * 2 ^ m.shift := pow_add ..
        _ ≤ m.significand * 2 ^ m.shift := mul_le_mul_of_nonneg_right hcast (by positivity)
        _ < 2 ^ b * unitsPerOne := hlt
        _ = 2 ^ (b + 1021 + 53) := by rw [unitsPerOne_eq, pow_add, pow_add, mul_assoc]
    rw [pow_lt_pow_iff_right₀ (by norm_num)] at hpow
    omega

/-- Half of a step below `2 ^ b`, where numbers have 53 binary digits. -/
theorem half_step_le {b : Nat} (hle : shift ≤ b + 1021) :
    (2 : ℚ) ^ shift / (2 * unitsPerOne) ≤ 2 ^ b / 2 ^ 54 := by
  have hunits := unitsPerOne_pos
  have hgreatest : (2 : ℚ) ^ (b + 1021) / (2 * unitsPerOne) = 2 ^ b / 2 ^ 54 := by
    have hbinade : (0 : ℚ) < 2 ^ 1021 := by positivity
    rw [unitsPerOne_eq, pow_add]
    generalize (2 : ℚ) ^ 1021 = step at *
    field_simp
  rw [← hgreatest]
  exact div_le_div_of_nonneg_right (pow_le_pow_right₀ (by norm_num) hle) (by linarith)

/-- Below `2 ^ b` rounding moves a number by at most half a step of the binade below that power. -/
theorem IsNearest.abs_value_sub_le {b : Nat} (h : m.IsNearest q) (hlt : q < 2 ^ b) :
    |m.value - q| ≤ 2 ^ b / 2 ^ 54 := by
  obtain ⟨shift, significand, hrounds, rfl⟩ := h.exists_roundsTo
  rw [value_carry]
  exact (abs_sub_le_of_nearestEven hrounds.nearest).trans (half_step_le (hrounds.shift_le_of_lt hlt))

/-- The same for a number that is rounded to one below `2 ^ b`. -/
theorem IsNearest.abs_value_sub_le_of_value_lt {b : Nat} (h : m.IsNearest q)
    (hlt : m.value < 2 ^ b) : |m.value - q| ≤ 2 ^ b / 2 ^ 54 := by
  rw [value_eq]
  exact (abs_sub_le_of_nearestEven (nearestEven_of_contains h.nonneg h.contains)).trans
    (half_step_le (h.proper.shift_le_of_value_lt hlt))

/-- A number whose binary digits fit a significand is not moved. -/
theorem IsNearest.value_eq_of_fits {a k : Nat} (h : m.IsNearest q) (hk : k ≤ 1074)
    (hq : q = a / 2 ^ k) (ha : a < 2 ^ 53) : m.value = q := by
  have hunits := unitsPerOne_pos
  obtain ⟨e, hexponent⟩ := Nat.exists_eq_add_of_le hk
  have he : unitsPerOne = 2 ^ k * 2 ^ e := by
    delta unitsPerOne
    rw [hexponent]
    exact Nat.pow_add 2 k e
  have hscaled : q * unitsPerOne = a * 2 ^ e := by
    rw [hq, he]
    push_cast
    field_simp
  obtain ⟨shift, significand, hrounds, rfl⟩ := h.exists_roundsTo
  have hshift : shift ≤ e := by
    refine hrounds.shift_le ?_
    rw [hscaled, Nat.add_comm, pow_add]
    exact mul_lt_mul_of_pos_right (by exact_mod_cast ha) (by positivity)
  have hsteps : q * unitsPerOne / 2 ^ shift = (a * 2 ^ (e - shift) : Nat) := by
    rw [hscaled, div_eq_iff (by positivity)]
    push_cast
    rw [mul_assoc, ← pow_add, Nat.sub_add_cancel hshift]
  have hnearest := hrounds.nearest
  rw [hsteps] at hnearest
  have hsignificand := hnearest.unique (nearestEven_natCast _)
  rw [value_carry, hsignificand, ← hsteps]
  field_simp

/-- A number below the greatest power of two of the format is not too large for it. -/
theorem exists_isNearest {b : Nat} (hq : 0 ≤ q) (hb : b < 1024) (hlt : q < 2 ^ b) :
    ∃ m, IsNearest m q := by
  have hratio : q = (q.num.natAbs : ℚ) / q.den := by
    rw [Nat.cast_natAbs, abs_of_nonneg (Rat.num_nonneg.mpr hq)]
    exact q.num_div_den.symm
  have hrounds := roundsTo_roundDiv q.num.natAbs q.den_pos
  rw [← hratio] at hrounds
  have hshift := hrounds.shift_le_of_lt hlt
  refine ⟨_, hq, hrounds.isProper ?_, hrounds.contains hq⟩
  unfold carry greatestShift
  split
  · exact Nat.succ_le_of_lt (hshift.trans_lt (by omega))
  · exact hshift.trans (by omega)

end Rounding

end CommandConsole.Magnitude
