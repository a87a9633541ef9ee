import CommandConsole.Binary64.Basic
import Mathlib.Algebra.Group.Nat.Even
import Mathlib.Algebra.Order.Field.Rat
import Mathlib.Algebra.Order.Group.Abs
import Mathlib.Tactic.Linarith
import Mathlib.Tactic.Ring

/-!
# Rounding to the nearest

The rational number that a finite number of the format stands for, and what it is for a natural to
be the nearest to a rational: at most half away, and even where two naturals are equally near. There
is one such natural, and the rounded quotient of two naturals is the one for their quotient. The
numbers of the format below a power of two keep a distance from it.
-/

namespace CommandConsole

/-- The natural is nearest to the number, and even if it shares that with another one. -/
structure NearestEven (q : ℚ) (n : Nat) : Prop where
  near : |q - n| ≤ 1 / 2
  even : |q - n| = 1 / 2 → Even n

/-- Of two neighbours that are both nearest, the number stands in the middle. -/
private theorem not_nearestEven_succ {q : ℚ} {n : Nat} (h : NearestEven q n) :
    ¬ NearestEven q (n + 1) := by
  intro hsucc
  have hlow := (abs_le.mp h.near).2
  have hhigh := (abs_le.mp hsucc.near).1
  push_cast at hhigh
  have htie : |q - n| = 1 / 2 := by
    rw [abs_of_nonneg (by linarith)]
    linarith
  have htie' : |q - (n + 1 : Nat)| = 1 / 2 := by
    push_cast
    rw [abs_of_nonpos (by linarith)]
    linarith
  exact (Nat.even_add_one.mp (hsucc.even htie')) (h.even htie)

/-- There is one nearest natural. -/
theorem NearestEven.unique {q : ℚ} {m n : Nat} (hm : NearestEven q m) (hn : NearestEven q n) :
    m = n := by
  -- two naturals that are both at most half away are equal or neighbours
  have hclose : ∀ {a b : Nat}, NearestEven q a → NearestEven q b → a ≤ b + 1 := by
    intro a b ha hb
    have hlow := (abs_le.mp ha.near).1
    have hhigh := (abs_le.mp hb.near).2
    have hle : (a : ℚ) ≤ b + 1 := by linarith
    exact_mod_cast hle
  have hmn := hclose hm hn
  have hnm := hclose hn hm
  have hne : m ≠ n + 1 := by
    rintro rfl
    exact not_nearestEven_succ hn hm
  have hne' : n ≠ m + 1 := by
    rintro rfl
    exact not_nearestEven_succ hm hn
  omega

/-- A natural is nearest to itself. -/
theorem nearestEven_natCast (n : Nat) : NearestEven n n where
  near := by norm_num
  even := by norm_num

/-- A natural that is less than half away is the nearest one. -/
theorem nearestEven_of_abs_lt {q : ℚ} {n : Nat} (h : |q - n| < 1 / 2) : NearestEven q n where
  near := h.le
  even htie := absurd htie h.ne

section RoundDiv

variable (num : Nat) {den : Nat}

/-- Where the rest is half the divisor, the rounded quotient is even. -/
theorem even_roundDiv (h : 2 * (num % den) = den) : Even (roundDiv num den) := by
  unfold roundDiv
  rw [Nat.even_iff]
  by_cases heven : num / den % 2 = 0
  · simp [h, heven]
  · simp only [h, Nat.lt_irrefl, decide_false, beq_self_eq_true, Bool.true_and, Bool.false_or,
      beq_iff_eq, heven, if_false]
    omega

/-- The rounded quotient is the quotient or its successor. -/
theorem roundDiv_eq_or : roundDiv num den = num / den ∨ roundDiv num den = num / den + 1 := by
  simp only [roundDiv]
  split
  · exact Or.inl rfl
  · exact Or.inr rfl

/-- A quotient that lies in the middle between two naturals leaves half the divisor. -/
theorem two_mul_mod_of_tie (hpos : 0 < den)
    (h : 2 * num = (2 * roundDiv num den + 1) * den ∨
      2 * num + den = 2 * roundDiv num den * den) : 2 * (num % den) = den := by
  have hsplit := Nat.div_add_mod num den
  have hmod := Nat.mod_lt num hpos
  rw [Nat.mul_comm den] at hsplit
  rcases roundDiv_eq_or num with hround | hround
  · rw [hround] at h
    simp only [Nat.add_mul, Nat.mul_assoc] at h
    omega
  · rw [hround] at h
    simp only [Nat.add_mul, Nat.mul_add, Nat.mul_assoc] at h
    omega

/-- The rounded quotient is the natural nearest to the quotient. -/
theorem nearestEven_roundDiv (hpos : 0 < den) :
    NearestEven (num / den : ℚ) (roundDiv num den) := by
  have hden : (0 : ℚ) < den := by exact_mod_cast hpos
  obtain ⟨hhigh, hlow⟩ := roundDiv_within num den hpos
  have hhigh : (2 * num : ℚ) ≤ (2 * roundDiv num den + 1) * den := by exact_mod_cast hhigh
  have hlow : (2 * roundDiv num den * den : ℚ) ≤ 2 * num + den := by exact_mod_cast hlow
  refine ⟨?_, fun htie => even_roundDiv num (two_mul_mod_of_tie num hpos ?_)⟩
  · rw [abs_le, neg_le_sub_iff_le_add, sub_le_iff_le_add]
    constructor
    · rw [div_add' _ _ _ hden.ne', le_div_iff₀ hden]
      linarith
    · rw [div_le_iff₀ hden]
      linarith
  · rcases (abs_eq (by norm_num)).mp htie with hup | hdown
    · refine Or.inl ?_
      rw [sub_eq_iff_eq_add, div_eq_iff hden.ne'] at hup
      have htwice : (2 * num : ℚ) = (2 * roundDiv num den + 1) * den := by
        rw [hup]
        ring
      exact_mod_cast htwice
    · refine Or.inr ?_
      rw [sub_eq_iff_eq_add, div_eq_iff hden.ne'] at hdown
      have htwice : (2 * num + den : ℚ) = 2 * roundDiv num den * den := by
        rw [hdown]
        ring
      exact_mod_cast htwice

end RoundDiv

/-- The magnitude has the only form in which the format has it. -/
structure Magnitude.IsProper (m : Magnitude) : Prop where
  significand_lt : m.significand < 2 * leastNormal
  normal : m.shift = 0 ∨ leastNormal ≤ m.significand
  shift_le : m.shift ≤ greatestShift

/-- Below a power of two, the next number of the format has the greatest significand. -/
theorem Magnitude.IsProper.units_le {m : Magnitude} (h : m.IsProper) {e : Nat}
    (hlt : m.units < 2 * leastNormal * 2 ^ e) : m.units ≤ (2 * leastNormal - 1) * 2 ^ e := by
  have hunits : m.units = m.significand * 2 ^ m.shift := rfl
  have hsignificand : m.significand ≤ 2 * leastNormal - 1 := Nat.le_sub_one_of_lt h.significand_lt
  by_cases hshift : m.shift ≤ e
  · rw [hunits]
    exact Nat.mul_le_mul hsignificand (Nat.pow_le_pow_right (by decide) hshift)
  · -- with a greater shift the number would be at least the power of two
    have hnormal : leastNormal ≤ m.significand := by
      rcases h.normal with hzero | hnormal
      · omega
      · exact hnormal
    have hpow : 2 ^ (e + 1) ≤ 2 ^ m.shift := Nat.pow_le_pow_right (by decide) (by omega)
    have hge := Nat.mul_le_mul hnormal hpow
    rw [← hunits, Nat.pow_succ, Nat.mul_comm (2 ^ e), ← Nat.mul_assoc,
      Nat.mul_comm leastNormal] at hge
    omega

namespace Binary64

/-- The number that it stands for, if it is finite. -/
def value? : Binary64 → Option ℚ
  | .finite negative m => some ((if negative then -1 else 1) * (m.units / Magnitude.unitsPerOne))
  | _ => none

/-- The number has the only form in which the format has it. -/
def IsProper : Binary64 → Prop
  | .finite _ m => m.IsProper
  | _ => True

theorem unitsPerOne_pos : 0 < Magnitude.unitsPerOne := by
  decide +kernel

/-- A finite number that is not below zero stands for its magnitude. -/
theorem exists_magnitude {x : Binary64} (hfinite : x.isFinite = true)
    (hnonneg : x.isBelowZero = false) : ∃ negative m, x = .finite negative m ∧
      x.value? = some (m.units / Magnitude.unitsPerOne : ℚ) := by
  cases x with
  | nan => simp [isFinite] at hfinite
  | infinite negative => simp [isFinite] at hfinite
  | finite negative m =>
    refine ⟨negative, m, rfl, ?_⟩
    cases negative with
    | false => rw [value?, if_neg Bool.false_ne_true, one_mul]
    | true =>
      have hzero : m.significand = 0 := by simpa [isBelowZero] using hnonneg
      have hunits : m.units = 0 := by rw [Magnitude.units, hzero, Nat.zero_mul]
      rw [value?, if_pos rfl, hunits, Nat.cast_zero, zero_div, mul_zero]

end Binary64

end CommandConsole
