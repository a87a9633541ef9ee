/-!
# Binary floating-point numbers of 64 bits

A finite number is a sign and a significand below `2^53` times a power of two, counted in units of
`2^-1074`, the smallest step of the format. In these units every magnitude is a natural number, so
rounding, comparing and converting are exact arithmetic on naturals. Rounding goes to the nearest
number of the format, from a tie to the one with the even significand.
-/

namespace CommandConsole

/-- The quotient of two naturals rounded to the nearest natural, a tie to the even one. -/
def roundDiv (num den : Nat) : Nat :=
  let quotient := num / den
  let double := 2 * (num % den)
  if double < den || (double == den && quotient % 2 == 0) then quotient else quotient + 1

/-- A rounded quotient is within half a unit of the quotient. -/
theorem roundDiv_within (num den : Nat) (hpos : 0 < den) :
    2 * num ≤ (2 * roundDiv num den + 1) * den ∧ 2 * roundDiv num den * den ≤ 2 * num + den := by
  have hsplit := Nat.div_add_mod num den
  have hmod := Nat.mod_lt num hpos
  have hcomm : den * (num / den) = num / den * den := Nat.mul_comm _ _
  simp only [roundDiv]
  split <;> rename_i h <;>
    simp only [Bool.or_eq_true, decide_eq_true_eq, Bool.and_eq_true, beq_iff_eq] at h <;>
    simp only [Nat.add_mul, Nat.mul_add, Nat.mul_assoc] <;> omega

/-- A finite magnitude: `significand · 2 ^ shift` units of `2^-1074`. -/
structure Magnitude where
  /-- Below `2^53`, and from `2^52` on unless the shift is zero. -/
  significand : Nat
  shift : Nat
  deriving DecidableEq, Repr

namespace Magnitude

/-- The least significand with 53 binary digits, `2^52`. -/
def leastNormal : Nat := Nat.pow 2 52

/-- The shift of the greatest magnitudes. -/
def greatestShift : Nat := 2045

/-- How many units make one. -/
def unitsPerOne : Nat := Nat.pow 2 1074

/-- The magnitude in units of `2^-1074`. -/
def units (m : Magnitude) : Nat :=
  m.significand * Nat.pow 2 m.shift

/-- The shift with which a count of units has a significand of at most 53 binary digits. -/
def shiftFor (units : Nat) : Nat :=
  units.log2 - 52

/-- The magnitude nearest to `num / den`, if it is not too large for the format. -/
def ofRatio? (num den : Nat) : Option Magnitude :=
  let scaled := num * unitsPerOne
  let shift := shiftFor (scaled / den)
  let significand := roundDiv scaled (den * Nat.pow 2 shift)
  let m : Magnitude :=
    if significand = 2 * leastNormal then ⟨leastNormal, shift + 1⟩ else ⟨significand, shift⟩
  if m.shift ≤ greatestShift then some m else none

end Magnitude

/-- A number of the format. -/
inductive Binary64 where
  | nan
  | infinite (negative : Bool)
  | finite (negative : Bool) (magnitude : Magnitude)
  deriving DecidableEq, Repr

namespace Binary64

/-- The number nearest to `num / den` with a sign, infinite where that is too large. -/
def ofRatio (negative : Bool) (num den : Nat) : Binary64 :=
  match Magnitude.ofRatio? num den with
  | some m => .finite negative m
  | none => .infinite negative

/-- The number nearest to a natural. -/
def ofNat (n : Nat) : Binary64 :=
  ofRatio false n 1

/-- The number nearest to an integer. -/
def ofInt (n : Int) : Binary64 :=
  ofRatio (decide (n < 0)) n.natAbs 1

/-- Neither infinite nor no number. -/
def isFinite : Binary64 → Bool
  | .finite _ _ => true
  | _ => false

/-- Below zero, which the negative zero is not. -/
def isBelowZero : Binary64 → Bool
  | .nan => false
  | .infinite negative => negative
  | .finite negative m => negative && m.significand != 0

end Binary64

end CommandConsole
