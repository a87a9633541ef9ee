import CommandConsole.Binary64.Basic

/-!
# The shortest decimal of a number

Among the decimals that round to a number, the ones with the fewest digits are taken, and of these
the nearest to the number, the larger one from a tie. The decimals that round to a number form an
interval around it, which contains its ends when the significand is even. On the grid of the
multiples of a power of ten the interval is hit exactly when one of the number's two neighbours on
that grid lies in it, so going from coarse to fine grids the first hit has the fewest digits.
-/

namespace CommandConsole

namespace Magnitude

/-- The interval of the decimals that round to a magnitude, in quarters of a unit. -/
structure Interval where
  low : Nat
  middle : Nat
  high : Nat
  /-- The ends round to the magnitude too. -/
  closed : Bool
  deriving DecidableEq, Repr

/-- The least significand that is not subnormal has a closer neighbour below than above. -/
def interval (m : Magnitude) : Interval :=
  let unit := Nat.pow 2 m.shift
  let below := if m.significand = leastNormal ∧ m.shift ≠ 0 then unit else 2 * unit
  { low := 4 * m.units - below
    middle := 4 * m.units
    high := 4 * m.units + 2 * unit
    closed := m.significand % 2 = 0 }

/-- How many quarters of a unit make one. -/
def quartersPerOne : Nat := 4 * unitsPerOne

/-- The value `num / den` of a power of ten. -/
def tenPower (k : Int) : Nat × Nat :=
  if k < 0 then (1, Nat.pow 10 k.natAbs) else (Nat.pow 10 k.natAbs, 1)

/-- `digits · 10 ^ k` lies in the interval. -/
def Interval.holds (i : Interval) (digits : Nat) (k : Int) : Bool :=
  let (num, den) := tenPower k
  let point := digits * num * quartersPerOne
  if i.closed then i.low * den ≤ point && point ≤ i.high * den
  else i.low * den < point && point < i.high * den

/-- The nearer of the neighbours on the grid of `10 ^ k` that lie in the interval. -/
def Interval.hit? (i : Interval) (k : Int) : Option Nat :=
  let (num, den) := tenPower k
  let down := i.middle * den / (num * quartersPerOne)
  let up := down + 1
  match i.holds down k, i.holds up k with
  | false, false => none
  | true, false => some down
  | false, true => some up
  | true, true =>
    if 2 * (i.middle * den) < (down + up) * num * quartersPerOne then some down else some up

/-- The number of decimal digits of a natural, one for zero. -/
def digitCount (n : Nat) : Nat :=
  (Nat.toDigits 10 n).length

/-- An exponent whose power of ten is at least the magnitude, and at most a hundred times it. -/
def topExponent (m : Magnitude) : Int :=
  if unitsPerOne ≤ m.units then digitCount (m.units / unitsPerOne)
  else 1 - (digitCount (unitsPerOne / m.units) : Int)

/-- The shortest digits of a magnitude and the exponent of the last of them. -/
def shortest (m : Magnitude) : Nat × Int :=
  if m.units = 0 then (0, 0)
  else
    let hits := (List.range 19).findSome? fun (n : Nat) =>
      let k := m.topExponent - n
      (m.interval.hit? k).map (·, k)
    hits.getD (0, 0)

/-- The digits and the exponent written without an exponent. -/
def positional (digits : Nat) (exponent : Int) : List Char :=
  let word := Nat.toDigits 10 digits
  let places := exponent.natAbs
  if 0 ≤ exponent then word ++ List.replicate places '0'
  else if places < word.length then
    word.take (word.length - places) ++ '.' :: word.drop (word.length - places)
  else ['0', '.'] ++ List.replicate (places - word.length) '0' ++ word

end Magnitude

namespace Binary64

/-- The sign before a number, which zero can have. -/
def signText (negative : Bool) : String :=
  if negative then "-" else ""

/-- The shortest decimal that reads back to the number, never with an exponent. -/
def display : Binary64 → String
  | .nan => "NaN"
  | .infinite negative => signText negative ++ "inf"
  | .finite negative m =>
    let (digits, exponent) := m.shortest
    signText negative ++ String.ofList (Magnitude.positional digits exponent)

/-- The first digit, a point before further digits, and the exponent of the first digit. -/
def scientific (digits : Nat) (exponent : Int) : String :=
  let word := Nat.toDigits 10 digits
  let fraction := if word.length ≤ 1 then [] else '.' :: word.drop 1
  String.ofList (word.take 1 ++ fraction) ++ "e" ++ toString (exponent + (word.length - 1 : Nat))

/--
The shortest decimal as it stands in the description of a value: with a fractional digit at least,
and with an exponent from `10 ^ 16` on and below `10 ^ -4`.
-/
def describe : Binary64 → String
  | .nan => "NaN"
  | .infinite negative => signText negative ++ "inf"
  | .finite negative m =>
    let (digits, exponent) := m.shortest
    let leading := exponent + (Magnitude.digitCount digits - 1 : Nat)
    let text :=
      if digits ≠ 0 ∧ (leading < -4 ∨ 16 ≤ leading) then scientific digits exponent
      else
        let plain := Magnitude.positional digits exponent
        String.ofList (if plain.contains '.' then plain else plain ++ ['.', '0'])
    signText negative ++ text

end Binary64

end CommandConsole
