import CommandConsole.Binary64.Basic

/-!
# Reading decimal numbers

The text of a number is an optional sign and then a word for infinity or for no number, in any case,
or decimal digits with an optional point and an optional exponent. At least one digit must stand
beside the point and one in the exponent. The value is the number of the format nearest to the
decimal.
-/

namespace CommandConsole.Binary64

/-- The value of a decimal digit. -/
def digitValue (c : Char) : Nat :=
  c.toNat - '0'.toNat

/-- The value of a word of decimal digits. -/
def digitsValue (digits : List Char) : Nat :=
  digits.foldl (fun value c => 10 * value + digitValue c) 0

/-- A decimal `digits · 10 ^ exponent`, where the digits may start with zeros. -/
structure Decimal where
  digits : List Char
  exponent : Int
  deriving DecidableEq, Repr

/-- Splits the sign off a text. -/
def splitSign : List Char → Bool × List Char
  | '-' :: rest => (true, rest)
  | '+' :: rest => (false, rest)
  | rest => (false, rest)

/-- The exponent at the end of a number: nothing, or a mark, an optional sign and digits. -/
def readExponent? : List Char → Option Int
  | [] => some 0
  | mark :: rest =>
    if mark = 'e' ∨ mark = 'E' then
      let (negative, digits) := splitSign rest
      if digits ≠ [] ∧ digits.all Char.isDigit then
        some (if negative then -(digitsValue digits : Int) else digitsValue digits)
      else none
    else none

/-- The digits after the point, with the text behind them. -/
def splitFraction : List Char → List Char × List Char
  | '.' :: rest => (rest.takeWhile Char.isDigit, rest.dropWhile Char.isDigit)
  | rest => ([], rest)

/-- A decimal without a sign. -/
def readDecimal? (cs : List Char) : Option Decimal :=
  let whole := cs.takeWhile Char.isDigit
  let (fraction, rest) := splitFraction (cs.dropWhile Char.isDigit)
  if whole = [] ∧ fraction = [] then none
  else (readExponent? rest).map fun e => ⟨whole ++ fraction, e - fraction.length⟩

/--
The number nearest to a decimal. With an exponent above 400 any non-zero decimal is too large, and
one whose exponent lies more than 400 below its number of digits is nearest to zero.
-/
def ofDecimal (negative : Bool) (d : Decimal) : Binary64 :=
  let value := digitsValue d.digits
  if value = 0 ∨ d.exponent < -(400 + d.digits.length : Int) then .finite negative ⟨0, 0⟩
  else if d.exponent > 400 then .infinite negative
  else if d.exponent < 0 then ofRatio negative value (Nat.pow 10 d.exponent.natAbs)
  else ofRatio negative (value * Nat.pow 10 d.exponent.natAbs) 1

/-- The characters are the given lowercase word, in any case. -/
def isWord (word : String) (cs : List Char) : Bool :=
  cs.map Char.toLower == word.toList

/-- The number written by a text. -/
def parse? (s : String) : Option Binary64 :=
  let (negative, cs) := splitSign s.toList
  if isWord "nan" cs then some .nan
  else if isWord "inf" cs || isWord "infinity" cs then some (.infinite negative)
  else (readDecimal? cs).map (ofDecimal negative)

end CommandConsole.Binary64
