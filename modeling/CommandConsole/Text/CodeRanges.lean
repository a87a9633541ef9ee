/-!
# Sets of characters as ranges of code points

A character property is written as the increasing list of the closed ranges of code points that have
it. A character has the property if some range holds its code point.
-/

namespace CommandConsole.Text

/-- A set of code points as closed ranges, each given by its first and last member. -/
abbrev CodeRanges := List (Nat × Nat)

/-- Some range of the list holds the code point of the character. -/
def CodeRanges.contains (ranges : CodeRanges) (c : Char) : Bool :=
  ranges.any fun range => range.1 ≤ c.toNat && c.toNat ≤ range.2

end CommandConsole.Text
