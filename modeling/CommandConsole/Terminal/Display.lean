/-!
# Terminal displays

What a terminal of unlimited width and height shows of the characters that are written to it. A
character is shown at the cursor, over what was there, and takes one column. A carriage return goes
to the first column, a line feed one row down. Of the control sequences those that screens use have
their usual effect: they move the cursor to a column or to a place, and clear the cursor's row or
everything. All others, such as those that set colours, change nothing that is shown.
-/

namespace CommandConsole.Terminal

/-- What a terminal takes the next character for. -/
inductive Display.Mode where
  | text
  /-- The first character behind an escape character. -/
  | escape
  /-- The next character of a control sequence with these parameters so far. -/
  | sequence (parameters : List Char)
  deriving DecidableEq, Repr

/-- The characters that are shown, by row and column, and the place of the cursor. -/
structure Display where
  cell : Nat → Nat → Option Char
  row : Nat
  column : Nat
  mode : Display.Mode

namespace Display

/-- A terminal that shows nothing. -/
def blank : Display := ⟨fun _ _ => none, 0, 0, .text⟩

/-- Shows a character at the cursor and moves on by one column. -/
def put (c : Char) (d : Display) : Display :=
  { d with
    cell := fun row column => if row = d.row ∧ column = d.column then some c else d.cell row column
    column := d.column + 1 }

/-- Clears the row of the cursor. -/
def clearRow (d : Display) : Display :=
  { d with cell := fun row column => if row = d.row then none else d.cell row column }

/-- Clears everything. -/
def clearAll (d : Display) : Display :=
  { d with cell := fun _ _ => none }

/-- Goes to a row and a column, both counted from one. -/
def goTo (row column : Nat) (d : Display) : Display :=
  { d with row := row - 1, column := column - 1 }

/-- The numbers of a control sequence, between semicolons; one that is missing is zero. -/
def numbers (parameters : List Char) : List Nat :=
  let read : List Nat → Char → List Nat
    | n :: before, c => if c = ';' then 0 :: n :: before else (10 * n + (c.toNat - '0'.toNat)) :: before
    | [], _ => []
  (parameters.foldl read [0]).reverse

/-- The effect of a control sequence. -/
def control (final : Char) (numbers : List Nat) (d : Display) : Display :=
  match final, numbers with
  | 'G', column :: _ => d.goTo (d.row + 1) column
  | 'H', row :: columns => d.goTo row (columns.headD 0)
  | 'K', 2 :: _ => d.clearRow
  | 'J', 2 :: _ => d.clearAll
  | _, _ => d

/-- The character ends a control sequence. -/
def isFinal (c : Char) : Bool :=
  0x40 ≤ c.toNat && c.toNat ≤ 0x7E

/-- The display behind one more character. -/
def feed (d : Display) (c : Char) : Display :=
  match d.mode with
  | .text =>
    if c = '\x1b' then { d with mode := .escape }
    else if c = '\r' then { d with column := 0 }
    else if c = '\n' then { d with row := d.row + 1 }
    else d.put c
  | .escape => { d with mode := if c = '[' then .sequence [] else .text }
  | .sequence parameters =>
    if isFinal c then { d with mode := .text }.control c (numbers parameters)
    else { d with mode := .sequence (parameters ++ [c]) }

/-- The display behind some text. -/
def write (text : String) (d : Display) : Display :=
  text.toList.foldl feed d

end Display

end CommandConsole.Terminal
