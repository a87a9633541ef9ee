import CommandConsole.Text.Blank

/-!
# Line history

A history keeps the latest distinct lines up to a capacity, oldest first, and a cursor for recalling
them. There is always room for one line. Adding a line that is there already moves it to the end,
and puts the cursor behind the last line. A history without lines has no cursor until one is added.
-/

namespace CommandConsole

/-- The lines kept, oldest first, and where recall stands. -/
structure History where
  capacity : Nat
  entries : List String
  cursor : Option Nat
  capacity_pos : 0 < capacity
  deriving DecidableEq, Repr

namespace History

/-- How many lines are kept where nothing else is said. -/
def defaultCapacity : Nat := 100

/-- A history without lines. The capacity is one at least. -/
def withCapacity (capacity : Nat) : History :=
  ⟨max capacity 1, [], none, by omega⟩

/-- Adds a line that is not blank and drops the oldest lines above the capacity. -/
def add (line : String) (h : History) : History :=
  if Text.isBlank line then h
  else
    let entries := h.entries.filter (· != line) ++ [line]
    let kept := entries.drop (entries.length - h.capacity)
    { h with entries := kept, cursor := some kept.length }

/-- Goes one line back and recalls it, unless there is none. -/
def previous (h : History) : Option String × History :=
  match h.cursor with
  | some (index + 1) => (h.entries[index]?, { h with cursor := some index })
  | _ => (none, h)

/-- Goes one line forward and recalls it, unless there is none. -/
def next (h : History) : Option String × History :=
  let index := match h.cursor with
    | some cursor => cursor + 1
    | none => 0
  match h.entries[index]? with
  | some line => (some line, { h with cursor := some index })
  | none => (none, h)

/-- Forgets every line. -/
def clear (h : History) : History :=
  { h with entries := [], cursor := none }

end History

end CommandConsole
