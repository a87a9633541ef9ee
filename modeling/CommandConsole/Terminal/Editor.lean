import CommandConsole.Console.Basic

/-!
# Editing a line

Key presses edit a pending line, recall lines from the history, complete command names and submit
the line. Only the control key changes what a character key does.
-/

namespace CommandConsole.Terminal

/-- The keys that are told apart. -/
inductive Key where
  | character (c : Char)
  | escape
  | enter
  | backspace
  | up
  | down
  | tab
  | other
  deriving DecidableEq, Repr

/-- A key with the control key held or not. -/
structure KeyPress where
  key : Key
  control : Bool
  deriving DecidableEq, Repr

/-- What a key press asks for. -/
inductive EditorAction where
  | redraw
  | submit (line : String)
  | quit
  | nothing
  deriving DecidableEq, Repr

/-- The pending line. -/
structure Editor where
  buffer : String
  deriving DecidableEq, Repr

namespace Editor

def empty : Editor := ⟨""⟩

/-- The messages that offer several names. -/
def offer (names : List String) : List Message :=
  .normal "Available commands:" :: names.map fun name => .normal ("  " ++ name)

/-- Completes the pending line. -/
def complete (e : Editor) : Turn (EditorAction × Editor) := do
  match (← Turn.desk).complete e.buffer with
  | .none => pure (.nothing, e)
  | .unique name => pure (.redraw, ⟨name⟩)
  | .ambiguous names =>
    Turn.sayAll (offer names)
    pure (.redraw, e)

/-- The effect of a character key. -/
def character (c : Char) (control : Bool) (e : Editor) : EditorAction × Editor :=
  if control then
    if c = 'c' ∨ c = 'd' then (.quit, e)
    else if c = 'u' then (.redraw, empty)
    else (.nothing, e)
  else (.redraw, ⟨e.buffer.push c⟩)

/-- The effect of the backspace key. -/
def backspace (e : Editor) : EditorAction × Editor :=
  if e.buffer = "" then (.nothing, e)
  else (.redraw, ⟨String.ofList e.buffer.toList.dropLast⟩)

/-- The effect of the enter key: a blank line is dropped, any other is submitted. -/
def enter (e : Editor) : EditorAction × Editor :=
  if Text.isBlank e.buffer then (.redraw, empty) else (.submit e.buffer, empty)

/-- The effect of a key press. -/
def press (k : KeyPress) (e : Editor) : Turn (EditorAction × Editor) :=
  match k.key with
  | .escape => pure (.quit, e)
  | .character c => pure (e.character c k.control)
  | .backspace => pure e.backspace
  | .enter => pure e.enter
  | .up => do
    let line ← Console.previousLine
    pure (.redraw, ⟨line.getD ""⟩)
  | .down => do
    let line ← Console.nextLine
    pure (.redraw, ⟨line.getD ""⟩)
  | .tab => e.complete
  | .other => pure (.nothing, e)

/-- The effect of key presses one after the other, with what the last one asks for. -/
def pressAll : List KeyPress → Editor → Turn (EditorAction × Editor)
  | [], e => pure (.nothing, e)
  | [k], e => e.press k
  | k :: ks, e => do
    let (_, e) ← e.press k
    pressAll ks e

end Editor

end CommandConsole.Terminal
