import CommandConsole.Terminal.Paint

/-!
# Screens

What is written to the terminal. On an interactive screen the last row is a prompt with the pending
input: everything shown first clears this row and then writes it again below. A plain screen has no
prompt, and nothing on it is removed.
-/

namespace CommandConsole.Terminal

/-- A screen with its pending input. -/
structure Screen where
  interactive : Bool
  coloured : Bool
  input : String
  deriving DecidableEq, Repr

namespace Screen

def prompt : String := "> "

/-- Goes to the first column. -/
def toLineStart : String := "\x1b[1G"

/-- Clears the row. -/
def clearRow : String := "\x1b[2K"

/-- Clears the terminal. -/
def clearAll : String := "\x1b[2J"

/-- Goes to the upper left corner. -/
def toCorner : String := "\x1b[1;1H"

/-- A line break of a terminal that does not return by itself. -/
def rowBreak : String := "\r\n"

/-- The text with its line breaks as those of the terminal. -/
def breakRows (text : String) : String :=
  String.ofList (text.toList.flatMap fun c => if c = '\n' then rowBreak.toList else [c])

def new (interactive coloured : Bool) : Screen :=
  ⟨interactive, coloured, ""⟩

/-- Shows a message. -/
def line (message : Message) (s : Screen) : String :=
  if s.interactive then
    toLineStart ++ clearRow ++ paint s.coloured { message with text := breakRows message.text } ++
      rowBreak ++ prompt ++ s.input
  else paint s.coloured message ++ "\n"

/-- Removes everything shown. -/
def clear (s : Screen) : String :=
  if s.interactive then clearAll ++ toCorner ++ prompt ++ s.input else ""

/-- Shows a new pending input. -/
def setInput (text : String) (s : Screen) : String × Screen :=
  (toLineStart ++ clearRow ++ prompt ++ text, { s with input := text })

/-- Lets a line that was entered stand, and starts a new one. -/
def commitInput (line : String) (s : Screen) : String × Screen :=
  (toLineStart ++ clearRow ++ paint s.coloured (.normal (prompt ++ line)) ++ rowBreak ++ prompt,
    { s with input := "" })

/-- Leaves the prompt. -/
def finish (_ : Screen) : String :=
  rowBreak

/-- Shows an event, if it is one to be shown. -/
def event (e : Event) (s : Screen) : String :=
  match e with
  | .shown message => s.line message
  | .cleared => s.clear
  | _ => ""

end Screen

end CommandConsole.Terminal
