import CommandConsole.Binary64.Reading
import CommandConsole.Duration
import CommandConsole.Error
import CommandConsole.Text.Blank

/-!
# Pause directives

A pause directive gives a number of seconds between its first opening and its first closing
parenthesis, with any white space around it.
-/

namespace CommandConsole.Script

open CommandConsole.Text

/-- The number of characters before the first one of a kind. -/
def firstIndex? (c : Char) (cs : List Char) : Option Nat :=
  cs.findIdx? (· == c)

/-- The length of time that a directive gives. -/
def parsePause (directive : String) : Except PauseError Duration :=
  let cs := directive.toList
  match firstIndex? '(' cs, firstIndex? ')' cs with
  | none, _ => .error .noOpening
  | some _, none => .error .noClosing
  | some opening, some closing =>
    if closing < opening then .error .closingFirst
    else
      let text := String.ofList (trimChars ((cs.take closing).drop (opening + 1)))
      match Binary64.parse? text with
      | none => .error (.notNumber text)
      | some seconds =>
        match Duration.ofBinary64? seconds with
        | none => .error (.notDuration text)
        | some d => .ok d

end CommandConsole.Script
