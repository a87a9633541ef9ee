import CommandConsole.Console.Builtins
import CommandConsole.Console.Dispatch

/-!
# Consoles

A console is a session of scripts whose own state is a desk, and whose script lines are executed as
typed lines are. Its operations are turns on the desk, the effects of which the session applies.
Every turn finds on the desk whether a script is in flight when it begins. The session knows that by
itself, and what the desk says of it between the turns does not matter.
-/

namespace CommandConsole

/-- A console with its scripts, clock and event log. -/
abbrev Console := Script.Session (Desk Handler)

namespace Console

/-- A console without commands. -/
def bare (settings : Settings) (canStartScripts : Bool) (readFile : String → Option String) :
    Console :=
  .new (.new settings canStartScripts) settings.script readFile

/-- A console with the builtin commands. -/
def withBuiltins (settings : Settings) (canStartScripts : Bool)
    (readFile : String → Option String) : Console :=
  .new (Builtins.registerAll Builtins.all (.new settings canStartScripts)) settings.script readFile

/-- The desk as a turn finds it. -/
def desk (c : Console) : Desk Handler :=
  c.own.during c.isRunning

/-- The console with the desk that a turn left. -/
def withDesk (desk : Desk Handler) (c : Console) : Console :=
  { c with own := desk.during c.own.scriptRunning }

/-- Takes a turn on the desk and applies its effects. -/
def take {α : Type} (turn : Turn α) (c : Console) : Option (α × Console) :=
  (turn c.desk).map fun done => (done.value, (c.withDesk done.desk).applyAll done.effects)

/-- Executes a line, with lines inside it up to a depth. -/
def execute (depth : Nat) (line : String) (c : Console) :
    Option (Except ParseError Outcome × Console) :=
  c.take (executeLine depth line)

/-- Registers a command. -/
def register (definition : Definition Handler) (c : Console) :
    Except DefinitionError Unit × Console :=
  match c.own.register definition with
  | .ok desk => (.ok (), { c with own := desk })
  | .error cause => (.error cause, c)

/-- Recalls the line before the present one in the history. -/
def previousLine : Turn (Option String) :=
  Turn.recalling History.previous

/-- Recalls the line behind the present one in the history. -/
def nextLine : Turn (Option String) :=
  Turn.recalling History.next

/-- Forgets the lines of the history. -/
def clearHistory : Turn Unit :=
  Turn.change fun desk => { desk with history := desk.history.clear }

/-- Asks for the application to end. -/
def requestExit : Turn Unit :=
  Turn.change fun desk => { desk with exitRequested := true }

/-- Shows the banner. -/
def displayInfo : Turn Unit := do
  Turn.sayAll (← Turn.desk).info

/-- Removes everything shown and shows the banner. -/
def clear : Turn Unit := do
  Turn.act (.record .cleared)
  displayInfo

end Console

namespace Script.Session

/-- The script runner of a session as it is shown in descriptions of values. -/
def describe {α : Type} (s : Session α) : String :=
  "ScriptRunner \x7b running: " ++ toString s.isRunning ++ ", config: " ++ s.settings.describe ++
    ", .. \x7d"

end Script.Session

/-- A console as it is shown in descriptions of values. -/
def Console.describe (c : Console) : String :=
  "Console \x7b config: " ++ c.own.settings.describe ++ ", scripts: " ++ Script.Session.describe c ++
    ", .. \x7d"

end CommandConsole
