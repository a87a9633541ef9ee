import CommandConsole.Error
import CommandConsole.Script.Effect
import CommandConsole.Script.Line

/-!
# What happens to scripts

A story is the list of what happened in a session, the oldest first: which scripts were accepted and
rejected, which of their lines were reached and handed over, what was reported meanwhile, and how
they ended. Scripts are numbered as they are accepted. The event log, the results of the scripts and
their count are read off the story.
-/

namespace CommandConsole.Script

/-- How a script ended. -/
inductive Outcome where
  | completed (linesExecuted : Nat)
  | rejected
  | failed (message : String)
  | cancelled (linesExecuted : Nat)
  deriving DecidableEq, Repr

/-- The message about a script that ran through. -/
def completionMessage (source : Source) : Message :=
  match source.path? with
  | some path => .success ("Script execution completed: " ++ path)
  | none => .success "Script execution completed"

def cancellationMessage : Message :=
  .warning "Script execution cancelled"

/-- The text about a line whose execution panicked. -/
def panicText (text : String) : String :=
  "Error executing script: " ++ text

/-- The message with which a script ends. -/
def Outcome.closing (source : Source) : Outcome → Message
  | completed _ => completionMessage source
  | rejected => .warning ScriptError.alreadyRunning.message
  | failed text => .error text
  | cancelled _ => cancellationMessage

/-- One thing that happens in a session. -/
inductive Happening where
  | accepted (script : Nat) (source : Source)
  | rejected (source : Source)
  /-- Someone asked to cancel the script in flight, which is the one with the number, if any is. -/
  | cancelAsked (script? : Option Nat)
  /-- A script came to a line of its list. -/
  | reached (script : Nat) (line : String)
  /-- A script announced a pause. -/
  | paused (script : Nat) (announcement : Message)
  /-- A script echoed a line and handed it to the executor. -/
  | handed (script : Nat) (line : String)
  | reported (report : Report)
  /-- The executor came back from a line, with the text of a panic out of it. -/
  | returned (script : Nat) (panic? : Option String)
  | ended (script : Nat) (source : Source) (outcome : Outcome)
  deriving DecidableEq, Repr

namespace Happening

/-- What the event log tells of it. -/
def events : Happening → List Event
  | accepted _ _ => []
  | rejected source => [.shown (Outcome.rejected.closing source)]
  | cancelAsked _ => []
  | reached _ _ => []
  | paused _ announcement => [.shown announcement]
  | handed script line => [.shown (echo line), .executing script line]
  | reported report => [report]
  | returned _ _ => []
  | ended _ source outcome => [.shown (outcome.closing source)]

/-- A script was accepted. -/
def isAcceptance : Happening → Bool
  | accepted _ _ => true
  | _ => false

/-- How which script ended. -/
def result? : Happening → Option (Nat × Outcome)
  | ended script _ outcome => some (script, outcome)
  | _ => none

end Happening

end CommandConsole.Script
