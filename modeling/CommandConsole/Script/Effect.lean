import CommandConsole.Message

/-!
# Effects on the host

A line that is executed acts on more than the state of its executor: it reports messages, clearings
and calls, and it may ask for the script in flight to be cancelled or for another one to be started.
These effects are listed in their order and applied by the host, which owns the log and the script
in flight. Which lines of scripts are executed is for the host to tell, so no effect reports it.
-/

namespace CommandConsole.Script

/-- Where a script's lines come from. -/
inductive Source where
  | lines (lines : List String)
  | file (path : String)
  deriving DecidableEq, Repr

/-- The path of a script file. -/
def Source.path? : Source → Option String
  | .lines _ => none
  | .file path => some path

/-- What an executed line can put on the event log. -/
inductive Report where
  | shown (message : Message)
  | cleared
  | called (name flag : String) (args : List String)
  deriving DecidableEq, Repr

/-- The event that a report puts on the log. -/
def Report.event : Report → Event
  | shown message => .shown message
  | cleared => .cleared
  | called name flag args => .called name flag args

instance : Coe Report Event := ⟨Report.event⟩

/-- What an executed line does to its host. -/
inductive Effect where
  | record (report : Report)
  /-- Cancels the script in flight. -/
  | cancel
  /-- Asks for a script to be started in the background. -/
  | start (source : Source)
  deriving DecidableEq, Repr

/-- Shows a message. -/
def Effect.say (message : Message) : Effect :=
  .record (.shown message)

end CommandConsole.Script
