import CommandConsole.Console.Turn
import CommandConsole.Script.Session

/-!
# Executing lines

A line is read as an invocation, the definition that answers to it is looked up once, and its
handler is called with each of the invocation's argument lists until a call fails. Whatever goes
wrong is reported as a message. A line that could be read goes into the history afterwards. Lines
executed by handlers are executed in the same way, up to a depth.
-/

namespace CommandConsole

/-- What came of a list of calls: how many returned, and how the next one failed. -/
structure CallReport where
  returned : Nat
  failure? : Option Failure
  deriving DecidableEq, Repr

/-- Makes calls until one fails, after some that returned. -/
def callAll (call : List String → Turn (Except Failure Unit)) :
    Nat → List (List String) → Turn CallReport
  | returned, [] => pure ⟨returned, none⟩
  | returned, args :: rest => do
    match ← call args with
    | .ok () => callAll call (returned + 1) rest
    | .error cause => pure ⟨returned, some cause⟩

/-- The message about a command that no definition answers to. -/
def LookupError.report (e : LookupError) : Message :=
  match e with
  | .commandNotFound _ => .error e.message
  | .flagNotSupported _ _ => .warning e.message

/-- The outcome for a command that no definition answers to. -/
def LookupError.outcome : LookupError → Outcome
  | .commandNotFound _ => .notFound
  | .flagNotSupported _ _ => .flagNotSupported

/-- The message about a failed call. -/
def failureReport (name : String) (cause : Failure) : Message :=
  .error ("Error executing command '" ++ name ++ "': " ++ cause.text)

/-- Executes an invocation. -/
def dispatch (execute : String → Turn (Except ParseError Outcome)) (i : Invocation) :
    Turn Outcome := do
  match (← Turn.desk).registry.findMatch i with
  | .error cause =>
    Turn.say cause.report
    pure cause.outcome
  | .ok definition =>
    let report ← callAll (fun args => (definition.handler args).run execute) 0 i.calls
    match report.failure? with
    | none => pure (.executed report.returned)
    | some cause =>
      Turn.say (failureReport i.name cause)
      pure (.handlerFailed report.returned cause.text)

/-- Executes a line, with lines inside it up to a depth. -/
def executeLine : Nat → String → Turn (Except ParseError Outcome)
  | 0, _ => Turn.never
  | depth + 1, line =>
    match Invocation.parse line with
    | .error cause => do
      Turn.say (.warning cause.message)
      pure (.error cause)
    | .ok invocation => do
      let outcome ← dispatch (executeLine depth) invocation
      Turn.change fun desk => { desk with history := desk.history.add line }
      pure (.ok outcome)

/-- A console as the executor of script lines: a script is in flight while it executes one, and
nothing it executes makes a script fail. -/
def consoleExecutor (depth : Nat) : Script.Executor (Desk Handler) where
  run line desk :=
    (executeLine depth line (desk.during true)).map fun done =>
      ⟨done.effects, none, done.desk.during desk.scriptRunning⟩

end CommandConsole
