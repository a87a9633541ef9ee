import CommandConsole.CommandLine.Options
import CommandConsole.Console.Basic
import CommandConsole.Settings.Document
import CommandConsole.Terminal.Screen

/-!
# Running a script from the command line

With a script, the application runs it on a console with the builtin commands, shows every message
on a line of its own, and succeeds if the script could be run. Without one it needs a terminal. A
command line that is not well formed and settings that cannot be had end it before anything is
shown.
-/

namespace CommandConsole.CommandLine

/-- What the application writes, and the code it ends with. -/
structure Answer where
  output : String
  exitCode : Nat
  deriving DecidableEq, Repr

/-- A job that the options ask for. -/
structure Job where
  settings : Settings
  coloured : Bool
  script? : Option String

/-- The answer to a command line without a job. -/
def Stop.answer : Stop → Answer
  | version => ⟨"devconsole 0.1.0\n", 0⟩
  | help => ⟨"", 0⟩
  | misuse => ⟨"", 2⟩

/-- The code of an application that failed. -/
def failureCode : Nat := 1

/-- The settings that the options ask for. -/
def settingsOf (readFile : String → Option String) (o : Options) :
    Except Settings.LoadError Settings :=
  match Settings.load readFile o.config? with
  | .error cause => .error cause
  | .ok loaded =>
    let settings := { loaded with historyCapacity := o.historySize?.getD loaded.historyCapacity }
    match settings.validate with
    | .ok () => .ok settings
    | .error cause => .error (.notAdmissible cause)

/-- What the surroundings say about colours: the value of a setting that forces them, of one that
forbids them and of one that is on from the start, and whether the output goes to a terminal. A
setting with the value `0` is off, but the one that forbids colours counts whatever its value is.
-/
structure Surroundings where
  forced? : Option String
  forbidden? : Option String
  allowed? : Option String
  toTerminal : Bool
  deriving DecidableEq, Repr

/-- The output is coloured unless the command line says otherwise. -/
def Surroundings.coloured (s : Surroundings) : Bool :=
  s.forced?.any (· != "0") || (s.forbidden?.isNone && s.allowed?.all (· != "0") && s.toTerminal)

/-- The job that a command line asks for, or the answer if there is none. -/
def jobOf (readFile : String → Option String) (coloured : Bool) (words : List String) :
    Except Answer Job :=
  match parse words with
  | .error stop => .error stop.answer
  | .ok o =>
    match settingsOf readFile o with
    | .error _ => .error ⟨"", failureCode⟩
    | .ok settings => .ok ⟨settings, coloured && !o.noColour, o.script?⟩

/-- The code after a script. -/
def exitCodeOf : Script.Outcome → Nat
  | .completed _ => 0
  | .cancelled _ => 0
  | .rejected => failureCode
  | .failed _ => failureCode

/-- What a plain screen writes for events. -/
def outputOf (coloured : Bool) (events : List Event) : String :=
  String.join (events.map fun event => (Terminal.Screen.new false coloured).event event)

/-- The console on which a job's script runs. -/
def Job.console (readFile : String → Option String) (job : Job) : Console :=
  .withBuiltins job.settings true readFile

/-- Runs the application without a terminal, with lines inside lines up to a depth. -/
def run (depth : Nat) (readFile : String → Option String) (coloured : Bool)
    (words : List String) : Option Answer :=
  match jobOf readFile coloured words with
  | .error answer => some answer
  | .ok job =>
    match job.script? with
    | none => some ⟨"", failureCode⟩
    | some path =>
      ((job.console readFile).run (consoleExecutor depth) (.file path)).map fun (outcome, console) =>
        ⟨outputOf job.coloured console.log, exitCodeOf outcome⟩

end CommandConsole.CommandLine
