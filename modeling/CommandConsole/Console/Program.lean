import CommandConsole.Command.Registry
import CommandConsole.Completion
import CommandConsole.History
import CommandConsole.Script.Effect
import CommandConsole.Settings.Basic

/-!
# Command handlers

A handler gives a program for the arguments it is called with. A program acts on the console step by
step: it can look at the console, have effects on the host, register further commands, recall lines
of the history, execute further lines and go on with what came of them, and it ends well or with a
failure. What a program sees of the console is the console's desk with the handlers left out, and on
it whether a script is in flight, which is so in every line that a script executes.
-/

namespace CommandConsole

/-- What became of a command that was looked up. -/
inductive Outcome where
  /-- Every call returned. -/
  | executed (calls : Nat)
  /-- A call failed after some had returned, and no further one was made. -/
  | handlerFailed (calls : Nat) (error : String)
  | notFound
  | flagNotSupported
  deriving DecidableEq, Repr

/-- Every call was made and returned. -/
def Outcome.isSuccess : Outcome → Bool
  | executed _ => true
  | _ => false

/-- How a call fails. -/
inductive Failure where
  /-- An error with the contexts that were put around it, the innermost first. -/
  | error (message : String) (contexts : List String)
  /-- A panic, with its message if that is a text. -/
  | panic (message : Option String)
  deriving DecidableEq, Repr

namespace Failure

/-- The text of a panic without a text of its own. -/
def silentPanic : String := "handler panicked"

/-- The text of a failure: the outermost context first. -/
def text : Failure → String
  | error message contexts => contexts.foldl (fun inner context => context ++ ": " ++ inner) message
  | panic message => message.getD silentPanic

end Failure

/-- The state of a console with handlers of some type. Of its scripts it only tells whether one is in
flight. -/
structure Desk (η : Type) where
  settings : Settings
  registry : Registry η
  /-- The names that completion knows. -/
  knownNames : List String
  history : History
  exitRequested : Bool
  /-- Scripts can be started in the background. -/
  canStartScripts : Bool
  /-- A script is in flight. Turns are told so when they begin, and a script that they ask for is in
  flight at once. -/
  scriptRunning : Bool
  /-- What handlers keep between their calls. -/
  notes : List String

namespace Desk

variable {η : Type}

/-- The description that stands for a missing one. -/
def missingDescription : String := "Command not found"

/-- A console at its start, without commands. -/
def new (settings : Settings) (canStartScripts : Bool) : Desk η where
  settings := settings
  registry := .empty
  knownNames := []
  history := .withCapacity settings.historyCapacity
  exitRequested := false
  canStartScripts := canStartScripts
  scriptRunning := false
  notes := []

/-- The desk with its handlers left out. -/
def outline (d : Desk η) : Desk Unit :=
  { d with registry := d.registry.outline }

/-- The desk while a script is in flight, or while none is. -/
def during (scriptRunning : Bool) (d : Desk η) : Desk η :=
  { d with scriptRunning }

/-- The desk behind an effect. A script that is asked for is in flight from then on, unless another
one has been all along. -/
def after (effect : Script.Effect) (d : Desk η) : Desk η :=
  match effect with
  | .start _ => d.during true
  | .record _ | .cancel => d

/-- Registers a command, and lets completion know of it. -/
def register (definition : Definition η) (d : Desk η) : Except DefinitionError (Desk η) :=
  match d.registry.register definition with
  | .ok registry => .ok { d with registry, knownNames := registry.names }
  | .error cause => .error cause

/-- The description of a command's plain form. -/
def describe (d : Desk η) (name : String) : String :=
  (d.registry.describe? name).getD missingDescription

/-- The names suggested for a partial one. -/
def suggest (d : Desk η) (part : String) : List String :=
  Completion.suggest d.knownNames part

/-- Completes a partial name. -/
def complete (d : Desk η) (part : String) : Completion :=
  Completion.complete d.knownNames part

/-- The banner. -/
def info (d : Desk η) : List Message :=
  [.success (d.settings.banner ++ " v" ++ d.settings.version),
    .normal "Type 'help' for a list of commands."]

end Desk

/-- What a handler does. -/
inductive Program where
  | done
  | fail (cause : Failure)
  /-- Goes on with what it sees of the console, the scripts included: whether one is in flight. -/
  | look (next : Desk Unit → Program)
  | act (effect : Script.Effect) (next : Program)
  /-- Registers a command and goes on with the reason if it was not accepted. -/
  | register (entry : Definition Unit) (body : List String → Program)
      (next : Option DefinitionError → Program)
  /-- Executes a line and goes on with what came of it. -/
  | execute (line : String) (next : Except ParseError Outcome → Program)
  | requestExit (next : Program)
  | clearHistory (next : Program)
  /-- Recalls the line before the present one in the history and goes on with it. -/
  | previousLine (next : Option String → Program)
  /-- Recalls the line behind the present one in the history and goes on with it. -/
  | nextLine (next : Option String → Program)
  /-- Keeps something for later calls in place of what was kept before. -/
  | keep (notes : List String) (next : Program)

/-- What a command does when it is called with arguments. -/
abbrev Handler := List String → Program

namespace Program

/-- Shows messages. -/
def sayAll (messages : List Message) (next : Program) : Program :=
  messages.foldr (fun message next => .act (.say message) next) next

/-- Shows a message. -/
def say (message : Message) (next : Program) : Program :=
  .act (.say message) next

/-- Shows the banner. -/
def info (next : Program) : Program :=
  .look fun desk => sayAll desk.info next

/-- Removes everything shown and shows the banner. -/
def clear (next : Program) : Program :=
  .act (.record .cleared) (info next)

/-- The reason why a script cannot be started where nothing runs in the background. -/
def noBackground : String :=
  "there is no reactor running, must be called from the context of a Tokio 1.x runtime"

/-- Asks for a script to be started, which panics where nothing runs in the background. -/
def startScript (source : Script.Source) (next : Program) : Program :=
  .look fun desk =>
    if desk.canStartScripts then .act (.start source) next else .fail (.panic (some noBackground))

/-- Registers a command; if it is not accepted, fails with the reason. -/
def registerOrFail (definition : Definition Handler) (next : Program) : Program :=
  .register (definition.withHandler ()) definition.handler fun refused =>
    match refused with
    | none => next
    | some cause => .fail (.error (ConsoleError.definition cause.reason).message [])

end Program

end CommandConsole
