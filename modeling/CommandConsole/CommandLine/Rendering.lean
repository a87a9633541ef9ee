import CommandConsole.CommandLine.Run

/-!
# Rendering

While a console runs a script, its events go through a channel to a renderer, which writes them on a
screen one after the other. The two keep no step: events are sent and written in any order that the
channel allows. When the console is gone the channel is closed, and the renderer ends when nothing
is left in it. The application ends after its renderer.
-/

namespace CommandConsole.CommandLine

open Terminal (Screen)

/-- A renderer and the channel in front of it. -/
structure Rendering where
  /-- The events in the channel, the oldest first. -/
  queue : List Event
  /-- The console is gone. -/
  isClosed : Bool
  written : String
  /-- The renderer has ended. -/
  isOver : Bool
  deriving DecidableEq, Repr

namespace Rendering

def start : Rendering := ⟨[], false, "", false⟩

/-- What happens next. -/
inductive Step where
  | send (event : Event)
  | close
  /-- It is the renderer's turn. -/
  | render
  deriving DecidableEq, Repr

/-- Takes a step, if it can be taken: a closed channel takes no more events, and a renderer waits at
an empty channel that is open. -/
def take (screen : Screen) (step : Step) (r : Rendering) : Option Rendering :=
  match step with
  | .send event => if r.isClosed then none else some { r with queue := r.queue ++ [event] }
  | .close => some { r with isClosed := true }
  | .render =>
    if r.isOver then none
    else
      match r.queue with
      | event :: queue => some { r with queue, written := r.written ++ screen.event event }
      | [] => if r.isClosed then some { r with isOver := true } else none

/-- Takes steps one after the other. -/
def takeAll (screen : Screen) : List Step → Rendering → Option Rendering
  | [], r => some r
  | step :: steps, r => (r.take screen step).bind (takeAll screen steps)

/-- The events that are sent in some steps. -/
def sent (steps : List Step) : List Event :=
  steps.filterMap fun step =>
    match step with
    | .send event => some event
    | _ => none

end Rendering

/-- The events are sent, and when the renderer has ended it has written the text. -/
def Renders (screen : Screen) (events : List Event) (text : String) : Prop :=
  ∃ steps r, Rendering.takeAll screen steps .start = some r ∧ Rendering.sent steps = events ∧
    r.isOver = true ∧ r.written = text

end CommandConsole.CommandLine
