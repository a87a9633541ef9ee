import CommandConsole.Script.Story
import CommandConsole.Text.Lines

/-!
# Running scripts

A session is a host with a clock, a story and at most one script in flight. A script is accepted
when none is in flight, and rejected with a warning otherwise. The clock counts milliseconds and
moves only while the host waits. A script goes on while the host waits, from one wait of its own to
the next. Cancelling ends the script in flight at its next or present wait. Every accepted script
starts out not cancelled, whatever was cancelled before.

Hosts and scripts share one thread, on which they give way to each other of their own accord. A host
gives way where it waits, and a script at its waits alone: nothing comes between two waits of a
script. So the lines of a script are executed whole, a file is read without a suspension when its
script begins, and a wait of no length never yields to the host.

Where a wait is over at the moment at which its script is cancelled, either can win. The session
carries the answers to these ties, so what is shown for every session holds for every way in which
they fall.
-/

namespace CommandConsole.Script

/-- What an executed line leaves behind. -/
structure Reaction (α : Type) where
  effects : List Effect
  /-- The text of a panic out of the executor itself. -/
  panic? : Option String
  own : α

/-- A way of executing lines on a state, which may not return. -/
structure Executor (α : Type) where
  run : String → α → Option (Reaction α)

/-- How far a script in flight has come. -/
inductive Stage where
  /-- Accepted and not yet begun. -/
  | ready
  /-- Waiting until a time, with the lines behind the wait. -/
  | asleep (wake : Nat) (rest : List String)
  deriving DecidableEq, Repr

/-- A script in flight. -/
structure Flight where
  /-- The number of scripts accepted before it. -/
  id : Nat
  source : Source
  linesExecuted : Nat
  stage : Stage
  deriving DecidableEq, Repr

/-- A host of scripts with a state of its own. -/
structure Session (α : Type) where
  own : α
  settings : ScriptSettings
  /-- The text of the file at a path, if there is one that holds text. -/
  readFile : String → Option String
  /-- The time in milliseconds. -/
  now : Nat
  /-- What happened, the oldest first. -/
  story : List Happening
  flight? : Option Flight
  /-- A cancellation was asked for since a script was accepted last. -/
  cancelled : Bool
  /-- How often the host has waited. -/
  waits : Nat
  /-- Whether the wait wins the tie with a number. -/
  waitWins : Nat → Bool
  /-- How many ties there have been. -/
  ties : Nat

/-- What is given for a request to start a script, to ask for its outcome later. -/
inductive Ticket where
  | run (id : Nat)
  /-- Rejected after the host had waited so often. -/
  | rejected (waits : Nat)
  deriving DecidableEq, Repr

namespace Session

variable {α : Type}

/-- A session at its start, where a cancellation wins every tie. -/
def new (own : α) (settings : ScriptSettings) (readFile : String → Option String) : Session α where
  own := own
  settings := settings
  readFile := readFile
  now := 0
  story := []
  flight? := none
  cancelled := false
  waits := 0
  waitWins := fun _ => false
  ties := 0

/-- A script is in flight. -/
def isRunning (s : Session α) : Bool :=
  s.flight?.isSome

/-- The event log, the oldest first. -/
def log (s : Session α) : List Event :=
  s.story.flatMap Happening.events

/-- How many scripts have been accepted. -/
def accepted (s : Session α) : Nat :=
  s.story.countP Happening.isAcceptance

/-- How the scripts that were accepted ended, the latest first. -/
def results (s : Session α) : List (Nat × Outcome) :=
  (s.story.filterMap Happening.result?).reverse

/-- Adds to the story. -/
def note (happening : Happening) (s : Session α) : Session α :=
  { s with story := s.story ++ [happening] }

/-- Cancels the script in flight. -/
def cancel (s : Session α) : Session α :=
  { s with cancelled := true }.note (.cancelAsked (s.flight?.map Flight.id))

/-- Accepts a script if none is in flight. -/
def request (source : Source) (s : Session α) : Ticket × Session α :=
  if s.isRunning then (.rejected s.waits, s.note (.rejected source))
  else
    (.run s.accepted,
      { s with
        flight? := some ⟨s.accepted, source, 0, .ready⟩
        cancelled := false }.note (.accepted s.accepted source))

/-- Applies an effect of an executed line. -/
def apply (effect : Effect) (s : Session α) : Session α :=
  match effect with
  | .record report => s.note (.reported report)
  | .cancel => s.cancel
  | .start source => (s.request source).2

/-- Applies effects in their order. -/
def applyAll (effects : List Effect) (s : Session α) : Session α :=
  effects.foldl (fun s effect => s.apply effect) s

/-- Ends a script. -/
def finish (flight : Flight) (outcome : Outcome) (s : Session α) : Session α :=
  { s with flight? := none }.note (.ended flight.id flight.source outcome)

/-- Ends a script that was cancelled. -/
def finishCancelled (flight : Flight) (s : Session α) : Session α :=
  s.finish flight (.cancelled flight.linesExecuted)

/-- The wait wins the tie that has come up. -/
def tie (s : Session α) : Bool × Session α :=
  (s.waitWins s.ties, { s with ties := s.ties + 1 })

/-- The time comes before a deadline, which is no time at all for a host that waits for as long as
it takes. -/
def isBefore (time : Nat) (deadline : Option Nat) : Bool :=
  deadline.all (time < ·)

/-- What a wait of a script comes to. -/
inductive Wait (α : Type) where
  /-- The wait is over and the script goes on. -/
  | over (s : Session α)
  /-- The script was cancelled. -/
  | cut (s : Session α)
  /-- The script waits until a time after the deadline. -/
  | long (wake : Nat) (s : Session α)

/-- Begins a wait of a script, while the host waits until a deadline. -/
def suspend (deadline : Option Nat) (length : Duration) (s : Session α) : Wait α :=
  let wake := s.now + length.wait
  if s.cancelled then
    if length.wait = 0 then
      match s.tie with
      | (true, s) => .over s
      | (false, s) => .cut s
    else .cut s
  else if length.wait = 0 then .over s
  else if isBefore wake deadline then .over { s with now := wake }
  else .long wake s

/-- Leaves a script waiting. -/
def park (flight : Flight) (wake : Nat) (rest : List String) (s : Session α) : Session α :=
  { s with flight? := some { flight with stage := .asleep wake rest } }

/-- Hands a line of a script to the executor: the text of a panic out of it, if any. -/
def perform (x : Executor α) (flight : Flight) (line : String) (s : Session α) :
    Option (Option String × Session α) :=
  let s := s.note (.handed flight.id line)
  (x.run line s.own).map fun reaction =>
    (reaction.panic?,
      ({ s with own := reaction.own }.applyAll reaction.effects).note
        (.returned flight.id reaction.panic?))

/-- Runs the lines of a script until it ends or waits beyond the deadline. -/
def runLines (x : Executor α) (deadline : Option Nat) :
    Flight → List String → Session α → Option (Session α)
  | flight, [], s => some (s.finish flight (.completed flight.linesExecuted))
  | flight, line :: rest, s =>
    if s.cancelled then some (s.finishCancelled flight)
    else
      let s := s.note (.reached flight.id line)
      match stepOf s.settings line with
      | .skip => runLines x deadline flight rest s
      | .pause announcement length =>
        match (s.note (.paused flight.id announcement)).suspend deadline length with
        | .over s => runLines x deadline flight rest s
        | .cut s => some (s.finishCancelled flight)
        | .long wake s => some (s.park flight wake rest)
      | .command =>
        match s.perform x flight line with
        | none => none
        | some (some text, s) => some (s.finish flight (.failed (panicText text)))
        | some (none, s) =>
          let flight := { flight with linesExecuted := flight.linesExecuted + 1 }
          match s.suspend deadline s.settings.lineWait with
          | .over s => runLines x deadline flight rest s
          | .cut s => some (s.finishCancelled flight)
          | .long wake s => some (s.park flight wake rest)

/-- The lines of a script, if they can be had. -/
def linesOf? (source : Source) (s : Session α) : Except ScriptError (List String) :=
  match source with
  | .lines lines => .ok lines
  | .file path =>
    match s.readFile path with
    | some text => .ok (Text.lines text)
    | none => .error (.fileMissing path)

/-- Lets the script in flight go on until it ends or waits beyond the deadline. -/
def resume (x : Executor α) (deadline : Option Nat) (s : Session α) : Option (Session α) :=
  match s.flight? with
  | none => some s
  | some flight =>
    match flight.stage with
    | .ready =>
      match s.linesOf? flight.source with
      | .ok lines => runLines x deadline flight lines s
      | .error cause => some (s.finish flight (.failed cause.message))
    | .asleep wake rest =>
      if s.cancelled then
        if wake ≤ s.now then
          match s.tie with
          | (true, s) => runLines x deadline flight rest s
          | (false, s) => some (s.finishCancelled flight)
        else some (s.finishCancelled flight)
      else if wake ≤ s.now then runLines x deadline flight rest s
      else if isBefore wake deadline then runLines x deadline flight rest { s with now := wake }
      else some s

/-- Lets the host wait until a deadline. -/
def wait (x : Executor α) (deadline : Option Nat) (s : Session α) : Option (Session α) :=
  { s with waits := s.waits + 1 }.resume x deadline

/-- Lets the host sleep. -/
def sleep (x : Executor α) (length : Duration) (s : Session α) : Option (Session α) :=
  if length.wait = 0 then some s
  else
    let deadline := s.now + length.wait
    (s.wait x (some deadline)).map fun s => { s with now := deadline }

/-- Lets the host wait until no script is in flight. -/
def waitIdle (x : Executor α) (s : Session α) : Option (Session α) :=
  if s.isRunning then s.wait x none else some s

/-- Lets the host wait for the outcome of a request. -/
def await (x : Executor α) (ticket : Ticket) (s : Session α) : Option (Outcome × Session α) :=
  match ticket with
  | .rejected waits =>
    if waits = s.waits then (s.wait x (some s.now)).map (.rejected, ·) else some (.rejected, s)
  | .run id =>
    match s.results.lookup id with
    | some outcome => some (outcome, s)
    | none =>
      (s.wait x none).bind fun s => (s.results.lookup id).map (·, s)

/-- Runs a script to its end while the host waits. -/
def run (x : Executor α) (source : Source) (s : Session α) : Option (Outcome × Session α) :=
  match s.request source with
  | (.rejected _, s) => some (.rejected, s)
  | (.run id, s) => s.await x (.run id)

end Session

end CommandConsole.Script
