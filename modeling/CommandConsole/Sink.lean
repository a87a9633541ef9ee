import CommandConsole.Message

/-!
# Where messages go

Besides keeping the messages that are on view, a host can pass events through a channel to a
receiver, or write messages to a log with a level. Nothing is received once the receiver is gone,
and a clearing leaves no trace in a log.
-/

namespace CommandConsole.Sink

/-- The events that came through a channel. -/
structure Channel where
  received : List Event
  /-- The receiver is still there. -/
  isOpen : Bool
  deriving DecidableEq, Repr

namespace Channel

def new : Channel := ⟨[], true⟩

/-- Passes an event on. -/
def send (event : Event) (c : Channel) : Channel :=
  if c.isOpen then { c with received := c.received ++ [event] } else c

/-- Takes the receiver away. -/
def close (c : Channel) : Channel :=
  { c with isOpen := false }

end Channel

/-- How important a log record is. -/
inductive Level where
  | error
  | warn
  | info
  deriving DecidableEq, Repr

def Level.name : Level → String
  | error => "ERROR"
  | warn => "WARN"
  | info => "INFO"

/-- The level of a kind of message. -/
def levelOf : MessageKind → Level
  | .error => .error
  | .warning => .warn
  | _ => .info

/-- A message in a log. -/
structure LogRecord where
  level : Level
  message : Message
  deriving DecidableEq, Repr

/-- The log record of an event. -/
def logRecord? : Event → Option LogRecord
  | .shown message => some ⟨levelOf message.kind, message⟩
  | _ => none

end CommandConsole.Sink
