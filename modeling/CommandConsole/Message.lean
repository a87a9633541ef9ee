/-!
# Messages and events

What a console shows is a sequence of messages, each of a kind, and of clearings of what was shown
before. The event log of a console also tells which calls command handlers put on record and which
lines of scripts were executed, in the order in which everything happened.
-/

namespace CommandConsole

/-- The kinds of messages. -/
inductive MessageKind where
  | normal
  | error
  | success
  | warning
  | information
  deriving DecidableEq, Repr

namespace MessageKind

/-- Every kind. -/
def all : List MessageKind := [.normal, .error, .success, .warning, .information]

/-- The name of a kind. -/
def name : MessageKind → String
  | normal => "normal"
  | error => "error"
  | success => "success"
  | warning => "warning"
  | information => "information"

/-- The kind with a name. -/
def ofName? (s : String) : Option MessageKind :=
  all.find? fun kind => kind.name == s

@[simp] theorem ofName?_name (kind : MessageKind) : ofName? kind.name = some kind := by
  cases kind <;> rfl

end MessageKind

/-- A text shown to the user. -/
structure Message where
  kind : MessageKind
  text : String
  deriving DecidableEq, Repr

namespace Message

def normal (text : String) : Message := ⟨.normal, text⟩
def error (text : String) : Message := ⟨.error, text⟩
def success (text : String) : Message := ⟨.success, text⟩
def warning (text : String) : Message := ⟨.warning, text⟩
def information (text : String) : Message := ⟨.information, text⟩

end Message

/-- One entry of the event log. -/
inductive Event where
  /-- A message was shown. -/
  | shown (message : Message)
  /-- Everything shown before was removed. -/
  | cleared
  /-- A command's handler was called with these arguments. -/
  | called (name flag : String) (args : List String)
  /-- The execution of a line of a script began; scripts are numbered as they were accepted. -/
  | executing (script : Nat) (line : String)
  deriving DecidableEq, Repr

/-- The messages on view after some events: those since the last clearing. -/
def visibleMessages (events : List Event) : List Message :=
  events.foldl
    (fun view event =>
      match event with
      | .shown message => view ++ [message]
      | .cleared => []
      | _ => view)
    []

end CommandConsole
