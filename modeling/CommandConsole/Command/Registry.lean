import CommandConsole.Command.Invocation
import CommandConsole.Text.Quoted

/-!
# The command registry

A registry holds command definitions in the order of their registration, at most one for each pair
of a name and a flag: registering a pair again moves it to the end with its new content. The empty
flag is the plain form of a command. Beside the definitions the registry keeps an index of their
names, to which every registration adds. A definition's handler is of any type, so a registry can be
looked at with its handlers left out.
-/

namespace CommandConsole

/-- A command definition with a handler of some type. -/
structure Definition (η : Type) where
  name : String
  description : String
  flag : String
  handler : η

namespace Definition

variable {η θ : Type}

/-- The definition is the one of a name and a flag. -/
def isFor (d : Definition η) (name flag : String) : Bool :=
  d.name == name && d.flag == flag

/-- The name, with the flag behind it if there is one. -/
def key (d : Definition η) : String :=
  if d.flag = "" then d.name else d.name ++ " " ++ d.flag

/-- The definition with another handler. -/
def withHandler (d : Definition η) (handler : θ) : Definition θ :=
  ⟨d.name, d.description, d.flag, handler⟩

/-- A definition as it is shown in descriptions of values; the handler is not shown. -/
def describe (d : Definition η) : String :=
  "CommandDefinition \x7b name: " ++ Text.quoted d.name ++ ", description: " ++
    Text.quoted d.description ++ ", flag: " ++ Text.quoted d.flag ++ ", .. \x7d"

end Definition

/-- Inserts a text into an increasing list, unless it is there. -/
def insertName (name : String) : List String → List String
  | [] => [name]
  | other :: rest =>
    if name < other then name :: other :: rest
    else if name = other then other :: rest
    else other :: insertName name rest

/-- Definitions in the order of registration. -/
structure Registry (η : Type) where
  definitions : List (Definition η)
  /-- The names that definitions were registered for, increasing. -/
  names : List String

namespace Registry

variable {η θ : Type}

def empty : Registry η := ⟨[], []⟩

/-- Puts a definition at the end, in place of one for the same name and flag. -/
def register (d : Definition η) (r : Registry η) : Except DefinitionError (Registry η) :=
  if Text.isBlank d.name then .error .blankName
  else
    .ok
      { definitions := r.definitions.filter (fun other => !other.isFor d.name d.flag) ++ [d]
        names := insertName d.name r.names }

/-- The definition of a name and a flag. -/
def get? (r : Registry η) (name flag : String) : Option (Definition η) :=
  r.definitions.find? (·.isFor name flag)

/-- The definition that answers to an invocation: the one of its first flag, or the plain one. -/
def findMatch (r : Registry η) (i : Invocation) : Except LookupError (Definition η) :=
  match i.primaryFlag? with
  | some flag =>
    match r.get? i.name flag with
    | some d => .ok d
    | none => .error (.flagNotSupported i.name flag)
  | none =>
    match r.get? i.name "" with
    | some d => .ok d
    | none => .error (.commandNotFound i.name)

/-- The description of a command's plain form. -/
def describe? (r : Registry η) (name : String) : Option String :=
  (r.get? name "").map (·.description)

/-- The flags of a name, in the order of registration. -/
def flagsFor (r : Registry η) (name : String) : List String :=
  (r.definitions.filter fun d => d.name == name && d.flag != "").map (·.flag)

def size (r : Registry η) : Nat :=
  r.definitions.length

def isEmpty (r : Registry η) : Bool :=
  r.definitions.isEmpty

/-- The registry with its handlers left out. -/
def outline (r : Registry η) : Registry Unit :=
  { r with definitions := r.definitions.map fun d => d.withHandler () }

end Registry

end CommandConsole
