import CommandConsole.Command.Token
import CommandConsole.Error
import CommandConsole.Text.Lowercase

/-!
# Invocations

A line names a command by its first token, in lowercase, and gives it flags and arguments by the
others. A token that starts with a dash is a flag; flags are numbered from one. Any other token is
an argument, placed at the number of the last flag before it, or at zero before every flag.
-/

namespace CommandConsole

/-- A flag with its number, or an argument with its place. -/
structure Placed where
  position : Nat
  text : String
  deriving DecidableEq, Repr

/-- An argument and its place as one text: the place stands before it, unless it is zero. -/
def Placed.encoded (a : Placed) : String :=
  if a.position = 0 then a.text else toString a.position ++ " " ++ a.text

/-- The token is a flag. -/
def isFlag (token : String) : Bool :=
  token.toList.head? == some '-'

/-- Separates flags from arguments, after a number of flags. -/
def splitFlagsAfter (count : Nat) : List String → List Placed × List Placed
  | [] => ([], [])
  | token :: tokens =>
    if isFlag token then
      let (flags, arguments) := splitFlagsAfter (count + 1) tokens
      (⟨count + 1, token⟩ :: flags, arguments)
    else
      let (flags, arguments) := splitFlagsAfter count tokens
      (flags, ⟨count, token⟩ :: arguments)

/-- Separates flags from arguments. -/
def splitFlags (tokens : List String) : List Placed × List Placed :=
  splitFlagsAfter 0 tokens

/-- A line read as a command with its flags and arguments. -/
structure Invocation where
  /-- The first token in lowercase. -/
  name : String
  flags : List Placed
  arguments : List Placed
  deriving DecidableEq, Repr

namespace Invocation

/-- The first flag, by which the definition is chosen. -/
def primaryFlag? (i : Invocation) : Option String :=
  i.flags.head?.map (·.text)

def hasFlags (i : Invocation) : Bool :=
  !i.flags.isEmpty

/-- The arguments placed at a flag; at zero, all of them. -/
def argumentsAt (i : Invocation) (position : Nat) : List String :=
  if position = 0 then i.arguments.map (·.text)
  else (i.arguments.filter (·.position == position)).map (·.text)

/-- The argument lists of the calls: one for each flag, or one with everything. -/
def calls (i : Invocation) : List (List String) :=
  if i.hasFlags then i.flags.map fun flag => i.argumentsAt flag.position else [i.argumentsAt 0]

/-- Reads a line. -/
def parse (line : String) : Except ParseError Invocation :=
  if Text.isBlank line then .error .empty
  else
    match Token.tokenize line with
    | [] => .error .noTokens
    | name :: tokens =>
      let (flags, arguments) := splitFlags tokens
      .ok ⟨Text.lowercase name, flags, arguments⟩

end Invocation

end CommandConsole
