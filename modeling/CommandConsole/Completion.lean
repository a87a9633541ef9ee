import CommandConsole.Text.Lowercase
import CommandConsole.Text.Blank

/-!
# Name completion

A name is suggested for a text that is not blank when its lowercase form starts with the lowercase
form of the text. Suggestions keep the order of the names they are taken from.
-/

namespace CommandConsole

/-- What a partial name can be completed to. -/
inductive Completion where
  | none
  | unique (name : String)
  | ambiguous (names : List String)
  deriving DecidableEq, Repr

namespace Completion

/-- The lowercase form of the name starts with the lowercase form of the text. -/
def fits (part name : String) : Bool :=
  (Text.lowercase part).toList.isPrefixOf (Text.lowercase name).toList

/-- The names suggested for a partial name. -/
def suggest (names : List String) (part : String) : List String :=
  if Text.isBlank part then [] else names.filter (fits part)

/-- The completion that suggestions allow. -/
def ofSuggestions : List String → Completion
  | [] => .none
  | [name] => .unique name
  | names => .ambiguous names

/-- Completes a partial name to one of the names. -/
def complete (names : List String) (part : String) : Completion :=
  ofSuggestions (suggest names part)

end Completion

end CommandConsole
