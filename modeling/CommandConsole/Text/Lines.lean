/-!
# Lines of a text

A text is cut at its line feeds. A carriage return directly before a line feed belongs to the line
break, one anywhere else to the line, and a line feed at the very end opens no further line.
-/

namespace CommandConsole.Text

/-- Drops one carriage return at the end. -/
def dropReturn (line : List Char) : List Char :=
  if line.getLast? = some '\r' then line.dropLast else line

/-- The lines of a text whose first line so far, backwards, is given. -/
def linesFrom : List Char → List Char → List (List Char)
  | line, [] => if line.isEmpty then [] else [line.reverse]
  | line, c :: rest =>
    if c = '\n' then dropReturn line.reverse :: linesFrom [] rest else linesFrom (c :: line) rest

/-- The lines of a text, without their line breaks. -/
def lines (s : String) : List String :=
  (linesFrom [] s.toList).map String.ofList

end CommandConsole.Text
