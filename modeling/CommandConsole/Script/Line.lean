import CommandConsole.Message
import CommandConsole.Script.Pause
import CommandConsole.Settings.Basic

/-!
# Lines of a script

What a script does with a line depends on its trimmed text. A blank line and a comment are passed
over, a pause directive is announced and waited for, and any other line is echoed and executed as it
was written. A prefix that is empty marks no line.
-/

namespace CommandConsole.Script

/-- What a script does with a line. -/
inductive Step where
  | skip
  /-- Shows a message and waits. -/
  | pause (announcement : Message) (length : Duration)
  /-- Executes the line as written. -/
  | command
  deriving DecidableEq, Repr

/-- The text starts with a mark that is not empty. -/
def startsWithMark (mark text : String) : Bool :=
  mark != "" && mark.toList.isPrefixOf text.toList

/-- The pause for a directive: of its own length, or of the default one with a warning. -/
def pauseStep (settings : ScriptSettings) (directive : String) : Step :=
  match parsePause directive with
  | .ok length =>
    .pause
      (.information ("Pausing for " ++ length.toBinary64.display ++ " seconds...")) length
  | .error cause =>
    .pause
      (.warning
        ((ScriptError.pauseParse cause.reason).message ++ ". Using default " ++
          settings.defaultPause.toBinary64.display ++ " second delay."))
      settings.defaultPause

/-- What a script does with a line. -/
def stepOf (settings : ScriptSettings) (line : String) : Step :=
  let text := Text.trim line
  if text = "" || startsWithMark settings.commentPrefix text then .skip
  else if startsWithMark settings.pauseDirective text then pauseStep settings text
  else .command

/-- The message in front of an executed line. -/
def echo (line : String) : Message :=
  .information ("> " ++ line)

end CommandConsole.Script
