/-!
# Causes of failure

Each kind of failure is a cause with the data that its wording needs, and each wording stands in one
place. Failures of one part of the console become failures of the console by a word in front.
-/

namespace CommandConsole

/-- Why a line holds no command. -/
inductive ParseError where
  /-- The line is blank. -/
  | empty
  /-- The line holds nothing but a quote without a partner. -/
  | noTokens
  deriving DecidableEq, Repr

def ParseError.message : ParseError → String
  | empty => "Empty command input"
  | noTokens => "No command found in input"

/-- Why no definition answers to a command. -/
inductive LookupError where
  | commandNotFound (name : String)
  | flagNotSupported (name flag : String)
  deriving DecidableEq, Repr

def LookupError.message : LookupError → String
  | commandNotFound name => "Command '" ++ name ++ "' not found."
  | flagNotSupported name _ => "Command '" ++ name ++ "' does not support the provided flag."

/-- Why a definition is not accepted. -/
inductive DefinitionError where
  | blankName
  deriving DecidableEq, Repr

def DefinitionError.reason : DefinitionError → String
  | blankName => "command name must not be empty"

/-- Why a pause directive has no length of time. -/
inductive PauseError where
  | noOpening
  | noClosing
  | closingFirst
  | notNumber (text : String)
  | notDuration (text : String)
  deriving DecidableEq, Repr

def PauseError.reason : PauseError → String
  | noOpening => "missing '('"
  | noClosing => "missing ')'"
  | closingFirst => "')' before '('"
  | notNumber text => "'" ++ text ++ "' is not a number"
  | notDuration text => "'" ++ text ++ "' is not a valid duration"

/-- Why a script does not run, or not as written. -/
inductive ScriptError where
  | alreadyRunning
  | fileMissing (path : String)
  | pauseParse (reason : String)
  deriving DecidableEq, Repr

def ScriptError.message : ScriptError → String
  | alreadyRunning => "Another script is currently executing"
  | fileMissing path => "Script file not found: " ++ path
  | pauseParse reason => "Error parsing pause time: " ++ reason

/-- Why settings are not admissible. -/
inductive SettingsError where
  | noHistory
  | pauseOutOfRange
  | blankCommentPrefix
  | blankPauseDirective
  deriving DecidableEq, Repr

def SettingsError.reason : SettingsError → String
  | noHistory => "history.max_entries must be at least 1"
  | pauseOutOfRange => "script.default_pause_secs must be a non-negative number"
  | blankCommentPrefix => "script.comment_prefix must not be empty"
  | blankPauseDirective => "script.pause_directive must not be empty"

/-- Any failure of a console operation. -/
inductive ConsoleError where
  | parse (cause : ParseError)
  | lookup (cause : LookupError)
  | script (cause : ScriptError)
  | settings (reason : String)
  | fileAccess (reason : String)
  | definition (reason : String)
  deriving DecidableEq, Repr

def ConsoleError.message : ConsoleError → String
  | parse cause => "Parse error: " ++ cause.message
  | lookup cause => "Dispatch error: " ++ cause.message
  | script cause => "Script error: " ++ cause.message
  | settings reason => "Configuration error: " ++ reason
  | fileAccess reason => "I/O error: " ++ reason
  | definition reason => "invalid command definition: " ++ reason

end CommandConsole
