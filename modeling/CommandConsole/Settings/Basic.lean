import CommandConsole.Binary64.Reading
import CommandConsole.Binary64.Shortest
import CommandConsole.Duration
import CommandConsole.Error
import CommandConsole.History
import CommandConsole.Text.Quoted

/-!
# Settings

The settings of a console and of its scripts, their defaults, and the conditions under which they
are admissible. The conditions are asked in a fixed order, and the first that fails is the cause
that is reported.
-/

namespace CommandConsole

/-- How scripts are read and paced. -/
structure ScriptSettings where
  /-- The wait after each executed line, in milliseconds. -/
  lineDelay : Nat
  /-- The seconds to wait where a pause directive has no length of its own. -/
  defaultPauseSeconds : Binary64
  /-- What a comment line starts with. -/
  commentPrefix : String
  /-- What a pause directive starts with. -/
  pauseDirective : String
  deriving DecidableEq, Repr

namespace ScriptSettings

def default : ScriptSettings where
  lineDelay := 50
  defaultPauseSeconds := .ofNat 1
  commentPrefix := "//"
  pauseDirective := "pause("

/-- The wait after each executed line. -/
def lineWait (s : ScriptSettings) : Duration :=
  .ofMilliseconds s.lineDelay

/-- The wait for a pause without a length of its own; one second where the setting has no length. -/
def defaultPause (s : ScriptSettings) : Duration :=
  (Duration.ofBinary64? s.defaultPauseSeconds).getD (.ofSeconds 1)

/-- The settings as they are shown in descriptions of values. -/
def describe (s : ScriptSettings) : String :=
  "ScriptConfig \x7b line_delay_ms: " ++ toString s.lineDelay ++ ", default_pause_secs: " ++
    s.defaultPauseSeconds.describe ++ ", comment_prefix: " ++ Text.quoted s.commentPrefix ++
    ", pause_directive: " ++ Text.quoted s.pauseDirective ++ " \x7d"

end ScriptSettings

/-- The settings of a console. -/
structure Settings where
  version : String
  banner : String
  historyCapacity : Nat
  script : ScriptSettings
  deriving DecidableEq, Repr

namespace Settings

def default : Settings where
  version := "1.0.0"
  banner := "DevConsole"
  historyCapacity := History.defaultCapacity
  script := .default

/-- Refuses settings that are not admissible. -/
def validate (s : Settings) : Except SettingsError Unit :=
  if s.historyCapacity = 0 then .error .noHistory
  else if !s.script.defaultPauseSeconds.isFinite || s.script.defaultPauseSeconds.isBelowZero then
    .error .pauseOutOfRange
  else if Text.isBlank s.script.commentPrefix then .error .blankCommentPrefix
  else if Text.isBlank s.script.pauseDirective then .error .blankPauseDirective
  else .ok ()

/-- The settings that are admissible. -/
theorem validate_eq_ok_iff (s : Settings) : s.validate = .ok () ↔
    s.historyCapacity ≠ 0 ∧ s.script.defaultPauseSeconds.isFinite = true ∧
      s.script.defaultPauseSeconds.isBelowZero = false ∧
      Text.isBlank s.script.commentPrefix = false ∧
      Text.isBlank s.script.pauseDirective = false := by
  unfold validate
  by_cases hcapacity : s.historyCapacity = 0
  · simp [hcapacity]
  · cases s.script.defaultPauseSeconds.isFinite <;>
      cases s.script.defaultPauseSeconds.isBelowZero <;>
      cases Text.isBlank s.script.commentPrefix <;>
      cases Text.isBlank s.script.pauseDirective <;> simp [hcapacity]

/-- The settings as they are shown in descriptions of values. -/
def describe (s : Settings) : String :=
  "ConsoleConfig \x7b version: " ++ Text.quoted s.version ++ ", banner: " ++
    Text.quoted s.banner ++ ", history: HistoryConfig \x7b max_entries: " ++
    toString s.historyCapacity ++ " \x7d, script: " ++ s.script.describe ++ " \x7d"

end Settings

end CommandConsole
