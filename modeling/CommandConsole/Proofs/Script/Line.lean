import CommandConsole.Script.Line

/-!
# The kinds of script lines

A line is a command, a pause directive or neither, which its trimmed text decides: a comment goes
before a pause, and only what is neither, and not blank, is a command. What a script does with a
line follows from its kind, so later proofs tell lines apart by their kind and not by the branches
of `stepOf`.
-/

namespace CommandConsole.Script

/-- The line is a command: its text is not empty and starts neither a comment nor a pause. -/
def isKept (settings : ScriptSettings) (line : String) : Bool :=
  let text := Text.trim line
  text != "" && !startsWithMark settings.commentPrefix text &&
    !startsWithMark settings.pauseDirective text

/-- The commands among the lines of a script. -/
def keptLines (settings : ScriptSettings) (lines : List String) : List String :=
  lines.filter (isKept settings)

/-- The line is a pause directive: its text is not empty and starts a pause and no comment. -/
def isPause (settings : ScriptSettings) (line : String) : Bool :=
  let text := Text.trim line
  text != "" && !startsWithMark settings.commentPrefix text &&
    startsWithMark settings.pauseDirective text

/-- The pause directives among the lines of a script. -/
def pauseLines (settings : ScriptSettings) (lines : List String) : List String :=
  lines.filter (isPause settings)

/-- The length of a pause: the one that its directive gives, or else the default one. -/
def pauseLength (settings : ScriptSettings) (line : String) : Duration :=
  match parsePause (Text.trim line) with
  | .ok length => length
  | .error _ => settings.defaultPause

/-- What is shown for a pause: its length, or why the default one is taken. -/
def pauseMessage (settings : ScriptSettings) (line : String) : Message :=
  match parsePause (Text.trim line) with
  | .ok length => .information ("Pausing for " ++ length.toBinary64.display ++ " seconds...")
  | .error cause =>
    .warning ("Error parsing pause time: " ++ cause.reason ++ ". Using default " ++
      settings.defaultPause.toBinary64.display ++ " second delay.")

section Kinds

variable {settings : ScriptSettings} {line : String}

theorem pauseStep_trim (settings : ScriptSettings) (line : String) :
    pauseStep settings (Text.trim line) =
      .pause (pauseMessage settings line) (pauseLength settings line) := by
  rw [pauseStep, pauseMessage, pauseLength]
  cases parsePause (Text.trim line) with
  | ok length => rfl
  | error cause => rfl

/-- What a script does with a line follows from the line's kind. -/
theorem stepOf_eq (settings : ScriptSettings) (line : String) :
    stepOf settings line =
      if isKept settings line then .command
      else if isPause settings line then
        .pause (pauseMessage settings line) (pauseLength settings line)
      else .skip := by
  simp only [stepOf, isKept, isPause, pauseStep_trim]
  by_cases hblank : Text.trim line = ""
  · simp [hblank]
  · by_cases hcomment : startsWithMark settings.commentPrefix (Text.trim line) = true
    · simp [hcomment]
    · by_cases hmark : startsWithMark settings.pauseDirective (Text.trim line) = true
      · simp [hblank, hcomment, hmark]
      · simp [hblank, hcomment, hmark]

theorem stepOf_eq_command_iff : stepOf settings line = .command ↔ isKept settings line = true := by
  rw [stepOf_eq]
  split
  · next hkept => simp [hkept]
  · next hkept => split <;> simp [hkept]

/-- No line is both a pause directive and a command. -/
theorem isKept_of_isPause (h : isPause settings line = true) : isKept settings line = false := by
  simp only [isPause, Bool.and_eq_true] at h
  simp [isKept, h.2]

theorem stepOf_of_isPause (h : isPause settings line = true) :
    stepOf settings line = .pause (pauseMessage settings line) (pauseLength settings line) := by
  rw [stepOf_eq, if_neg (by simp [isKept_of_isPause h]), if_pos h]

theorem stepOf_of_neither (hkept : isKept settings line = false)
    (hpause : isPause settings line = false) : stepOf settings line = .skip := by
  rw [stepOf_eq, if_neg (by simp [hkept]), if_neg (by simp [hpause])]

theorem keptLines_cons_command (h : stepOf settings line = .command) (rest : List String) :
    keptLines settings (line :: rest) = line :: keptLines settings rest :=
  List.filter_cons_of_pos (stepOf_eq_command_iff.mp h)

theorem keptLines_cons_other (h : stepOf settings line ≠ .command) (rest : List String) :
    keptLines settings (line :: rest) = keptLines settings rest :=
  List.filter_cons_of_neg fun hkept => h (stepOf_eq_command_iff.mpr hkept)

theorem pauseLines_cons_pause (h : isPause settings line = true) (rest : List String) :
    pauseLines settings (line :: rest) = line :: pauseLines settings rest :=
  List.filter_cons_of_pos h

theorem pauseLines_cons_other (h : isPause settings line = false) (rest : List String) :
    pauseLines settings (line :: rest) = pauseLines settings rest :=
  List.filter_cons_of_neg (by simp [h])

end Kinds

end CommandConsole.Script
