import CommandConsole.Proofs.CommandLine.Rendering
import CommandConsole.Proofs.Console.LineByLine

/-!
# Running a script file

With a script, the application writes what the lines of the file give, one behind the other, and
then the message about the end. What a line gives follows from the line itself, the banner, the
version and the settings of scripts, so it is the same wherever the line stands, whatever the lines
before it did and however long the history may grow. All of it is written before the application
ends.
-/

namespace CommandConsole.CommandLine

open Terminal (paint)

/-- What a message is on a plain screen. -/
def messageLine (coloured : Bool) (message : Message) : String :=
  paint coloured message ++ "\n"

/-- What a line of a script gives, where all commands are builtin ones. -/
def lineOutput (coloured : Bool) (version banner : String) (script : ScriptSettings)
    (line : String) : String :=
  outputOf coloured ((Face.builtin version banner).lineEvents script 0 line)

/-- What the lines of a script give. -/
def bodyOutput (coloured : Bool) (version banner : String) (script : ScriptSettings)
    (lines : List String) : String :=
  String.join (lines.map (lineOutput coloured version banner script))

theorem bodyOutput_append (coloured : Bool) (version banner : String) (script : ScriptSettings)
    (lines more : List String) :
    bodyOutput coloured version banner script (lines ++ more) =
      bodyOutput coloured version banner script lines ++
        bodyOutput coloured version banner script more := by
  simp [bodyOutput]

section Settings

variable {readFile : String → Option String} {o : Options} {loaded : Settings}

/-- Settings that can be loaded are admissible. -/
theorem validate_of_load {config? : Option String}
    (h : Settings.load readFile config? = .ok loaded) : loaded.validate = .ok () := by
  cases config? with
  | none =>
    obtain rfl := Except.ok.inj h
    have hdefault : Settings.default.validate = .ok () := by decide +kernel
    exact hdefault
  | some path =>
    rw [Settings.load] at h
    split at h
    · cases h
    · exact Settings.validate_of_ofText h

/-- Admissible settings remain so with another capacity of the history, if it is not zero. -/
theorem validate_withCapacity (h : loaded.validate = .ok ()) {capacity : Nat} (hne : capacity ≠ 0) :
    { loaded with historyCapacity := capacity }.validate = .ok () := by
  obtain ⟨-, hscript⟩ := loaded.validate_eq_ok_iff.mp h
  exact (Settings.validate_eq_ok_iff _).mpr ⟨hne, hscript⟩

theorem capacity_ne_zero (h : loaded.validate = .ok ()) : loaded.historyCapacity ≠ 0 :=
  (loaded.validate_eq_ok_iff.mp h).1

/-- Loaded settings are taken with the size of the history that is asked for, which is at least one.
-/
theorem settingsOf_of_load (hload : Settings.load readFile o.config? = .ok loaded)
    (hsize : ∀ size ∈ o.historySize?, 1 ≤ size) :
    settingsOf readFile o =
      .ok { loaded with historyCapacity := o.historySize?.getD loaded.historyCapacity } := by
  have hvalid := validate_of_load hload
  have hne : o.historySize?.getD loaded.historyCapacity ≠ 0 := by
    cases hgiven : o.historySize? with
    | none => exact capacity_ne_zero hvalid
    | some size => exact Nat.ne_of_gt (hsize size hgiven)
  simp only [settingsOf, hload, validate_withCapacity hvalid hne]

theorem exists_settingsOf_iff : (∃ settings, settingsOf readFile o = .ok settings) ↔
    ∃ loaded, Settings.load readFile o.config? = .ok loaded ∧ ∀ size ∈ o.historySize?, 1 ≤ size := by
  constructor
  · rintro ⟨settings, hsettings⟩
    rw [settingsOf] at hsettings
    cases hload : Settings.load readFile o.config? with
    | error cause =>
      rw [hload] at hsettings
      cases hsettings
    | ok loaded =>
      refine ⟨loaded, rfl, fun size hgiven => Nat.pos_of_ne_zero ?_⟩
      rintro rfl
      have hzero : o.historySize?.getD loaded.historyCapacity = 0 := by
        rw [Option.mem_def.mp hgiven, Option.getD_some]
      simp only [hload, hzero, Settings.validate, if_true] at hsettings
      cases hsettings
  · rintro ⟨loaded, hload, hsize⟩
    exact ⟨_, settingsOf_of_load hload hsize⟩

end Settings

/-- The application runs the script at a path on a console, and ends with an answer. Its output is
what the renderer has written, however the renderer and the console take turns. -/
structure EndsWith (depth : Nat) (readFile : String → Option String) (coloured : Bool)
    (words : List String) (path : String) (answer : Answer) : Prop where
  run : run depth readFile coloured words = some answer
  rendered : ∃ job outcome console, jobOf readFile coloured words = .ok job ∧
    (job.console readFile).run (consoleExecutor depth) (.file path) = some (outcome, console) ∧
    exitCodeOf outcome = answer.exitCode ∧
    ∀ text, Renders (.new false job.coloured) console.log text ↔ text = answer.output

/-- How the application answers to command lines with these options, of which one is a script. -/
structure RunsScript (depth : Nat) (coloured : Bool) (words : List String) (o : Options)
    (path : String) : Prop where
  /-- With settings that can be loaded and a script file of text, the output is what the lines give,
  and the message about the end behind it. -/
  completes : ∀ {readFile loaded text}, Settings.load readFile o.config? = .ok loaded →
    (∀ size ∈ o.historySize?, 1 ≤ size) → readFile path = some text →
    EndsWith (depth + 1) readFile coloured words path
      ⟨bodyOutput (coloured && !o.noColour) loaded.version loaded.banner loaded.script
          (Text.lines text) ++
        messageLine (coloured && !o.noColour) (.success ("Script execution completed: " ++ path)), 0⟩
  /-- The body of one script followed by another is the body of the one followed by that of the
  other. -/
  composes : ∀ {readFirst readSecond readBoth loaded first second both},
    Settings.load readFirst o.config? = .ok loaded →
    Settings.load readSecond o.config? = .ok loaded →
    Settings.load readBoth o.config? = .ok loaded → (∀ size ∈ o.historySize?, 1 ≤ size) →
    readFirst path = some first → readSecond path = some second → readBoth path = some both →
    Text.lines both = Text.lines first ++ Text.lines second →
    ∃ bodyFirst bodySecond closing,
      run (depth + 1) readFirst coloured words = some ⟨bodyFirst ++ closing, 0⟩ ∧
      run (depth + 1) readSecond coloured words = some ⟨bodySecond ++ closing, 0⟩ ∧
      run (depth + 1) readBoth coloured words = some ⟨bodyFirst ++ bodySecond ++ closing, 0⟩
  /-- Without the script file, the output is the message about that. -/
  missing : ∀ {readFile loaded}, Settings.load readFile o.config? = .ok loaded →
    (∀ size ∈ o.historySize?, 1 ≤ size) → readFile path = none →
    EndsWith (depth + 1) readFile coloured words path
      ⟨messageLine (coloured && !o.noColour) (.error ("Script file not found: " ++ path)),
        failureCode⟩
  /-- The settings are rejected if they cannot be loaded, or for a history of no size. -/
  admitted : ∀ {readFile}, (∃ settings, settingsOf readFile o = .ok settings) ↔
    ∃ loaded, Settings.load readFile o.config? = .ok loaded ∧ ∀ size ∈ o.historySize?, 1 ≤ size
  /-- With settings that are rejected there is no output. -/
  rejected : ∀ {readFile cause}, settingsOf readFile o = .error cause →
    run (depth + 1) readFile coloured words = some ⟨"", failureCode⟩

section Runs

variable {depth : Nat} {readFile : String → Option String} {coloured : Bool} {words : List String}
  {o : Options} {path : String}

/-- The answer of a job that runs a script. -/
theorem endsWith_of_run {job : Job} {outcome : Script.Outcome} {console : Console}
    (hjob : jobOf readFile coloured words = .ok job) (hscript : job.script? = some path)
    (hrun : (job.console readFile).run (consoleExecutor depth) (.file path) =
      some (outcome, console)) :
    EndsWith depth readFile coloured words path
      ⟨outputOf job.coloured console.log, exitCodeOf outcome⟩ where
  run := by simp only [CommandLine.run, hjob, hscript, hrun, Option.map_some]
  rendered := ⟨job, outcome, console, hjob, hrun, rfl, fun _ => renders_iff⟩

/-- The job that the options ask for has the loaded settings, but for the size of the history. -/
theorem jobOf_of_load (coloured : Bool) (hparse : parse words = .ok o) {loaded : Settings}
    (hload : Settings.load readFile o.config? = .ok loaded)
    (hsize : ∀ size ∈ o.historySize?, 1 ≤ size) :
    ∃ job : Job, jobOf readFile coloured words = .ok job ∧ job.script? = o.script? ∧
      job.coloured = (coloured && !o.noColour) ∧ job.settings.version = loaded.version ∧
      job.settings.banner = loaded.banner ∧ job.settings.script = loaded.script := by
  have hjob : jobOf readFile coloured words =
      .ok ⟨{ loaded with historyCapacity := o.historySize?.getD loaded.historyCapacity },
        coloured && !o.noColour, o.script?⟩ := by
    simp only [jobOf, hparse, settingsOf_of_load hload hsize]
  exact ⟨_, hjob, rfl, rfl, rfl, rfl, rfl⟩

theorem endsWith_completed (hparse : parse words = .ok o) (hscript : o.script? = some path)
    {loaded : Settings} (hload : Settings.load readFile o.config? = .ok loaded)
    (hsize : ∀ size ∈ o.historySize?, 1 ≤ size) {text : String} (hread : readFile path = some text) :
    EndsWith (depth + 1) readFile coloured words path
      ⟨bodyOutput (coloured && !o.noColour) loaded.version loaded.banner loaded.script
          (Text.lines text) ++
        messageLine (coloured && !o.noColour) (.success ("Script execution completed: " ++ path)),
        0⟩ := by
  obtain ⟨job, hjob, hscripted, hcoloured, hversion, hbanner, hsettings⟩ :=
    jobOf_of_load coloured hparse hload hsize
  obtain ⟨console, n, hrun, hlog⟩ := Console.run_withBuiltins job.settings hread depth
  have houtput : outputOf job.coloured console.log =
      bodyOutput job.coloured job.settings.version job.settings.banner job.settings.script
          (Text.lines text) ++
        messageLine job.coloured (.success ("Script execution completed: " ++ path)) := by
    rw [hlog, outputOf_append, outputOf_flatMap, outputOf_cons, outputOf_nil, String.append_empty]
    rfl
  have hends := endsWith_of_run hjob (hscripted.trans hscript) hrun
  rwa [houtput, hcoloured, hversion, hbanner, hsettings] at hends

theorem endsWith_missing (hparse : parse words = .ok o) (hscript : o.script? = some path)
    {loaded : Settings} (hload : Settings.load readFile o.config? = .ok loaded)
    (hsize : ∀ size ∈ o.historySize?, 1 ≤ size) (hread : readFile path = none) :
    EndsWith depth readFile coloured words path
      ⟨messageLine (coloured && !o.noColour) (.error ("Script file not found: " ++ path)),
        failureCode⟩ := by
  obtain ⟨job, hjob, hscripted, hcoloured, -⟩ :=
    jobOf_of_load coloured hparse hload hsize
  obtain ⟨console, hrun, hlog⟩ :=
    Console.run_withBuiltins_missing job.settings hread depth
  have houtput : outputOf job.coloured console.log =
      messageLine job.coloured (.error ("Script file not found: " ++ path)) := by
    rw [hlog, outputOf_cons, outputOf_nil, String.append_empty]
    rfl
  have hends := endsWith_of_run hjob (hscripted.trans hscript) hrun
  rwa [houtput, hcoloured] at hends

/-- The application runs a script line by line, and all that the lines give is written. -/
theorem runsScript_of_parse (hparse : parse words = .ok o) (hscript : o.script? = some path)
    (depth : Nat) (coloured : Bool) : RunsScript depth coloured words o path where
  completes := fun hload hsize hread => endsWith_completed hparse hscript hload hsize hread
  composes := by
    intro readFirst readSecond readBoth loaded first second both hfirst hsecond hboth hsize
      hreadFirst hreadSecond hreadBoth hlines
    refine ⟨_, _, _, (endsWith_completed hparse hscript hfirst hsize hreadFirst).run,
      (endsWith_completed hparse hscript hsecond hsize hreadSecond).run, ?_⟩
    rw [(endsWith_completed hparse hscript hboth hsize hreadBoth).run, hlines, bodyOutput_append]
  missing := fun hload hsize hread => endsWith_missing hparse hscript hload hsize hread
  admitted := exists_settingsOf_iff
  rejected := by
    intro readFile cause hcause
    simp only [run, jobOf, hparse, hcause]

/-- The lines behind `exit` are executed, a script inside of a script is rejected, and a clearing
removes nothing. -/
theorem runsScript_nested :
    let words := ["--script", "boot", "--no-color", "--history-size", "1"]
    let readFile := fun path => if path = "boot" then
      some "exit\nexecute_script boot\n// note\nclear\nnope" else none
    ∃ o, parse words = .ok o ∧ o.script? = some "boot" ∧ run 1 readFile true words = some ⟨
      "> exit\nExiting application...\n" ++
      "> execute_script boot\nAnother script is currently executing\n" ++
      "> clear\nDevConsole v1.0.0\nType 'help' for a list of commands.\n" ++
      "> nope\nCommand 'nope' not found.\n" ++
      "Script execution completed: boot\n", 0⟩ := by
  intro words readFile
  have hparse : parse words = .ok ⟨none, some "boot", some 1, true, none⟩ := by decide +kernel
  have hload : Settings.load readFile none = .ok .default := rfl
  have hsize : ∀ size ∈ some 1, 1 ≤ size := by simp
  have hread : readFile "boot" = some "exit\nexecute_script boot\n// note\nclear\nnope" := rfl
  refine ⟨_, hparse, rfl, ?_⟩
  rw [((runsScript_of_parse hparse rfl 0 true).completes hload hsize hread).run]
  decide +kernel

end Runs

end CommandConsole.CommandLine
