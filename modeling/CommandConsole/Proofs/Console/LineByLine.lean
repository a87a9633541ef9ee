import CommandConsole.Proofs.Console.Builtins
import CommandConsole.Proofs.Console.Replay

/-!
# Scripts line by line

Where all commands are builtin ones, what a line of a script adds to the log follows from the line,
the settings of scripts and the face of the desk. Nothing that the lines before it left behind
matters, and a script that a line asks for is rejected, since the one that executes the line is in
flight. So the log of a script is that of its lines one after the other.
-/

namespace CommandConsole

open Script

namespace Face

/-- What a line adds to the log that a script executes on a desk with this face. -/
def commandEvents (face : Face) (line : String) : List Event :=
  match executeLine 1 line face.desk with
  | some done => done.effects.flatMap Effect.eventsInFlight
  | none => []

/-- What a line of a script adds to the log on a desk with this face. -/
def lineEvents (face : Face) (settings : ScriptSettings) (script : Nat) (line : String) :
    List Event :=
  match stepOf settings line with
  | .skip => []
  | .pause announcement _ => [.shown announcement]
  | .command => .shown (echo line) :: .executing script line :: face.commandEvents line

variable {face : Face}

/-- Wherever a line is executed, its effects add the same events. -/
theorem executeLine_commandEvents (hstock : face.IsStock) (line : String) :
    ∃ value effects, Effect.cancel ∉ effects ∧
      effects.flatMap Effect.eventsInFlight = face.commandEvents line ∧
      ∀ depth desk, desk.face = face →
        ∃ after, executeLine (depth + 1) line desk = some ⟨value, effects, after⟩ ∧
          after.face = face := by
  obtain ⟨value, effects, hcalm, hsame⟩ := settles_executeLine hstock line
  obtain ⟨after, hafter, -⟩ := hsame 0 face.desk face.face_desk
  have hdone : executeLine 1 line face.desk = some ⟨value, effects, after⟩ := hafter
  have hevents : effects.flatMap Effect.eventsInFlight = face.commandEvents line := by
    simp only [commandEvents, hdone]
  exact ⟨value, effects, hcalm, hevents, hsame⟩

end Face

namespace Console

/-- A console with a face on which a script is in flight that nobody has cancelled. -/
structure Unattended (face : Face) (settings : ScriptSettings) (c : Console) : Prop where
  running : c.isRunning = true
  free : c.cancelled = false
  settings : c.settings = settings
  face : c.own.face = face

variable {face : Face} {settings : ScriptSettings} {c : Console}

/-- A command adds its echo and its events, and the script stays in flight. -/
theorem Unattended.returned (h : Unattended face settings c) (hstock : face.IsStock) (depth : Nat)
    (flight : Flight) (line : String) :
    ∃ effects after, (consoleExecutor (depth + 1)).run line c.own = some ⟨effects, none, after⟩ ∧
      Unattended face settings (c.returned flight line effects after) ∧
      (c.returned flight line effects after).log =
        c.log ++ .shown (echo line) :: .executing flight.id line :: face.commandEvents line := by
  obtain ⟨hrunning, hfree, hsame, hface⟩ := h
  obtain ⟨value, effects, hcalm, hevents, hgives⟩ := Face.executeLine_commandEvents hstock line
  obtain ⟨last, hlast, hkept⟩ := hgives depth (c.own.during true) ((c.own.face_during true).trans hface)
  let after := last.during c.own.scriptRunning
  have hrun : (consoleExecutor (depth + 1)).run line c.own = some ⟨effects, none, after⟩ := by
    simp only [consoleExecutor, hlast, Option.map_some, after]
  obtain ⟨returned, hperform, hflying, hcancelled, hsettings, hown, -, hlog⟩ :=
    Session.perform_inFlight (s := c.note (.reached flight.id line)) flight hrunning hcalm hrun
  obtain rfl : c.returned flight line effects after = returned :=
    (Prod.mk.inj (Option.some.inj ((Session.perform_of_run flight hrun).symm.trans hperform))).2
  refine ⟨effects, after, hrun, ⟨hflying, hcancelled.trans hfree, hsettings.trans hsame, ?_⟩, ?_⟩
  · rw [hown, Desk.face_during]
    exact hkept
  · rw [hlog, hevents, Session.log_note]
    simp [Happening.events]

/-- A line of a script adds its events, and the script goes on with the next line. -/
theorem Unattended.runLines_cons (h : Unattended face settings c) (hstock : face.IsStock)
    (depth : Nat) (flight : Flight) (line : String) (rest : List String) :
    ∃ (d : Console) (n : Nat), Unattended face settings d ∧
      d.log = c.log ++ face.lineEvents settings flight.id line ∧
      Session.runLines (consoleExecutor (depth + 1)) none flight (line :: rest) c =
        Session.runLines (consoleExecutor (depth + 1)) none { flight with linesExecuted := n } rest
          d := by
  cases hstep : stepOf settings line with
  | skip =>
    obtain ⟨hrunning, hfree, rfl, hface⟩ := h
    refine ⟨c.note (.reached flight.id line), flight.linesExecuted, ⟨hrunning, hfree, rfl, hface⟩, ?_,
      Session.runLines_skip hfree hstep⟩
    rw [Session.log_note, Face.lineEvents, hstep]
    rfl
  | pause announcement length =>
    obtain ⟨hrunning, hfree, rfl, hface⟩ := h
    obtain ⟨now, ties, hnext⟩ := Session.runLines_pause_of_not_cancelled rest hfree hstep
    have hlog : ((c.note (.reached flight.id line)).note (.paused flight.id announcement)).log =
        c.log ++ face.lineEvents c.settings flight.id line := by
      rw [Session.log_note, Session.log_note, Face.lineEvents, hstep]
      simp [Happening.events]
    exact ⟨((c.note (.reached flight.id line)).note (.paused flight.id announcement)).clocked now
      ties, flight.linesExecuted, ⟨hrunning, hfree, rfl, hface⟩, hlog, hnext⟩
  | command =>
    obtain ⟨effects, after, hrun, hreturned, hlog⟩ := h.returned hstock depth flight line
    obtain ⟨now, ties, hnext⟩ := Session.runLines_command_of_run rest h.free
      (h.settings ▸ hstep) hrun hreturned.free
    have hkept : Unattended face settings ((c.returned flight line effects after).clocked now ties) :=
      ⟨hreturned.running, hreturned.free, hreturned.settings, hreturned.face⟩
    refine ⟨_, _, hkept, ?_, hnext⟩
    rw [Session.log_clocked, hlog, Face.lineEvents, hstep]

/-- The lines of a script add their events one after the other. -/
theorem Unattended.runLines (h : Unattended face settings c) (hstock : face.IsStock) (depth : Nat)
    (flight : Flight) (lines : List String) :
    ∃ (d : Console) (n : Nat), d.log = c.log ++ lines.flatMap (face.lineEvents settings flight.id) ∧
      Session.runLines (consoleExecutor (depth + 1)) none flight lines c =
        some (d.finish flight (.completed n)) := by
  induction lines generalizing c flight with
  | nil => exact ⟨c, flight.linesExecuted, (List.append_nil _).symm, rfl⟩
  | cons line rest ih =>
    obtain ⟨mid, count, hmid, hlog, hnext⟩ := h.runLines_cons hstock depth flight line rest
    obtain ⟨d, n, hrest, hrun⟩ := ih hmid { flight with linesExecuted := count }
    refine ⟨d, n, ?_, hnext.trans hrun⟩
    rw [hrest, hlog, List.flatMap_cons, List.append_assoc]

section Builtin

variable (settings : Settings) {readFile : String → Option String} {path : String}

/-- A script file of text is executed line by line, and completes. -/
theorem run_withBuiltins {text : String} (hread : readFile path = some text) (depth : Nat) :
    ∃ (d : Console) (n : Nat),
      (withBuiltins settings true readFile).run (consoleExecutor (depth + 1)) (.file path) =
        some (.completed n, d) ∧
      d.log = (Text.lines text).flatMap
          ((Face.builtin settings.version settings.banner).lineEvents settings.script 0) ++
        [.shown (completionMessage (.file path))] := by
  let c := withBuiltins settings true readFile
  have hsound : Session.Sound c := Session.sound_new ..
  have hlines : c.linesOf? (.file path) = .ok (Text.lines text) := by
    simp only [Session.linesOf?]
    rw [show c.readFile path = some text from hread]
  have hunattended : Unattended (.builtin settings.version settings.banner) settings.script
      (c.departed (.file path)) :=
    ⟨rfl, rfl, rfl, face_withBuiltins settings readFile⟩
  obtain ⟨d, n, hlog, hrun⟩ := hunattended.runLines (Face.isStock_builtin _ _) depth
    (c.departure (.file path)) (Text.lines text)
  refine ⟨_, n, hsound.run_eq_some rfl hlines hrun, ?_⟩
  rw [Session.finish, Session.log_note]
  exact congrArg (· ++ _) hlog

/-- Without the script file there is one message, and the script has failed. -/
theorem run_withBuiltins_missing (hread : readFile path = none) (depth : Nat) :
    ∃ d : Console,
      (withBuiltins settings true readFile).run (consoleExecutor depth) (.file path) =
        some (.failed (ScriptError.fileMissing path).message, d) ∧
      d.log = [.shown (.error (ScriptError.fileMissing path).message)] := by
  let c := withBuiltins settings true readFile
  have hsound : Session.Sound c := Session.sound_new ..
  have hlines : c.linesOf? (.file path) = .error (.fileMissing path) := by
    simp only [Session.linesOf?]
    rw [show c.readFile path = none from hread]
  exact ⟨_, hsound.run_eq_failed rfl hlines, rfl⟩

end Builtin

end Console

end CommandConsole
