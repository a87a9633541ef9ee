import CommandConsole.Console.Basic
import CommandConsole.Proofs.Script.Host

/-!
# Reachable consoles

A host makes a console, registers commands, takes turns on the desk, such as typing a line or
recalling one, and lets scripts run. Every console that it can come to in this way is a sound
session.
-/

namespace CommandConsole.Console

open Script

/-- The consoles that a host can come to. -/
inductive Reachable : Console → Prop
  | bare (settings : Settings) (canStartScripts : Bool) (readFile : String → Option String)
      (waitWins : Nat → Bool) : Reachable { bare settings canStartScripts readFile with waitWins }
  | withBuiltins (settings : Settings) (canStartScripts : Bool) (readFile : String → Option String)
      (waitWins : Nat → Bool) :
      Reachable { withBuiltins settings canStartScripts readFile with waitWins }
  | register {c : Console} (definition : Definition Handler) : Reachable c →
      Reachable (c.register definition).2
  | take {α : Type} {turn : Turn α} {c d : Console} {value : α} : Reachable c →
      c.take turn = some (value, d) → Reachable d
  | step {depth : Nat} {step : HostStep} {c d : Console} {answer : Answer} : Reachable c →
      step.take (consoleExecutor depth) c = some (answer, d) → Reachable d

/-- Taking a turn keeps a console sound. -/
theorem sound_take {α : Type} {turn : Turn α} {c d : Console} {value : α} (h : Session.Sound c)
    (htake : c.take turn = some (value, d)) : Session.Sound d := by
  obtain ⟨done, -, he⟩ := Option.map_eq_some_iff.mp htake
  obtain ⟨-, rfl⟩ := Prod.mk.inj he
  have hdesk : Session.Sound (c.withDesk done.desk) := h.congr rfl rfl rfl rfl
  exact hdesk.applyAll done.effects

/-- Every reachable console is sound. -/
theorem Reachable.sound {c : Console} (h : Reachable c) : Session.Sound c := by
  induction h with
  | bare settings canStartScripts readFile waitWins => exact Session.sound_new ..
  | withBuiltins settings canStartScripts readFile waitWins => exact Session.sound_new ..
  | @register c definition _ ih =>
    rw [Console.register]
    split
    · exact ih.congr rfl rfl rfl rfl
    · exact ih
  | take _ htake ih => exact sound_take ih htake
  | step _ hstep ih => exact ih.take hstep

end CommandConsole.Console
