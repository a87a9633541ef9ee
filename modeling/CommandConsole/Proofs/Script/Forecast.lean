import CommandConsole.Proofs.Script.Line
import CommandConsole.Proofs.Script.Plan
import Mathlib.Algebra.GroupWithZero.Nat

/-!
# What a script comes to that nobody cancels

What a script does is settled when it is accepted, as long as nobody cancels it: it announces and
waits for its pauses, hands its commands over and waits behind each of them, up to the first command
that panics. From these acts follow the events of the script, the time at which it ends and its
outcome. This forecast of the script in flight stays the same whatever its host does meanwhile: what
the script did and what is ahead of it always add up to it. So a script that is run, or started in
the background and awaited later, does what was forecast, at the time that was forecast.
-/

namespace CommandConsole.Script

variable {α : Type}

/-- One thing that a script does. -/
inductive Act where
  /-- Announces the pause of a directive and waits for its length. -/
  | pause (line : String)
  /-- Echoes a line, has it executed and waits, if the executor does not panic. -/
  | call (line : String) (effects : List Effect) (panic? : Option String)

namespace Act

/-- The text of a panic with which the script ends. -/
def panic? : Act → Option String
  | pause _ => none
  | call _ _ panic? => panic?

def isCall : Act → Bool
  | pause _ => false
  | call _ _ _ => true

/-- What the act of a script adds to the log. -/
def events (settings : ScriptSettings) (script : Nat) : Act → List Event
  | pause line => [.shown (pauseMessage settings line)]
  | call line effects _ =>
    .shown (echo line) :: .executing script line :: effects.flatMap Effect.eventsInFlight

/-- How many milliseconds the act takes. -/
def time (settings : ScriptSettings) : Act → Nat
  | pause line => (pauseLength settings line).wait
  | call _ _ none => settings.lineWait.wait
  | call _ _ (some _) => 0

end Act

/-- With its lines a script does these acts, up to the first line that panics. -/
inductive Plays (x : Executor α) (settings : ScriptSettings) : List String → α → List Act → Prop
  | nil {own} : Plays x settings [] own []
  | skip {line rest own acts} : isKept settings line = false → isPause settings line = false →
      Plays x settings rest own acts → Plays x settings (line :: rest) own acts
  | pause {line rest own acts} : isPause settings line = true → Plays x settings rest own acts →
      Plays x settings (line :: rest) own (.pause line :: acts)
  | call {line rest own effects own' acts} : isKept settings line = true →
      x.run line own = some ⟨effects, none, own'⟩ → Plays x settings rest own' acts →
      Plays x settings (line :: rest) own (.call line effects none :: acts)
  | panic {line rest own effects text own'} : isKept settings line = true →
      x.run line own = some ⟨effects, some text, own'⟩ →
      Plays x settings (line :: rest) own [.call line effects (some text)]

/-- How a script ends that has executed some lines, from what it does with the others. -/
def outcomeAfter (executed : Nat) (acts : List Act) : Outcome :=
  match acts.findSome? Act.panic? with
  | some text => .failed (panicText text)
  | none => .completed (executed + acts.countP Act.isCall)

theorem outcomeAfter_call (executed : Nat) (line : String) (effects : List Effect)
    (acts : List Act) :
    outcomeAfter executed (.call line effects none :: acts) = outcomeAfter (executed + 1) acts := by
  have hpanic : (Act.call line effects none :: acts).findSome? Act.panic? =
      acts.findSome? Act.panic? := rfl
  rw [outcomeAfter, outcomeAfter, hpanic, List.countP_cons_of_pos rfl, Nat.add_assoc, Nat.add_comm 1]

/-- How many milliseconds acts take together. -/
def totalTime (settings : ScriptSettings) (acts : List Act) : Nat :=
  (acts.map (Act.time settings)).sum

namespace Plays

variable {x : Executor α} {settings : ScriptSettings} {lines : List String} {own : α}
  {acts : List Act}

/-- A panic is the last thing that happens in a script. -/
theorem eq_nil_of_panic (h : Plays x settings lines own acts) {before after : List Act} {act : Act}
    (he : acts = before ++ act :: after) (hpanic : act.panic? ≠ none) : after = [] := by
  -- the first act is not the one that panics, so that one is among the acts behind it
  have hbehind : ∀ {first : Act} {acts before : List Act}, first.panic? = none →
      first :: acts = before ++ act :: after → ∃ before', acts = before' ++ act :: after := by
    intro first acts before hfirst he
    cases before with
    | nil =>
      obtain ⟨rfl, -⟩ := List.cons.inj he
      exact absurd hfirst hpanic
    | cons head before => exact ⟨before, (List.cons.inj he).2⟩
  induction h generalizing before with
  | nil => simp at he
  | skip _ _ _ ih => exact ih he
  | pause _ _ ih =>
    obtain ⟨before', he'⟩ := hbehind rfl he
    exact ih he'
  | call _ _ _ ih =>
    obtain ⟨before', he'⟩ := hbehind rfl he
    exact ih he'
  | panic _ _ =>
    have hlength := congrArg List.length he
    simp only [List.length_append, List.length_cons, List.length_nil] at hlength
    exact List.eq_nil_of_length_eq_zero (by omega)

/-- The first panic is in the last act. -/
theorem exists_last_of_panic (h : Plays x settings lines own acts) {text : String}
    (hpanic : acts.findSome? Act.panic? = some text) :
    ∃ earlier line effects, acts = earlier ++ [.call line effects (some text)] ∧
      earlier.findSome? Act.panic? = none := by
  obtain ⟨earlier, act, later, hacts, hact, hcalm⟩ := List.findSome?_eq_some_iff.mp hpanic
  obtain rfl := h.eq_nil_of_panic hacts (by simp [hact])
  cases act with
  | pause line => simp [Act.panic?] at hact
  | call line effects panic? =>
    obtain rfl : panic? = some text := hact
    exact ⟨earlier, line, effects, hacts, List.findSome?_eq_none_iff.mpr hcalm⟩

/-- Without a panic, every command is called. -/
theorem countP_isCall (h : Plays x settings lines own acts)
    (hcalm : acts.findSome? Act.panic? = none) :
    acts.countP Act.isCall = (keptLines settings lines).length := by
  induction h with
  | nil => rfl
  | skip hkept _ _ ih =>
    rw [keptLines_cons_other (by simp [stepOf_eq_command_iff, hkept])]
    exact ih hcalm
  | pause hpause _ ih =>
    rw [keptLines_cons_other (by simp [stepOf_of_isPause hpause]),
      List.countP_cons_of_neg (by simp [Act.isCall])]
    exact ih hcalm
  | call hkept _ _ ih =>
    rw [keptLines_cons_command (stepOf_eq_command_iff.mpr hkept), List.countP_cons_of_pos rfl,
      ih hcalm, List.length_cons]
  | panic _ _ => simp [Act.panic?] at hcalm

/-- Without a panic, the script waits behind each of its commands and for each of its pauses. -/
theorem totalTime_eq (h : Plays x settings lines own acts)
    (hcalm : acts.findSome? Act.panic? = none) :
    totalTime settings acts =
      (keptLines settings lines).length * settings.lineWait.wait +
        ((pauseLines settings lines).map fun line => (pauseLength settings line).wait).sum := by
  induction h with
  | nil => simp [totalTime, keptLines, pauseLines]
  | skip hkept hpause _ ih =>
    rw [keptLines_cons_other (by simp [stepOf_eq_command_iff, hkept]), pauseLines_cons_other hpause]
    exact ih hcalm
  | pause hpause _ ih =>
    have hlater := ih hcalm
    rw [keptLines_cons_other (by simp [stepOf_of_isPause hpause]), pauseLines_cons_pause hpause]
    unfold totalTime at hlater ⊢
    simp only [List.map_cons, List.sum_cons, Act.time, hlater]
    omega
  | call hkept _ _ ih =>
    have hlater := ih hcalm
    have hnot : ∀ line, isKept settings line = true → isPause settings line = false := by
      intro line hkept
      by_contra hpause
      simp [isKept_of_isPause (by simpa using hpause)] at hkept
    rw [keptLines_cons_command (stepOf_eq_command_iff.mpr hkept),
      pauseLines_cons_other (hnot _ hkept), List.length_cons, Nat.succ_mul]
    unfold totalTime at hlater ⊢
    simp only [List.map_cons, List.sum_cons, Act.time, hlater]
    omega
  | panic _ _ => simp [Act.panic?] at hcalm

end Plays

/-- What a script comes to: what is heard of the log until it ends, when it ends and how. -/
structure Forecast where
  heard : List Event
  ends : Nat
  outcome : Outcome

namespace Session

variable {x : Executor α} {keep : Event → Bool} {f : Forecast} {flight : Flight} {line : String}
  {rest : List String} {clock : Nat} {s : Session α}

/-- The log and what the flight does with the lines ahead, from a time on, add up to the forecast.
Only the events to be kept are counted. -/
def Heads (x : Executor α) (keep : Event → Bool) (f : Forecast) (flight : Flight)
    (lines : List String) (clock : Nat) (s : Session α) : Prop :=
  ∃ acts, Plays x s.settings lines s.own acts ∧
    (s.log ++ acts.flatMap (Act.events s.settings flight.id)).filter keep = f.heard ∧
    clock + totalTime s.settings acts = f.ends ∧
    outcomeAfter flight.linesExecuted acts = f.outcome

namespace Heads

/-- What lies ahead from a time on lies ahead when that time has come. -/
theorem clocked {lines : List String} (h : Heads x keep f flight lines clock s) (ties : Nat) :
    Heads x keep f flight lines (s.clocked clock ties).now (s.clocked clock ties) := h

/-- With no line ahead, the forecast has come about. -/
theorem nil (h : Heads x keep f flight [] clock s) :
    s.log.filter keep = f.heard ∧ clock = f.ends ∧
      f.outcome = .completed flight.linesExecuted := by
  obtain ⟨acts, hplays, hheard, hends, houtcome⟩ := h
  cases hplays with
  | nil => exact ⟨by simpa using hheard, hends, houtcome.symm⟩

/-- A line that is passed over changes nothing. -/
theorem skip (h : Heads x keep f flight (line :: rest) clock s)
    (hkept : isKept s.settings line = false) (hpause : isPause s.settings line = false) :
    Heads x keep f flight rest clock (s.note (.reached flight.id line)) := by
  obtain ⟨acts, hplays, hheard, hends, houtcome⟩ := h
  cases hplays with
  | skip _ _ hplays =>
    refine ⟨acts, hplays, ?_, hends, houtcome⟩
    rw [log_note]
    simpa [Happening.events, note] using hheard
  | pause hpause' _ => simp [hpause] at hpause'
  | call hkept' _ _ => simp [hkept] at hkept'
  | panic hkept' _ => simp [hkept] at hkept'

/-- A pause moves its announcement and its length from ahead of the flight to behind it. -/
theorem pause (h : Heads x keep f flight (line :: rest) clock s)
    (hpause : isPause s.settings line = true) :
    Heads x keep f flight rest (clock + (pauseLength s.settings line).wait)
      ((s.note (.reached flight.id line)).note
        (.paused flight.id (pauseMessage s.settings line))) := by
  obtain ⟨acts, hplays, hheard, hends, houtcome⟩ := h
  cases hplays with
  | skip _ hpause' _ => simp [hpause] at hpause'
  | call hkept _ _ => simp [isKept_of_isPause hpause] at hkept
  | panic hkept _ => simp [isKept_of_isPause hpause] at hkept
  | @pause _ _ _ later _ hlater =>
    refine ⟨later, hlater, ?_, ?_, houtcome⟩
    · rw [log_note, log_note]
      simpa [Act.events, Happening.events, note] using hheard
    · rw [← hends]
      simp only [totalTime, List.map_cons, List.sum_cons, Act.time, note]
      omega

/-- A command moves its events and the wait behind it from ahead of the flight to behind it. With a
panic the forecast has come about. -/
theorem call (hx : x.NeverCancels) (h : Heads x keep f flight (line :: rest) clock s)
    (hkept : isKept s.settings line = true) (hrunning : s.isRunning = true) :
    ∃ panic? t, (s.note (.reached flight.id line)).perform x flight line = some (panic?, t) ∧
      t.isRunning = true ∧ t.cancelled = s.cancelled ∧ t.now = s.now ∧
      (panic? = none → Heads x keep f { flight with linesExecuted := flight.linesExecuted + 1 } rest
        (clock + t.settings.lineWait.wait) t) ∧
      ∀ text ∈ panic?, t.log.filter keep = f.heard ∧ clock = f.ends ∧
        f.outcome = .failed (panicText text) := by
  obtain ⟨acts, hplays, hheard, hends, houtcome⟩ := h
  cases hplays with
  | skip hkept' _ _ => simp [hkept] at hkept'
  | pause hpause _ => simp [isKept_of_isPause hpause] at hkept
  | @call _ _ _ effects own' later _ hrun hlater =>
    obtain ⟨t, hperform, hflying, hcancelled, hsettings, hown, hnow, hlog⟩ :=
      perform_inFlight (s := s.note (.reached flight.id line)) flight hrunning (hx hrun) hrun
    have hsame : t.settings = s.settings := hsettings
    refine ⟨none, t, hperform, hflying, hcancelled, hnow, fun _ => ?_, by simp⟩
    refine ⟨later, by rwa [hsame, hown], ?_, ?_, ?_⟩
    · rw [hlog, log_note, hsame]
      simpa [Act.events, Happening.events] using hheard
    · rw [← hends, hsame]
      simp only [totalTime, List.map_cons, List.sum_cons, Act.time]
      omega
    · rw [← houtcome, outcomeAfter_call]
  | @panic _ _ _ effects text own' _ hrun =>
    obtain ⟨t, hperform, hflying, hcancelled, hsettings, hown, hnow, hlog⟩ :=
      perform_inFlight (s := s.note (.reached flight.id line)) flight hrunning (hx hrun) hrun
    refine ⟨some text, t, hperform, hflying, hcancelled, hnow, by simp, ?_⟩
    intro text' htext
    obtain rfl := Option.some.inj htext
    refine ⟨?_, hends, houtcome.symm⟩
    rw [hlog, log_note]
    simpa [Act.events, Happening.events] using hheard

end Heads

/-- The script ended as it was forecast, and when. -/
def EndsAs (keep : Event → Bool) (f : Forecast) (script : Nat) (source : Source) (t : Session α) :
    Prop :=
  ∃ (u : Session α) (flight : Flight), flight.id = script ∧ flight.source = source ∧
    t = u.finish flight f.outcome ∧ u.log.filter keep = f.heard ∧ u.now = f.ends

/-- The script waits until a time, and from then on it heads for the forecast. -/
structure AsleepUntil (x : Executor α) (keep : Event → Bool) (f : Forecast) (script : Nat)
    (source : Source) (wake : Nat) (t : Session α) : Prop where
  free : t.cancelled = false
  notPast : t.now ≤ wake
  heads : ∃ rest executed, t.flight? = some ⟨script, source, executed, .asleep wake rest⟩ ∧
    Heads x keep f ⟨script, source, executed, .asleep wake rest⟩ rest wake t

/-- The script ended as it was forecast, or is asleep beyond the deadline. -/
def Parts (x : Executor α) (keep : Event → Bool) (f : Forecast) (script : Nat) (source : Source)
    (deadline : Option Nat) (t : Session α) : Prop :=
  EndsAs keep f script source t ∨
    ∃ wake, isBefore wake deadline = false ∧ AsleepUntil x keep f script source wake t

/-- A script that heads for the forecast comes to it, unless it sleeps beyond the deadline. -/
theorem Heads.runLines (hx : x.NeverCancels) (deadline : Option Nat) {lines : List String}
    (h : Heads x keep f flight lines s.now s) (hrunning : s.isRunning = true)
    (hfree : s.cancelled = false) :
    ∃ t, Session.runLines x deadline flight lines s = some t ∧
      Parts x keep f flight.id flight.source deadline t := by
  induction lines generalizing flight s with
  | nil =>
    obtain ⟨hheard, hends, houtcome⟩ := h.nil
    exact ⟨_, rfl, Or.inl ⟨s, flight, rfl, rfl, by rw [houtcome], hheard, hends⟩⟩
  | cons line rest ih =>
    -- a wait is over at the time until which the flight sleeps
    have hgoes : ∀ {flight : Flight} {u : Session α} (length : Duration),
        Heads x keep f flight rest (u.now + length.wait) u → u.isRunning = true →
        u.cancelled = false → ∃ t, goOn x deadline flight rest (u.suspend deadline length) = some t ∧
          Parts x keep f flight.id flight.source deadline t := by
      intro flight u length hheads hrunning hfree
      rcases suspend_of_free deadline length hfree with hover | ⟨hlate, hlong⟩
      · rw [hover, goOn]
        refine ih (hheads.clocked u.ties) ?_ ?_
        · rw [isRunning_clocked, hrunning]
        · rw [cancelled_clocked, hfree]
      · rw [hlong]
        exact ⟨_, rfl, Or.inr ⟨_, hlate, hfree, Nat.le_add_right _ _, rest, flight.linesExecuted,
          rfl, hheads⟩⟩
    by_cases hkept : isKept s.settings line = true
    · obtain ⟨panic?, t, hperform, hflying, hcancelled, hnow, hgo, hpanic⟩ :=
        h.call hx hkept hrunning
      rw [runLines_command hfree (stepOf_eq_command_iff.mpr hkept), hperform, Option.bind_some]
      cases panic? with
      | none =>
        have hheads := hgo rfl
        rw [← hnow] at hheads
        exact hgoes _ hheads hflying (hcancelled.trans hfree)
      | some text =>
        obtain ⟨hheard, hends, houtcome⟩ := hpanic text rfl
        exact ⟨_, rfl, Or.inl ⟨t, flight, rfl, rfl, by rw [houtcome], hheard, hnow.trans hends⟩⟩
    · rw [Bool.not_eq_true] at hkept
      by_cases hpause : isPause s.settings line = true
      · rw [runLines_pause hfree (stepOf_of_isPause hpause)]
        exact hgoes _ (h.pause hpause) hrunning hfree
      · rw [Bool.not_eq_true] at hpause
        rw [runLines_skip hfree (stepOf_of_neither hkept hpause)]
        exact ih (s := s.note (.reached flight.id line)) (h.skip hkept hpause) hrunning hfree

end Session

end CommandConsole.Script
