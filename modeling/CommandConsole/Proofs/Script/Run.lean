import CommandConsole.Script.Session

/-!
# Invariants of running scripts

What a script does with its next line is stated once for every kind of step. A wait only moves the
clock and settles ties, so what a script run keeps is shown by its own steps:
passing a line over, pausing, executing a line, and the ways to end. `runLines_invariant` carries an
invariant of these steps to the session in which the run ends or is left waiting, and `resumption`
lists what comes of letting the script in flight go on.
-/

namespace CommandConsole.Script.Session

variable {α : Type}

/-- The session with another clock and other ties. -/
def clocked (now ties : Nat) (s : Session α) : Session α :=
  { s with now, ties }

@[simp] theorem log_clocked (now ties : Nat) (s : Session α) : (s.clocked now ties).log = s.log :=
  rfl

@[simp] theorem isRunning_clocked (now ties : Nat) (s : Session α) :
    (s.clocked now ties).isRunning = s.isRunning := rfl

@[simp] theorem cancelled_clocked (now ties : Nat) (s : Session α) :
    (s.clocked now ties).cancelled = s.cancelled := rfl

@[simp] theorem log_note (happening : Happening) (s : Session α) :
    (s.note happening).log = s.log ++ happening.events := by
  rw [log, note, List.flatMap_append, List.flatMap_singleton, log]

/-- The clock can come from one time to another while the host waits until a deadline. -/
def Elapses (deadline : Option Nat) (start now : Nat) : Prop :=
  start ≤ now ∧ (now = start ∨ isBefore now deadline = true)

theorem elapses_self (deadline : Option Nat) (now : Nat) : Elapses deadline now now :=
  ⟨Nat.le_refl now, Or.inl rfl⟩

/-- What a wait until a time comes to, while the host waits until a deadline. -/
def waitUntil (deadline : Option Nat) (wake : Nat) (s : Session α) : Wait α :=
  if s.cancelled then
    if wake ≤ s.now then
      if s.waitWins s.ties then .over (s.clocked s.now (s.ties + 1))
      else .cut (s.clocked s.now (s.ties + 1))
    else .cut (s.clocked s.now s.ties)
  else if wake ≤ s.now then .over (s.clocked s.now s.ties)
  else if isBefore wake deadline then .over (s.clocked wake s.ties)
  else .long wake s

/-- A wait of some length is a wait until a time. -/
theorem suspend_eq_waitUntil (deadline : Option Nat) (length : Duration) (s : Session α) :
    s.suspend deadline length = s.waitUntil deadline (s.now + length.wait) := by
  have hdue : s.now + length.wait ≤ s.now ↔ length.wait = 0 := by omega
  simp only [suspend, waitUntil, hdue, tie]
  cases s.waitWins s.ties <;> rfl

/-- A wait is over with a moved clock, cut short because of a cancellation, or longer than the host
waits. A cancelled script does not move the clock. -/
theorem waitUntil_cases (deadline : Option Nat) (wake : Nat) (s : Session α) :
    (∃ now ties, s.waitUntil deadline wake = .over (s.clocked now ties) ∧
      Elapses deadline s.now now ∧ (s.cancelled = true → now = s.now)) ∨
    (s.cancelled = true ∧ ∃ ties, s.waitUntil deadline wake = .cut (s.clocked s.now ties)) ∨
    (s.cancelled = false ∧ isBefore wake deadline = false ∧
      s.waitUntil deadline wake = .long wake s) := by
  rw [waitUntil]
  split
  · next hc =>
    split
    · split
      · exact Or.inl ⟨_, _, rfl, elapses_self _ _, fun _ => rfl⟩
      · exact Or.inr (Or.inl ⟨hc, _, rfl⟩)
    · exact Or.inr (Or.inl ⟨hc, _, rfl⟩)
  · next hc =>
    split
    · exact Or.inl ⟨_, _, rfl, elapses_self _ _, fun _ => rfl⟩
    · next hdue =>
      split
      · next hb =>
        exact Or.inl ⟨_, _, rfl, ⟨Nat.le_of_not_le hdue, Or.inr hb⟩, fun h => absurd h hc⟩
      · next hb => exact Or.inr (Or.inr ⟨by simpa using hc, by simpa using hb, rfl⟩)

/-- A wait that nobody cancels ends when it is due, or lasts beyond the deadline. -/
theorem waitUntil_of_free {s : Session α} {wake : Nat} (deadline : Option Nat)
    (hc : s.cancelled = false) (hpast : s.now ≤ wake) :
    s.waitUntil deadline wake = .over (s.clocked wake s.ties) ∨
      isBefore wake deadline = false ∧ s.waitUntil deadline wake = .long wake s := by
  rw [waitUntil, if_neg (by simp [hc])]
  split
  · next hdue =>
    rw [Nat.le_antisymm hpast hdue]
    exact Or.inl rfl
  · split
    · exact Or.inl rfl
    · next hb => exact Or.inr ⟨by simpa using hb, rfl⟩

/-- How a script goes on behind a wait. -/
def goOn (x : Executor α) (deadline : Option Nat) (flight : Flight) (rest : List String) :
    Wait α → Option (Session α)
  | .over s => runLines x deadline flight rest s
  | .cut s => some (s.finishCancelled flight)
  | .long wake s => some (s.park flight wake rest)

/-- How a script goes on when the executor returned, with the text of a panic out of it. -/
def goOnReturned (x : Executor α) (deadline : Option Nat) (flight : Flight) (rest : List String) :
    Option String × Session α → Option (Session α)
  | (some text, s) => some (s.finish flight (.failed (panicText text)))
  | (none, s) =>
    goOn x deadline { flight with linesExecuted := flight.linesExecuted + 1 } rest
      (s.suspend deadline s.settings.lineWait)

section Lines

variable {x : Executor α} {deadline : Option Nat} {flight : Flight} {line : String}
  {rest : List String} {s : Session α}

theorem runLines_cancelled (hc : s.cancelled = true) :
    runLines x deadline flight (line :: rest) s = some (s.finishCancelled flight) := by
  rw [runLines, if_pos hc]

theorem runLines_skip (hc : s.cancelled = false) (hstep : stepOf s.settings line = .skip) :
    runLines x deadline flight (line :: rest) s =
      runLines x deadline flight rest (s.note (.reached flight.id line)) := by
  have hsettings : (s.note (.reached flight.id line)).settings = s.settings := rfl
  rw [runLines, if_neg (by simp [hc])]
  simp only [hsettings, hstep]

theorem runLines_pause {announcement : Message} {length : Duration} (hc : s.cancelled = false)
    (hstep : stepOf s.settings line = .pause announcement length) :
    runLines x deadline flight (line :: rest) s = goOn x deadline flight rest
      (((s.note (.reached flight.id line)).note (.paused flight.id announcement)).suspend deadline
        length) := by
  have hsettings : (s.note (.reached flight.id line)).settings = s.settings := rfl
  rw [runLines, if_neg (by simp [hc])]
  simp only [hsettings, hstep]
  rfl

theorem runLines_command (hc : s.cancelled = false) (hstep : stepOf s.settings line = .command) :
    runLines x deadline flight (line :: rest) s =
      ((s.note (.reached flight.id line)).perform x flight line).bind
        (goOnReturned x deadline flight rest) := by
  have hsettings : (s.note (.reached flight.id line)).settings = s.settings := rfl
  rw [runLines, if_neg (by simp [hc])]
  simp only [hsettings, hstep]
  cases (s.note (.reached flight.id line)).perform x flight line with
  | none => rfl
  | some returned =>
    obtain ⟨panic?, t⟩ := returned
    cases panic? <;> rfl

end Lines

/-- A wait that nobody cancels takes its time, or lasts beyond the deadline. -/
theorem suspend_of_free {s : Session α} (deadline : Option Nat) (length : Duration)
    (hc : s.cancelled = false) :
    s.suspend deadline length = .over (s.clocked (s.now + length.wait) s.ties) ∨
      isBefore (s.now + length.wait) deadline = false ∧
        s.suspend deadline length = .long (s.now + length.wait) s := by
  rw [suspend_eq_waitUntil]
  exact waitUntil_of_free deadline hc (Nat.le_add_right _ _)

/-- A host that waits for as long as it takes sees every wait of a script end that is not cancelled.
-/
theorem suspend_of_not_cancelled {s : Session α} (length : Duration) (hc : s.cancelled = false) :
    ∃ now ties, s.suspend none length = .over (s.clocked now ties) := by
  rcases suspend_of_free none length hc with hover | ⟨hlate, -⟩
  · exact ⟨_, _, hover⟩
  · simp [isBefore] at hlate

section Undisturbed

variable {x : Executor α} {flight : Flight} {line : String} {s : Session α}

/-- A pause of a script that is not cancelled passes. -/
theorem runLines_pause_of_not_cancelled (rest : List String) {announcement : Message}
    {length : Duration} (hc : s.cancelled = false) (hstep : stepOf s.settings line = .pause announcement length) :
    ∃ now ties, runLines x none flight (line :: rest) s = runLines x none flight rest
      (((s.note (.reached flight.id line)).note (.paused flight.id announcement)).clocked now
        ties) := by
  obtain ⟨now, ties, hover⟩ := suspend_of_not_cancelled length
    (s := (s.note (.reached flight.id line)).note (.paused flight.id announcement)) hc
  exact ⟨now, ties, by rw [runLines_pause hc hstep, hover, goOn]⟩

/-- The session behind a line of a script from which the executor returned without a panic. -/
def returned (flight : Flight) (line : String) (effects : List Effect) (own : α)
    (s : Session α) : Session α :=
  ({ (s.note (.reached flight.id line)).note (.handed flight.id line) with own }.applyAll
    effects).note (.returned flight.id none)

/-- An executor that returns from a line without a panic leaves that session. -/
theorem perform_of_run (flight : Flight) {effects : List Effect} {own : α}
    (hrun : x.run line s.own = some ⟨effects, none, own⟩) :
    (s.note (.reached flight.id line)).perform x flight line =
      some (none, s.returned flight line effects own) := by
  rw [perform]
  change (x.run line s.own).map _ = _
  rw [hrun]
  rfl

/-- A command that returns without a panic, and does not cancel the script, is behind it. -/
theorem runLines_command_of_run (rest : List String) {effects : List Effect} {own : α}
    (hc : s.cancelled = false)
    (hstep : stepOf s.settings line = .command) (hrun : x.run line s.own = some ⟨effects, none, own⟩)
    (hfree : (s.returned flight line effects own).cancelled = false) :
    ∃ now ties, runLines x none flight (line :: rest) s =
      runLines x none { flight with linesExecuted := flight.linesExecuted + 1 } rest
        ((s.returned flight line effects own).clocked now ties) := by
  obtain ⟨now, ties, hover⟩ := suspend_of_not_cancelled
    (s.returned flight line effects own).settings.lineWait hfree
  refine ⟨now, ties, ?_⟩
  rw [runLines_command hc hstep, perform_of_run flight hrun, Option.bind_some, goOnReturned, hover,
    goOn]

end Undisturbed

/-- What every step of a run keeps holds when the run ends or is left waiting. -/
theorem runLines_invariant {x : Executor α} {deadline : Option Nat}
    {P : Flight → List String → Session α → Prop} {Q : Session α → Prop}
    (clock : ∀ {flight rest s} now ties, Elapses deadline s.now now → P flight rest s →
      P flight rest (s.clocked now ties))
    (skip : ∀ {flight line rest s}, P flight (line :: rest) s → s.cancelled = false →
      stepOf s.settings line = .skip → P flight rest (s.note (.reached flight.id line)))
    (pause : ∀ {flight line rest s announcement length}, P flight (line :: rest) s →
      s.cancelled = false → stepOf s.settings line = .pause announcement length →
      P flight rest ((s.note (.reached flight.id line)).note (.paused flight.id announcement)))
    (command : ∀ {flight line rest s t}, P flight (line :: rest) s → s.cancelled = false →
      stepOf s.settings line = .command →
      (s.note (.reached flight.id line)).perform x flight line = some (none, t) →
      P { flight with linesExecuted := flight.linesExecuted + 1 } rest t)
    (panicked : ∀ {flight line rest s text t}, P flight (line :: rest) s → s.cancelled = false →
      stepOf s.settings line = .command →
      (s.note (.reached flight.id line)).perform x flight line = some (some text, t) →
      Q (t.finish flight (.failed (panicText text))))
    (completed : ∀ {flight s}, P flight [] s →
      Q (s.finish flight (.completed flight.linesExecuted)))
    (cut : ∀ {flight rest s}, P flight rest s → s.cancelled = true → Q (s.finishCancelled flight))
    (park : ∀ {flight rest s} wake, P flight rest s → s.cancelled = false →
      isBefore wake deadline = false → Q (s.park flight wake rest))
    {flight : Flight} {lines : List String} {s t : Session α} (h : P flight lines s)
    (hrun : runLines x deadline flight lines s = some t) : Q t := by
  induction lines generalizing flight s with
  | nil =>
    obtain rfl := Option.some.inj hrun
    exact completed h
  | cons line rest ih =>
    have hgoes : ∀ {flight length u}, P flight rest u →
        goOn x deadline flight rest (u.suspend deadline length) = some t → Q t := by
      intro flight length u hu hrun
      rw [suspend_eq_waitUntil] at hrun
      rcases u.waitUntil_cases deadline (u.now + length.wait) with
        ⟨now, ties, he, helapses, -⟩ | ⟨hc, ties, he⟩ | ⟨hc, hlate, he⟩
      · rw [he] at hrun
        exact ih (clock now ties helapses hu) hrun
      · rw [he] at hrun
        obtain rfl := Option.some.inj hrun
        exact cut (clock u.now ties (elapses_self _ _) hu) hc
      · rw [he] at hrun
        obtain rfl := Option.some.inj hrun
        exact park _ hu hc hlate
    by_cases hc : s.cancelled = true
    · rw [runLines_cancelled hc] at hrun
      obtain rfl := Option.some.inj hrun
      exact cut h hc
    · rw [Bool.not_eq_true] at hc
      cases hstep : stepOf s.settings line with
      | skip =>
        rw [runLines_skip hc hstep] at hrun
        exact ih (skip h hc hstep) hrun
      | pause announcement length =>
        rw [runLines_pause hc hstep] at hrun
        exact hgoes (pause h hc hstep) hrun
      | command =>
        rw [runLines_command hc hstep] at hrun
        obtain ⟨⟨panic?, u⟩, hperform, hrun⟩ := Option.bind_eq_some_iff.mp hrun
        cases panic? with
        | none => exact hgoes (command h hc hstep hperform) hrun
        | some text =>
          obtain rfl := Option.some.inj hrun
          exact panicked h hc hstep hperform

/-- A script that has not begun goes on with its lines, or fails if there are none to be had. -/
theorem resume_ready {x : Executor α} {deadline : Option Nat} {s : Session α} {flight : Flight}
    (hflight : s.flight? = some flight) (hstage : flight.stage = .ready) :
    s.resume x deadline =
      match s.linesOf? flight.source with
      | .ok lines => runLines x deadline flight lines s
      | .error cause => some (s.finish flight (.failed cause.message)) := by
  cases hlines : s.linesOf? flight.source with
  | ok lines => simp only [resume, hflight, hstage, hlines]
  | error cause => simp only [resume, hflight, hstage, hlines]

/-- Leaving a script waiting as it is changes nothing. -/
theorem park_self {s : Session α} {flight : Flight} {wake : Nat} {rest : List String}
    (hflight : s.flight? = some flight) (hstage : flight.stage = .asleep wake rest) :
    s.park flight wake rest = s := by
  obtain ⟨own, settings, readFile, now, story, flight?, cancelled, waits, waitWins, ties⟩ := s
  obtain ⟨id, source, linesExecuted, stage⟩ := flight
  obtain rfl : flight? = some _ := hflight
  obtain rfl : stage = .asleep wake rest := hstage
  rfl

/-- A script that waits goes on behind the rest of its wait. -/
theorem resume_asleep {x : Executor α} {deadline : Option Nat} {s : Session α} {flight : Flight}
    {wake : Nat} {rest : List String} (hflight : s.flight? = some flight)
    (hstage : flight.stage = .asleep wake rest) :
    s.resume x deadline = goOn x deadline flight rest (s.waitUntil deadline wake) := by
  have hpark := park_self hflight hstage
  obtain ⟨own, settings, readFile, now, story, flight?, cancelled, waits, waitWins, ties⟩ := s
  obtain rfl : flight? = some flight := hflight
  simp only [resume, hstage, waitUntil, tie]
  split
  · split
    · cases waitWins ties <;> rfl
    · rfl
  · split
    · rfl
    · split
      · rfl
      · rw [goOn, hpark]

/-- What every step of a script keeps, whichever script it is, holds when a script has gone on. -/
theorem resume_invariant {x : Executor α} {deadline : Option Nat} {P : Session α → Prop}
    (clock : ∀ {s : Session α} now ties, Elapses deadline s.now now → P s → P (s.clocked now ties))
    (reached : ∀ {s : Session α} script line, P s → P (s.note (.reached script line)))
    (paused : ∀ {s : Session α} script announcement, P s →
      P (s.note (.paused script announcement)))
    (performed : ∀ {flight line panic?} {s t : Session α}, P s →
      stepOf s.settings line = .command → s.perform x flight line = some (panic?, t) → P t)
    (finish : ∀ {s : Session α} flight outcome, P s → P (s.finish flight outcome))
    (park : ∀ {s : Session α} flight wake rest, P s → P (s.park flight wake rest))
    {s t : Session α} (h : P s) (hresume : s.resume x deadline = some t) : P t := by
  have hruns : ∀ {flight lines} {u : Session α}, P u →
      runLines x deadline flight lines u = some t → P t := by
    intro flight lines u hu hrun
    refine runLines_invariant (P := fun _ _ u => P u) (Q := P) ?_ ?_ ?_ ?_ ?_ ?_ ?_ ?_ hu hrun
    · exact fun now ties helapses h => clock now ties helapses h
    · exact fun h _ _ => reached _ _ h
    · exact fun h _ _ => paused _ _ (reached _ _ h)
    · exact fun h _ hstep hperform => performed (reached _ _ h) hstep hperform
    · exact fun h _ hstep hperform => finish _ _ (performed (reached _ _ h) hstep hperform)
    · exact fun h => finish _ _ h
    · exact fun h _ => finish _ _ h
    · exact fun wake h _ _ => park _ wake _ h
  cases hflight : s.flight? with
  | none =>
    rw [resume, hflight] at hresume
    obtain rfl := Option.some.inj hresume
    exact h
  | some flight =>
    cases hstage : flight.stage with
    | ready =>
      rw [resume_ready hflight hstage] at hresume
      cases hlines : s.linesOf? flight.source with
      | ok lines =>
        simp only [hlines] at hresume
        exact hruns h hresume
      | error cause =>
        simp only [hlines, Option.some.injEq] at hresume
        exact hresume ▸ finish _ _ h
    | asleep wake rest =>
      rw [resume_asleep hflight hstage] at hresume
      rcases s.waitUntil_cases deadline wake with
        ⟨now, ties, he, helapses, -⟩ | ⟨-, ties, he⟩ | ⟨-, -, he⟩
      · rw [he] at hresume
        exact hruns (clock now ties helapses h) hresume
      · rw [he] at hresume
        obtain rfl := Option.some.inj hresume
        exact finish _ _ (clock s.now ties (elapses_self _ _) h)
      · rw [he] at hresume
        obtain rfl := Option.some.inj hresume
        exact park flight wake rest h

/-- These are the lines with which the script in flight goes on. -/
def Ahead (flight : Flight) (lines : List String) (s : Session α) : Prop :=
  match flight.stage with
  | .ready => s.linesOf? flight.source = .ok lines
  | .asleep _ rest => rest = lines

/-- What comes of letting the script in flight go on. -/
inductive Resumption (x : Executor α) (deadline : Option Nat) (s : Session α) :
    Option (Session α) → Prop
  | idle : s.flight? = none → Resumption x deadline s (some s)
  | runs {flight lines} (now ties) : s.flight? = some flight → Ahead flight lines s →
      (s.cancelled = true → now = s.now) →
      Resumption x deadline s (runLines x deadline flight lines (s.clocked now ties))
  | missing {flight cause} : s.flight? = some flight → s.linesOf? flight.source = .error cause →
      Resumption x deadline s (some (s.finish flight (.failed cause.message)))
  | cut {flight} (ties) : s.flight? = some flight → s.cancelled = true →
      Resumption x deadline s (some ((s.clocked s.now ties).finishCancelled flight))
  | waits {flight wake} : s.flight? = some flight → s.cancelled = false →
      isBefore wake deadline = false → Resumption x deadline s (some s)

theorem resumption (x : Executor α) (deadline : Option Nat) (s : Session α) :
    Resumption x deadline s (s.resume x deadline) := by
  cases hflight : s.flight? with
  | none =>
    rw [resume, hflight]
    exact .idle hflight
  | some flight =>
    cases hs : flight.stage with
    | ready =>
      rw [resume_ready hflight hs]
      cases hlines : s.linesOf? flight.source with
      | ok lines =>
        have hahead : Ahead flight lines s := by rwa [Ahead, hs]
        exact .runs s.now s.ties hflight hahead fun _ => rfl
      | error cause => exact .missing hflight hlines
    | asleep wake rest =>
      have hahead : Ahead flight rest s := by rw [Ahead, hs]
      rw [resume_asleep hflight hs]
      rcases s.waitUntil_cases deadline wake with
        ⟨now, ties, he, -, hnow⟩ | ⟨hc, ties, he⟩ | ⟨hc, hlate, he⟩
      · rw [he]
        exact .runs now ties hflight hahead hnow
      · rw [he]
        exact .cut ties hflight hc
      · rw [he, goOn, park_self hflight hs]
        exact .waits hflight hc hlate

end CommandConsole.Script.Session
