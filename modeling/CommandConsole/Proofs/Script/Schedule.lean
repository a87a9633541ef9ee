import CommandConsole.Proofs.Script.Forecast
import CommandConsole.Proofs.Script.SingleFlight

/-!
# Scripts on schedule

A script that was accepted is on schedule: what it did and what is ahead of it add up to what was
forecast when it was accepted. Whatever a host does, short of cancelling, leaves it on schedule or
lets it end as it was forecast. So a script that is run, and a script that is started in the
background and awaited later, comes to the same events, the same outcome and the same time of its
end, and these can be told from its lines: nothing for blank lines and comments, an announcement for
each pause, an echo for each command, and a wait for each of them of at most thirty years.
-/

namespace CommandConsole.Script

variable {α : Type}

/-- The warning about a request that is rejected. -/
def rejection : Event :=
  .shown (.warning ScriptError.alreadyRunning.message)

/-- The step does not cancel the script in flight, and what it adds to the log itself is not kept.
-/
def HostStep.Spares (keep : Event → Bool) : HostStep → Prop
  | cancel => False
  | run _ | spawn _ => keep rejection = false
  | sleep _ | await _ | waitIdle => True

/-- Where every line returns, a script does some acts with any lines. -/
theorem exists_plays {x : Executor α} (hx : x.Total) (settings : ScriptSettings)
    (lines : List String) (own : α) : ∃ acts, Plays x settings lines own acts := by
  induction lines generalizing own with
  | nil => exact ⟨[], .nil⟩
  | cons line rest ih =>
    by_cases hkept : isKept settings line = true
    · obtain ⟨⟨effects, panic?, own'⟩, hrun⟩ := Option.isSome_iff_exists.mp (hx line own)
      cases panic? with
      | none =>
        obtain ⟨acts, hplays⟩ := ih own'
        exact ⟨_, .call hkept hrun hplays⟩
      | some text => exact ⟨_, .panic hkept hrun⟩
    · rw [Bool.not_eq_true] at hkept
      obtain ⟨acts, hplays⟩ := ih own
      by_cases hpause : isPause settings line = true
      · exact ⟨_, .pause hpause hplays⟩
      · rw [Bool.not_eq_true] at hpause
        exact ⟨_, .skip hkept hpause hplays⟩

namespace Session

variable {x : Executor α} {keep : Event → Bool} {f : Forecast} {script : Nat} {source : Source}
  {deadline : Option Nat} {s t : Session α}

/-- The script in flight heads for the forecast, from now on or from the end of its wait on. -/
inductive OnSchedule (x : Executor α) (keep : Event → Bool) (f : Forecast) (script : Nat)
    (source : Source) (s : Session α) : Prop
  | ready {lines} : s.flight? = some ⟨script, source, 0, .ready⟩ →
      s.linesOf? source = .ok lines → s.cancelled = false →
      Heads x keep f ⟨script, source, 0, .ready⟩ lines s.now s →
      OnSchedule x keep f script source s
  | asleep {wake} : AsleepUntil x keep f script source wake s → OnSchedule x keep f script source s

/-- The script has ended as it was forecast, and the log began as it was forecast. -/
structure Over (keep : Event → Bool) (f : Forecast) (script : Nat) (source : Source)
    (s : Session α) : Prop where
  ends_le : f.ends ≤ s.now
  story : ∃ told, told <+: s.story ∧ .ended script source f.outcome ∈ told ∧
    (told.flatMap Happening.events).filter keep =
      f.heard ++ [Event.shown (f.outcome.closing source)].filter keep

theorem EndsAs.idle (h : EndsAs keep f script source t) : t.isRunning = false := by
  obtain ⟨u, flight, -, -, rfl, -, -⟩ := h
  rfl

theorem EndsAs.now (h : EndsAs keep f script source t) : t.now = f.ends := by
  obtain ⟨u, flight, -, -, rfl, -, hnow⟩ := h
  exact hnow

theorem EndsAs.story (h : EndsAs keep f script source t) :
    .ended script source f.outcome ∈ t.story ∧
      t.log.filter keep = f.heard ++ [Event.shown (f.outcome.closing source)].filter keep := by
  obtain ⟨u, flight, rfl, rfl, rfl, hheard, -⟩ := h
  refine ⟨List.mem_append_right _ (List.mem_singleton_self _), ?_⟩
  rw [finish, log_note, List.filter_append, ← hheard]
  rfl

theorem EndsAs.over (h : EndsAs keep f script source t) : Over keep f script source t :=
  ⟨Nat.le_of_eq h.now.symm, t.story, List.prefix_rfl, h.story⟩

/-- Whatever a host does behind the end of a script leaves it over. -/
theorem Over.take {step : HostStep} {answer : Answer} (h : Over keep f script source s)
    (htake : step.take x s = some (answer, t)) : Over keep f script source t := by
  obtain ⟨hends, told, htold, hover⟩ := h
  refine ⟨Nat.le_trans hends (now_le_of_take htake), told, ?_, hover⟩
  refine take_invariant (P := fun s => told <+: s.story) ?_ ?_ ?_ ?_ htold htake
  · exact fun source h => prefix_request h source
  · exact fun h => h.trans (List.prefix_append ..)
  · exact fun _ h hwait => prefix_wait h hwait
  · exact fun _ h => h

theorem Parts.onSchedule (h : Parts x keep f script source deadline t) :
    OnSchedule x keep f script source t ∨ Over keep f script source t := by
  rcases h with hends | ⟨wake, -, hasleep⟩
  · exact Or.inr hends.over
  · exact Or.inl (.asleep hasleep)

/-- As long as it is not past the end of a wait, the clock does not matter to the waiting script. -/
theorem AsleepUntil.moved {wake now : Nat} (h : AsleepUntil x keep f script source wake s)
    (hpast : now ≤ wake) : AsleepUntil x keep f script source wake { s with now } :=
  ⟨h.free, hpast, h.heads⟩

theorem Over.moved {now : Nat} (h : Over keep f script source s) (hends : f.ends ≤ now) :
    Over keep f script source { s with now } :=
  ⟨hends, h.story⟩

namespace OnSchedule

theorem isRunning (h : OnSchedule x keep f script source s) : s.isRunning = true := by
  cases h with
  | ready hflight _ _ _ => rw [Session.isRunning, hflight, Option.isSome_some]
  | asleep h =>
    obtain ⟨rest, executed, hflight, -⟩ := h.heads
    rw [Session.isRunning, hflight, Option.isSome_some]

theorem flight (h : OnSchedule x keep f script source s) :
    ∃ flight, s.flight? = some flight ∧ flight.id = script := by
  cases h with
  | ready hflight _ _ _ => exact ⟨_, hflight, rfl⟩
  | asleep h =>
    obtain ⟨rest, executed, hflight, -⟩ := h.heads
    exact ⟨_, hflight, rfl⟩

/-- A script on schedule has not passed the time at which it ends. -/
theorem now_le (h : OnSchedule x keep f script source s) : s.now ≤ f.ends := by
  cases h with
  | ready _ _ _ hheads =>
    obtain ⟨acts, -, -, hends, -⟩ := hheads
    omega
  | asleep h =>
    obtain ⟨rest, executed, -, acts, -, -, hends, -⟩ := h.heads
    have hpast := h.notPast
    omega

/-- A script on schedule that goes on ends as forecast, or sleeps beyond the deadline. -/
theorem resume (hx : x.NeverCancels) (deadline : Option Nat)
    (h : OnSchedule x keep f script source s) :
    ∃ t, s.resume x deadline = some t ∧ Parts x keep f script source deadline t := by
  have hrunning := h.isRunning
  cases h with
  | ready hflight hlines hfree hheads =>
    rw [resume_ready hflight rfl]
    simp only [hlines]
    exact hheads.runLines hx deadline hrunning hfree
  | @asleep wake h =>
    obtain ⟨rest, executed, hflight, hheads⟩ := h.heads
    rw [resume_asleep hflight rfl]
    rcases waitUntil_of_free deadline h.free h.notPast with hover | ⟨hlate, hlong⟩
    · rw [hover, goOn]
      refine (hheads.clocked s.ties).runLines hx deadline ?_ ?_
      · rw [isRunning_clocked, hrunning]
      · rw [cancelled_clocked, h.free]
    · rw [hlong, goOn, park_self hflight rfl]
      exact ⟨s, rfl, Or.inr ⟨wake, hlate, h⟩⟩

/-- How often the host has waited does not matter. -/
theorem counted (h : OnSchedule x keep f script source s) :
    OnSchedule x keep f script source { s with waits := s.waits + 1 } := by
  cases h with
  | ready hflight hlines hfree hheads => exact .ready hflight hlines hfree hheads
  | asleep h => exact .asleep ⟨h.free, h.notPast, h.heads⟩

theorem wait (hx : x.NeverCancels) (deadline : Option Nat)
    (h : OnSchedule x keep f script source s) :
    ∃ t, s.wait x deadline = some t ∧ Parts x keep f script source deadline t :=
  h.counted.resume hx deadline

/-- A script that is waited for without a deadline ends as forecast. -/
theorem wait_none (hx : x.NeverCancels) (h : OnSchedule x keep f script source s) :
    ∃ t, s.wait x none = some t ∧ EndsAs keep f script source t := by
  obtain ⟨t, hwait, hends | ⟨wake, hlate, -⟩⟩ := h.wait hx none
  · exact ⟨t, hwait, hends⟩
  · simp [isBefore] at hlate

/-- A request that is rejected leaves the script on schedule, if its warning is not kept. -/
theorem rejected (h : OnSchedule x keep f script source s) (hkeep : keep rejection = false)
    (other : Source) : OnSchedule x keep f script source (s.note (.rejected other)) := by
  have hlog : (s.note (.rejected other)).log = s.log ++ [rejection] := log_note _ s
  have hheads : ∀ {flight lines clock}, Heads x keep f flight lines clock s →
      Heads x keep f flight lines clock (s.note (.rejected other)) := by
    rintro flight lines clock ⟨acts, hplays, hheard, hends, houtcome⟩
    refine ⟨acts, hplays, ?_, hends, houtcome⟩
    have hsettings : (s.note (.rejected other)).settings = s.settings := rfl
    rw [hlog, hsettings]
    simpa [hkeep] using hheard
  cases h with
  | ready hflight hlines hfree h => exact .ready hflight hlines hfree (hheads h)
  | asleep h =>
    obtain ⟨rest, executed, hflight, h'⟩ := h.heads
    exact .asleep ⟨h.free, h.notPast, rest, executed, hflight, hheads h'⟩

/-- Sleeping leaves a script on schedule, or lets it end as forecast. -/
theorem sleep (hx : x.NeverCancels) (h : OnSchedule x keep f script source s) {length : Duration}
    (hsleep : s.sleep x length = some t) :
    OnSchedule x keep f script source t ∨ Over keep f script source t := by
  rcases sleep_cases hsleep with rfl | ⟨u, now, hnow, hwait, rfl⟩
  · exact Or.inl h
  · obtain ⟨v, hwait', hparts⟩ := h.wait hx (some now)
    obtain rfl := Option.some.inj (hwait'.symm.trans hwait)
    rcases hparts with hends | ⟨wake, hlate, hasleep⟩
    · exact Or.inr (hends.over.moved (hends.now ▸ now_le_deadline hnow hwait))
    · have hpast : now ≤ wake := by simpa [isBefore] using hlate
      exact Or.inl (.asleep (hasleep.moved hpast))

/-- Awaiting any outcome leaves a script on schedule, or lets it end as forecast. -/
theorem awaiting (hx : x.NeverCancels) (h : OnSchedule x keep f script source s) {ticket : Ticket}
    {outcome : Outcome} (hawait : s.await x ticket = some (outcome, t)) :
    OnSchedule x keep f script source t ∨ Over keep f script source t := by
  refine await_invariant
    (P := fun s => OnSchedule x keep f script source s ∨ Over keep f script source s) ?_
    (Or.inl h) hawait
  rintro s t deadline (h | h) hwait
  · obtain ⟨u, hwait', hparts⟩ := h.wait hx deadline
    obtain rfl := Option.some.inj (hwait'.symm.trans hwait)
    exact hparts.onSchedule
  · obtain ⟨hends, told, htold, hover⟩ := h
    exact Or.inr ⟨Nat.le_trans hends (now_le_of_wait hwait), told, prefix_wait htold hwait, hover⟩

/-- What a host does short of cancelling leaves a script on schedule, or lets it end as forecast. -/
theorem take (hx : x.NeverCancels) (h : OnSchedule x keep f script source s) {step : HostStep}
    {answer : Answer} (hspares : step.Spares keep) (htake : step.take x s = some (answer, t)) :
    OnSchedule x keep f script source t ∨ Over keep f script source t := by
  cases step with
  | run other =>
    rw [HostStep.take, (request_of_running other h.isRunning).2.1] at htake
    obtain ⟨-, rfl⟩ := Prod.mk.inj (Option.some.inj htake)
    exact Or.inl (h.rejected hspares other)
  | spawn other =>
    rw [HostStep.take, (request_of_running (x := x) other h.isRunning).1] at htake
    obtain ⟨-, rfl⟩ := Prod.mk.inj (Option.some.inj htake)
    exact Or.inl (h.rejected hspares other)
  | cancel => exact hspares.elim
  | sleep length =>
    obtain ⟨u, hsleep, he⟩ := Option.map_eq_some_iff.mp htake
    obtain ⟨-, rfl⟩ := Prod.mk.inj he
    exact h.sleep hx hsleep
  | await ticket =>
    obtain ⟨⟨outcome, u⟩, hawait, he⟩ := Option.map_eq_some_iff.mp htake
    obtain ⟨-, rfl⟩ := Prod.mk.inj he
    exact h.awaiting hx hawait
  | waitIdle =>
    obtain ⟨u, hidle, he⟩ := Option.map_eq_some_iff.mp htake
    obtain ⟨-, rfl⟩ := Prod.mk.inj he
    rw [Session.waitIdle, if_pos h.isRunning] at hidle
    obtain ⟨v, hwait, hends⟩ := h.wait_none hx
    obtain rfl := Option.some.inj (hwait.symm.trans hidle)
    exact Or.inr hends.over

/-- Any number of such steps does. -/
theorem takeAll (hx : x.NeverCancels) {steps : List HostStep} {answers : List Answer}
    (h : OnSchedule x keep f script source s) (hspares : ∀ step ∈ steps, step.Spares keep)
    (hsteps : Script.takeAll x steps s = some (answers, t)) :
    OnSchedule x keep f script source t ∨ Over keep f script source t := by
  induction steps generalizing s answers with
  | nil =>
    obtain ⟨-, rfl⟩ := Prod.mk.inj (Option.some.inj hsteps)
    exact Or.inl h
  | cons step steps ih =>
    obtain ⟨answer, rest, u, htake, hrest, rfl⟩ := takeAll_cons_eq_some_iff.mp hsteps
    obtain ⟨hspare, hspares⟩ := List.forall_mem_cons.mp hspares
    rcases h.take hx hspare htake with hon | hover
    · exact ih hon hspares hrest
    · exact Or.inr (takeAll_invariant (P := Over keep f script source) Over.take hover hrest)

/-- A script on schedule that is awaited gives the outcome that was forecast. -/
theorem await (hx : x.NeverCancels) (hs : s.Sound) (h : OnSchedule x keep f script source s) :
    ∃ t, s.await x (.run script) = some (f.outcome, t) ∧ EndsAs keep f script source t := by
  obtain ⟨t, hwait, hends⟩ := h.wait_none hx
  obtain ⟨flight, hflight, rfl⟩ := h.flight
  refine ⟨t, await_of_wait (hs.lookup_eq_none hflight) hwait ?_, hends⟩
  obtain ⟨u, flight', hid, -, rfl, -⟩ := hends
  rw [← hid]
  exact lookup_finish flight' f.outcome u

end OnSchedule

/-- What a script comes to that is accepted and does these acts. -/
def forecast (keep : Event → Bool) (acts : List Act) (s : Session α) : Forecast where
  heard := (s.log ++ acts.flatMap (Act.events s.settings s.accepted)).filter keep
  ends := s.now + totalTime s.settings acts
  outcome := outcomeAfter 0 acts

/-- A script is on schedule from its acceptance on. -/
theorem onSchedule_request (keep : Event → Bool) (hidle : s.isRunning = false)
    {lines : List String} (hlines : s.linesOf? source = .ok lines) {acts : List Act}
    (hplays : Plays x s.settings lines s.own acts) :
    OnSchedule x keep (s.forecast keep acts) s.accepted source (s.request source).2 := by
  obtain ⟨u, hrequest, -, hlog, -⟩ := request_of_idle source hidle
  have haccepted : (s.request source).2.log = s.log := by rw [hrequest, hlog]
  rw [request, if_neg (by simp [hidle])] at haccepted ⊢
  refine .ready rfl hlines rfl ⟨acts, hplays, ?_, rfl, rfl⟩
  rw [haccepted]
  rfl

/-- The log up to the end of a script that is accepted and does these acts. -/
def logWith (source : Source) (acts : List Act) (s : Session α) : List Event :=
  s.log ++ acts.flatMap (Act.events s.settings s.accepted) ++
    [.shown ((outcomeAfter 0 acts).closing source)]

/-- A script from a source with these lines does these acts and nothing else, whoever runs it. -/
structure PlaysOut (x : Executor α) (source : Source) (lines : List String) (acts : List Act)
    (s : Session α) : Prop where
  /-- A host that runs the script sees nothing but its acts and its end. -/
  run : ∃ t, s.run x source = some (outcomeAfter 0 acts, t) ∧ t.isRunning = false ∧
    t.now = s.now + totalTime s.settings acts ∧ t.log = s.logWith source acts
  /-- Started in the background, the script does the same whatever its host does meanwhile, short of
  cancelling. -/
  background : ∀ {keep steps answers t}, (∀ step ∈ steps, HostStep.Spares keep step) →
    takeAll x steps (s.request source).2 = some (answers, t) →
    (t.now ≤ s.now + totalTime s.settings acts ∧
      ∃ u, t.await x (.run s.accepted) = some (outcomeAfter 0 acts, u) ∧ u.isRunning = false ∧
        u.now = s.now + totalTime s.settings acts ∧
        u.log.filter keep = (s.logWith source acts).filter keep) ∨
    (s.now + totalTime s.settings acts ≤ t.now ∧
      .ended s.accepted source (outcomeAfter 0 acts) ∈ t.story ∧
        (s.logWith source acts).filter keep <+: t.log.filter keep)
  /-- Without a panic, it calls all of its commands, and waits behind each and for each pause. -/
  calm : acts.findSome? Act.panic? = none →
    outcomeAfter 0 acts = .completed (keptLines s.settings lines).length ∧
    totalTime s.settings acts =
      (keptLines s.settings lines).length * min s.settings.lineDelay Duration.longestWait +
        ((pauseLines s.settings lines).map fun line =>
          min (pauseLength s.settings line).milliseconds Duration.longestWait).sum
  /-- The first panic is the last of its acts. -/
  panicked : ∀ text, acts.findSome? Act.panic? = some text →
    outcomeAfter 0 acts = .failed (panicText text) ∧
    ∃ earlier line effects, acts = earlier ++ [.call line effects (some text)] ∧
      earlier.findSome? Act.panic? = none ∧ totalTime s.settings acts = totalTime s.settings earlier

/-- A script plays out in a sound session in which none is in flight. -/
theorem Sound.playsOut (hx : x.NeverCancels) (hs : s.Sound) (hidle : s.isRunning = false)
    {lines : List String} (hlines : s.linesOf? source = .ok lines) {acts : List Act}
    (hplays : Plays x s.settings lines s.own acts) : PlaysOut x source lines acts s where
  run := by
    have hon := onSchedule_request (fun _ => true) hidle hlines hplays
    obtain ⟨t, hawait, hends⟩ := hon.await hx (hs.request source)
    refine ⟨t, ?_, hends.idle, hends.now, ?_⟩
    · obtain ⟨u, hrequest, -⟩ := request_of_idle source hidle
      rw [Session.run]
      rw [hrequest] at hawait ⊢
      exact hawait
    · have hall : ∀ events : List Event, events.filter (fun _ => true) = events :=
        fun events => List.filter_eq_self.mpr fun _ _ => rfl
      simpa [forecast, logWith, hall] using hends.story.2
  background := by
    intro keep steps answers t hspares hsteps
    have hlogWith : (s.forecast keep acts).heard ++
        [Event.shown ((s.forecast keep acts).outcome.closing source)].filter keep =
          (s.logWith source acts).filter keep := by
      rw [logWith, List.filter_append]
      rfl
    have hon := onSchedule_request keep hidle hlines hplays
    rcases hon.takeAll hx hspares hsteps with hon | ⟨hpast, told, htold, hended, hlog⟩
    · refine Or.inl ⟨hon.now_le, ?_⟩
      obtain ⟨u, hawait, hends⟩ := hon.await hx ((hs.request source).takeAll hsteps)
      exact ⟨u, hawait, hends.idle, hends.now, hends.story.2.trans hlogWith⟩
    · refine Or.inr ⟨hpast, htold.subset hended, ?_⟩
      obtain ⟨later, hlater⟩ := htold
      rw [← hlogWith, ← hlog, log, ← hlater, List.flatMap_append, List.filter_append]
      exact List.prefix_append ..
  calm := by
    intro hcalm
    refine ⟨?_, ?_⟩
    · unfold outcomeAfter
      rw [hcalm, ← hplays.countP_isCall hcalm, Nat.zero_add]
    · rw [hplays.totalTime_eq hcalm, ScriptSettings.lineWait, Duration.wait,
        Duration.milliseconds_ofMilliseconds]
      rfl
  panicked := by
    intro text hpanic
    refine ⟨by rw [outcomeAfter, hpanic], ?_⟩
    obtain ⟨earlier, line, effects, hacts, hcalm⟩ := hplays.exists_last_of_panic hpanic
    refine ⟨earlier, line, effects, hacts, hcalm, ?_⟩
    simp [hacts, totalTime, Act.time]

/-- Whatever steps a host took from the start, a script that it has executed while none is in flight
plays out, as long as nobody cancels it. -/
theorem playsOut_of_takeAll {own : α} {settings : ScriptSettings}
    {readFile : String → Option String} {waitWins : Nat → Bool} {before : List HostStep}
    {answers : List Answer} (hx : x.NeverCancels)
    (hsteps : takeAll x before { new own settings readFile with waitWins } = some (answers, s))
    (hidle : s.isRunning = false) {lines : List String}
    (hlines : s.linesOf? source = .ok lines) :
    (x.Total → ∃ acts, Plays x s.settings lines s.own acts) ∧
      ∀ acts, Plays x s.settings lines s.own acts → PlaysOut x source lines acts s := by
  have hs := (sound_new own settings readFile waitWins).takeAll hsteps
  exact ⟨fun htotal => exists_plays htotal s.settings lines s.own,
    fun _ hplays => hs.playsOut hx hidle hlines hplays⟩

/-- The lines of a script with each kind of line, up to a panic. -/
def assorted : List String :=
  ["// note", "pause(0.0015)", "  ", " again", "pause(soon)", "boom", "y"]

theorem playsOut_assorted : ∃ t,
    (new () .default fun _ => none).run restless (.lines assorted) =
      some (.failed "Error executing script: boom", t) ∧ t.now = 1052 ∧
    t.log = [.shown (.information "Pausing for 0.0015 seconds..."),
      .shown (.information ">  again"), .executing 0 " again",
      .shown (.warning
        "Error parsing pause time: 'soon' is not a number. Using default 1 second delay."),
      .shown (.information "> boom"), .executing 0 "boom",
      .shown (.error "Error executing script: boom")] := by
  have hx : restless.NeverCancels := by
    rintro line own reaction hrun hmem
    obtain rfl := Option.some.inj hrun
    simp only at hmem
    split at hmem <;> simp at hmem
  have hplays : Plays restless .default assorted () [.pause "pause(0.0015)", .call " again" [] none,
      .pause "pause(soon)", .call "boom" [] (some "boom")] :=
    .skip (by decide +kernel) (by decide +kernel) (.pause (by decide +kernel)
      (.skip (by decide +kernel) (by decide +kernel) (.call (by decide +kernel) rfl
        (.pause (by decide +kernel) (.panic (by decide +kernel) rfl)))))
  have hsteps : takeAll restless []
      { new () ScriptSettings.default (fun _ => none) with waitWins := fun _ => false } =
        some ([], new () .default fun _ => none) := rfl
  have hlines : (new () .default fun _ => none).linesOf? (.lines assorted) = .ok assorted := rfl
  obtain ⟨t, hrun, -, hnow, hlog⟩ := ((playsOut_of_takeAll hx hsteps rfl hlines).2 _ hplays).run
  exact ⟨t, hrun, hnow.trans (by decide +kernel), hlog.trans (by decide +kernel)⟩

/-- No script waits for the whole of a pause that is longer than thirty years. -/
theorem run_pause_of_centuries : ∃ t,
    (new () { ScriptSettings.default with lineDelay := 7 } fun _ => none).run restless
      (.lines ["pause(1e10)", "x"]) = some (.completed 1, t) ∧
    (pauseLength .default "pause(1e10)").milliseconds = 10000000000000 ∧
    t.now = 946080000007 ∧ t.now ≠ 1 * 7 + 10000000000000 := by
  have hrun : ((new () { ScriptSettings.default with lineDelay := 7 } fun _ => none).run restless
      (.lines ["pause(1e10)", "x"])).map (fun (outcome, t) => (outcome, t.now)) =
        some (.completed 1, 946080000007) := by
    decide +kernel
  obtain ⟨⟨outcome, t⟩, hrun, he⟩ := Option.map_eq_some_iff.mp hrun
  obtain ⟨rfl, hnow⟩ := Prod.mk.inj he
  exact ⟨t, hrun, by decide +kernel, hnow, by omega⟩

end Session

end CommandConsole.Script
