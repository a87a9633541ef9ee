import CommandConsole.Proofs.Script.Sound

/-!
# Hosts of scripts

A host acts on a session step by step: it runs scripts and waits for them, starts them in the
background, cancels, sleeps, and waits for outcomes. Every step keeps the session sound, so every
session that a host can come to is sound.
-/

namespace CommandConsole.Script

/-- One step of a host. -/
inductive HostStep where
  /-- Runs a script to its end. -/
  | run (source : Source)
  /-- Starts a script in the background. -/
  | spawn (source : Source)
  | cancel
  | sleep (length : Duration)
  | await (ticket : Ticket)
  | waitIdle

/-- What a step of a host gives. -/
inductive Answer where
  | done
  | ticket (ticket : Ticket)
  | outcome (outcome : Outcome)
  deriving DecidableEq

variable {α : Type}

/-- Takes one step, which may not return. -/
def HostStep.take (x : Executor α) (step : HostStep) (s : Session α) :
    Option (Answer × Session α) :=
  match step with
  | run source => (s.run x source).map fun (outcome, t) => (.outcome outcome, t)
  | spawn source => some (.ticket (s.request source).1, (s.request source).2)
  | cancel => some (.done, s.cancel)
  | sleep length => (s.sleep x length).map fun t => (.done, t)
  | await ticket => (s.await x ticket).map fun (outcome, t) => (.outcome outcome, t)
  | waitIdle => (s.waitIdle x).map fun t => (.done, t)

/-- Takes steps one after the other. -/
def takeAll (x : Executor α) : List HostStep → Session α → Option (List Answer × Session α)
  | [], s => some ([], s)
  | step :: steps, s =>
    match step.take x s with
    | none => none
    | some (answer, t) => (takeAll x steps t).map fun (answers, u) => (answer :: answers, u)

theorem takeAll_cons_eq_some_iff {x : Executor α} {step : HostStep} {steps : List HostStep}
    {s u : Session α} {answers : List Answer} :
    takeAll x (step :: steps) s = some (answers, u) ↔
      ∃ answer rest t, step.take x s = some (answer, t) ∧ takeAll x steps t = some (rest, u) ∧
        answers = answer :: rest := by
  rw [takeAll]
  constructor
  · intro h
    cases hstep : step.take x s with
    | none => simp [hstep] at h
    | some result =>
      obtain ⟨answer, t⟩ := result
      rw [hstep] at h
      obtain ⟨⟨rest, u'⟩, hrest, he⟩ := Option.map_eq_some_iff.mp h
      obtain ⟨rfl, rfl⟩ := Prod.mk.inj he
      exact ⟨answer, rest, t, rfl, hrest, rfl⟩
  · rintro ⟨answer, rest, t, hstep, hrest, rfl⟩
    simp [hstep, hrest]

/-- What every step keeps holds after any number of steps. -/
theorem takeAll_invariant {x : Executor α} {P : Session α → Prop}
    (hstep : ∀ {step : HostStep} {s t answer}, P s → step.take x s = some (answer, t) → P t)
    {steps : List HostStep} {s t : Session α} {answers : List Answer} (h : P s)
    (hsteps : takeAll x steps s = some (answers, t)) : P t := by
  induction steps generalizing s answers with
  | nil =>
    obtain ⟨rfl, rfl⟩ := Prod.mk.inj (Option.some.inj hsteps)
    exact h
  | cons step steps ih =>
    obtain ⟨answer, rest, u, htake, hrest, rfl⟩ := takeAll_cons_eq_some_iff.mp hsteps
    exact ih (hstep h htake) hrest

namespace Session

section Await

variable {x : Executor α} {P : Session α → Prop}

/-- What waiting keeps is kept by sleeping. -/
theorem sleep_invariant (hwait : ∀ {s t} deadline, P s → s.wait x deadline = some t → P t)
    (hnow : ∀ {s : Session α} now, P s → P { s with now }) {s t : Session α} {length : Duration}
    (h : P s) (hsleep : s.sleep x length = some t) : P t := by
  rw [sleep] at hsleep
  split at hsleep
  · obtain rfl := Option.some.inj hsleep
    exact h
  · obtain ⟨u, hu, rfl⟩ := Option.map_eq_some_iff.mp hsleep
    exact hnow _ (hwait _ h hu)

/-- What waiting keeps is kept by awaiting an outcome. -/
theorem await_invariant (hwait : ∀ {s t} deadline, P s → s.wait x deadline = some t → P t)
    {s t : Session α} {ticket : Ticket} {outcome : Outcome} (h : P s)
    (hawait : s.await x ticket = some (outcome, t)) : P t := by
  cases ticket with
  | rejected waits =>
    rw [await] at hawait
    split at hawait
    · obtain ⟨u, hu, he⟩ := Option.map_eq_some_iff.mp hawait
      obtain ⟨rfl, rfl⟩ := Prod.mk.inj he
      exact hwait _ h hu
    · obtain ⟨rfl, rfl⟩ := Prod.mk.inj (Option.some.inj hawait)
      exact h
  | run id =>
    rw [await] at hawait
    split at hawait
    · obtain ⟨rfl, rfl⟩ := Prod.mk.inj (Option.some.inj hawait)
      exact h
    · obtain ⟨u, hu, hlookup⟩ := Option.bind_eq_some_iff.mp hawait
      obtain ⟨outcome', -, he⟩ := Option.map_eq_some_iff.mp hlookup
      obtain ⟨rfl, rfl⟩ := Prod.mk.inj he
      exact hwait _ h hu

/-- What requests, cancellations, waits and sleeping keep is kept by every step of a host. -/
theorem take_invariant_of_sleep (hrequest : ∀ {s : Session α} source, P s → P (s.request source).2)
    (hcancel : ∀ {s : Session α}, P s → P s.cancel)
    (hwait : ∀ {s t} deadline, P s → s.wait x deadline = some t → P t)
    (hsleep : ∀ {s t} length, P s → s.sleep x length = some t → P t) {step : HostStep}
    {s t : Session α} {answer : Answer} (h : P s) (htake : step.take x s = some (answer, t)) :
    P t := by
  cases step with
  | run source =>
    obtain ⟨⟨outcome, u⟩, hrun, he⟩ := Option.map_eq_some_iff.mp htake
    obtain ⟨rfl, rfl⟩ := Prod.mk.inj he
    have hrequested := hrequest source h
    rw [run] at hrun
    rcases hr : s.request source with ⟨ticket, u'⟩
    rw [hr] at hrequested hrun
    cases ticket with
    | rejected waits =>
      obtain ⟨rfl, rfl⟩ := Prod.mk.inj (Option.some.inj hrun)
      exact hrequested
    | run id => exact await_invariant hwait hrequested hrun
  | spawn source =>
    obtain ⟨rfl, rfl⟩ := Prod.mk.inj (Option.some.inj htake)
    exact hrequest source h
  | cancel =>
    obtain ⟨rfl, rfl⟩ := Prod.mk.inj (Option.some.inj htake)
    exact hcancel h
  | sleep length =>
    obtain ⟨u, hu, he⟩ := Option.map_eq_some_iff.mp htake
    obtain ⟨rfl, rfl⟩ := Prod.mk.inj he
    exact hsleep length h hu
  | await ticket =>
    obtain ⟨⟨outcome, u⟩, hawait, he⟩ := Option.map_eq_some_iff.mp htake
    obtain ⟨rfl, rfl⟩ := Prod.mk.inj he
    exact await_invariant hwait h hawait
  | waitIdle =>
    obtain ⟨u, hidle, he⟩ := Option.map_eq_some_iff.mp htake
    obtain ⟨rfl, rfl⟩ := Prod.mk.inj he
    rw [waitIdle] at hidle
    split at hidle
    · exact hwait _ h hidle
    · obtain rfl := Option.some.inj hidle
      exact h

/-- What requests, cancellations, waits and the clock keep is kept by every step of a host. -/
theorem take_invariant (hrequest : ∀ {s : Session α} source, P s → P (s.request source).2)
    (hcancel : ∀ {s : Session α}, P s → P s.cancel)
    (hwait : ∀ {s t} deadline, P s → s.wait x deadline = some t → P t)
    (hnow : ∀ {s : Session α} now, P s → P { s with now }) {step : HostStep} {s t : Session α}
    {answer : Answer} (h : P s) (htake : step.take x s = some (answer, t)) : P t := by
  refine take_invariant_of_sleep (P := P) hrequest hcancel hwait ?_ h htake
  intro s t length h hsleep
  exact sleep_invariant hwait hnow h hsleep

end Await

section Clock

variable {x : Executor α} {s t : Session α}

theorem now_perform {flight : Flight} {line : String} {panic? : Option String}
    (hperform : s.perform x flight line = some (panic?, t)) : t.now = s.now := by
  obtain ⟨reaction, -, he⟩ := Option.map_eq_some_iff.mp hperform
  obtain ⟨-, rfl⟩ := Prod.mk.inj he
  exact now_applyAll _ _

/-- What the clock can come to as a script goes on keeps what holds of the time so far. -/
theorem now_resume {deadline : Option Nat} {Q : Nat → Prop}
    (hQ : ∀ {start now}, Q start → Elapses deadline start now → Q now) (h : Q s.now)
    (hresume : s.resume x deadline = some t) : Q t.now := by
  refine resume_invariant (P := fun s => Q s.now) ?_ ?_ ?_ ?_ ?_ ?_ h hresume
  · exact fun _ _ helapses h => hQ h helapses
  · exact fun _ _ h => h
  · exact fun _ _ h => h
  · intro flight line panic? s t h _ hperform
    rw [now_perform hperform]
    exact h
  · exact fun _ _ h => h
  · exact fun _ _ _ h => h

/-- The clock does not run back while a host waits. -/
theorem now_le_of_wait {deadline : Option Nat} (hwait : s.wait x deadline = some t) :
    s.now ≤ t.now :=
  now_resume (s := { s with waits := s.waits + 1 }) (Q := fun now => s.now ≤ now)
    (fun h helapses => Nat.le_trans h helapses.1) (Nat.le_refl s.now) hwait

/-- The clock does not pass the deadline until which a host waits. -/
theorem now_le_deadline {deadline : Nat} (h : s.now ≤ deadline)
    (hwait : s.wait x (some deadline) = some t) : t.now ≤ deadline := by
  refine now_resume (s := { s with waits := s.waits + 1 }) (Q := fun now => now ≤ deadline) ?_ h
    hwait
  intro start now hstart helapses
  rcases helapses.2 with rfl | hbefore
  · exact hstart
  · have hlt : now < deadline := by simpa [isBefore] using hbefore
    exact Nat.le_of_lt hlt

/-- A host that sleeps waits until a time, and then it is that time. -/
theorem sleep_cases {length : Duration} (hsleep : s.sleep x length = some t) :
    t = s ∨ ∃ u now, s.now ≤ now ∧ s.wait x (some now) = some u ∧ t = { u with now } := by
  unfold sleep at hsleep
  split at hsleep
  · exact Or.inl (Option.some.inj hsleep).symm
  · obtain ⟨u, hwait, rfl⟩ := Option.map_eq_some_iff.mp hsleep
    exact Or.inr ⟨u, _, Nat.le_add_right _ _, hwait, rfl⟩

/-- Whatever a host does, the clock does not run back. -/
theorem now_le_of_take {step : HostStep} {answer : Answer}
    (htake : step.take x s = some (answer, t)) : s.now ≤ t.now := by
  refine take_invariant_of_sleep (P := fun u => s.now ≤ u.now) ?_ ?_ ?_ ?_ (Nat.le_refl s.now) htake
  · intro u source h
    rw [request]
    split <;> exact h
  · exact fun h => h
  · exact fun _ h hwait => Nat.le_trans h (now_le_of_wait hwait)
  · intro u v length h hsleep
    rcases sleep_cases hsleep with rfl | ⟨w, now, hnow, -, rfl⟩
    · exact h
    · exact Nat.le_trans h hnow

end Clock

section Prefix

variable {x : Executor α} {told : List Happening} {s t : Session α}

theorem prefix_note (h : told <+: s.story) (happening : Happening) :
    told <+: (s.note happening).story :=
  h.trans (List.prefix_append ..)

theorem prefix_request (h : told <+: s.story) (source : Source) :
    told <+: (s.request source).2.story := by
  rw [request]
  split <;> exact h.trans (List.prefix_append ..)

theorem prefix_applyAll (h : told <+: s.story) (effects : List Effect) :
    told <+: (s.applyAll effects).story := by
  induction effects generalizing s with
  | nil => exact h
  | cons effect effects ih =>
    rw [applyAll_cons]
    cases effect with
    | record report => exact ih (prefix_note h _)
    | cancel => exact ih (h.trans (List.prefix_append ..))
    | start source => exact ih (prefix_request h source)

theorem prefix_perform {flight : Flight} {line : String} {panic? : Option String}
    (h : told <+: s.story) (hp : s.perform x flight line = some (panic?, t)) :
    told <+: t.story := by
  obtain ⟨reaction, -, he⟩ := Option.map_eq_some_iff.mp hp
  obtain ⟨rfl, rfl⟩ := Prod.mk.inj he
  have hown : told <+: { s.note (.handed flight.id line) with own := reaction.own }.story :=
    prefix_note h _
  exact prefix_note (prefix_applyAll hown _) _

/-- What was told before a script goes on stays told. -/
theorem prefix_resume {deadline : Option Nat} (h : told <+: s.story)
    (hresume : s.resume x deadline = some t) : told <+: t.story := by
  refine resume_invariant (P := fun s => told <+: s.story) ?_ ?_ ?_ ?_ ?_ ?_ h hresume
  · exact fun _ _ _ h => h
  · exact fun _ _ h => prefix_note h _
  · exact fun _ _ h => prefix_note h _
  · exact fun h _ hperform => prefix_perform h hperform
  · exact fun _ _ h => prefix_note h _
  · exact fun _ _ _ h => h

theorem prefix_wait {deadline : Option Nat} (h : told <+: s.story)
    (hwait : s.wait x deadline = some t) : told <+: t.story :=
  prefix_resume (s := { s with waits := s.waits + 1 }) h hwait

theorem prefix_await {ticket : Ticket} {outcome : Outcome} (h : told <+: s.story)
    (hawait : s.await x ticket = some (outcome, t)) : told <+: t.story :=
  await_invariant (P := fun s => told <+: s.story) (fun _ h hwait => prefix_wait h hwait) h hawait

/-- As stories grow, scripts are accepted. -/
theorem accepted_mono (h : s.story <+: t.story) : s.accepted ≤ t.accepted :=
  h.sublist.countP_le

end Prefix

namespace Sound

variable {s t : Session α} {x : Executor α}

/-- Changes of the clock, the count of waits, the ties and the host's own state keep a session
sound. -/
theorem congr (h : Sound s) (hstory : t.story = s.story) (hfile : t.readFile = s.readFile)
    (hflight : t.flight? = s.flight?) (hcancelled : t.cancelled = s.cancelled) : Sound t := by
  obtain ⟨own, settings, readFile, now, story, flight?, cancelled, waits, waitWins, ties⟩ := t
  obtain rfl : story = s.story := hstory
  obtain rfl : readFile = s.readFile := hfile
  obtain rfl : flight? = s.flight? := hflight
  obtain rfl : cancelled = s.cancelled := hcancelled
  refine ⟨h.coherent, h.idle, fun flight hf => ?_, h.stage⟩
  have ha := h.aboard flight hf
  exact ⟨ha.coherent, ha.underway, ha.inFlight, ha.source, ha.executed, ha.token, ha.unharmed⟩

/-- A session with a flight aboard is sound if the flight's stage fits. -/
theorem of_aboard {flight : Flight} (hflight : s.flight? = some flight) (ha : Aboard flight s)
    (hstage : StageFits flight s) : Sound s where
  coherent := ha.coherent
  idle := fun hnone => absurd (hflight.symm.trans hnone) (by simp)
  aboard := fun other hother => by
    obtain rfl := Option.some.inj (hflight.symm.trans hother)
    exact ha
  stage := fun other hother => by
    obtain rfl := Option.some.inj (hflight.symm.trans hother)
    exact hstage

/-- A script that is underway is the one in flight. -/
theorem exists_flight (h : Sound s) {id : Nat} (hmem : id ∈ underway s.story) :
    ∃ flight, s.flight? = some flight ∧ flight.id = id := by
  cases hflight : s.flight? with
  | none => simp [h.idle hflight] at hmem
  | some flight =>
    rw [(h.aboard flight hflight).underway] at hmem
    exact ⟨flight, rfl, (List.mem_singleton.mp hmem).symm⟩

/-- A script that was just accepted is aboard, and it came to no line. -/
theorem accept (h : Sound s) (hnone : s.flight? = none) (source : Source) :
    Sound ({ s with
      flight? := some ⟨s.accepted, source, 0, .ready⟩
      cancelled := false }.note (.accepted s.accepted source)) := by
  have hfits : Fits (fun source => s.linesOf? source) s.story (.accepted s.accepted source) :=
    ⟨h.idle hnone, rfl⟩
  have hnot : ∀ happening : Happening, happening.script? = some s.accepted → happening ∉ s.story :=
    fun happening hof hmem => Nat.lt_irrefl _ (h.coherent.lt_of_script? hmem hof)
  refine of_aboard rfl ⟨h.coherent.snoc hfits, h.coherent.underway_accepted hfits, rfl,
    List.mem_append_right _ (List.mem_singleton.mpr rfl), ?_, ?_, ?_⟩ ?_
  · have hzero : s.story.count (.returned s.accepted none) = 0 :=
      List.count_eq_zero.mpr (hnot _ rfl)
    simp [Session.note, returnsTo, List.count_append, hzero]
  · have hasked := hnot (.cancelAsked (some s.accepted)) rfl
    simp [Session.note, hasked]
  · intro text hmem
    have hreturned := hnot (.returned s.accepted (some text)) rfl
    simp [Session.note, hreturned] at hmem
  · refine List.filterMap_eq_nil_iff.mpr fun happening hmem => ?_
    rcases List.mem_append.mp hmem with hmem | hmem
    · cases happening with
      | reached other line =>
        have hne : other ≠ s.accepted := fun he => by
          subst he
          exact hnot _ rfl hmem
        simp [Happening.reachedLine?, hne]
      | _ => rfl
    · obtain rfl := List.mem_singleton.mp hmem
      rfl

/-- A happening that is of no account for the script in flight keeps a session sound. -/
theorem note (h : Sound s) {happening : Happening}
    (hfits : Fits (fun source => s.linesOf? source) s.story happening)
    (ha : happening.acceptedId? = none) (he : happening.endedId? = none)
    (hc : ∀ script?, happening ≠ .cancelAsked script?)
    (hr : ∀ script panic?, happening ≠ .returned script panic?)
    (hreached : ∀ script, happening.reachedLine? script = none) : Sound (s.note happening) := by
  cases hflight : s.flight? with
  | none =>
    exact ⟨h.coherent.snoc hfits, fun _ => (underway_snoc_other _ ha he).trans (h.idle hflight),
      fun _ hother => absurd (hflight.symm.trans hother) (by simp),
      fun _ hother => absurd (hflight.symm.trans hother) (by simp)⟩
  | some flight =>
    refine of_aboard hflight ((h.aboard flight hflight).note hfits ha he hc hr) ?_
    have hstage := h.stage flight hflight
    rw [StageFits] at hstage ⊢
    rw [Session.note, reachedBy_snoc_other _ (hreached _)]
    exact hstage

/-- A request keeps a session sound, accepted or rejected. -/
theorem request (h : Sound s) (source : Source) : Sound (s.request source).2 := by
  rw [Session.request]
  split
  · next hrunning =>
    obtain ⟨flight, hflight⟩ := Option.isSome_iff_exists.mp hrunning
    exact h.note ⟨_, (h.aboard flight hflight).underway⟩ rfl rfl (by simp) (by simp) fun _ => rfl
  · next hrunning =>
    exact h.accept (by simpa [isRunning] using hrunning) source

/-- A cancellation keeps a session sound, with a script in flight or without. -/
theorem cancel (h : Sound s) : Sound s.cancel := by
  cases hflight : s.flight? with
  | none =>
    have hcoherent : s.cancel.IsCoherent := h.coherent.snoc (by
      rw [hflight]
      exact ⟨h.idle hflight, by simp⟩)
    exact ⟨hcoherent, fun _ => (underway_snoc_other _ rfl rfl).trans (h.idle hflight),
      fun _ hother => absurd (hflight.symm.trans hother) (by simp),
      fun _ hother => absurd (hflight.symm.trans hother) (by simp)⟩
  | some flight =>
    refine of_aboard hflight (h.aboard flight hflight).cancel ?_
    have hstage := h.stage flight hflight
    rw [StageFits] at hstage ⊢
    rw [Session.cancel, Session.note, reachedBy_snoc_other _ rfl]
    exact hstage

/-- Effects keep a session sound, with a script in flight or without. -/
theorem applyAll (h : Sound s) (effects : List Effect) : Sound (s.applyAll effects) := by
  induction effects generalizing s with
  | nil => exact h
  | cons effect effects ih =>
    rw [applyAll_cons]
    refine ih ?_
    cases effect with
    | record report => exact h.note trivial rfl rfl (by simp) (by simp) fun _ => rfl
    | cancel => exact h.cancel
    | start source => exact h.request source

/-- A script that goes on keeps its session sound. -/
theorem resume {deadline : Option Nat} (h : Sound s) (hresume : s.resume x deadline = some t) :
    Sound t := by
  have hcases := s.resumption x deadline
  generalize s.resume x deadline = r at hcases hresume
  cases hcases with
  | idle _ =>
    obtain rfl := Option.some.inj hresume
    exact h
  | @runs flight lines now ties hflight hahead _ =>
    have ha := h.aboard flight hflight
    have hlines : s.linesOf? flight.source = .ok (reachedBy flight.id s.story ++ lines) := by
      have hstage := h.stage flight hflight
      rw [StageFits] at hstage
      rw [Ahead] at hahead
      cases hs : flight.stage with
      | ready =>
        simp only [hs] at hstage hahead
        rw [hahead, hstage, List.nil_append]
      | asleep wake rest =>
        simp only [hs] at hstage hahead
        rw [hstage, hahead]
    exact (OnCourse.clocked ⟨ha, hlines⟩ now ties).runLines hresume
  | @missing flight cause hflight hlines =>
    obtain rfl := Option.some.inj hresume
    have ha := h.aboard flight hflight
    exact sound_finish ha.coherent ha.underway ha.source (Or.inl ⟨cause, hlines, rfl⟩)
  | @cut flight ties hflight hc =>
    obtain rfl := Option.some.inj hresume
    have ha := h.aboard flight hflight
    exact Aboard.finishCancelled (s := s.clocked s.now ties)
      ⟨ha.coherent, ha.underway, ha.inFlight, ha.source, ha.executed, ha.token, ha.unharmed⟩ hc
  | waits _ _ _ =>
    obtain rfl := Option.some.inj hresume
    exact h

theorem wait {deadline : Option Nat} (h : Sound s) (hwait : s.wait x deadline = some t) : Sound t :=
  (h.congr rfl rfl rfl rfl : Sound { s with waits := s.waits + 1 }).resume hwait

theorem await {ticket : Ticket} {outcome : Outcome} (h : Sound s)
    (hawait : s.await x ticket = some (outcome, t)) : Sound t :=
  await_invariant (P := Sound) (fun _ h hwait => h.wait hwait) h hawait

/-- Every step of a host keeps the session sound. -/
theorem take {step : HostStep} {answer : Answer} (h : Sound s)
    (htake : step.take x s = some (answer, t)) : Sound t :=
  take_invariant (P := Sound) (fun source h => h.request source) (fun h => h.cancel)
    (fun _ h hwait => h.wait hwait) (fun _ h => h.congr rfl rfl rfl rfl) h htake

/-- Any number of steps keeps the session sound. -/
theorem takeAll {steps : List HostStep} {answers : List Answer} (h : Sound s)
    (hsteps : takeAll x steps s = some (answers, t)) : Sound t :=
  takeAll_invariant take h hsteps

end Sound

end Session

end CommandConsole.Script
