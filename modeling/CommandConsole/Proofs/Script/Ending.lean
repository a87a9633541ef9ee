import CommandConsole.Proofs.Script.Host

/-!
# Runs that come to an end

A host that waits for as long as it takes sees the script in flight end, and what it awaits is the
outcome with which the script ended. Where every line returns, every step of a host does, unless it
awaits a script that was never accepted.
-/

namespace CommandConsole.Script

variable {α : Type}

/-- Every line returns. -/
def Executor.Total (x : Executor α) : Prop :=
  ∀ line own, (x.run line own).isSome = true

/-- Only outcomes of scripts that were accepted are awaited. -/
def HostStep.IsIssued (s : Session α) : HostStep → Prop
  | await (.run id) => id < s.accepted
  | _ => True

namespace Session

variable {x : Executor α} {s t : Session α}

theorem mem_endedIds_iff_lookup {id : Nat} :
    (s.results.lookup id).isSome = true ↔ id ∈ s.story.filterMap Happening.endedId? := by
  have hids : (s.results.map Prod.fst).reverse = s.story.filterMap Happening.endedId? := by
    rw [results, List.map_reverse, List.reverse_reverse, List.map_filterMap]
    congr 1
    funext happening
    cases happening <;> rfl
  rw [← hids, List.mem_reverse, List.mem_map, List.lookup_isSome_iff]
  constructor
  · rintro ⟨p, hp, he⟩
    exact ⟨p, hp, (beq_iff_eq.mp he).symm⟩
  · rintro ⟨p, hp, he⟩
    exact ⟨p, hp, beq_iff_eq.mpr he.symm⟩

/-- The result of a script is the outcome with which it ended. -/
theorem ended_of_lookup {id : Nat} {outcome : Outcome} (h : s.results.lookup id = some outcome) :
    ∃ source, .ended id source outcome ∈ s.story := by
  obtain ⟨before, after, hresults, -⟩ := List.lookup_eq_some_iff.mp h
  have hmem : (id, outcome) ∈ s.results := by simp [hresults]
  obtain ⟨happening, hstory, he⟩ := List.mem_filterMap.mp (List.mem_reverse.mp hmem)
  cases happening with
  | ended script source outcome' =>
    obtain ⟨rfl, rfl⟩ := Prod.mk.inj (Option.some.inj he)
    exact ⟨source, hstory⟩
  | _ => simp [Happening.result?] at he

/-- A script has ended, and none is in flight. -/
def HasEnded (id : Nat) (s : Session α) : Prop :=
  s.flight? = none ∧ id ∈ s.story.filterMap Happening.endedId?

theorem hasEnded_finish (flight : Flight) (outcome : Outcome) (s : Session α) :
    HasEnded flight.id (s.finish flight outcome) :=
  ⟨rfl, by simp [finish, note, Happening.endedId?]⟩

/-- A script that is waited for runs to its end. -/
theorem hasEnded_runLines {flight : Flight} {lines : List String}
    (hrun : runLines x none flight lines s = some t) : HasEnded flight.id t := by
  refine runLines_invariant (P := fun other _ _ => other.id = flight.id) (fun _ _ _ h => h)
    (fun h _ _ => h) (fun h _ _ => h) (fun h _ _ _ => h) ?_ ?_ ?_ ?_ rfl hrun
  · intro other line rest s text t h _ _ _
    exact h ▸ hasEnded_finish other _ t
  · intro other s h
    exact h ▸ hasEnded_finish other _ s
  · intro other rest s h _
    exact h ▸ hasEnded_finish other _ s
  · intro other rest s wake _ _ hlate
    simp [isBefore] at hlate

theorem hasEnded_resume {flight : Flight} (hflight : s.flight? = some flight)
    (hresume : s.resume x none = some t) : HasEnded flight.id t := by
  have hcases := s.resumption x none
  generalize s.resume x none = r at hcases hresume
  cases hcases with
  | idle hnone => simp [hflight] at hnone
  | runs now ties hother _ _ =>
    obtain rfl := Option.some.inj (hflight.symm.trans hother)
    exact hasEnded_runLines hresume
  | missing hother _ | cut _ hother _ =>
    obtain rfl := Option.some.inj (hflight.symm.trans hother)
    obtain rfl := Option.some.inj hresume
    exact hasEnded_finish flight _ _
  | waits _ _ hlate => simp [isBefore] at hlate

/-- A host that waits for as long as it takes leaves no script in flight. -/
theorem flight?_of_wait (hwait : s.wait x none = some t) : t.flight? = none := by
  obtain ⟨own, settings, readFile, now, story, flight?, cancelled, waits, waitWins, ties⟩ := s
  cases flight? with
  | none =>
    obtain rfl := Option.some.inj hwait
    rfl
  | some flight => exact (hasEnded_resume rfl hwait).1

/-- An awaited outcome is the one with which the script ended, before the host awaits it or while.
-/
theorem await_run_eq_some {id : Nat} {outcome : Outcome}
    (hawait : s.await x (.run id) = some (outcome, t)) :
    (∃ source, .ended id source outcome ∈ t.story) ∧ (s = t ∨ s.wait x none = some t) := by
  rw [await] at hawait
  split at hawait
  · next outcome' hlookup =>
    obtain ⟨rfl, rfl⟩ := Prod.mk.inj (Option.some.inj hawait)
    exact ⟨ended_of_lookup hlookup, Or.inl rfl⟩
  · obtain ⟨u, hwait, hdelivered⟩ := Option.bind_eq_some_iff.mp hawait
    obtain ⟨found, hfound, he⟩ := Option.map_eq_some_iff.mp hdelivered
    obtain ⟨rfl, rfl⟩ := Prod.mk.inj he
    exact ⟨ended_of_lookup hfound, Or.inr hwait⟩

/-- A script in flight was accepted after every script that has ended. -/
theorem Sound.lt_of_ended (h : Sound s) {id : Nat} {source : Source} {outcome : Outcome}
    (hended : .ended id source outcome ∈ s.story) : ∀ flight ∈ s.flight?, id < flight.id := by
  intro flight hflight
  have hmem : id ∈ s.story.filterMap Happening.endedId? :=
    List.mem_filterMap.mpr ⟨_, hended, rfl⟩
  have hunder : flight.id ∈ underway s.story := by simp [(h.aboard flight hflight).underway]
  have hlast := h.coherent.succ_of_mem_underway hunder
  have hlt := h.coherent.lt_of_mem_endedIds hmem
  have hne : id ≠ flight.id := by
    rintro rfl
    simpa [hmem] using (List.mem_filter.mp hunder).2
  omega

/-- The result of the script in flight is still open. -/
theorem Sound.lookup_eq_none (h : Sound s) {flight : Flight} (hflight : s.flight? = some flight) :
    s.results.lookup flight.id = none := by
  cases hlookup : s.results.lookup flight.id with
  | none => rfl
  | some outcome =>
    obtain ⟨source, hended⟩ := ended_of_lookup hlookup
    exact absurd (h.lt_of_ended hended flight hflight) (Nat.lt_irrefl _)

/-- The result of a script that ends is known at once. -/
theorem lookup_finish (flight : Flight) (outcome : Outcome) (s : Session α) :
    (s.finish flight outcome).results.lookup flight.id = some outcome := by
  simp [results, finish, note, Happening.result?]

/-- A script that is run while none is in flight is waited for until it ends. -/
theorem Sound.run_accepted (h : Sound s) {source : Source} {outcome : Outcome}
    (hidle : s.isRunning = false) (hrun : s.run x source = some (outcome, t)) :
    (s.request source).2.wait x none = some t ∧ .ended s.accepted source outcome ∈ t.story := by
  have hrequested := h.request source
  rw [Session.run] at hrun
  rw [Session.request, if_neg (by simp [hidle])] at hrequested hrun ⊢
  obtain ⟨⟨source', hended⟩, rfl | hwait⟩ := await_run_eq_some hrun
  · exact absurd (hrequested.lt_of_ended hended _ rfl) (Nat.lt_irrefl _)
  · have ht := hrequested.await hrun
    have haccepted : .accepted s.accepted source ∈ t.story :=
      (prefix_await List.prefix_rfl hrun).subset
        (List.mem_append_right _ (List.mem_singleton_self _))
    obtain rfl := ht.coherent.source_unique haccepted (ht.coherent.accepted_of_ended hended)
    exact ⟨hwait, hended⟩

/-- The outcome of a script that ends while the host awaits it is delivered. -/
theorem await_of_wait {id : Nat} {outcome : Outcome} (hopen : s.results.lookup id = none)
    (hwait : s.wait x none = some t) (hfound : t.results.lookup id = some outcome) :
    s.await x (.run id) = some (outcome, t) := by
  rw [await, hopen]
  simp only [hwait, Option.bind_some, hfound, Option.map_some]

/-- The flight of a script that is accepted. -/
def departure (source : Source) (s : Session α) : Flight :=
  ⟨s.accepted, source, 0, .ready⟩

/-- The session in which a script that is run comes to its lines. -/
def departed (source : Source) (s : Session α) : Session α :=
  { { s with flight? := some (s.departure source), cancelled := false }.note
      (.accepted s.accepted source) with waits := s.waits + 1 }

/-- A script that comes to an end, once it was accepted, is run to that end. -/
theorem Sound.run_of_resume (h : Sound s) (hidle : s.isRunning = false) {source : Source}
    {outcome : Outcome} (hresume : (s.departed source).resume x none =
      some (t.finish (s.departure source) outcome)) :
    s.run x source = some (outcome, t.finish (s.departure source) outcome) := by
  have hsound := h.request source
  rw [Session.run]
  rw [Session.request, if_neg (by simp [hidle])] at hsound ⊢
  have hopen : List.lookup (s.departure source).id _ = none := hsound.lookup_eq_none rfl
  exact await_of_wait hopen hresume (lookup_finish (s.departure source) outcome t)

/-- A script whose lines come to an end is run to that end. -/
theorem Sound.run_eq_some (h : Sound s) (hidle : s.isRunning = false) {source : Source}
    {lines : List String} (hlines : s.linesOf? source = .ok lines) {outcome : Outcome}
    (hrun : runLines x none (s.departure source) lines (s.departed source) =
      some (t.finish (s.departure source) outcome)) :
    s.run x source = some (outcome, t.finish (s.departure source) outcome) := by
  have hflight : (s.departed source).flight? = some (s.departure source) := rfl
  refine h.run_of_resume hidle ?_
  rw [resume_ready hflight rfl, linesOf?_congr (s := s) (t := s.departed source) rfl]
  simp only [departure, hlines]
  exact hrun

/-- A script whose lines cannot be had fails at once. -/
theorem Sound.run_eq_failed (h : Sound s) (hidle : s.isRunning = false) {source : Source}
    {cause : ScriptError} (hmissing : s.linesOf? source = .error cause) :
    s.run x source = some (.failed cause.message,
      (s.departed source).finish (s.departure source) (.failed cause.message)) := by
  have hflight : (s.departed source).flight? = some (s.departure source) := rfl
  refine h.run_of_resume hidle ?_
  rw [resume_ready hflight rfl, linesOf?_congr (s := s) (t := s.departed source) rfl]
  simp only [departure, hmissing]

section Total

theorem perform_isSome (hx : x.Total) (flight : Flight) (line : String) (s : Session α) :
    ∃ panic? t, s.perform x flight line = some (panic?, t) := by
  obtain ⟨reaction, hreaction⟩ := Option.isSome_iff_exists.mp (hx line s.own)
  rw [perform, show (s.note (.handed flight.id line)).own = s.own from rfl, hreaction]
  exact ⟨_, _, rfl⟩

/-- Where every line returns, running the lines of a script does. -/
theorem runLines_isSome (hx : x.Total) (deadline : Option Nat) (flight : Flight)
    (lines : List String) (s : Session α) : ∃ t, runLines x deadline flight lines s = some t := by
  induction lines generalizing flight s with
  | nil => exact ⟨_, rfl⟩
  | cons line rest ih =>
    have hgoes : ∀ (flight : Flight) (wait : Wait α),
        ∃ t, goOn x deadline flight rest wait = some t := by
      rintro flight (u | u | ⟨wake, u⟩)
      · exact ih flight u
      · exact ⟨_, rfl⟩
      · exact ⟨_, rfl⟩
    by_cases hc : s.cancelled = true
    · exact ⟨_, runLines_cancelled hc⟩
    · rw [Bool.not_eq_true] at hc
      cases hstep : stepOf s.settings line with
      | skip =>
        rw [runLines_skip hc hstep]
        exact ih flight _
      | pause announcement length =>
        rw [runLines_pause hc hstep]
        exact hgoes _ _
      | command =>
        obtain ⟨panic?, t, hperform⟩ :=
          perform_isSome hx flight line (s.note (.reached flight.id line))
        rw [runLines_command hc hstep, hperform, Option.bind_some]
        cases panic? with
        | none => exact hgoes _ _
        | some text => exact ⟨_, rfl⟩

theorem resume_isSome (hx : x.Total) (deadline : Option Nat) (s : Session α) :
    ∃ t, s.resume x deadline = some t := by
  have hcases := s.resumption x deadline
  generalize s.resume x deadline = r at hcases
  cases hcases with
  | runs now ties _ _ _ => exact runLines_isSome hx deadline _ _ _
  | _ => exact ⟨_, rfl⟩

theorem wait_isSome (hx : x.Total) (deadline : Option Nat) (s : Session α) :
    ∃ t, s.wait x deadline = some t :=
  resume_isSome hx deadline _

/-- Where every line returns, the outcome of every accepted script is delivered. -/
theorem await_run_isSome (hx : x.Total) (h : s.Sound) {id : Nat} (hlt : id < s.accepted) :
    ∃ outcome t, s.await x (.run id) = some (outcome, t) := by
  rw [await]
  cases hlookup : s.results.lookup id with
  | some outcome => exact ⟨outcome, s, rfl⟩
  | none =>
    have hnot : id ∉ s.story.filterMap Happening.endedId? := fun hmem => by
      have hsome := mem_endedIds_iff_lookup.mpr hmem
      simp [hlookup] at hsome
    obtain ⟨flight, hflight, rfl⟩ :=
      h.exists_flight ((h.coherent.mem_underway_or_ended hlt).resolve_right hnot)
    obtain ⟨t, hwait⟩ := wait_isSome hx none s
    have hended : HasEnded flight.id t :=
      hasEnded_resume (s := { s with waits := s.waits + 1 }) hflight hwait
    obtain ⟨outcome, houtcome⟩ :=
      Option.isSome_iff_exists.mp (mem_endedIds_iff_lookup.mpr hended.2)
    refine ⟨outcome, t, ?_⟩
    rw [hwait, Option.bind_some, houtcome, Option.map_some]

theorem run_isSome (hx : x.Total) (h : s.Sound) (source : Source) :
    ∃ outcome t, s.run x source = some (outcome, t) := by
  have hrequested := h.request source
  rw [run]
  by_cases hrunning : s.isRunning = true
  · rw [request, if_pos hrunning]
    exact ⟨_, _, rfl⟩
  · rw [request, if_neg hrunning] at hrequested ⊢
    exact await_run_isSome hx hrequested (by simp [accepted, note, Happening.isAcceptance])

/-- Where every line returns, so does every step of a host that awaits only accepted scripts. -/
theorem take_isSome (hx : x.Total) (h : s.Sound) {step : HostStep} (hissued : step.IsIssued s) :
    ∃ answer t, step.take x s = some (answer, t) := by
  cases step with
  | run source =>
    obtain ⟨outcome, t, hrun⟩ := run_isSome hx h source
    exact ⟨.outcome outcome, t, by rw [HostStep.take, hrun]; rfl⟩
  | spawn source => exact ⟨_, _, rfl⟩
  | cancel => exact ⟨_, _, rfl⟩
  | sleep length =>
    rw [HostStep.take, sleep]
    split
    · exact ⟨_, _, rfl⟩
    · obtain ⟨t, hwait⟩ := wait_isSome hx (some (s.now + length.wait)) s
      simp only [hwait]
      exact ⟨_, _, rfl⟩
  | await ticket =>
    cases ticket with
    | rejected waits =>
      rw [HostStep.take, await]
      split
      · obtain ⟨t, hwait⟩ := wait_isSome hx (some s.now) s
        rw [hwait]
        exact ⟨_, _, rfl⟩
      · exact ⟨_, _, rfl⟩
    | run id =>
      obtain ⟨outcome, t, hawait⟩ := await_run_isSome hx h hissued
      exact ⟨.outcome outcome, t, by rw [HostStep.take, hawait]; rfl⟩
  | waitIdle =>
    rw [HostStep.take, waitIdle]
    split
    · obtain ⟨t, hwait⟩ := wait_isSome hx none s
      rw [hwait]
      exact ⟨_, _, rfl⟩
    · exact ⟨_, _, rfl⟩

end Total

end Session

end CommandConsole.Script
