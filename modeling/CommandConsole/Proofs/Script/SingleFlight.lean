import CommandConsole.Proofs.Script.Alike
import CommandConsole.Proofs.Script.Ending

/-!
# One script at a time

Whatever steps a host takes, and whatever the executed lines ask for meanwhile, the session has a
script in flight exactly while one that was accepted has not ended, and never more than one. A
request made meanwhile is rejected with one warning and goes unnoticed otherwise. When the outcome
of a script is delivered, the script is in flight no more.
-/

namespace CommandConsole.Script

/-- The story tells of one script at a time. -/
structure OneAtATime (story : List Happening) : Prop where
  atMostOne : ∀ {before after}, story = before ++ after → (underway before).length ≤ 1
  accepted : ∀ {before after script source}, story = before ++ .accepted script source :: after →
    underway before = []
  rejected : ∀ {before after source}, story = before ++ .rejected source :: after →
    ∃ script, underway before = [script]
  handed : ∀ {before after script line}, story = before ++ .handed script line :: after →
    underway before = [script]
  returned : ∀ {before after script panic?}, story = before ++ .returned script panic? :: after →
    underway before = [script]
  /-- All that is told of a script comes before all that is told of one accepted later. -/
  apart : (story.filterMap Happening.script?).Pairwise (· ≤ ·)
  /-- However a script ends, none is underway then. -/
  ended : ∀ {before after script source outcome},
    story = before ++ .ended script source outcome :: after →
      underway before = [script] ∧ underway (before ++ [.ended script source outcome]) = []
  endsOnce : (story.filterMap Happening.endedId?).Nodup

/-- Each happening fits what came before it, so the story tells of one script at a time. -/
theorem Coherent.oneAtATime {lines? : Source → Except ScriptError (List String)}
    {story : List Happening} (h : Coherent lines? story) : OneAtATime story where
  atMostOne := by
    rintro before after rfl
    exact h.prefix_of_append.length_underway_le_one
  accepted := by
    rintro before after script source rfl
    exact h.fits.1
  rejected := by
    rintro before after source rfl
    exact h.fits
  handed := by
    rintro before after script line rfl
    exact h.fits.1
  returned := by
    rintro before after script panic? rfl
    exact h.fits
  apart := h.pairwise_scripts
  ended := by
    rintro before after script source outcome rfl
    exact ⟨h.fits.1, underway_ended h.fits⟩
  endsOnce := h.nodup_endedIds

namespace Session

variable {α : Type} {x : Executor α} {s t : Session α}

/-- The session runs one script at a time. -/
structure SingleFlight (x : Executor α) (s : Session α) : Prop where
  story : OneAtATime s.story
  running : s.isRunning = true ↔ ∃ script, underway s.story = [script]
  /-- A request is accepted when no script is in flight. -/
  accepts : ∀ source, s.isRunning = false → ∃ t,
    s.request source = (.run s.accepted, t) ∧ t.isRunning = true ∧ t.log = s.log ∧
      t.story = s.story ++ [.accepted s.accepted source]
  /-- A request is rejected with one warning when a script is in flight. -/
  rejects : ∀ source, s.isRunning = true →
    s.request source = (.rejected s.waits, s.note (.rejected source)) ∧
      s.run x source = some (.rejected, s.note (.rejected source)) ∧
      (s.note (.rejected source)).log =
        s.log ++ [.shown (.warning "Another script is currently executing")]
  awaitRejected : ∀ {waits outcome t}, s.await x (.rejected waits) = some (outcome, t) →
    outcome = .rejected
  /-- A host cannot tell later whether a request was made that was rejected. -/
  unnoticed : ∀ source, s.isRunning = true →
    GoOnAlike (SameSince (s.story ++ [.rejected source]) s.story) x x (s.request source).2 s
  /-- Nor whether executed lines make any requests. -/
  unnoticedInside : GoOnAlike (EqualUpTo (!·.isRejection)) x (x.dropping Effect.isStart) s s
  /-- When the outcome of a script is delivered, no script is in flight but a later one. -/
  delivered : ∀ {id outcome t}, s.await x (.run id) = some (outcome, t) →
    (∃ source, .ended id source outcome ∈ t.story) ∧ ∀ flight ∈ t.flight?, id < flight.id
  /-- When a script was run to its end, none is in flight. -/
  ran : ∀ {source outcome t}, s.isRunning = false → s.run x source = some (outcome, t) →
    t.isRunning = false ∧ .ended s.accepted source outcome ∈ t.story
  /-- Where every line returns, every outcome is delivered. -/
  returns : x.Total → ∀ step : HostStep, step.IsIssued s →
    ∃ answer t, step.take x s = some (answer, t)

namespace Sound

/-- A script is in flight exactly when one is underway. -/
theorem isRunning_iff (h : Sound s) :
    s.isRunning = true ↔ ∃ script, underway s.story = [script] := by
  constructor
  · intro hrunning
    obtain ⟨flight, hflight⟩ := Option.isSome_iff_exists.mp hrunning
    exact ⟨flight.id, (h.aboard flight hflight).underway⟩
  · rintro ⟨script, hunder⟩
    obtain ⟨flight, hflight, -⟩ := h.exists_flight (hunder ▸ List.mem_singleton_self script)
    rw [isRunning, hflight, Option.isSome_some]

end Sound

/-- A request is accepted when no script is in flight. -/
theorem request_of_idle (source : Source) (hidle : s.isRunning = false) : ∃ t,
    s.request source = (.run s.accepted, t) ∧ t.isRunning = true ∧ t.log = s.log ∧
      t.story = s.story ++ [.accepted s.accepted source] := by
  have hlog : (s.story ++ [Happening.accepted s.accepted source]).flatMap Happening.events =
      s.log := by
    rw [List.flatMap_append, List.flatMap_singleton]
    exact List.append_nil _
  rw [request, if_neg (by simp [hidle])]
  exact ⟨_, rfl, rfl, hlog, rfl⟩

/-- A request is rejected with one warning when a script is in flight. -/
theorem request_of_running (source : Source) (hrunning : s.isRunning = true) :
    s.request source = (.rejected s.waits, s.note (.rejected source)) ∧
      s.run x source = some (.rejected, s.note (.rejected source)) ∧
      (s.note (.rejected source)).log =
        s.log ++ [.shown (.warning "Another script is currently executing")] := by
  have hrequest : s.request source = (.rejected s.waits, s.note (.rejected source)) := by
    rw [request, if_pos hrunning]
  refine ⟨hrequest, by rw [run, hrequest], ?_⟩
  rw [log, note, List.flatMap_append, List.flatMap_singleton]
  rfl

/-- A rejected request goes unnoticed. -/
theorem unnoticed (source : Source) (hrunning : s.isRunning = true) :
    GoOnAlike (SameSince (s.story ++ [.rejected source]) s.story) x x (s.request source).2 s := by
  have hR : Indifferent (SameSince (s.story ++ [.rejected source]) s.story) :=
    indifferent_sameSince (by simp [Happening.isAcceptance]) (by simp [Happening.result?])
  refine Alike.goOnAlike hR ?_
  rw [request, if_pos hrunning]
  exact ⟨rfl, sameSince_self _ _, fun _ => rfl⟩

/-- Requests that executed lines make go unnoticed. -/
theorem unnoticedInside (x : Executor α) (s : Session α) :
    GoOnAlike (EqualUpTo (!·.isRejection)) x (x.dropping Effect.isStart) s s := by
  have hR : Indifferent (EqualUpTo (!·.isRejection)) :=
    indifferent_equalUpTo (fun _ _ => rfl) (fun _ _ _ => rfl)
  have hdrop : DropsRejected Effect.isStart (EqualUpTo (!·.isRejection)) := by
    intro effect hstart
    cases effect with
    | start source =>
      refine ⟨source, rfl, fun {a b} hab => ?_⟩
      rw [EqualUpTo, List.filter_append, hab]
      simp [Happening.isRejection]
    | _ => simp [Effect.isStart] at hstart
  have hsame : Alike (EqualUpTo (!·.isRejection)) s s := ⟨rfl, rfl, fun _ => rfl⟩
  exact fun steps => hsame.takeAll hR hdrop steps

/-- A sound session runs one script at a time. -/
theorem Sound.singleFlight (h : Sound s) : SingleFlight x s where
  story := h.coherent.oneAtATime
  running := h.isRunning_iff
  accepts := request_of_idle
  rejects := request_of_running
  awaitRejected := by
    intro waits outcome t hawait
    rw [Session.await] at hawait
    split at hawait
    · obtain ⟨u, -, he⟩ := Option.map_eq_some_iff.mp hawait
      exact (Prod.mk.inj he).1.symm
    · exact (Prod.mk.inj (Option.some.inj hawait)).1.symm
  unnoticed := Session.unnoticed
  unnoticedInside := Session.unnoticedInside x s
  delivered := by
    intro id outcome t hawait
    obtain ⟨⟨source, hended⟩, -⟩ := await_run_eq_some hawait
    exact ⟨⟨source, hended⟩, (h.await hawait).lt_of_ended hended⟩
  ran := by
    intro source outcome t hidle hrun
    obtain ⟨hwait, hended⟩ := h.run_accepted hidle hrun
    exact ⟨by rw [isRunning, flight?_of_wait hwait, Option.isSome_none], hended⟩
  returns := fun hx _ hissued => take_isSome hx h hissued

/-- Whatever steps a host takes from the start, the session runs one script at a time. -/
theorem singleFlight_of_takeAll {own : α} {settings : ScriptSettings}
    {readFile : String → Option String} {waitWins : Nat → Bool} {steps : List HostStep}
    {answers : List Answer}
    (hsteps : takeAll x steps { new own settings readFile with waitWins } = some (answers, s)) :
    SingleFlight x s :=
  ((sound_new own settings readFile waitWins).takeAll hsteps).singleFlight

/-- The line `again` asks for another script, and the line `boom` panics. -/
def restless : Executor Unit where
  run line own := some
    { effects := if line = "again" then [.start (.lines ["y"])] else []
      panic? := if line = "boom" then some "boom" else none
      own }

theorem singleFlight_restless : ∃ s, takeAll restless
    [.spawn (.lines ["again", "pause(1)", "x"]), .run (.lines ["y"]), .sleep (.ofMilliseconds 10),
      .cancel, .await (.run 0), .run (.lines ["boom"]), .run (.file "missing")]
    { new () .default (fun _ => none) with waitWins := fun _ => true } =
      some ([.ticket (.run 0), .outcome .rejected, .done, .done, .outcome (.cancelled 1),
        .outcome (.failed "Error executing script: boom"),
        .outcome (.failed "Script file not found: missing")], s) ∧ SingleFlight restless s := by
  have hanswers : (takeAll restless
      [.spawn (.lines ["again", "pause(1)", "x"]), .run (.lines ["y"]), .sleep (.ofMilliseconds 10),
        .cancel, .await (.run 0), .run (.lines ["boom"]), .run (.file "missing")]
      { new () .default (fun _ => none) with waitWins := fun _ => true }).map Prod.fst =
        some [.ticket (.run 0), .outcome .rejected, .done, .done, .outcome (.cancelled 1),
          .outcome (.failed "Error executing script: boom"),
          .outcome (.failed "Script file not found: missing")] := by
    decide +kernel
  obtain ⟨⟨answers, s⟩, hsteps, rfl⟩ := Option.map_eq_some_iff.mp hanswers
  exact ⟨s, hsteps, singleFlight_of_takeAll hsteps⟩

end Session

end CommandConsole.Script
