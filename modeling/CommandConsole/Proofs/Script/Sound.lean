import CommandConsole.Proofs.Script.Run
import CommandConsole.Proofs.Script.Story

/-!
# Sound sessions

A session is sound when its story is coherent and tells the same of the script in flight as the
session's own fields: that it is underway, which lines it came to, how many were executed and
whether it was cancelled. A session is sound at its start, and everything a host does keeps it
sound.
-/

namespace CommandConsole.Script

/-- What an effect adds to the log while a script is in flight. -/
def Effect.eventsInFlight : Effect → List Event
  | .record report => [report]
  | .cancel => []
  | .start source => [.shown (Outcome.rejected.closing source)]

namespace Session

variable {α : Type}

/-- The story is coherent for the lines that the session's sources have. -/
def IsCoherent (s : Session α) : Prop :=
  Coherent (fun source => s.linesOf? source) s.story

/-- The flight is of the script that the session's story tells is underway. -/
structure Aboard (flight : Flight) (s : Session α) : Prop where
  coherent : s.IsCoherent
  underway : underway s.story = [flight.id]
  inFlight : s.flight?.map Flight.id = some flight.id
  source : .accepted flight.id flight.source ∈ s.story
  executed : flight.linesExecuted = returnsTo flight.id s.story
  token : s.cancelled = true ↔ .cancelAsked (some flight.id) ∈ s.story
  unharmed : Unharmed flight.id s.story

/-- The flight is aboard, and these are the lines that its script has not come to. -/
structure OnCourse (flight : Flight) (rest : List String) (s : Session α) : Prop
    extends Aboard flight s where
  lines : s.linesOf? flight.source = .ok (reachedBy flight.id s.story ++ rest)

/-- What a flight's stage says about the lines that its script came to. -/
def StageFits (flight : Flight) (s : Session α) : Prop :=
  match flight.stage with
  | .ready => reachedBy flight.id s.story = []
  | .asleep _ rest => s.linesOf? flight.source = .ok (reachedBy flight.id s.story ++ rest)

/-- The story is coherent and tells the same of the script in flight as the session's fields. -/
structure Sound (s : Session α) : Prop where
  coherent : s.IsCoherent
  idle : s.flight? = none → underway s.story = []
  aboard : ∀ flight, s.flight? = some flight → Aboard flight s
  stage : ∀ flight, s.flight? = some flight → StageFits flight s

theorem sound_new (own : α) (settings : ScriptSettings) (readFile : String → Option String)
    (waitWins : Nat → Bool) : Sound { new own settings readFile with waitWins } where
  coherent := .nil
  idle := fun _ => rfl
  aboard := fun _ h => absurd h (by simp [new])
  stage := fun _ h => absurd h (by simp [new])

namespace Aboard

variable {flight : Flight} {s : Session α} {happening : Happening}

theorem isRunning (h : Aboard flight s) : s.isRunning = true := by
  have hf := h.inFlight
  cases hflight : s.flight? with
  | none => simp [hflight] at hf
  | some _ => simp [Session.isRunning, hflight]

/-- The script may go on as long as it is not cancelled. -/
theorem underwayFreely (h : Aboard flight s) (hc : s.cancelled = false) :
    UnderwayFreely flight.id s.story :=
  ⟨h.underway, fun hmem => by simp [h.token.mpr hmem] at hc⟩

/-- A happening of no account for acceptance, cancellation and return leaves the flight aboard. -/
theorem note (h : Aboard flight s)
    (hfits : Fits (fun source => s.linesOf? source) s.story happening)
    (ha : happening.acceptedId? = none) (he : happening.endedId? = none)
    (hc : ∀ script?, happening ≠ .cancelAsked script?)
    (hr : ∀ script panic?, happening ≠ .returned script panic?) :
    Aboard flight (s.note happening) where
  coherent := Coherent.snoc h.coherent hfits
  underway := (underway_snoc_other _ ha he).trans h.underway
  inFlight := h.inFlight
  source := List.mem_append_left _ h.source
  executed := by
    have hne : happening ≠ .returned flight.id none := hr _ _
    simp [Session.note, returnsTo, List.count_append, hne, h.executed]
  token := by
    have hne : Happening.cancelAsked (some flight.id) ≠ happening := (hc _).symm
    simp [Session.note, h.token, hne]
  unharmed := fun text hmem => by
    rcases List.mem_append.mp hmem with hmem | hmem
    · exact h.unharmed text hmem
    · exact hr _ _ (List.mem_singleton.mp hmem).symm

theorem note_reached (h : Aboard flight s) (hc : s.cancelled = false) (line : String) :
    Aboard flight (s.note (.reached flight.id line)) :=
  h.note (h.underwayFreely hc) rfl rfl (by simp) (by simp)

theorem note_paused (h : Aboard flight s) (hc : s.cancelled = false) (announcement : Message) :
    Aboard flight (s.note (.paused flight.id announcement)) :=
  h.note (h.underwayFreely hc) rfl rfl (by simp) (by simp)

theorem note_handed (h : Aboard flight s) (hc : s.cancelled = false) (line : String) :
    Aboard flight (s.note (.handed flight.id line)) :=
  h.note (h.underwayFreely hc) rfl rfl (by simp) (by simp)

/-- Asking for a cancellation is on the story and on the token. -/
theorem cancel (h : Aboard flight s) : Aboard flight s.cancel where
  coherent := Coherent.snoc h.coherent (by
    rw [h.inFlight]
    exact ⟨h.underway, fun script hscript => by
      obtain rfl : flight.id = script := by simpa using hscript
      exact h.unharmed⟩)
  underway := (underway_snoc_other _ rfl rfl).trans h.underway
  inFlight := h.inFlight
  source := List.mem_append_left _ h.source
  executed := by simp [Session.cancel, Session.note, returnsTo, List.count_append, h.executed]
  token := by simp [Session.cancel, Session.note, h.inFlight]
  unharmed := fun text hmem => by
    rcases List.mem_append.mp hmem with hmem | hmem
    · exact h.unharmed text hmem
    · simp at hmem

/-- A request made meanwhile is rejected. -/
theorem request (h : Aboard flight s) (source : Source) :
    s.request source = (.rejected s.waits, s.note (.rejected source)) := by
  rw [Session.request, if_pos h.isRunning]

/-- No effect of an executed line throws the flight off. -/
theorem apply (h : Aboard flight s) (effect : Effect) : Aboard flight (s.apply effect) := by
  cases effect with
  | record report => exact h.note trivial rfl rfl (by simp) (by simp)
  | cancel => exact h.cancel
  | start source =>
    rw [Session.apply, h.request]
    exact h.note ⟨_, h.underway⟩ rfl rfl (by simp) (by simp)

theorem applyAll (h : Aboard flight s) (effects : List Effect) :
    Aboard flight (s.applyAll effects) := by
  induction effects generalizing s with
  | nil => exact h
  | cons effect effects ih => exact ih (h.apply effect)

/-- A return without a panic is counted. -/
theorem note_returned (h : Aboard flight s) :
    Aboard { flight with linesExecuted := flight.linesExecuted + 1 }
      (s.note (.returned flight.id none)) where
  coherent := Coherent.snoc h.coherent h.underway
  underway := (underway_snoc_other _ rfl rfl).trans h.underway
  inFlight := h.inFlight
  source := List.mem_append_left _ h.source
  executed := by simp [Session.note, returnsTo, List.count_append, h.executed]
  token := by simp [Session.note, h.token]
  unharmed := fun text hmem => by
    rcases List.mem_append.mp hmem with hmem | hmem
    · exact h.unharmed text hmem
    · simp at hmem

end Aboard

section Effects

variable (s : Session α) (effects : List Effect)

theorem applyAll_cons (effect : Effect) :
    s.applyAll (effect :: effects) = (s.apply effect).applyAll effects := rfl

/-- Effects change nothing but the story, the script in flight and the token. -/
theorem applyAll_eq : ∃ story flight? cancelled,
    s.applyAll effects = { s with story, flight?, cancelled } := by
  induction effects generalizing s with
  | nil => exact ⟨s.story, s.flight?, s.cancelled, rfl⟩
  | cons effect effects ih =>
    have hstep : ∃ story flight? cancelled,
        s.apply effect = { s with story, flight?, cancelled } := by
      cases effect with
      | record report => exact ⟨_, _, _, rfl⟩
      | cancel => exact ⟨_, _, _, rfl⟩
      | start source =>
        rw [apply, request]
        split <;> exact ⟨_, _, _, rfl⟩
    obtain ⟨story, flight?, cancelled, hstep⟩ := hstep
    obtain ⟨story', flight?', cancelled', hrest⟩ := ih (s.apply effect)
    exact ⟨story', flight?', cancelled', by rw [applyAll_cons, hrest, hstep]⟩

/-- Effects change neither the settings nor the files. -/
theorem settings_readFile_applyAll :
    (s.applyAll effects).settings = s.settings ∧ (s.applyAll effects).readFile = s.readFile := by
  obtain ⟨story, flight?, cancelled, he⟩ := s.applyAll_eq effects
  rw [he]
  exact ⟨rfl, rfl⟩

/-- Effects do not change the state of the executor either. -/
theorem own_applyAll : (s.applyAll effects).own = s.own := by
  obtain ⟨story, flight?, cancelled, he⟩ := s.applyAll_eq effects
  rw [he]

/-- Effects take no time. -/
theorem now_applyAll : (s.applyAll effects).now = s.now := by
  obtain ⟨story, flight?, cancelled, he⟩ := s.applyAll_eq effects
  rw [he]

/-- Effects tell only of reports, requests and cancellations. -/
theorem filterMap_story_applyAll {β : Type} {f : Happening → Option β}
    (hreported : ∀ report, f (.reported report) = none)
    (hasked : ∀ script?, f (.cancelAsked script?) = none)
    (haccepted : ∀ script source, f (.accepted script source) = none)
    (hrejected : ∀ source, f (.rejected source) = none) :
    (s.applyAll effects).story.filterMap f = s.story.filterMap f := by
  induction effects generalizing s with
  | nil => rfl
  | cons effect effects ih =>
    refine (ih (s.apply effect)).trans ?_
    cases effect with
    | record report => simp [apply, note, hreported]
    | cancel => simp [apply, cancel, note, hasked]
    | start source =>
      rw [apply, request]
      split
      · simp [note, hrejected]
      · simp [note, haccepted]

end Effects

/-- Effects that cancel nothing add their events, and the script stays in flight. -/
theorem applyAll_inFlight {s : Session α} {effects : List Effect} (hrunning : s.isRunning = true)
    (hcalm : Effect.cancel ∉ effects) :
    (s.applyAll effects).isRunning = true ∧ (s.applyAll effects).cancelled = s.cancelled ∧
      (s.applyAll effects).log = s.log ++ effects.flatMap Effect.eventsInFlight := by
  induction effects generalizing s with
  | nil => exact ⟨hrunning, rfl, (List.append_nil _).symm⟩
  | cons effect effects ih =>
    obtain ⟨hne, hcalm⟩ := not_or.mp (List.mem_cons.not.mp hcalm)
    have hstep : (s.apply effect).isRunning = true ∧ (s.apply effect).cancelled = s.cancelled ∧
        (s.apply effect).log = s.log ++ effect.eventsInFlight := by
      cases effect with
      | record report => exact ⟨hrunning, rfl, log_note _ s⟩
      | cancel => exact absurd rfl hne
      | start source =>
        -- the script that executes the line is in flight itself
        rw [apply, request, if_pos hrunning]
        exact ⟨hrunning, rfl, log_note _ s⟩
    obtain ⟨hflying, hcancelled, hlog⟩ := ih hstep.1 hcalm
    refine ⟨hflying, hcancelled.trans hstep.2.1, ?_⟩
    rw [applyAll_cons, hlog, hstep.2.2, List.flatMap_cons, List.append_assoc]

/-- A line that cancels nothing adds its echo and the events of its effects, and the script stays in
flight. -/
theorem perform_inFlight {s : Session α} {x : Executor α} (flight : Flight) {line : String}
    {effects : List Effect} {panic? : Option String} {own : α} (hrunning : s.isRunning = true)
    (hcalm : Effect.cancel ∉ effects) (hrun : x.run line s.own = some ⟨effects, panic?, own⟩) :
    ∃ t, s.perform x flight line = some (panic?, t) ∧ t.isRunning = true ∧
      t.cancelled = s.cancelled ∧ t.settings = s.settings ∧ t.own = own ∧ t.now = s.now ∧
      t.log = s.log ++ .shown (echo line) :: .executing flight.id line ::
        effects.flatMap Effect.eventsInFlight := by
  -- the effects are applied to the session in which the line was handed over
  let handed : Session α := { s.note (.handed flight.id line) with own }
  have hhanded : handed.log = s.log ++ [.shown (echo line), .executing flight.id line] :=
    log_note _ s
  obtain ⟨hflying, hcancelled, hlog⟩ := applyAll_inFlight (s := handed) hrunning hcalm
  refine ⟨(handed.applyAll effects).note (.returned flight.id panic?), ?_, hflying, hcancelled,
    (handed.settings_readFile_applyAll effects).1, handed.own_applyAll effects,
    handed.now_applyAll effects, ?_⟩
  · have hperform : s.perform x flight line = (x.run line s.own).map fun reaction =>
        (reaction.panic?, ({ s.note (.handed flight.id line) with
          own := reaction.own }.applyAll reaction.effects).note
            (.returned flight.id reaction.panic?)) := rfl
    rw [hperform, hrun]
    rfl
  · rw [log_note, hlog, hhanded]
    simp [Happening.events]

/-- The lines of a source depend on the files alone. -/
theorem linesOf?_congr {s t : Session α} (h : t.readFile = s.readFile) (source : Source) :
    t.linesOf? source = s.linesOf? source := by
  cases source with
  | lines lines => rfl
  | file path => rw [linesOf?, linesOf?, h]

/-- Handing a line over leaves the flight aboard until the return is told. -/
theorem Aboard.perform {flight : Flight} {s t : Session α} {x : Executor α} {line : String}
    {panic? : Option String} (h : Aboard flight s) (hc : s.cancelled = false)
    (hp : s.perform x flight line = some (panic?, t)) :
    ∃ u, Aboard flight u ∧ reachedBy flight.id u.story = reachedBy flight.id s.story ∧
      u.readFile = s.readFile ∧ t = u.note (.returned flight.id panic?) := by
  obtain ⟨reaction, -, he⟩ := Option.map_eq_some_iff.mp hp
  obtain ⟨rfl, rfl⟩ := Prod.mk.inj he
  have hhanded := h.note_handed hc line
  have hown : Aboard flight { s.note (.handed flight.id line) with own := reaction.own } :=
    ⟨hhanded.coherent, hhanded.underway, hhanded.inFlight, hhanded.source, hhanded.executed,
      hhanded.token, hhanded.unharmed⟩
  refine ⟨_, hown.applyAll reaction.effects, ?_, (settings_readFile_applyAll _ _).2, rfl⟩
  exact (filterMap_story_applyAll _ _ (fun _ => rfl) (fun _ => rfl) (fun _ _ => rfl)
    (fun _ => rfl)).trans (reachedBy_snoc_other _ rfl)

section Finish

variable {flight : Flight} {rest : List String} {s : Session α}

/-- Ending a script with an outcome that is borne out leaves a sound session. -/
theorem sound_finish {outcome : Outcome} (hcoherent : s.IsCoherent)
    (hunderway : underway s.story = [flight.id])
    (hsource : .accepted flight.id flight.source ∈ s.story)
    (hverdict : Verdict (fun source => s.linesOf? source) flight.id flight.source s.story outcome) :
    Sound (s.finish flight outcome) where
  coherent := Coherent.snoc hcoherent ⟨hunderway, hsource, hverdict⟩
  idle := fun _ => by
    have hfits : Fits (fun source => s.linesOf? source) s.story
        (.ended flight.id flight.source outcome) := ⟨hunderway, hsource, hverdict⟩
    exact Coherent.underway_ended hfits
  aboard := fun _ h => absurd h (by simp [finish, note])
  stage := fun _ h => absurd h (by simp [finish, note])

theorem Aboard.finishCancelled (h : Aboard flight s) (hc : s.cancelled = true) :
    Sound (s.finishCancelled flight) :=
  sound_finish h.coherent h.underway h.source ⟨h.executed, h.token.mp hc⟩

theorem OnCourse.finishCompleted (h : OnCourse flight [] s) :
    Sound (s.finish flight (.completed flight.linesExecuted)) :=
  sound_finish h.coherent h.underway h.source ⟨h.executed, by simpa using h.lines⟩

theorem OnCourse.clocked (h : OnCourse flight rest s) (now ties : Nat) :
    OnCourse flight rest (s.clocked now ties) :=
  ⟨⟨h.coherent, h.underway, h.inFlight, h.source, h.executed, h.token, h.unharmed⟩, h.lines⟩

theorem OnCourse.reach {line : String} (h : OnCourse flight (line :: rest) s)
    (hc : s.cancelled = false) : OnCourse flight rest (s.note (.reached flight.id line)) := by
  refine ⟨h.note_reached hc line, ?_⟩
  have hreached : reachedBy flight.id (s.story ++ [.reached flight.id line]) ++ rest =
      reachedBy flight.id s.story ++ line :: rest := by simp
  exact h.lines.trans (congrArg Except.ok hreached.symm)

theorem OnCourse.pause (h : OnCourse flight rest s) (hc : s.cancelled = false)
    (announcement : Message) : OnCourse flight rest (s.note (.paused flight.id announcement)) := by
  refine ⟨h.note_paused hc announcement, h.lines.trans ?_⟩
  rw [note, reachedBy_snoc_other _ rfl]

/-- A script left waiting is sound. -/
theorem OnCourse.park (h : OnCourse flight rest s) (wake : Nat) :
    Sound (s.park flight wake rest) where
  coherent := h.coherent
  idle := fun hnone => absurd hnone (by simp [Session.park])
  aboard := fun parked hparked => by
    obtain rfl := Option.some.inj hparked
    exact ⟨h.coherent, h.underway, rfl, h.source, h.executed, h.token, h.unharmed⟩
  stage := fun parked hparked => by
    obtain rfl := Option.some.inj hparked
    exact h.lines

end Finish

/-- Running the lines of a script keeps the session sound. -/
theorem OnCourse.runLines {flight : Flight} {lines : List String} {s t : Session α}
    {x : Executor α} {deadline : Option Nat} (h : OnCourse flight lines s)
    (hrun : Session.runLines x deadline flight lines s = some t) : Sound t := by
  refine runLines_invariant (P := OnCourse) ?_ ?_ ?_ ?_ ?_ ?_ ?_ ?_ h hrun
  · intro flight rest s now ties _ h
    exact h.clocked now ties
  · intro flight line rest s h hc _
    exact h.reach hc
  · intro flight line rest s announcement length h hc _
    exact (h.reach hc).pause hc announcement
  · intro flight line rest s t h hc _ hperform
    have hreach := h.reach hc
    obtain ⟨u, hu, hreached, hfile, rfl⟩ := hreach.toAboard.perform hc hperform
    refine ⟨hu.note_returned, ?_⟩
    rw [note, reachedBy_snoc_other _ rfl, hreached]
    exact (linesOf?_congr hfile _).trans hreach.lines
  · intro flight line rest s text t h hc _ hperform
    obtain ⟨u, hu, -, -, rfl⟩ := (h.reach hc).toAboard.perform hc hperform
    refine sound_finish (Coherent.snoc hu.coherent hu.underway)
      ((underway_snoc_other _ rfl rfl).trans hu.underway) (List.mem_append_left _ hu.source)
      (Or.inr ⟨text, ?_, rfl⟩)
    exact List.mem_append_right _ (List.mem_singleton.mpr rfl)
  · intro flight s h
    exact h.finishCompleted
  · intro flight rest s h hc
    exact h.toAboard.finishCancelled hc
  · intro flight rest s wake h _ _
    exact h.park wake

end Session

end CommandConsole.Script
