import CommandConsole.Proofs.Script.Plan

/-!
# Cancelling scripts

A script that is cancelled comes to no further line, announces no further pause and hands nothing
over any more. It ends at the next wait of its host, before any time passes, and if it had not come
to all of its lines it ends as cancelled. Up to then it carried out the first part of its plan. Once
no script is in flight, nothing of what comes depends on whether a cancellation was asked for.
-/

namespace CommandConsole.Script

/-- The script goes on: it comes to a line, announces a pause or hands a line over. -/
def Happening.goesOn (script : Nat) : Happening → Bool
  | reached other _ | paused other _ | handed other _ => other == script
  | _ => false

/-- How a script ended. -/
def Happening.outcome? (script : Nat) : Happening → Option Outcome
  | ended other _ outcome => if other = script then some outcome else none
  | _ => none

/-- How often a script ended, and how. -/
def outcomesOf (script : Nat) (story : List Happening) : List Outcome :=
  story.filterMap (Happening.outcome? script)

section Happening

variable {happening : Happening} {script : Nat}

theorem spokenBy_eq_nil (hgoes : happening.goesOn script = false)
    (hended : happening.endedId? ≠ some script) : happening.spokenBy script = [] := by
  cases happening with
  | paused other _ | handed other _ =>
    have hne : other ≠ script := by simpa [Happening.goesOn] using hgoes
    simp [Happening.spokenBy, hne]
  | ended other source outcome =>
    have hne : other ≠ script := fun he => hended (congrArg some he)
    simp [Happening.spokenBy, hne]
  | _ => rfl

theorem reachedLine?_eq_none (hgoes : happening.goesOn script = false) :
    happening.reachedLine? script = none := by
  cases happening with
  | reached other line =>
    have hne : other ≠ script := by simpa [Happening.goesOn] using hgoes
    simp [Happening.reachedLine?, hne]
  | _ => rfl

theorem goesOn_eq_false (hof : happening.script? ≠ some script) :
    happening.goesOn script = false := by
  cases happening with
  | reached other _ | paused other _ | handed other _ =>
    exact beq_false_of_ne fun he => hof (congrArg some he)
  | _ => rfl

theorem endedId?_ne (hof : happening.script? ≠ some script) : happening.endedId? ≠ some script := by
  cases happening with
  | ended other source outcome => exact hof
  | _ => simp [Happening.endedId?]

theorem outcomesOf_append (before after : List Happening) :
    outcomesOf script (before ++ after) = outcomesOf script before ++ outcomesOf script after :=
  List.filterMap_append

theorem outcomesOf_cons_ended (source : Source) (outcome : Outcome) (after : List Happening) :
    outcomesOf script (.ended script source outcome :: after) =
      outcome :: outcomesOf script after := by
  simp [outcomesOf, Happening.outcome?]

theorem outcomesOf_eq_nil {story : List Happening}
    (h : ∀ happening ∈ story, happening.endedId? ≠ some script) : outcomesOf script story = [] := by
  refine List.filterMap_eq_nil_iff.mpr fun happening hmem => ?_
  cases happening with
  | ended other source outcome =>
    have hne : other ≠ script := fun he => h _ hmem (congrArg some he)
    simp [Happening.outcome?, hne]
  | _ => rfl

end Happening

namespace Coherent

variable {lines? : Source → Except ScriptError (List String)} {before after : List Happening}
  {script : Nat}

/-- A script that is cancelled does not go on. -/
theorem not_goesOn (h : Coherent lines? (before ++ .cancelAsked (some script) :: after)) :
    ∀ happening ∈ after, happening.goesOn script = false := by
  intro happening hmem
  obtain ⟨between, rest, rfl⟩ := List.append_of_mem hmem
  rw [← List.cons_append, ← List.append_assoc] at h
  rw [Bool.eq_false_iff]
  intro hgoes
  have hasked : .cancelAsked (some script) ∈ before ++ .cancelAsked (some script) :: between :=
    List.mem_append_right _ List.mem_cons_self
  cases happening with
  | reached other _ | paused other _ | handed other _ =>
    obtain rfl : other = script := beq_iff_eq.mp hgoes
    exact h.fits.2 hasked
  | _ => simp [Happening.goesOn] at hgoes

/-- A script that is cancelled comes to no further line. -/
theorem reachedBy_of_cancelAsked
    (h : Coherent lines? (before ++ .cancelAsked (some script) :: after)) :
    reachedBy script (before ++ .cancelAsked (some script) :: after) = reachedBy script before := by
  have hnone : after.filterMap (Happening.reachedLine? script) = [] :=
    List.filterMap_eq_nil_iff.mpr fun happening hmem =>
      reachedLine?_eq_none (h.not_goesOn happening hmem)
  rw [reachedBy, List.filterMap_append, List.filterMap_cons_none rfl, hnone, List.append_nil]
  rfl

/-- A script that is cancelled before it came to all of its lines ends as cancelled. -/
theorem outcome_of_cancelAsked {between rest : List Happening} {source source' : Source}
    {outcome : Outcome} {lines : List String}
    (h : Coherent lines?
      (before ++ .cancelAsked (some script) :: between ++ .ended script source' outcome :: rest))
    (hsource : .accepted script source ∈ before) (hlines : lines? source = .ok lines)
    (hleft : (reachedBy script before).length < lines.length)
    (hunharmed : Unharmed script between) :
    outcome = .cancelled (returnsTo script (before ++ .cancelAsked (some script) :: between)) := by
  have htold := h.prefix_of_append
  obtain ⟨-, hsource', hverdict⟩ := h.fits
  obtain rfl := htold.source_unique (List.mem_append_left _ hsource) hsource'
  cases outcome with
  | completed n =>
    have hall : lines? source = .ok (reachedBy script before) := by
      rw [← htold.reachedBy_of_cancelAsked]
      exact hverdict.2
    obtain rfl := Except.ok.inj (hlines.symm.trans hall)
    exact absurd hleft (Nat.lt_irrefl _)
  | cancelled n => exact congrArg Outcome.cancelled hverdict.1
  | rejected => exact absurd hverdict id
  | failed text =>
    rcases hverdict with ⟨cause, hmissing, -⟩ | ⟨panic, hreturned, -⟩
    · exact absurd (hlines.symm.trans hmissing) (by simp)
    · rcases List.mem_append.mp hreturned with hmem | hmem
      · exact absurd hmem (htold.fits.2 script rfl panic)
      · rcases List.mem_cons.mp hmem with he | hmem
        · simp at he
        · exact absurd hmem (hunharmed panic)

/-- A script that ended did so once. -/
theorem outcomesOf_of_ended {source : Source} {outcome : Outcome}
    (h : Coherent lines? (before ++ .ended script source outcome :: after)) :
    outcomesOf script (before ++ .ended script source outcome :: after) = [outcome] := by
  obtain ⟨hfirst, hlast⟩ := h.apart_of_ended
  have hnone : outcomesOf script after = [] :=
    outcomesOf_eq_nil fun happening hmem => endedId?_ne (hlast happening hmem)
  rw [outcomesOf_append, outcomesOf_eq_nil hfirst, List.nil_append, outcomesOf_cons_ended, hnone]

/-- It ends so once, after as many lines as were executed, and says nothing else behind the
cancellation. -/
theorem ended_of_cancelAsked (h : Coherent lines? (before ++ .cancelAsked (some script) :: after))
    {source : Source} {lines : List String} (hsource : .accepted script source ∈ before)
    (hlines : lines? source = .ok lines) (hleft : (reachedBy script before).length < lines.length)
    (hunharmed : Unharmed script after) (hended : script ∈ after.filterMap Happening.endedId?) :
    outcomesOf script (before ++ .cancelAsked (some script) :: after) =
        [.cancelled (returnsTo script (before ++ .cancelAsked (some script) :: after))] ∧
      after.flatMap (Happening.spokenBy script) = [cancellationMessage] := by
  obtain ⟨happening, hmem, hid⟩ := List.mem_filterMap.mp hended
  cases happening with
  | ended other source' outcome =>
    obtain rfl : other = script := Option.some.inj hid
    have hgoes := h.not_goesOn
    obtain ⟨between, rest, rfl⟩ := List.append_of_mem hmem
    rw [← List.cons_append, ← List.append_assoc] at h ⊢
    obtain ⟨hfirst, hlast⟩ := h.apart_of_ended
    have houtcome := h.outcome_of_cancelAsked hsource hlines hleft
      fun text hmem => hunharmed text (List.mem_append_left _ hmem)
    have hreturns : returnsTo other (.ended other source' outcome :: rest) = 0 := by
      refine List.count_eq_zero.mpr fun hmem => ?_
      rcases List.mem_cons.mp hmem with he | hmem
      · simp at he
      · exact hlast _ hmem rfl
    have hsilent : ∀ happening ∈ between, happening.spokenBy other = [] := fun happening hmem =>
      spokenBy_eq_nil (hgoes happening (List.mem_append_left _ hmem))
        (hfirst happening (List.mem_append_right _ (List.mem_cons_of_mem _ hmem)))
    have hdone : ∀ happening ∈ rest, happening.spokenBy other = [] := fun happening hmem =>
      spokenBy_eq_nil (goesOn_eq_false (hlast happening hmem)) (endedId?_ne (hlast happening hmem))
    constructor
    · have hcount : returnsTo other (before ++ .cancelAsked (some other) :: between ++
          .ended other source' outcome :: rest) =
          returnsTo other (before ++ .cancelAsked (some other) :: between) := by
        rw [returnsTo, List.count_append, show List.count _ (_ :: rest) = 0 from hreturns]
        rfl
      rw [hcount, ← houtcome, h.outcomesOf_of_ended]
    · rw [List.flatMap_append, List.flatMap_cons, List.flatMap_eq_nil_iff.mpr hsilent,
        List.flatMap_eq_nil_iff.mpr hdone, houtcome]
      simp [Happening.spokenBy, Outcome.closing]
  | _ => simp [Happening.endedId?] at hid

end Coherent

namespace Session

variable {α : Type} {x : Executor α} {s t : Session α}

/-- Lines that are run while their script is cancelled end at once. -/
theorem runLines_of_cancelled (hc : s.cancelled = true) (deadline : Option Nat) (flight : Flight)
    (lines : List String) :
    ∃ outcome, runLines x deadline flight lines s = some (s.finish flight outcome) := by
  cases lines with
  | nil => exact ⟨_, rfl⟩
  | cons line rest => exact ⟨_, runLines_cancelled hc⟩

/-- A script that is cancelled ends at the next wait of its host, before any time passes. -/
theorem resume_of_cancelled {flight : Flight} (hflight : s.flight? = some flight)
    (hc : s.cancelled = true) (deadline : Option Nat) :
    ∃ t, s.resume x deadline = some t ∧ t.isRunning = false ∧ t.now = s.now := by
  have hcases := s.resumption x deadline
  generalize s.resume x deadline = r at hcases
  cases hcases with
  | idle hnone => simp [hflight] at hnone
  | @runs other lines now ties hother hahead hnow =>
    obtain ⟨outcome, hend⟩ :=
      runLines_of_cancelled (x := x) (s := s.clocked now ties) hc deadline other lines
    exact ⟨_, hend, rfl, hnow hc⟩
  | missing _ _ => exact ⟨_, rfl, rfl, rfl⟩
  | cut _ _ _ => exact ⟨_, rfl, rfl, rfl⟩
  | waits _ hnot _ => simp [hc] at hnot

/-- A script that is left in flight by a wait is not cancelled. -/
theorem not_cancelled_of_resume {deadline : Option Nat} (hresume : s.resume x deadline = some t) :
    t.isRunning = true → t.cancelled = false := by
  have hcases := s.resumption x deadline
  generalize s.resume x deadline = r at hcases hresume
  cases hcases with
  | idle hnone =>
    obtain rfl := Option.some.inj hresume
    intro hrunning
    simp [isRunning, hnone] at hrunning
  | runs now ties _ _ _ =>
    have hfinish : ∀ (u : Session α) flight outcome, (u.finish flight outcome).isRunning = true →
        (u.finish flight outcome).cancelled = false := by
      intro u flight outcome hrunning
      simp [isRunning, finish, note] at hrunning
    exact runLines_invariant (P := fun _ _ _ => True)
      (Q := fun t => t.isRunning = true → t.cancelled = false) (fun _ _ _ _ => trivial)
      (fun _ _ _ => trivial) (fun _ _ _ => trivial) (fun _ _ _ _ => trivial)
      (fun _ _ _ _ => hfinish _ _ _) (fun _ => hfinish _ _ _) (fun _ _ => hfinish _ _ _)
      (fun _ _ hc _ _ => hc) trivial hresume
  | missing _ _ | cut _ _ _ =>
    obtain rfl := Option.some.inj hresume
    intro hrunning
    simp [isRunning, finishCancelled, finish, note] at hrunning
  | waits _ hc _ =>
    obtain rfl := Option.some.inj hresume
    exact fun _ => hc

/-- A cancellation stops a script at once and exactly, and touches no other script. -/
structure CancelsExactly (x : Executor α) (s : Session α) : Prop where
  /-- A script that is cancelled comes to no line, announces no pause and hands nothing over. -/
  stops : ∀ {before after script}, s.story = before ++ .cancelAsked (some script) :: after →
    ∀ happening ∈ after, happening.goesOn script = false
  /-- If it had not come to all of its lines and no line panics, it ends once, as cancelled after as
  many lines as returned, and says nothing else. -/
  ends : ∀ {before after script source lines},
    s.story = before ++ .cancelAsked (some script) :: after → .accepted script source ∈ before →
    s.linesOf? source = .ok lines → (reachedBy script before).length < lines.length →
    Unharmed script after → script ∈ after.filterMap Happening.endedId? →
      outcomesOf script s.story = [.cancelled (returnsTo script s.story)] ∧
        after.flatMap (Happening.spokenBy script) = [cancellationMessage]
  /-- The outcome that is delivered is the one with which the script ended. -/
  delivers : ∀ {script outcome t}, s.await x (.run script) = some (outcome, t) →
    outcomesOf script t.story = [outcome]
  /-- A cancelled script ends at the next wait of its host, before any time passes. -/
  prompt : ∀ flight ∈ s.flight?, .cancelAsked (some flight.id) ∈ s.story → ∀ deadline,
    ∃ t, s.wait x deadline = some t ∧ t.isRunning = false ∧ t.now = s.now
  /-- No wait leaves a script in flight that is cancelled. -/
  settles : ∀ {deadline t}, s.wait x deadline = some t → ∀ flight ∈ t.flight?,
    .cancelAsked (some flight.id) ∉ t.story
  /-- Whatever a host and the executed lines do, a script hands over the first lines of its plan. -/
  plans : ∀ source, s.isRunning = false → ∀ {steps answers t},
    takeAll x steps (s.request source).2 = some (answers, t) →
      handedBy s.accepted t.story <+: s.plan x source
  /-- The plan is what is handed over if nobody cancels the script. -/
  uncancelled : ∀ {source outcome t}, s.isRunning = false →
    s.run (x.dropping Effect.isCancel) source = some (outcome, t) →
      handedBy s.accepted t.story = s.plan x source
  /-- A script ends as cancelled only if it was cancelled while it was underway. -/
  asked : ∀ {script source n}, .ended script source (.cancelled n) ∈ s.story →
    ∃ before after, s.story = before ++ .cancelAsked (some script) :: after ∧
      underway before = [script]
  /-- While no script is in flight, a cancellation changes nothing of what comes. -/
  idle : s.isRunning = false →
    GoOnAlike (SameSince (s.story ++ [.cancelAsked none]) s.story) x x s.cancel s
  /-- Nor does it matter which earlier scripts were cancelled. -/
  forgets : s.isRunning = false →
    GoOnAlike (SameSince s.story (s.story.filter (!·.isAsking))) x x s
      (s.retold (s.story.filter (!·.isAsking)) false)

namespace Sound

/-- The token tells whether the script in flight was cancelled. -/
theorem cancelled_iff (h : Sound s) {flight : Flight} (hflight : s.flight? = some flight) :
    s.cancelled = true ↔ .cancelAsked (some flight.id) ∈ s.story :=
  (h.aboard flight hflight).token

theorem settles (h : Sound s) {deadline : Option Nat} (hwait : s.wait x deadline = some t)
    {flight : Flight} (hflight : t.flight? = some flight) :
    .cancelAsked (some flight.id) ∉ t.story := by
  have hrunning : t.isRunning = true := by rw [isRunning, hflight, Option.isSome_some]
  have hc := not_cancelled_of_resume hwait hrunning
  rw [← (h.wait hwait).cancelled_iff hflight, hc]
  simp

/-- Whatever a host does, a script hands over the first lines of its plan. -/
theorem plans (h : Sound s) (source : Source) (hidle : s.isRunning = false)
    {steps : List HostStep} {answers : List Answer}
    (hsteps : Script.takeAll x steps (s.request source).2 = some (answers, t)) :
    handedBy s.accepted t.story <+: s.plan x source := by
  have hlt : s.accepted < (s.request source).2.accepted := by
    rw [Session.request, if_neg (by simp [hidle])]
    simp [accepted, Session.note, Happening.isAcceptance]
  have hinvariant := takeAll_invariant
    (P := fun s' => OnPlan x s.accepted (s.plan x source) s' ∧ s.accepted < s'.accepted)
    OnPlan.take ⟨h.onPlan_request hidle source, hlt⟩ hsteps
  exact hinvariant.1.handed

/-- A script ends as cancelled only if it was cancelled while it was underway. -/
theorem asked (h : Sound s) {script : Nat} {source : Source} {n : Nat}
    (hended : .ended script source (.cancelled n) ∈ s.story) :
    ∃ before after, s.story = before ++ .cancelAsked (some script) :: after ∧
      underway before = [script] := by
  have hcoherent : Coherent (fun source => s.linesOf? source) s.story := h.coherent
  obtain ⟨told, rest, he⟩ := List.append_of_mem hended
  rw [he] at hcoherent
  obtain ⟨before, between, rfl⟩ := List.append_of_mem hcoherent.fits.2.2.2
  refine ⟨before, between ++ .ended script source (.cancelled n) :: rest, ?_, ?_⟩
  · rw [he, List.append_assoc, List.cons_append]
  · exact hcoherent.prefix_of_append.fits.1

end Sound

/-- While no script is in flight, a cancellation goes unnoticed. -/
theorem goOnAlike_cancel (hidle : s.isRunning = false) :
    GoOnAlike (SameSince (s.story ++ [.cancelAsked none]) s.story) x x s.cancel s := by
  have hR : Indifferent (SameSince (s.story ++ [.cancelAsked none]) s.story) :=
    indifferent_sameSince (by simp [Happening.isAcceptance]) (by simp [Happening.result?])
  have hnone : s.flight? = none := by simpa [isRunning] using hidle
  have hstory : s.cancel.story = s.story ++ [.cancelAsked none] := by
    rw [cancel, note, hnone]
    rfl
  refine Alike.goOnAlike hR ⟨rfl, hstory ▸ sameSince_self _ _, fun hrunning => ?_⟩
  exact absurd (hidle.symm.trans hrunning) (by simp)

/-- While no script is in flight, it does not matter whether any script was cancelled. -/
theorem goOnAlike_forget (hidle : s.isRunning = false) :
    GoOnAlike (SameSince s.story (s.story.filter (!·.isAsking))) x x s
      (s.retold (s.story.filter (!·.isAsking)) false) := by
  have hkept : Indifferent (EqualUpTo (!·.isAsking)) :=
    indifferent_equalUpTo (fun _ _ => rfl) (fun _ _ _ => rfl)
  have hequal : EqualUpTo (!·.isAsking) s.story (s.story.filter (!·.isAsking)) := by
    rw [EqualUpTo, List.filter_filter]
    simp
  have hR := indifferent_sameSince (hkept.acceptances hequal) (hkept.results hequal)
  refine Alike.goOnAlike hR ⟨rfl, sameSince_self _ _, fun hrunning => ?_⟩
  exact absurd (hidle.symm.trans hrunning) (by simp)

/-- In a sound session, cancellations are exact. -/
theorem Sound.cancelsExactly (h : Sound s) : CancelsExactly x s where
  stops := by
    intro before after script he
    have hcoherent := h.coherent
    rw [IsCoherent, he] at hcoherent
    exact hcoherent.not_goesOn
  ends := by
    intro before after script source lines he
    have hcoherent := h.coherent
    rw [IsCoherent, he] at hcoherent
    rw [he]
    exact hcoherent.ended_of_cancelAsked
  delivers := by
    intro script outcome t hawait
    obtain ⟨⟨source, hended⟩, -⟩ := await_run_eq_some hawait
    have hcoherent := (h.await hawait).coherent
    obtain ⟨before, after, he⟩ := List.append_of_mem hended
    rw [IsCoherent, he] at hcoherent
    rw [he]
    exact hcoherent.outcomesOf_of_ended
  prompt := by
    intro flight hflight hasked deadline
    exact resume_of_cancelled (s := { s with waits := s.waits + 1 }) hflight
      ((h.cancelled_iff hflight).mpr hasked) deadline
  settles := fun hwait _ hflight => h.settles hwait hflight
  plans := fun source hidle _ _ _ hsteps => h.plans source hidle hsteps
  uncancelled := by
    intro source outcome t hidle hrun
    have hall := h.handedBy_run x.neverCancels_dropping hidle hrun
    rwa [plan_dropping] at hall
  asked := h.asked
  idle := goOnAlike_cancel
  forgets := goOnAlike_forget

/-- Whatever steps a host takes from the start, cancellations are exact. -/
theorem cancelsExactly_of_takeAll {own : α} {settings : ScriptSettings}
    {readFile : String → Option String} {waitWins : Nat → Bool} {steps : List HostStep}
    {answers : List Answer}
    (hsteps : takeAll x steps { new own settings readFile with waitWins } = some (answers, s)) :
    CancelsExactly x s :=
  ((sound_new own settings readFile waitWins).takeAll hsteps).cancelsExactly

/-- The line `stop` cancels the script that it stands in. -/
def stopping : Executor Unit where
  run line own := some
    { effects := if line = "stop" then [.cancel] else []
      panic? := none
      own }

theorem cancelsExactly_stopping : ∃ s, takeAll stopping
    [.spawn (.lines ["a", "pause(30)", "b"]), .sleep (.ofMilliseconds 100), .cancel,
      .await (.run 0), .run (.lines ["a", "stop", "b"]), .cancel, .run (.lines ["a", "b"])]
    { new () .default (fun _ => none) with waitWins := fun _ => true } =
      some ([.ticket (.run 0), .done, .done, .outcome (.cancelled 1), .outcome (.cancelled 2),
        .done, .outcome (.completed 2)], s) ∧ CancelsExactly stopping s := by
  have hanswers : (takeAll stopping
      [.spawn (.lines ["a", "pause(30)", "b"]), .sleep (.ofMilliseconds 100), .cancel,
        .await (.run 0), .run (.lines ["a", "stop", "b"]), .cancel, .run (.lines ["a", "b"])]
      { new () .default (fun _ => none) with waitWins := fun _ => true }).map Prod.fst =
        some [.ticket (.run 0), .done, .done, .outcome (.cancelled 1), .outcome (.cancelled 2),
          .done, .outcome (.completed 2)] := by
    decide +kernel
  obtain ⟨⟨answers, s⟩, hsteps, rfl⟩ := Option.map_eq_some_iff.mp hanswers
  exact ⟨s, hsteps, cancelsExactly_of_takeAll hsteps⟩

end Session

end CommandConsole.Script
