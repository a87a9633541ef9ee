import CommandConsole.Proofs.Script.Lockstep

/-!
# Sessions that differ in what nobody acts upon

Two sessions are alike when they differ only in their stories, in a way that leaves the number of
the next script and the results alone, and in the token while no script is in flight. No step of a
host can tell alike sessions apart. This also holds when requests that executed lines make while a
script runs are dropped, because such requests are rejected.
-/

namespace CommandConsole.Script

variable {α : Type}

/-- The executor without some effects of the lines it executes. -/
def Executor.dropping (drop : Effect → Bool) (x : Executor α) : Executor α where
  run line own := (x.run line own).map fun reaction =>
    { reaction with effects := reaction.effects.filter (!drop ·) }

/-- The effect is a request to start a script. -/
def Effect.isStart : Effect → Bool
  | start _ => true
  | _ => false

/-- The effect is a cancellation. -/
def Effect.isCancel : Effect → Bool
  | cancel => true
  | _ => false

/-- The happening is a rejection. -/
def Happening.isRejection : Happening → Bool
  | rejected _ => true
  | _ => false

/-- The happening is that someone asked for a cancellation. -/
def Happening.isAsking : Happening → Bool
  | cancelAsked _ => true
  | _ => false

theorem Executor.dropping_nothing (x : Executor α) : x.dropping (fun _ => false) = x := by
  obtain ⟨run⟩ := x
  have hsame : ∀ effects : List Effect, effects.filter (!(fun _ => false) ·) = effects :=
    fun effects => List.filter_eq_self.mpr fun _ _ => rfl
  simp only [dropping, hsame, Option.map_id']

/-- Stories that differ in this way stay so whatever happens next, and nobody acts upon the
difference. -/
structure Indifferent (R : List Happening → List Happening → Prop) : Prop where
  snoc : ∀ {a b} happening, R a b → R (a ++ [happening]) (b ++ [happening])
  acceptances : ∀ {a b}, R a b → a.countP Happening.isAcceptance = b.countP Happening.isAcceptance
  results : ∀ {a b}, R a b → a.filterMap Happening.result? = b.filterMap Happening.result?

/-- The stories are equal up to happenings that are not kept. -/
def EqualUpTo (keep : Happening → Bool) (a b : List Happening) : Prop :=
  a.filter keep = b.filter keep

/-- The stories went on in the same way from the two given ones. -/
def SameSince (a₀ b₀ : List Happening) (a b : List Happening) : Prop :=
  ∃ later, a = a₀ ++ later ∧ b = b₀ ++ later

/-- It makes no difference to leave out happenings that are no acceptances and no ends. -/
theorem indifferent_equalUpTo {keep : Happening → Bool}
    (haccepted : ∀ script source, keep (.accepted script source) = true)
    (hended : ∀ script source outcome, keep (.ended script source outcome) = true) :
    Indifferent (EqualUpTo keep) where
  snoc := fun happening h => by
    rw [EqualUpTo, List.filter_append, List.filter_append, h]
  acceptances := fun {a b} h => by
    have hcount : ∀ story : List Happening, (story.filter keep).countP Happening.isAcceptance =
        story.countP Happening.isAcceptance := by
      intro story
      rw [List.countP_filter]
      refine List.countP_congr fun happening _ => ?_
      cases happening <;> simp [Happening.isAcceptance, haccepted]
    rw [← hcount a, h, hcount]
  results := fun {a b} h => by
    have hresults : ∀ story : List Happening, (story.filter keep).filterMap Happening.result? =
        story.filterMap Happening.result? := by
      intro story
      rw [List.filterMap_filter]
      congr 1
      funext happening
      cases happening <;> simp [Happening.result?, hended]
    rw [← hresults a, h, hresults]

/-- Two stories with the same acceptances and results go on in the same way. -/
theorem indifferent_sameSince {a₀ b₀ : List Happening}
    (haccepted : a₀.countP Happening.isAcceptance = b₀.countP Happening.isAcceptance)
    (hresults : a₀.filterMap Happening.result? = b₀.filterMap Happening.result?) :
    Indifferent (SameSince a₀ b₀) where
  snoc := by
    rintro _ _ next ⟨later, rfl, rfl⟩
    exact ⟨later ++ [next], List.append_assoc .., List.append_assoc ..⟩
  acceptances := by
    rintro _ _ ⟨later, rfl, rfl⟩
    rw [List.countP_append, List.countP_append, haccepted]
  results := by
    rintro _ _ ⟨later, rfl, rfl⟩
    rw [List.filterMap_append, List.filterMap_append, hresults]

theorem sameSince_self (a₀ b₀ : List Happening) : SameSince a₀ b₀ a₀ b₀ :=
  ⟨[], (List.append_nil _).symm, (List.append_nil _).symm⟩

/-- Only requests are dropped, and it makes no difference that they are not rejected. -/
def DropsRejected (drop : Effect → Bool) (R : List Happening → List Happening → Prop) : Prop :=
  ∀ effect, drop effect = true → ∃ source, effect = .start source ∧
    ∀ {a b}, R a b → R (a ++ [.rejected source]) b

theorem dropsRejected_nothing (R : List Happening → List Happening → Prop) :
    DropsRejected (fun _ => false) R :=
  fun _ h => absurd h (by simp)

namespace Session

/-- The session with another story and another token. -/
def retold (story : List Happening) (cancelled : Bool) (s : Session α) : Session α :=
  { s with story, cancelled }

/-- The sessions differ only in their stories, in the given way, and in the token when idle. -/
structure Alike (R : List Happening → List Happening → Prop) (s t : Session α) : Prop where
  fields : t = s.retold t.story t.cancelled
  story : R s.story t.story
  token : s.isRunning = true → s.cancelled = t.cancelled

/-- Whatever a host does next, both sessions give the same answers and stay alike. -/
def GoOnAlike (R : List Happening → List Happening → Prop) (x y : Executor α) (s t : Session α) :
    Prop :=
  ∀ steps, Option.Rel (fun a b => a.1 = b.1 ∧ Alike R a.2 b.2) (takeAll x steps s)
    (takeAll y steps t)

namespace Alike

variable {R : List Happening → List Happening → Prop} {drop : Effect → Bool} {s t : Session α}
  {x : Executor α}

theorem isRunning_eq (h : Alike R s t) : t.isRunning = s.isRunning := by
  rw [h.fields]
  rfl

theorem own_eq (h : Alike R s t) : t.own = s.own := by
  rw [h.fields]
  rfl

theorem settings_eq (h : Alike R s t) : t.settings = s.settings := by
  rw [h.fields]
  rfl

theorem readFile_eq (h : Alike R s t) : t.readFile = s.readFile := by
  rw [h.fields]
  rfl

theorem now_eq (h : Alike R s t) : t.now = s.now := by
  rw [h.fields]
  rfl

theorem flight?_eq (h : Alike R s t) : t.flight? = s.flight? := by
  rw [h.fields]
  rfl

theorem waits_eq (h : Alike R s t) : t.waits = s.waits := by
  rw [h.fields]
  rfl

theorem waitWins_eq (h : Alike R s t) : t.waitWins = s.waitWins := by
  rw [h.fields]
  rfl

theorem ties_eq (h : Alike R s t) : t.ties = s.ties := by
  rw [h.fields]
  rfl

theorem results_eq (hR : Indifferent R) (h : Alike R s t) : t.results = s.results := by
  rw [results, results, hR.results h.story]

theorem note (hR : Indifferent R) (h : Alike R s t) (happening : Happening) :
    Alike R (s.note happening) (t.note happening) := by
  refine ⟨?_, hR.snoc happening h.story, h.token⟩
  rw [h.fields]
  rfl

theorem clocked (h : Alike R s t) (now ties : Nat) :
    Alike R (s.clocked now ties) (t.clocked now ties) := by
  refine ⟨?_, h.story, h.token⟩
  rw [h.fields]
  rfl

theorem at_time (h : Alike R s t) (now : Nat) : Alike R { s with now } { t with now } := by
  refine ⟨?_, h.story, h.token⟩
  rw [h.fields]
  rfl

theorem finish (hR : Indifferent R) (h : Alike R s t) (flight : Flight) (outcome : Outcome) :
    Alike R (s.finish flight outcome) (t.finish flight outcome) := by
  refine ⟨?_, hR.snoc _ h.story, fun hrunning => ?_⟩
  · rw [h.fields]
    rfl
  · simp [Session.finish, Session.note, Session.isRunning] at hrunning

theorem park (h : Alike R s t) (hrunning : s.isRunning = true) (flight : Flight) (wake : Nat)
    (rest : List String) : Alike R (s.park flight wake rest) (t.park flight wake rest) := by
  refine ⟨?_, h.story, fun _ => h.token hrunning⟩
  rw [h.fields]
  rfl

theorem cancel (hR : Indifferent R) (h : Alike R s t) : Alike R s.cancel t.cancel := by
  refine ⟨?_, ?_, fun _ => rfl⟩
  · rw [h.fields]
    rfl
  · rw [Session.cancel, Session.cancel, h.flight?_eq]
    exact hR.snoc _ h.story

/-- Alike sessions answer a request alike. -/
theorem request (hR : Indifferent R) (h : Alike R s t) (source : Source) :
    (s.request source).1 = (t.request source).1 ∧
      Alike R (s.request source).2 (t.request source).2 := by
  rw [Session.request, Session.request, h.isRunning_eq]
  split
  · exact ⟨by rw [h.waits_eq], h.note hR _⟩
  · rw [accepted, accepted, hR.acceptances h.story]
    refine ⟨rfl, ?_, hR.snoc _ h.story, fun _ => rfl⟩
    rw [h.fields]
    rfl

/-- While a script is in flight, dropping effects that come to nothing makes no difference. -/
theorem applyAll (hR : Indifferent R) (hdrop : DropsRejected drop R) (h : Alike R s t)
    (hrunning : s.isRunning = true) (effects : List Effect) :
    Alike R (s.applyAll effects) (t.applyAll (effects.filter (!drop ·))) ∧
      (s.applyAll effects).isRunning = true := by
  induction effects generalizing s t with
  | nil => exact ⟨h, hrunning⟩
  | cons effect effects ih =>
    have hrejected : ∀ source, s.apply (.start source) = s.note (.rejected source) ∧
        t.apply (.start source) = t.note (.rejected source) := fun source => by
      rw [apply, apply, Session.request, Session.request, h.isRunning_eq, hrunning]
      exact ⟨rfl, rfl⟩
    by_cases hd : drop effect = true
    · obtain ⟨source, rfl, hleft⟩ := hdrop effect hd
      rw [List.filter_cons_of_neg (by simp [hd]), applyAll_cons, (hrejected source).1]
      exact ih ⟨h.fields, hleft h.story, h.token⟩ hrunning
    · rw [List.filter_cons_of_pos (by simp [hd]), applyAll_cons, applyAll_cons]
      cases effect with
      | record report => exact ih (h.note hR _) hrunning
      | cancel => exact ih (h.cancel hR) hrunning
      | start source =>
        rw [(hrejected source).1, (hrejected source).2]
        exact ih (h.note hR _) hrunning

/-- Alike sessions with a script in flight execute a line alike. -/
theorem perform (hR : Indifferent R) (hdrop : DropsRejected drop R) (h : Alike R s t)
    (hrunning : s.isRunning = true) (flight : Flight) (line : String) :
    Option.Rel (fun a b => a.1 = b.1 ∧ Alike R a.2 b.2 ∧ a.2.isRunning = true)
      (s.perform x flight line) (t.perform (x.dropping drop) flight line) := by
  simp only [Session.perform, Executor.dropping, show (t.note _).own = s.own from h.own_eq,
    show (s.note (.handed flight.id line)).own = s.own from rfl]
  cases x.run line s.own with
  | none => exact .none
  | some reaction =>
    refine .some ⟨rfl, ?_⟩
    have hhanded : Alike R { s.note (.handed flight.id line) with own := reaction.own }
        { t.note (.handed flight.id line) with own := reaction.own } := by
      refine ⟨?_, (h.note hR _).story, h.token⟩
      rw [h.fields]
      rfl
    obtain ⟨happlied, hstill⟩ := hhanded.applyAll hR hdrop hrunning reaction.effects
    exact ⟨happlied.note hR _, hstill⟩

/-- A script in flight keeps pace with itself in alike sessions. -/
theorem pace (hR : Indifferent R) (hdrop : DropsRejected drop R) :
    Pace x (x.dropping drop) (fun f g s t => f = g ∧ Alike R s t ∧ s.isRunning = true)
      (Alike R) where
  id := by
    rintro f _ s t ⟨rfl, -⟩
    rfl
  course h := by
    obtain ⟨-, h, hrunning⟩ := h
    exact ⟨h.settings_eq, (h.token hrunning).symm, h.now_eq, h.waitWins_eq, h.ties_eq⟩
  clocked now ties h := ⟨h.1, h.2.1.clocked now ties, h.2.2⟩
  note happening h := ⟨h.1, h.2.1.note hR happening, h.2.2⟩
  perform line h := by
    obtain ⟨rfl, h, hrunning⟩ := h
    exact rel_imp (h.perform hR hdrop hrunning _ line) fun hpq => ⟨hpq.1, rfl, hpq.2⟩
  count := by
    rintro f _ s t ⟨rfl, h⟩
    exact ⟨rfl, h⟩
  panic := by
    rintro f _ s t text ⟨rfl, h, -⟩
    exact h.finish hR f _
  cut := by
    rintro f _ s t ⟨rfl, h, -⟩ -
    exact h.finish hR f _

/-- Alike sessions with a script in flight run its lines alike. -/
theorem runLines (hR : Indifferent R) (hdrop : DropsRejected drop R) (deadline : Option Nat)
    {lines : List String} {flight : Flight} (h : Alike R s t) (hrunning : s.isRunning = true) :
    Option.Rel (Alike R) (Session.runLines x deadline flight lines s)
      (Session.runLines (x.dropping drop) deadline flight lines t) := by
  have hruns : Option.Rel (Alike R) (Session.runLines x deadline flight (lines ++ []) s)
      (Session.runLines (x.dropping drop) deadline flight (lines ++ []) t) := by
    refine (pace hR hdrop).runLines ?_ ?_ lines ⟨rfl, h, hrunning⟩
    · rintro f _ s t ⟨rfl, h, -⟩
      exact .some (h.finish hR f _)
    · rintro f _ s t wake rest ⟨rfl, h, hrunning⟩ -
      exact h.park hrunning f wake _
  rwa [List.append_nil] at hruns

/-- A script goes on alike in alike sessions. -/
theorem resume (hR : Indifferent R) (hdrop : DropsRejected drop R) (h : Alike R s t)
    (deadline : Option Nat) :
    Option.Rel (Alike R) (s.resume x deadline) (t.resume (x.dropping drop) deadline) := by
  cases hflight : s.flight? with
  | none =>
    rw [Session.resume, Session.resume, h.flight?_eq, hflight]
    exact .some h
  | some flight =>
    have hrunning : s.isRunning = true := by simp [Session.isRunning, hflight]
    have hflight' : t.flight? = some flight := h.flight?_eq.trans hflight
    cases hs : flight.stage with
    | ready =>
      rw [resume_ready hflight hs, resume_ready hflight' hs, linesOf?_congr h.readFile_eq]
      cases s.linesOf? flight.source with
      | ok lines => exact h.runLines hR hdrop deadline hrunning
      | error cause => exact .some (h.finish hR _ _)
    | asleep wake rest =>
      rw [resume_asleep hflight hs, resume_asleep hflight' hs]
      refine (pace hR hdrop).goOn ⟨rfl, h, hrunning⟩ ?_ fun _ => h.park hrunning flight wake rest
      exact fun h => h.2.1.runLines hR hdrop deadline h.2.2

theorem wait (hR : Indifferent R) (hdrop : DropsRejected drop R) (h : Alike R s t)
    (deadline : Option Nat) :
    Option.Rel (Alike R) (s.wait x deadline) (t.wait (x.dropping drop) deadline) := by
  have hwaits : Alike R { s with waits := s.waits + 1 } { t with waits := t.waits + 1 } := by
    refine ⟨?_, h.story, h.token⟩
    rw [h.fields]
    rfl
  exact hwaits.resume hR hdrop deadline

/-- Hosts of alike sessions are in lockstep. -/
theorem lockstep (hR : Indifferent R) (hdrop : DropsRejected drop R) :
    Lockstep x (x.dropping drop) (Alike R) where
  looksSame h := ⟨h.isRunning_eq, h.now_eq, h.waits_eq, h.results_eq hR⟩
  at_time now h := h.at_time now
  request source h := h.request hR source
  wait deadline h := h.wait hR hdrop deadline

/-- No number of steps tells alike sessions apart. -/
theorem takeAll (hR : Indifferent R) (hdrop : DropsRejected drop R) (h : Alike R s t)
    (steps : List HostStep) :
    Option.Rel (fun a b => a.1 = b.1 ∧ Alike R a.2 b.2)
      (takeAll x steps s) (takeAll (x.dropping drop) steps t) :=
  (lockstep hR hdrop).takeAll h fun _ _ _ h => h.cancel hR

/-- Alike sessions go on alike. -/
theorem goOnAlike (hR : Indifferent R) (h : Alike R s t) : GoOnAlike R x x s t := fun steps => by
  have halike := h.takeAll (x := x) hR (dropsRejected_nothing R) steps
  rwa [x.dropping_nothing] at halike

end Alike

end Session

end CommandConsole.Script
