import CommandConsole.Proofs.Script.Plan
import CommandConsole.Proofs.Script.SingleFlight

/-!
# Scripts from two sources

Two sessions run a script from two sources that have the same lines but for empty ones at the end.
As long as nobody cancels it, they stay abreast: whatever step their hosts take, both give the same
answer, at the same time and with the same events, and the script ends in both with the same
outcome. From then on the sessions are alike. Only the message about the end of the script can tell
the sources apart.
-/

namespace CommandConsole.Script

variable {α : Type}

/-- The script ran through or failed. -/
def Outcome.IsUncancelled : Outcome → Prop
  | completed _ | failed _ => True
  | rejected | cancelled _ => False

/-- The stories tell of the same events and results, and of as many acceptances. -/
structure HeardAlike (a b : List Happening) : Prop where
  events : a.flatMap Happening.events = b.flatMap Happening.events
  acceptances : a.countP Happening.isAcceptance = b.countP Happening.isAcceptance
  results : a.filterMap Happening.result? = b.filterMap Happening.result?

theorem heardAlike_self (story : List Happening) : HeardAlike story story :=
  ⟨rfl, rfl, rfl⟩

theorem HeardAlike.symm {a b : List Happening} (h : HeardAlike a b) : HeardAlike b a :=
  ⟨h.events.symm, h.acceptances.symm, h.results.symm⟩

theorem HeardAlike.trans {a b c : List Happening} (h : HeardAlike a b) (h' : HeardAlike b c) :
    HeardAlike a c :=
  ⟨h.events.trans h'.events, h.acceptances.trans h'.acceptances, h.results.trans h'.results⟩

theorem HeardAlike.append {a b later later' : List Happening} (h : HeardAlike a b)
    (hlater : HeardAlike later later') : HeardAlike (a ++ later) (b ++ later') where
  events := by rw [List.flatMap_append, List.flatMap_append, h.events, hlater.events]
  acceptances := by rw [List.countP_append, List.countP_append, h.acceptances, hlater.acceptances]
  results := by rw [List.filterMap_append, List.filterMap_append, h.results, hlater.results]

/-- Nobody acts upon the sources of a script that has ended with the same outcome. -/
theorem HeardAlike.indifferent {told told' : List Happening} (h : HeardAlike told told')
    (script : Nat) (a b : Source) (outcome : Outcome) :
    Indifferent (SameSince (told ++ [.ended script a outcome])
      (told' ++ [.ended script b outcome])) := by
  refine indifferent_sameSince ?_ ?_
  · rw [List.countP_append, List.countP_append, h.acceptances]
    rfl
  · rw [List.filterMap_append, List.filterMap_append, h.results]
    rfl

/-- An empty line is passed over. -/
theorem stepOf_empty (settings : ScriptSettings) : stepOf settings "" = .skip := by
  have hblank : Text.trim "" = "" := by decide
  simp [stepOf, hblank]

namespace Session

/-- Empty lines at the end of a script that is not cancelled go unheard. -/
theorem runLines_of_empty (x : Executor α) (deadline : Option Nat) (flight : Flight)
    {s : Session α} {lost : List String} (hlost : ∀ line ∈ lost, line = "")
    (hfree : s.cancelled = false) :
    ∃ story, HeardAlike s.story story ∧
      runLines x deadline flight lost s =
        some ({ s with story }.finish flight (.completed flight.linesExecuted)) := by
  induction lost generalizing s with
  | nil => exact ⟨s.story, heardAlike_self _, rfl⟩
  | cons line lost ih =>
    obtain ⟨rfl, hempty⟩ := List.forall_mem_cons.mp hlost
    obtain ⟨story, hheard, hrun⟩ := ih (s := s.note (.reached flight.id "")) hempty hfree
    refine ⟨story, ⟨?_, ?_, ?_⟩, ?_⟩
    · rw [← hheard.events, note, List.flatMap_append]
      exact (List.append_nil _).symm
    · rw [← hheard.acceptances, note, List.countP_append]
      rfl
    · rw [← hheard.results, note, List.filterMap_append]
      exact (List.append_nil _).symm
    · rw [runLines_skip hfree (stepOf_empty _), hrun]
      rfl

/-- The sessions differ only in the script in flight, which nobody has cancelled, and in their
stories, which are heard alike. -/
structure Paired (s t : Session α) : Prop where
  fields : t = { s with story := t.story, flight? := t.flight? }
  heard : HeardAlike s.story t.story
  left : s.isRunning = true
  right : t.isRunning = true
  free : s.cancelled = false

/-- In both sessions the script has ended with the same outcome, behind what is heard alike, and the
stories have gone on in the same way since. -/
def EndedAlike (script : Nat) (a b : Source) (s t : Session α) : Prop :=
  ∃ told told' outcome, HeardAlike told told' ∧
    outcome.IsUncancelled ∧
    Alike (SameSince (told ++ [.ended script a outcome]) (told' ++ [.ended script b outcome])) s t

/-- In both sessions the script is in flight, from the one source or the other, and the lines ahead
are the same but for empty ones at the end. -/
inductive Abreast (script : Nat) (a b : Source) (s t : Session α) : Prop
  | ready {lines lost} : Paired s t → s.flight? = some ⟨script, a, 0, .ready⟩ →
      t.flight? = some ⟨script, b, 0, .ready⟩ → s.linesOf? a = .ok (lines ++ lost) →
      s.linesOf? b = .ok lines → (∀ line ∈ lost, line = "") → Abreast script a b s t
  | asleep {executed wake rest lost} : Paired s t →
      s.flight? = some ⟨script, a, executed, .asleep wake (rest ++ lost)⟩ →
      t.flight? = some ⟨script, b, executed, .asleep wake rest⟩ → (∀ line ∈ lost, line = "") →
      Abreast script a b s t

/-- The script has ended in both sessions, or it is in flight in both. -/
def Along (script : Nat) (a b : Source) (s t : Session α) : Prop :=
  EndedAlike script a b s t ∨ Abreast script a b s t

/-- The flights are of the script from the one source and from the other, equally far. -/
def Twins (script : Nat) (a b : Source) (f g : Flight) : Prop :=
  ∃ executed stage stage', f = ⟨script, a, executed, stage⟩ ∧ g = ⟨script, b, executed, stage'⟩

namespace Paired

variable {x : Executor α} {s t : Session α} {script : Nat} {a b : Source}

theorem now_eq (h : Paired s t) : t.now = s.now := by
  rw [h.fields]

theorem own_eq (h : Paired s t) : t.own = s.own := by
  rw [h.fields]

theorem settings_eq (h : Paired s t) : t.settings = s.settings := by
  rw [h.fields]

theorem readFile_eq (h : Paired s t) : t.readFile = s.readFile := by
  rw [h.fields]

theorem waits_eq (h : Paired s t) : t.waits = s.waits := by
  rw [h.fields]

theorem ties_eq (h : Paired s t) : t.ties = s.ties := by
  rw [h.fields]

theorem waitWins_eq (h : Paired s t) : t.waitWins = s.waitWins := by
  rw [h.fields]

theorem free' (h : Paired s t) : t.cancelled = false := by
  rw [h.fields]
  exact h.free

theorem course (h : Paired s t) : SameCourse s t :=
  ⟨h.settings_eq, h.free'.trans h.free.symm, h.now_eq, h.waitWins_eq, h.ties_eq⟩

theorem results_eq (h : Paired s t) : t.results = s.results := by
  rw [results, results, h.heard.results]

/-- What is told in both sessions is heard alike. -/
theorem note (h : Paired s t) {happening happening' : Happening}
    (hheard : HeardAlike [happening] [happening']) :
    Paired (s.note happening) (t.note happening') := by
  refine ⟨?_, h.heard.append hheard, h.left, h.right, h.free⟩
  rw [h.fields]
  rfl

theorem clocked (h : Paired s t) (now ties : Nat) :
    Paired (s.clocked now ties) (t.clocked now ties) := by
  refine ⟨?_, h.heard, h.left, h.right, h.free⟩
  rw [h.fields]
  rfl

theorem counted (h : Paired s t) :
    Paired { s with waits := s.waits + 1 } { t with waits := t.waits + 1 } := by
  refine ⟨?_, h.heard, h.left, h.right, h.free⟩
  rw [h.fields]

theorem at_time (h : Paired s t) (now : Nat) : Paired { s with now } { t with now } := by
  refine ⟨?_, h.heard, h.left, h.right, h.free⟩
  rw [h.fields]

/-- Effects that cancel nothing do the same in both sessions. -/
theorem applyAll (h : Paired s t) {effects : List Effect} (hcalm : .cancel ∉ effects) :
    Paired (s.applyAll effects) (t.applyAll effects) := by
  induction effects generalizing s t with
  | nil => exact h
  | cons effect effects ih =>
    obtain ⟨hne, hcalm⟩ := not_or.mp (List.mem_cons.not.mp hcalm)
    rw [applyAll_cons, applyAll_cons]
    refine ih ?_ hcalm
    cases effect with
    | record report => exact h.note (heardAlike_self _)
    | cancel => exact absurd rfl hne
    | start source =>
      rw [apply, apply, request, request, if_pos h.left, if_pos h.right]
      exact h.note (heardAlike_self _)

/-- An executed line does the same in both sessions. -/
theorem perform (hx : x.NeverCancels) (h : Paired s t) (flight flight' : Flight)
    (hid : flight'.id = flight.id) (line : String) :
    Option.Rel (fun p q => p.1 = q.1 ∧ Paired p.2 q.2) (s.perform x flight line)
      (t.perform x flight' line) := by
  have hhanded := h.note (heardAlike_self [.handed flight.id line])
  simp only [Session.perform, hid, hhanded.own_eq]
  cases hrun : x.run line (s.note (.handed flight.id line)).own with
  | none => exact .none
  | some reaction =>
    have hown : Paired { s.note (.handed flight.id line) with own := reaction.own }
        { t.note (.handed flight.id line) with own := reaction.own } := by
      refine ⟨?_, hhanded.heard, h.left, h.right, h.free⟩
      rw [h.fields]
      rfl
    exact .some ⟨rfl, (hown.applyAll (hx hrun)).note (heardAlike_self _)⟩

/-- A script that ends in both sessions with the same outcome has ended alike. -/
theorem finish (h : Paired s t) {executed executed' : Nat} {stage stage' : Stage}
    {outcome : Outcome} (houtcome : outcome.IsUncancelled) :
    EndedAlike script a b (s.finish ⟨script, a, executed, stage⟩ outcome)
      (t.finish ⟨script, b, executed', stage'⟩ outcome) := by
  refine ⟨s.story, t.story, outcome, h.heard, houtcome, ?_, sameSince_self _ _, fun hrunning => ?_⟩
  · rw [h.fields]
    rfl
  · simp [Session.finish, Session.note, Session.isRunning] at hrunning

/-- A script that is left waiting in both sessions is abreast. -/
theorem park (h : Paired s t) {executed : Nat} {stage stage' : Stage} (wake : Nat)
    {rest lost : List String} (hlost : ∀ line ∈ lost, line = "") :
    Abreast script a b (s.park ⟨script, a, executed, stage⟩ wake (rest ++ lost))
      (t.park ⟨script, b, executed, stage'⟩ wake rest) := by
  refine .asleep ⟨?_, h.heard, rfl, rfl, h.free⟩ rfl rfl hlost
  rw [h.fields]
  rfl

/-- The script keeps pace from either source. -/
theorem pace (hx : x.NeverCancels) :
    Pace x x (fun f g s t => Twins script a b f g ∧ Paired s t) (Along script a b) where
  id := by
    rintro _ _ s t ⟨⟨executed, stage, stage', rfl, rfl⟩, -⟩
    rfl
  course h := h.2.course
  clocked now ties h := ⟨h.1, h.2.clocked now ties⟩
  note happening h := ⟨h.1, h.2.note (heardAlike_self _)⟩
  perform := by
    rintro _ _ s t line ⟨⟨executed, stage, stage', rfl, rfl⟩, h⟩
    exact rel_imp (h.perform hx _ _ rfl line) fun hpq =>
      ⟨hpq.1, ⟨executed, stage, stage', rfl, rfl⟩, hpq.2⟩
  count := by
    rintro _ _ s t ⟨⟨executed, stage, stage', rfl, rfl⟩, h⟩
    exact ⟨⟨executed + 1, stage, stage', rfl, rfl⟩, h⟩
  panic := by
    rintro _ _ s t text ⟨⟨executed, stage, stage', rfl, rfl⟩, h⟩
    exact Or.inl (h.finish trivial)
  cut h hc := absurd (hc.symm.trans h.2.free) (by simp)

/-- Both sessions run the lines of the script alike. -/
theorem runLines (hx : x.NeverCancels) (deadline : Option Nat) {f g : Flight}
    (htwins : Twins script a b f g) (h : Paired s t) {rest lost : List String}
    (hlost : ∀ line ∈ lost, line = "") :
    Option.Rel (Along script a b) (Session.runLines x deadline f (rest ++ lost) s)
      (Session.runLines x deadline g rest t) := by
  have hruns : Option.Rel (Along script a b) (Session.runLines x deadline f (rest ++ lost) s)
      (Session.runLines x deadline g (rest ++ []) t) := by
    refine (pace hx).runLines ?_ ?_ rest ⟨htwins, h⟩
    · -- the one script is over and the other has only empty lines ahead
      rintro _ _ s t ⟨⟨executed, stage, stage', rfl, rfl⟩, h⟩
      obtain ⟨story, hheard, hrun⟩ := runLines_of_empty x deadline
        ⟨script, a, executed, stage⟩ hlost h.free
      rw [hrun, Session.runLines]
      have hpaired : Paired { s with story } t := by
        refine ⟨?_, hheard.symm.trans h.heard, h.left, h.right, h.free⟩
        rw [h.fields]
      exact .some (Or.inl (hpaired.finish trivial))
    · rintro _ _ s t wake rest ⟨⟨executed, stage, stage', rfl, rfl⟩, h⟩ -
      rw [List.append_nil]
      exact Or.inr (h.park wake hlost)
  rwa [List.append_nil] at hruns

end Paired

section Along

variable {x : Executor α} {s t : Session α} {script : Nat} {a b : Source}

/-- Once the script has ended, the sessions are alike in a way that nobody acts upon. -/
theorem EndedAlike.exists_alike (h : EndedAlike script a b s t) :
    ∃ R, Indifferent R ∧ Alike R s t ∧
      ∀ {u v : Session α}, Alike R u v → EndedAlike script a b u v := by
  obtain ⟨told, told', outcome, hheard, houtcome, halike⟩ := h
  exact ⟨_, hheard.indifferent script a b outcome, halike,
    fun h => ⟨told, told', outcome, hheard, houtcome, h⟩⟩

namespace Abreast

theorem paired (h : Abreast script a b s t) : Paired s t := by
  cases h with
  | ready hpaired => exact hpaired
  | asleep hpaired => exact hpaired

/-- The script is abreast in sessions with the same flights and files. -/
theorem of_paired (h : Abreast script a b s t) {u v : Session α} (huv : Paired u v)
    (hflight : u.flight? = s.flight?) (hflight' : v.flight? = t.flight?)
    (hfile : u.readFile = s.readFile) : Abreast script a b u v := by
  cases h with
  | ready _ hs ht ha hb hlost =>
    exact .ready huv (hflight.trans hs) (hflight'.trans ht) ((linesOf?_congr hfile a).trans ha)
      ((linesOf?_congr hfile b).trans hb) hlost
  | asleep _ hs ht hlost => exact .asleep huv (hflight.trans hs) (hflight'.trans ht) hlost

theorem at_time (h : Abreast script a b s t) (now : Nat) :
    Abreast script a b { s with now } { t with now } :=
  h.of_paired (h.paired.at_time now) rfl rfl rfl

/-- Requests are rejected in both sessions. -/
theorem request (h : Abreast script a b s t) (source : Source) :
    (s.request source).1 = (t.request source).1 ∧
      Abreast script a b (s.request source).2 (t.request source).2 := by
  rw [Session.request, Session.request, if_pos h.paired.left, if_pos h.paired.right]
  exact ⟨by rw [h.paired.waits_eq],
    h.of_paired (h.paired.note (heardAlike_self _)) rfl rfl rfl⟩

/-- The script goes on in both sessions. -/
theorem resume (hx : x.NeverCancels) (h : Abreast script a b s t) (deadline : Option Nat) :
    Option.Rel (Along script a b) (s.resume x deadline) (t.resume x deadline) := by
  cases h with
  | ready hpaired hs ht ha hb hlost =>
    rw [resume_ready hs rfl, resume_ready ht rfl, linesOf?_congr hpaired.readFile_eq, ha, hb]
    exact hpaired.runLines hx deadline ⟨0, .ready, .ready, rfl, rfl⟩ hlost
  | @asleep executed wake rest lost hpaired hs ht hlost =>
    rw [resume_asleep hs rfl, resume_asleep ht rfl]
    refine (Paired.pace hx).goOn ⟨⟨executed, _, _, rfl, rfl⟩, hpaired⟩ ?_ fun _ =>
      Or.inr (hpaired.park wake hlost)
    exact fun h => h.2.runLines hx deadline h.1 hlost

theorem wait (hx : x.NeverCancels) (h : Abreast script a b s t) (deadline : Option Nat) :
    Option.Rel (Along script a b) (s.wait x deadline) (t.wait x deadline) :=
  (h.of_paired h.paired.counted rfl rfl rfl).resume hx deadline

end Abreast

/-- Hosts with the script abreast or ended alike are in lockstep. -/
theorem Along.lockstep (hx : x.NeverCancels) : Lockstep x x (Along script a b) where
  looksSame h := by
    rcases h with hended | habreast
    · obtain ⟨R, hR, halike, -⟩ := hended.exists_alike
      exact (Alike.lockstep (x := x) hR (dropsRejected_nothing R)).looksSame halike
    · have h := habreast.paired
      exact ⟨h.right.trans h.left.symm, h.now_eq, h.waits_eq, h.results_eq⟩
  at_time now h := by
    rcases h with hended | habreast
    · obtain ⟨R, -, halike, hback⟩ := hended.exists_alike
      exact Or.inl (hback (halike.at_time now))
    · exact Or.inr (habreast.at_time now)
  request source h := by
    rcases h with hended | habreast
    · obtain ⟨R, hR, halike, hback⟩ := hended.exists_alike
      obtain ⟨hticket, hrequested⟩ := halike.request hR source
      exact ⟨hticket, Or.inl (hback hrequested)⟩
    · obtain ⟨hticket, hrequested⟩ := habreast.request source
      exact ⟨hticket, Or.inr hrequested⟩
  wait deadline h := by
    rcases h with hended | habreast
    · obtain ⟨R, hR, halike, hback⟩ := hended.exists_alike
      have hwait := halike.wait (x := x) hR (dropsRejected_nothing R) deadline
      rw [x.dropping_nothing] at hwait
      exact rel_imp hwait fun h => Or.inl (hback h)
    · exact habreast.wait hx deadline

/-- Whatever a host does short of cancelling, the sessions give the same answers and stay abreast
until the script has ended in both. -/
theorem Along.takeAll (hx : x.NeverCancels) (h : Along script a b s t) {steps : List HostStep}
    (hsteps : ∀ step ∈ steps, step ≠ .cancel) :
    Option.Rel (fun p q => p.1 = q.1 ∧ Along script a b p.2 q.2) (takeAll x steps s)
      (takeAll x steps t) :=
  (Along.lockstep hx).takeAll h fun hmem => absurd rfl (hsteps _ hmem)

theorem fst_request_of_idle (hidle : s.isRunning = false) (source : Source) :
    (s.request source).1 = .run s.accepted := by
  rw [request, if_neg (by simp [hidle])]

/-- A script that is accepted from either source starts out abreast. -/
theorem abreast_request {lines lost : List String} (hidle : s.isRunning = false)
    (ha : s.linesOf? a = .ok (lines ++ lost)) (hb : s.linesOf? b = .ok lines)
    (hlost : ∀ line ∈ lost, line = "") :
    Abreast s.accepted a b (s.request a).2 (s.request b).2 := by
  rw [request, request, if_neg (by simp [hidle]), if_neg (by simp [hidle])]
  have hpaired : Paired
      ({ s with flight? := some ⟨s.accepted, a, 0, .ready⟩, cancelled := false }.note
        (.accepted s.accepted a))
      ({ s with flight? := some ⟨s.accepted, b, 0, .ready⟩, cancelled := false }.note
        (.accepted s.accepted b)) :=
    ⟨rfl, (heardAlike_self _).append ⟨rfl, rfl, rfl⟩, rfl, rfl, rfl⟩
  exact .ready hpaired rfl rfl ((linesOf?_congr rfl a).trans ha) ((linesOf?_congr rfl b).trans hb)
    hlost

/-- A script that is run from either source while none is in flight ends alike. -/
theorem run_along {lines lost : List String} (hx : x.NeverCancels) (hidle : s.isRunning = false)
    (ha : s.linesOf? a = .ok (lines ++ lost)) (hb : s.linesOf? b = .ok lines)
    (hlost : ∀ line ∈ lost, line = "") :
    Option.Rel (fun p q => p.1 = q.1 ∧ Along s.accepted a b p.2 q.2) (s.run x a) (s.run x b) := by
  have habreast := abreast_request hidle ha hb hlost
  have hticket : ∀ source, s.request source = (.run s.accepted, (s.request source).2) :=
    fun source => Prod.ext (fst_request_of_idle hidle source) rfl
  rw [run, run, hticket a, hticket b]
  exact (Along.lockstep hx).await (Or.inr habreast) (.run s.accepted)

end Along

end Session

end CommandConsole.Script
