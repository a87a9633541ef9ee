import CommandConsole.Proofs.Script.Alike
import CommandConsole.Proofs.Script.Ending

/-!
# The lines that a script means to hand over

Which lines a script hands over if nobody cancels it is settled when it is accepted: its commands in
their order, up to the first that panics or does not return. Whatever a host does meanwhile, the
script hands over the first of these lines, and a run that nobody cancels hands over all of them.
-/

namespace CommandConsole.Script

variable {α : Type}

/-- The commands among the lines, up to the first that panics or does not return. -/
def planned (x : Executor α) (settings : ScriptSettings) : List String → α → List String
  | [], _ => []
  | line :: rest, own =>
    match stepOf settings line with
    | .command =>
      line :: match x.run line own with
        | some ⟨_, none, own⟩ => planned x settings rest own
        | _ => []
    | _ => planned x settings rest own

theorem planned_skip {x : Executor α} {settings : ScriptSettings} {line : String}
    (h : stepOf settings line ≠ .command) (rest : List String) (own : α) :
    planned x settings (line :: rest) own = planned x settings rest own := by
  rw [planned]
  split
  · next hcommand => exact absurd hcommand h
  · rfl

theorem planned_command {x : Executor α} {settings : ScriptSettings} {line : String}
    (h : stepOf settings line = .command) {own : α} {reaction : Reaction α}
    (hrun : x.run line own = some reaction) (rest : List String) :
    planned x settings (line :: rest) own =
      line :: if reaction.panic? = none then planned x settings rest reaction.own else [] := by
  obtain ⟨effects, panic?, own'⟩ := reaction
  rw [planned, h, hrun]
  cases panic? <;> rfl

/-- What a script means to hand over does not depend on the effects of its lines. -/
theorem planned_dropping (drop : Effect → Bool) (x : Executor α) (settings : ScriptSettings)
    (lines : List String) (own : α) :
    planned (x.dropping drop) settings lines own = planned x settings lines own := by
  induction lines generalizing own with
  | nil => rfl
  | cons line rest ih =>
    by_cases hcommand : stepOf settings line = .command
    · cases hrun : x.run line own with
      | none => simp [planned, hcommand, hrun, Executor.dropping]
      | some reaction =>
        have hdropped : (x.dropping drop).run line own =
            some { reaction with effects := reaction.effects.filter (!drop ·) } := by
          simp only [Executor.dropping, hrun, Option.map_some]
        rw [planned_command hcommand hrun, planned_command hcommand hdropped, ih]
    · rw [planned_skip hcommand, planned_skip hcommand, ih]

/-- No line asks for a cancellation. -/
def Executor.NeverCancels (x : Executor α) : Prop :=
  ∀ {line own reaction}, x.run line own = some reaction → .cancel ∉ reaction.effects

theorem Executor.neverCancels_dropping (x : Executor α) :
    (x.dropping Effect.isCancel).NeverCancels := by
  intro line own reaction hrun hmem
  obtain ⟨reaction', -, rfl⟩ := Option.map_eq_some_iff.mp hrun
  simp [Effect.isCancel] at hmem

namespace Session

/-- The lines that a script from a source means to hand over. -/
def plan (x : Executor α) (source : Source) (s : Session α) : List String :=
  match s.linesOf? source with
  | .ok lines => planned x s.settings lines s.own
  | .error _ => []

theorem plan_dropping (drop : Effect → Bool) (x : Executor α) (source : Source) (s : Session α) :
    s.plan (x.dropping drop) source = s.plan x source := by
  rw [plan, plan]
  cases s.linesOf? source with
  | ok lines => exact planned_dropping drop x s.settings lines s.own
  | error _ => rfl

/-- The script has handed over the first lines of its plan, and the others are ahead. -/
structure OnPlan (x : Executor α) (script : Nat) (lines : List String) (s : Session α) : Prop where
  handed : handedBy script s.story <+: lines
  ahead : ∀ flight ∈ s.flight?, flight.id = script → ∀ rest, Ahead flight rest s →
    handedBy script s.story ++ planned x s.settings rest s.own = lines

variable {x : Executor α} {s t : Session α} {script : Nat} {lines : List String}

theorem handedBy_note {happening : Happening} (h : happening.handedLine? script = none) :
    handedBy script (s.note happening).story = handedBy script s.story :=
  handedBy_snoc_other _ h

/-- What handing a line over changes. -/
theorem perform_eq_some {flight : Flight} {line : String} {panic? : Option String}
    (hp : s.perform x flight line = some (panic?, t)) :
    (∃ effects, x.run line s.own = some ⟨effects, panic?, t.own⟩) ∧ t.settings = s.settings ∧
      ∀ script, handedBy script t.story =
        handedBy script (s.story ++ [.handed flight.id line]) := by
  obtain ⟨reaction, hrun, he⟩ := Option.map_eq_some_iff.mp hp
  obtain ⟨rfl, rfl⟩ := Prod.mk.inj he
  refine ⟨⟨reaction.effects, ?_⟩, (settings_readFile_applyAll _ _).1, fun script => ?_⟩
  · rw [note, own_applyAll]
    exact hrun
  · exact (handedBy_snoc_other _ rfl).trans (filterMap_story_applyAll _ _ (fun _ => rfl)
      (fun _ => rfl) (fun _ _ => rfl) (fun _ => rfl))

/-- The lines that a flight's script has handed over and those it means to are the given ones. -/
def PlanLeft (x : Executor α) (script : Nat) (lines : List String) (flight : Flight)
    (rest : List String) (s : Session α) : Prop :=
  flight.id = script → handedBy script s.story ++ planned x s.settings rest s.own = lines

namespace PlanLeft

variable {flight : Flight} {line : String} {rest : List String}

theorem skip (h : PlanLeft x script lines flight (line :: rest) s)
    (hstep : stepOf s.settings line ≠ .command) : PlanLeft x script lines flight rest s := by
  intro hid
  rw [← planned_skip hstep]
  exact h hid

theorem note (h : PlanLeft x script lines flight rest s) {happening : Happening}
    (hother : happening.handedLine? script = none) :
    PlanLeft x script lines flight rest (s.note happening) := by
  intro hid
  rw [handedBy_note hother]
  exact h hid

/-- Handing a line over carries out the plan, and a panic ends it. -/
theorem perform {panic? : Option String} (h : PlanLeft x script lines flight (line :: rest) s)
    (hstep : stepOf s.settings line = .command)
    (hp : s.perform x flight line = some (panic?, t)) (hid : flight.id = script) :
    handedBy script t.story ++
      (if panic? = none then planned x t.settings rest t.own else []) = lines := by
  subst hid
  obtain ⟨⟨effects, hrun⟩, hsettings, hhanded⟩ := perform_eq_some hp
  rw [hhanded, handedBy_snoc_handed, List.append_assoc, List.singleton_append, hsettings]
  have hplan := h rfl
  rwa [planned_command hstep hrun] at hplan

end PlanLeft

/-- A script hands over nothing for another one. -/
theorem handedBy_perform_other {flight : Flight} {line : String} {panic? : Option String}
    (hp : s.perform x flight line = some (panic?, t)) (hid : flight.id ≠ script) :
    handedBy script t.story = handedBy script s.story := by
  have hother : (Happening.handed flight.id line).handedLine? script = none := by
    simp [Happening.handedLine?, hid]
  rw [(perform_eq_some hp).2.2, handedBy_snoc_other _ hother]

namespace OnPlan

theorem finish (h : handedBy script s.story <+: lines) (flight : Flight) (outcome : Outcome) :
    OnPlan x script lines (s.finish flight outcome) := by
  refine ⟨?_, fun _ hflight => by simp [Session.finish, Session.note] at hflight⟩
  rwa [Session.finish, handedBy_note rfl]

/-- A session stays on plan while the lines of a script are run. -/
theorem runLines {deadline : Option Nat} {flight : Flight} {rest : List String}
    (h : handedBy script s.story <+: lines) (hleft : PlanLeft x script lines flight rest s)
    (hrun : Session.runLines x deadline flight rest s = some t) : OnPlan x script lines t := by
  refine runLines_invariant (P := fun flight rest s => handedBy script s.story <+: lines ∧
    PlanLeft x script lines flight rest s) (Q := OnPlan x script lines) ?_ ?_ ?_ ?_ ?_ ?_ ?_ ?_
    ⟨h, hleft⟩ hrun
  · rintro flight rest s now ties - ⟨h, hleft⟩
    exact ⟨h, hleft⟩
  · rintro flight line rest s ⟨h, hleft⟩ - hstep
    rw [handedBy_note rfl]
    exact ⟨h, (hleft.skip (by simp [hstep])).note rfl⟩
  · rintro flight line rest s announcement length ⟨h, hleft⟩ - hstep
    rw [handedBy_note rfl, handedBy_note rfl]
    exact ⟨h, ((hleft.skip (by simp [hstep])).note rfl).note rfl⟩
  · rintro flight line rest s t ⟨h, hleft⟩ - hstep hp
    have hnext : PlanLeft x script lines flight rest t :=
      PlanLeft.perform (hleft.note rfl) hstep hp
    refine ⟨?_, hnext⟩
    by_cases hid : flight.id = script
    · exact ⟨_, hnext hid⟩
    · rwa [handedBy_perform_other hp hid, handedBy_note rfl]
  · rintro flight line rest s text t ⟨h, hleft⟩ - hstep hp
    refine finish ?_ flight _
    by_cases hid : flight.id = script
    · exact ⟨_, PlanLeft.perform (t := t) (hleft.note rfl) hstep hp hid⟩
    · rwa [handedBy_perform_other hp hid, handedBy_note rfl]
  · rintro flight s ⟨h, -⟩
    exact finish h flight _
  · rintro flight rest s ⟨h, -⟩ -
    exact finish h flight _
  · rintro flight rest s wake ⟨h, hleft⟩ - -
    refine ⟨h, fun parked hparked hid left hahead => ?_⟩
    obtain rfl := Option.some.inj hparked
    obtain rfl : rest = left := hahead
    exact hleft hid

/-- A script that goes on stays on plan. -/
theorem resume {deadline : Option Nat} (h : OnPlan x script lines s)
    (hresume : s.resume x deadline = some t) : OnPlan x script lines t := by
  have hcases := s.resumption x deadline
  generalize s.resume x deadline = r at hcases hresume
  cases hcases with
  | idle _ | waits _ _ _ =>
    obtain rfl := Option.some.inj hresume
    exact h
  | @runs flight rest now ties hflight hahead _ =>
    have hleft : PlanLeft x script lines flight rest s :=
      fun hid => h.ahead flight hflight hid rest hahead
    exact runLines (s := s.clocked now ties) h.handed hleft hresume
  | missing _ _ =>
    obtain rfl := Option.some.inj hresume
    exact finish h.handed _ _
  | cut ties _ _ =>
    obtain rfl := Option.some.inj hresume
    exact finish (s := s.clocked s.now ties) h.handed _ _

theorem note (h : OnPlan x script lines s) {happening : Happening}
    (hother : happening.handedLine? script = none) : OnPlan x script lines (s.note happening) := by
  refine ⟨(handedBy_note hother).symm ▸ h.handed, fun flight hflight hid rest hahead => ?_⟩
  rw [handedBy_note hother]
  exact h.ahead flight hflight hid rest hahead

/-- A request made behind the acceptance of a script leaves it on plan. -/
theorem request (h : OnPlan x script lines s) (hlt : script < s.accepted) (source : Source) :
    OnPlan x script lines (s.request source).2 := by
  rw [Session.request]
  split
  · exact h.note rfl
  · refine ⟨?_, fun flight hflight hid => ?_⟩
    · rw [handedBy_note rfl]
      exact h.handed
    · obtain rfl := Option.some.inj hflight
      exact absurd hid (Nat.ne_of_gt hlt)

/-- Whatever a host does, a script that was accepted stays on plan. -/
theorem take {step : HostStep} {answer : Answer}
    (h : OnPlan x script lines s ∧ script < s.accepted)
    (htake : step.take x s = some (answer, t)) : OnPlan x script lines t ∧ script < t.accepted := by
  have hgrown : ∀ {u v : Session α}, script < u.accepted → u.story <+: v.story →
      script < v.accepted := fun hlt hprefix => Nat.lt_of_lt_of_le hlt (accepted_mono hprefix)
  refine take_invariant (P := fun s => OnPlan x script lines s ∧ script < s.accepted) ?_ ?_ ?_ ?_ h
    htake
  · rintro s source ⟨h, hlt⟩
    exact ⟨h.request hlt source, hgrown hlt (prefix_request List.prefix_rfl source)⟩
  · rintro s ⟨h, hlt⟩
    have htoken : OnPlan x script lines { s with cancelled := true } := ⟨h.handed, h.ahead⟩
    exact ⟨htoken.note rfl, hgrown hlt (List.prefix_append ..)⟩
  · rintro s t deadline ⟨h, hlt⟩ hwait
    have hcounted : OnPlan x script lines { s with waits := s.waits + 1 } := ⟨h.handed, h.ahead⟩
    exact ⟨hcounted.resume hwait, hgrown hlt (prefix_wait List.prefix_rfl hwait)⟩
  · rintro s now ⟨h, hlt⟩
    exact ⟨⟨h.handed, h.ahead⟩, hlt⟩

end OnPlan

/-- A script that was just accepted is on plan. -/
theorem Sound.onPlan_request (h : s.Sound) (hidle : s.isRunning = false) (source : Source) :
    OnPlan x s.accepted (s.plan x source) (s.request source).2 := by
  have hnone : handedBy s.accepted s.story = [] := by
    refine List.filterMap_eq_nil_iff.mpr fun happening hmem => ?_
    cases happening with
    | handed other line =>
      have hne : other ≠ s.accepted := by
        rintro rfl
        exact Nat.lt_irrefl _ (h.coherent.lt_of_script? hmem rfl)
      simp [Happening.handedLine?, hne]
    | _ => rfl
  rw [Session.request, if_neg (by simp [hidle])]
  refine ⟨?_, fun flight hflight _ rest hahead => ?_⟩
  · rw [handedBy_note rfl, show handedBy s.accepted _ = [] from hnone]
    exact List.nil_prefix
  · obtain rfl := Option.some.inj hflight
    have hlines : s.linesOf? source = .ok rest := hahead
    rw [handedBy_note rfl, show handedBy s.accepted _ = [] from hnone, plan, hlines]
    rfl

section Uncancelled

/-- Without cancellations, effects do not cancel the script in flight. -/
theorem cancelled_applyAll {effects : List Effect} (hnot : .cancel ∉ effects)
    (hc : s.cancelled = false) : (s.applyAll effects).cancelled = false := by
  induction effects generalizing s with
  | nil => exact hc
  | cons effect effects ih =>
    rw [applyAll_cons]
    refine ih (fun hmem => hnot (List.mem_cons_of_mem _ hmem)) ?_
    cases effect with
    | record report => exact hc
    | cancel => exact absurd List.mem_cons_self hnot
    | start source =>
      rw [apply, request]
      split
      · exact hc
      · rfl

/-- A run that nobody cancels hands over all of its lines. -/
theorem handedBy_runLines (hx : x.NeverCancels) {flight : Flight} {rest : List String}
    (hid : flight.id = script) (hc : s.cancelled = false)
    (hleft : PlanLeft x script lines flight rest s)
    (hrun : Session.runLines x none flight rest s = some t) : handedBy script t.story = lines := by
  refine runLines_invariant (P := fun flight rest s => flight.id = script ∧ s.cancelled = false ∧
    PlanLeft x script lines flight rest s) (Q := fun t => handedBy script t.story = lines)
    ?_ ?_ ?_ ?_ ?_ ?_ ?_ ?_ ⟨hid, hc, hleft⟩ hrun
  · rintro flight rest s now ties - ⟨hid, hc, hleft⟩
    exact ⟨hid, hc, hleft⟩
  · rintro flight line rest s ⟨hid, hc, hleft⟩ - hstep
    exact ⟨hid, hc, (hleft.skip (by simp [hstep])).note rfl⟩
  · rintro flight line rest s announcement length ⟨hid, hc, hleft⟩ - hstep
    exact ⟨hid, hc, ((hleft.skip (by simp [hstep])).note rfl).note rfl⟩
  · rintro flight line rest s t ⟨hid, hc, hleft⟩ - hstep hp
    refine ⟨hid, ?_, PlanLeft.perform (hleft.note rfl) hstep hp⟩
    obtain ⟨reaction, hreaction, he⟩ := Option.map_eq_some_iff.mp hp
    obtain ⟨-, rfl⟩ := Prod.mk.inj he
    exact cancelled_applyAll (hx hreaction) hc
  · rintro flight line rest s text t ⟨hid, hc, hleft⟩ - hstep hp
    have hplan := PlanLeft.perform (hleft.note rfl) hstep hp hid
    rw [finish, handedBy_note rfl]
    simpa using hplan
  · rintro flight s ⟨hid, -, hleft⟩
    have hplan := hleft hid
    rw [finish, handedBy_note rfl]
    simpa [planned] using hplan
  · rintro flight rest s ⟨-, hc, -⟩ hcancelled
    simp [hc] at hcancelled
  · rintro flight rest s wake - - hlate
    simp [isBefore] at hlate

/-- A script that is waited for and that nobody cancels hands over all of its lines. -/
theorem OnPlan.handedBy_resume (hx : x.NeverCancels) (h : OnPlan x script lines s) {flight : Flight}
    (hflight : s.flight? = some flight) (hid : flight.id = script) (hc : s.cancelled = false)
    (hmissing : ∀ cause, s.linesOf? flight.source = .error cause → handedBy script s.story = lines)
    (hresume : s.resume x none = some t) : handedBy script t.story = lines := by
  have hcases := s.resumption x none
  generalize s.resume x none = r at hcases hresume
  cases hcases with
  | idle hnone => simp [hflight] at hnone
  | @runs other rest now ties hother hahead _ =>
    obtain rfl := Option.some.inj (hflight.symm.trans hother)
    have hleft : PlanLeft x script lines flight rest s :=
      fun _ => h.ahead flight hflight hid rest hahead
    exact handedBy_runLines (s := s.clocked now ties) hx hid hc hleft hresume
  | @missing other cause hother hlines =>
    obtain rfl := Option.some.inj (hflight.symm.trans hother)
    obtain rfl := Option.some.inj hresume
    rw [Session.finish, handedBy_note rfl]
    exact hmissing cause hlines
  | cut _ _ hcancelled => simp [hc] at hcancelled
  | waits _ _ hlate => simp [isBefore] at hlate

/-- A script that is run without anyone cancelling it hands over all of its plan. -/
theorem Sound.handedBy_run (hx : x.NeverCancels) (h : s.Sound) (hidle : s.isRunning = false)
    {source : Source} {outcome : Outcome} (hrun : s.run x source = some (outcome, t)) :
    handedBy s.accepted t.story = s.plan x source := by
  have hplan := h.onPlan_request (x := x) hidle source
  have hwait := (h.run_accepted hidle hrun).1
  have hmissing : ∀ cause, s.linesOf? source = .error cause →
      handedBy s.accepted (s.request source).2.story = s.plan x source := by
    intro cause hlines
    have hempty : s.plan x source = [] := by rw [plan, hlines]
    rw [hempty] at hplan ⊢
    exact List.prefix_nil.mp hplan.handed
  rw [Session.request, if_neg (by simp [hidle])] at hplan hwait hmissing
  have hcounted := OnPlan.mk (s := { Session.note _ _ with waits := s.waits + 1 }) hplan.handed
    hplan.ahead
  exact hcounted.handedBy_resume hx rfl rfl rfl hmissing hwait

end Uncancelled

end Session

end CommandConsole.Script
