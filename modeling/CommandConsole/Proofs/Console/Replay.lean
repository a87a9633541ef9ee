import CommandConsole.Proofs.Console.Heedless
import CommandConsole.Proofs.Console.Reachable
import CommandConsole.Proofs.Script.Ending
import CommandConsole.Proofs.Script.Line

/-!
# Scripts as typed lines

A script that is run while none is in flight, and whose lines neither cancel nor start scripts, does
to the console what typing its commands would do. It runs to its end whatever goes wrong in the
lines, it leaves the same desk, and its events are those of the typed lines with the echoes of the
commands, the announcements of the pauses and the message about its end put between.

What is compared are the handlers that get invoked, and they have to be heedless for this. While the
script executes a line, a script is in flight, and while the line is typed, none is: a handler that
acts upon that does one thing here and another one there.
-/

namespace CommandConsole

open Script

namespace Script

/-- The events of a script, with the reports that each of its commands makes. -/
def scriptEvents (settings : ScriptSettings) (script : Nat) :
    List String → List (List Report) → List Event
  | [], _ => []
  | line :: rest, groups =>
    match stepOf settings line with
    | .skip => scriptEvents settings script rest groups
    | .pause announcement _ => .shown announcement :: scriptEvents settings script rest groups
    | .command =>
      .shown (echo line) :: .executing script line ::
        ((groups.headD []).map Report.event ++ scriptEvents settings script rest groups.tail)

namespace Session

variable {α : Type} {x : Executor α} {s t : Session α}

theorem events_reported (reports : List Report) :
    (reports.map Happening.reported).flatMap Happening.events = reports.map Report.event := by
  induction reports with
  | nil => rfl
  | cons report reports ih =>
    rw [List.map_cons, List.flatMap_cons, ih]
    rfl

/-- Reports only add to the story. -/
theorem applyAll_records (s : Session α) (reports : List Report) :
    s.applyAll (reports.map .record) = { s with story := s.story ++ reports.map .reported } := by
  induction reports generalizing s with
  | nil => simp [applyAll]
  | cons report reports ih =>
    rw [List.map_cons, applyAll_cons, ih]
    simp [apply, note]

/-- What effects add first to the story stays first. -/
private theorem exists_report {effects : List Effect} {reports : List Report}
    {happening : Happening} (hone : t.story = s.story ++ [happening])
    (h : (t.applyAll effects).story = s.story ++ reports.map .reported) :
    ∃ report rest, reports = report :: rest ∧ happening = .reported report := by
  have hgrown := prefix_applyAll (List.prefix_rfl (l := t.story)) effects
  rw [h, hone, List.prefix_append_right_inj] at hgrown
  cases reports with
  | nil => simp at hgrown
  | cons report rest =>
    rw [List.map_cons, List.cons_prefix_cons] at hgrown
    exact ⟨report, rest, rfl, hgrown.1⟩

/-- Effects that only add reports to the story are those reports. -/
theorem effects_of_story {effects : List Effect} {reports : List Report}
    (h : (s.applyAll effects).story = s.story ++ reports.map .reported) :
    effects = reports.map .record := by
  induction effects generalizing s reports with
  | nil =>
    have hnone : reports = [] := by simpa [applyAll] using h
    rw [hnone]
    rfl
  | cons effect effects ih =>
    rw [applyAll_cons] at h
    cases effect with
    | record report =>
      obtain ⟨first, rest, rfl, hfirst⟩ := exists_report (t := s.apply (.record report)) rfl h
      obtain rfl := Happening.reported.inj hfirst
      have hstory : ((s.apply (.record report)).applyAll effects).story =
          (s.apply (.record report)).story ++ rest.map .reported := by
        rw [h]
        simp [apply, note]
      rw [ih hstory, List.map_cons]
    | cancel =>
      obtain ⟨_, _, -, hfirst⟩ := exists_report (t := s.apply .cancel) rfl h
      simp at hfirst
    | start source =>
      rw [apply, request] at h
      split at h
      · obtain ⟨_, _, -, hfirst⟩ := exists_report (t := s.note (.rejected source)) rfl h
        simp at hfirst
      · have hone : ({ s with
            flight? := some ⟨s.accepted, source, 0, .ready⟩
            cancelled := false }.note (.accepted s.accepted source)).story =
              s.story ++ [Happening.accepted s.accepted source] := rfl
        obtain ⟨_, _, -, hfirst⟩ := exists_report hone h
        simp at hfirst

end Session

end Script

namespace Console

/-- Lines are typed one after the other: all of them return, and none cancels or starts a script. -/
inductive Typed (depth : Nat) : List String → Console → List (List Report) → Console → Prop
  | nil {c} : Typed depth [] c [] c
  | cons {line rest c mid d result reports groups} :
      c.execute depth line = some (result, mid) →
      mid.story = c.story ++ reports.map .reported → Typed depth rest mid groups d →
      Typed depth (line :: rest) c (reports :: groups) d

/-- Each of these lines is heedless on the desk on which it is executed when they are typed one after
the other. -/
def HeedlessLines (depth : Nat) : List String → Console → Prop
  | [], _ => True
  | line :: rest, c =>
    LineHeedless depth line c.desk ∧
      ∀ result mid, c.execute depth line = some (result, mid) → HeedlessLines depth rest mid

section Replay

variable {depth : Nat} {c d : Console}

/-- Where all handlers are oblivious, all lines are heedless, and typing leaves it at that. -/
theorem heedlessLines_of_oblivious (h : c.own.Oblivious) (lines : List String) :
    HeedlessLines depth lines c := by
  induction lines generalizing c with
  | nil => trivial
  | cons line rest ih =>
    have hdesk : c.desk.Oblivious := h
    refine ⟨hdesk.lineHeedless depth line, fun result mid hexecute => ih ?_⟩
    obtain ⟨done, hdone, he⟩ := Option.map_eq_some_iff.mp hexecute
    obtain ⟨-, rfl⟩ := Prod.mk.inj he
    rw [Session.own_applyAll]
    exact keeps_oblivious_executeLine depth line hdesk hdone

theorem oblivious_register {definition : Definition Handler} (h : c.own.Oblivious)
    (hnew : ∀ args, (definition.handler args).Oblivious) :
    (c.register definition).2.own.Oblivious := by
  rw [Console.register]
  cases hregister : c.own.register definition with
  | ok desk => exact h.register hnew hregister
  | error cause => exact h

/-- What typing a heedless line does to the desk and the log, a script does with it. -/
theorem execute_eq_some {line : String} {result : Except ParseError Outcome}
    {reports : List Report} (hheedless : LineHeedless depth line c.desk)
    (hexecute : c.execute depth line = some (result, d))
    (hstory : d.story = c.story ++ reports.map .reported) :
    (consoleExecutor depth).run line c.own = some ⟨reports.map .record, none, d.own⟩ := by
  obtain ⟨done, hdone, he⟩ := Option.map_eq_some_iff.mp hexecute
  obtain ⟨-, rfl⟩ := Prod.mk.inj he
  have heffects : done.effects = reports.map .record :=
    Session.effects_of_story (s := c.withDesk done.desk) hstory
  have hscript : executeLine depth line (c.own.during true) = some done.duringScript := by
    have hsame := hheedless.overlooks
    rwa [Turn.Overlooks, hdone] at hsame
  simp only [consoleExecutor, hscript, Option.map_some, Session.own_applyAll]
  rw [← heffects]
  rfl

/-- Typed lines report what they report. -/
theorem Typed.log_eq {lines : List String} {groups : List (List Report)}
    (h : Typed depth lines c groups d) : d.log = c.log ++ groups.flatten.map Report.event := by
  induction h with
  | nil => simp
  | @cons line rest c mid d result reports groups _ hstory _ ih =>
    have hmid : mid.log = c.log ++ reports.map Report.event := by
      rw [Session.log, hstory, List.flatMap_append, Session.events_reported]
      rfl
    rw [ih, hmid, List.flatten_cons, List.map_append, List.append_assoc]

/-- A command of a script that nobody cancels is executed as if it were typed, and the script goes
on with the next line. -/
theorem runLines_command_of_execute {line : String} (rest : List String)
    {result : Except ParseError Outcome} {reports : List Report}
    (hheedless : LineHeedless depth line c.desk)
    (hexecute : c.execute depth line = some (result, d))
    (hstory : d.story = c.story ++ reports.map .reported) {s : Console} (hown : s.own = c.own)
    (hc : s.cancelled = false) (hstep : stepOf s.settings line = .command) (flight : Flight) :
    ∃ t : Console, t.settings = s.settings ∧ t.own = d.own ∧ t.cancelled = false ∧
      t.log = s.log ++ .shown (echo line) :: .executing flight.id line ::
        reports.map Report.event ∧
      Session.runLines (consoleExecutor depth) none flight (line :: rest) s =
        Session.runLines (consoleExecutor depth) none
          { flight with linesExecuted := flight.linesExecuted + 1 } rest t := by
  have hrun := execute_eq_some hheedless hexecute hstory
  rw [← hown] at hrun
  have hreturned : s.returned flight line (reports.map .record) d.own =
      ({ s with
        own := d.own
        story := s.story ++ [.reached flight.id line, .handed flight.id line] ++
          reports.map Happening.reported } : Console).note (.returned flight.id none) := by
    rw [Session.returned, Session.applyAll_records]
    simp [Session.note]
  have hfree : (s.returned flight line (reports.map .record) d.own).cancelled = false := by
    rw [hreturned]
    exact hc
  have hlog : (s.returned flight line (reports.map .record) d.own).log =
      s.log ++ .shown (echo line) :: .executing flight.id line :: reports.map Report.event := by
    rw [hreturned]
    simp only [Session.log, Session.note, List.flatMap_append, Session.events_reported]
    simp [Happening.events]
  obtain ⟨now, ties, hnext⟩ := Session.runLines_command_of_run rest hc hstep hrun hfree
  refine ⟨(s.returned flight line (reports.map .record) d.own).clocked now ties, ?_, ?_, hfree, hlog,
    hnext⟩
  · rw [hreturned]
    rfl
  · rw [hreturned]
    rfl

/-- A pause of a script that nobody cancels passes, and the script goes on with the next line. -/
theorem runLines_pause_of_free (depth : Nat) {line : String} (rest : List String)
    {announcement : Message} {length : Duration} {s : Console} (hc : s.cancelled = false)
    (hstep : stepOf s.settings line = .pause announcement length) (flight : Flight) :
    ∃ t : Console, t.settings = s.settings ∧ t.own = s.own ∧ t.cancelled = false ∧
      t.log = s.log ++ [.shown announcement] ∧
      Session.runLines (consoleExecutor depth) none flight (line :: rest) s =
        Session.runLines (consoleExecutor depth) none flight rest t := by
  obtain ⟨now, ties, hnext⟩ := Session.runLines_pause_of_not_cancelled rest hc hstep
  refine ⟨((s.note (.reached flight.id line)).note (.paused flight.id announcement)).clocked now
    ties, rfl, rfl, hc, ?_, hnext⟩
  simp [Happening.events]

/-- The lines of a script that nobody cancels do what typing its commands does. -/
theorem runLines_of_typed {settings : ScriptSettings} {lines : List String}
    {groups : List (List Report)} (h : Typed depth (keptLines settings lines) c groups d)
    (hheedless : HeedlessLines depth (keptLines settings lines) c) (flight : Flight) {s : Console} (hsettings : s.settings = settings) (hown : s.own = c.own)
    (hc : s.cancelled = false) :
    ∃ u : Console, Session.runLines (consoleExecutor depth) none flight lines s =
        some (u.finish flight
          (.completed (flight.linesExecuted + (keptLines settings lines).length))) ∧
      u.own = d.own ∧ u.log = s.log ++ scriptEvents settings flight.id lines groups := by
  induction lines generalizing c groups flight s with
  | nil =>
    cases h
    exact ⟨s, rfl, hown, (List.append_nil _).symm⟩
  | cons line rest ih =>
    subst hsettings
    cases hstep : stepOf s.settings line with
    | skip =>
      rw [keptLines_cons_other (by simp [hstep])] at h hheedless ⊢
      obtain ⟨u, hrun, hu, hlog⟩ := ih h hheedless flight (s := s.note (.reached flight.id line)) rfl hown hc
      refine ⟨u, (Session.runLines_skip hc hstep).trans hrun, hu, ?_⟩
      simp [hlog, scriptEvents, hstep, Happening.events]
    | pause announcement length =>
      rw [keptLines_cons_other (by simp [hstep])] at h hheedless ⊢
      obtain ⟨t, hsettings, howned, hfree, hlogged, hnext⟩ :=
        runLines_pause_of_free depth rest hc hstep flight
      obtain ⟨u, hrun, hu, hlog⟩ := ih h hheedless flight hsettings (howned.trans hown) hfree
      refine ⟨u, hnext.trans hrun, hu, ?_⟩
      simp [hlog, hlogged, scriptEvents, hstep]
    | command =>
      rw [keptLines_cons_command hstep] at h hheedless ⊢
      obtain ⟨hfirst, hothers⟩ := hheedless
      cases h with
      | cons hexecute hstory hrest =>
        obtain ⟨t, hsettings, howned, hfree, hlogged, hnext⟩ :=
          runLines_command_of_execute rest hfirst hexecute hstory hown hc hstep flight
        obtain ⟨u, hrun, hu, hlog⟩ :=
          ih hrest (hothers _ _ hexecute) _ hsettings howned hfree
        refine ⟨u, ?_, hu, ?_⟩
        · rw [hnext, hrun, List.length_cons, Nat.add_assoc, Nat.add_comm 1]
          rfl
        · simp [hlog, hlogged, scriptEvents, hstep]

/-- Running a script does what typing its commands does, as long as no handler that gets invoked goes
on otherwise because a script is in flight. -/
theorem run_of_typed (hc : c.Reachable) (hidle : c.isRunning = false) {source : Source}
    {lines : List String} (hlines : c.linesOf? source = .ok lines) {groups : List (List Report)}
    (htyped : Typed depth (keptLines c.settings lines) c groups d)
    (hheedless : HeedlessLines depth (keptLines c.settings lines) c) :
    d.log = c.log ++ groups.flatten.map Report.event ∧
      ∃ t, c.run (consoleExecutor depth) source =
          some (.completed (keptLines c.settings lines).length, t) ∧
        t.own = d.own ∧ t.isRunning = false ∧
        t.log = c.log ++ scriptEvents c.settings c.accepted lines groups ++
          [.shown (completionMessage source)] := by
  obtain ⟨u, hrun, hown, hlog⟩ := runLines_of_typed htyped hheedless (c.departure source)
    (s := c.departed source) rfl rfl rfl
  have hcount : (c.departure source).linesExecuted + (keptLines c.settings lines).length =
      (keptLines c.settings lines).length := Nat.zero_add _
  rw [hcount] at hrun
  have hdeparted : (c.departed source).log = c.log := by
    exact (Session.log_note _ _).trans (List.append_nil _)
  refine ⟨htyped.log_eq, _, hc.sound.run_eq_some hidle hlines hrun, hown, rfl, ?_⟩
  rw [Session.finish, Session.log_note]
  exact congrArg (· ++ _) (hlog.trans (congrArg (· ++ _) hdeparted))

end Replay

/-- A console with the builtin commands and one that panics. -/
def answering : Console :=
  let start : Console :=
    { withBuiltins .default true (fun _ => none) with waitWins := fun _ => true }
  (start.register ⟨"boom", "", "", fun _ => .fail (.panic none)⟩).2

theorem run_of_typed_answering : ∃ d t : Console,
    Typed 1 ["version", "boom"] answering
      [[.shown (.success "DevConsole v1.0.0"),
        .shown (.normal "Type 'help' for a list of commands.")],
      [.shown (.error "Error executing command 'boom': handler panicked")]] d ∧
    HeedlessLines 1 ["version", "boom"] answering ∧
    answering.run (consoleExecutor 1) (.lines ["version", "// two", "pause(0)", "boom"]) =
      some (.completed 2, t) ∧
    t.own = d.own ∧ t.log =
      [.shown (.information "> version"), .executing 0 "version",
        .shown (.success "DevConsole v1.0.0"),
        .shown (.normal "Type 'help' for a list of commands."),
        .shown (.information "Pausing for 0 seconds..."),
        .shown (.information "> boom"), .executing 0 "boom",
        .shown (.error "Error executing command 'boom': handler panicked"),
        .shown (.success "Script execution completed")] := by
  have hreachable : answering.Reachable := .register _ (.withBuiltins ..)
  have htyping : ((answering.execute 1 "version").bind fun first =>
      (first.2.execute 1 "boom").map fun second => (first.2.story, second.2.story)) =
        some ([.reported (.shown (.success "DevConsole v1.0.0")),
            .reported (.shown (.normal "Type 'help' for a list of commands."))],
          [.reported (.shown (.success "DevConsole v1.0.0")),
            .reported (.shown (.normal "Type 'help' for a list of commands.")),
            .reported (.shown (.error "Error executing command 'boom': handler panicked"))]) := by
    decide +kernel
  obtain ⟨⟨_, mid⟩, hversion, hrest⟩ := Option.bind_eq_some_iff.mp htyping
  obtain ⟨⟨_, d⟩, hboom, hstories⟩ := Option.map_eq_some_iff.mp hrest
  obtain ⟨hmid, hd⟩ := Prod.mk.inj hstories
  have htyped : Typed 1 ["version", "boom"] answering
      [[.shown (.success "DevConsole v1.0.0"),
        .shown (.normal "Type 'help' for a list of commands.")],
      [.shown (.error "Error executing command 'boom': handler panicked")]] d :=
    .cons hversion hmid (.cons hboom (by rw [hd, hmid]; rfl) .nil)
  have hheedless : HeedlessLines 1 ["version", "boom"] answering := by
    refine heedlessLines_of_oblivious (oblivious_register ?_ ?_) _
    · exact oblivious_withBuiltins .default fun _ => none
    · exact fun _ => trivial
  have hkept : keptLines answering.settings ["version", "// two", "pause(0)", "boom"] =
      ["version", "boom"] := by
    decide +kernel
  have hlines : answering.linesOf? (.lines ["version", "// two", "pause(0)", "boom"]) =
      .ok ["version", "// two", "pause(0)", "boom"] := rfl
  obtain ⟨-, t, hrun, hown, -, hlog⟩ :=
    run_of_typed hreachable rfl hlines (hkept ▸ htyped) (hkept ▸ hheedless)
  refine ⟨d, t, htyped, hheedless, ?_, hown, ?_⟩
  · rw [hrun, hkept]
    rfl
  · rw [hlog]
    decide +kernel

/-- A console with a command that tells whether a script is in flight, and one that asks for a
script of no lines. -/
def watching : Console :=
  let watch : Handler := fun _ =>
    .look fun desk => .say (.normal (if desk.scriptRunning then "busy" else "idle")) .done
  let again : Handler := fun _ => .startScript (.lines []) .done
  (((bare .default true fun _ => none).register ⟨"watch", "", "", watch⟩).2.register
    ⟨"again", "", "", again⟩).2

/-- Heedlessness is needed: a handler that acts upon whether a script is in flight does something else
in a script than typed. The one command shows another message. The other one gets its script where
none is in flight, but in a line of a script it is rejected, which is shown. -/
theorem run_watching_ne_typed :
    watching.Reachable ∧ watching.isRunning = false ∧
    (∃ d t, Typed 1 ["watch"] watching [[.shown (.normal "idle")]] d ∧
      watching.run (consoleExecutor 1) (.lines ["watch"]) = some (.completed 1, t) ∧
      t.log = [.shown (.information "> watch"), .executing 0 "watch", .shown (.normal "busy"),
        .shown (.success "Script execution completed")] ∧
      t.log ≠ watching.log ++ scriptEvents watching.settings watching.accepted ["watch"]
        [[.shown (.normal "idle")]] ++ [.shown (completionMessage (.lines ["watch"]))]) ∧
    ∃ d t, watching.execute 1 "again" = some (.ok (.executed 1), d) ∧ d.log = watching.log ∧
      watching.run (consoleExecutor 1) (.lines ["again"]) = some (.completed 1, t) ∧
      t.accepted = 1 ∧
      t.log = [.shown (.information "> again"), .executing 0 "again",
        .shown (.warning "Another script is currently executing"),
        .shown (.success "Script execution completed")] ∧
      t.log ≠ watching.log ++ scriptEvents watching.settings watching.accepted ["again"] [[]] ++
        [.shown (completionMessage (.lines ["again"]))] := by
  have htyping : (watching.execute 1 "watch").map (fun typed => typed.2.story) =
      some [.reported (.shown (.normal "idle"))] := by
    decide +kernel
  have hwatching : (watching.run (consoleExecutor 1) (.lines ["watch"])).map
      (fun played => (played.1, played.2.log)) = some (.completed 1,
        [.shown (.information "> watch"), .executing 0 "watch", .shown (.normal "busy"),
          .shown (.success "Script execution completed")]) := by
    decide +kernel
  have hasking : (watching.execute 1 "again").map (fun typed => (typed.1, typed.2.log)) =
      some (.ok (.executed 1), []) := by
    decide +kernel
  have hrejected : (watching.run (consoleExecutor 1) (.lines ["again"])).map
      (fun played => (played.1, played.2.accepted, played.2.log)) = some (.completed 1, 1,
        [.shown (.information "> again"), .executing 0 "again",
          .shown (.warning "Another script is currently executing"),
          .shown (.success "Script execution completed")]) := by
    decide +kernel
  refine ⟨.register _ (.register _ (.bare .default true _ fun _ => false)), rfl, ?_, ?_⟩
  · obtain ⟨⟨_, d⟩, hwatch, hstory⟩ := Option.map_eq_some_iff.mp htyping
    obtain ⟨⟨_, t⟩, hrun, he⟩ := Option.map_eq_some_iff.mp hwatching
    obtain ⟨rfl, hlog⟩ := Prod.mk.inj he
    refine ⟨d, t, .cons hwatch hstory .nil, hrun, hlog, ?_⟩
    rw [hlog]
    decide +kernel
  · obtain ⟨⟨_, d⟩, hagain, he⟩ := Option.map_eq_some_iff.mp hasking
    obtain ⟨rfl, hsilent⟩ := Prod.mk.inj he
    obtain ⟨⟨_, t⟩, hrun, he⟩ := Option.map_eq_some_iff.mp hrejected
    obtain ⟨rfl, haccepted, hlog⟩ := by simpa only [Prod.mk.injEq] using he
    refine ⟨d, t, hagain, hsilent, hrun, haccepted, hlog, ?_⟩
    rw [hlog]
    decide +kernel

end Console

end CommandConsole
