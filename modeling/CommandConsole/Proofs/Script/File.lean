import CommandConsole.Proofs.Script.Abreast
import CommandConsole.Proofs.Script.Cancellation
import CommandConsole.Proofs.Text.Lines

/-!
# Script files

A script file has its host do what the list of its lines does, whichever line breaks it is written
with and whether or not there is one behind the last line: an empty line that is lost at the end was
to be passed over. Only the message about the end of a script that ran through tells the two apart.
A script whose file cannot be read fails with one message, before it comes to a line.
-/

namespace CommandConsole.Script

section Story

variable {lines? : Source → Except ScriptError (List String)} {script : Nat}

theorem flatMap_spokenBy_eq_nil {story : List Happening}
    (h : ∀ happening ∈ story, happening.script? ≠ some script) :
    story.flatMap (Happening.spokenBy script) = [] :=
  List.flatMap_eq_nil_iff.mpr fun happening hmem =>
    spokenBy_eq_nil (goesOn_eq_false (h happening hmem)) (endedId?_ne (h happening hmem))

/-- A script that said nothing before its end says how it ended and nothing else. -/
theorem Coherent.flatMap_spokenBy_of_ended {before after : List Happening} {source : Source}
    {outcome : Outcome} (h : Coherent lines? (before ++ .ended script source outcome :: after))
    (hsilent : before.flatMap (Happening.spokenBy script) = []) :
    (before ++ .ended script source outcome :: after).flatMap (Happening.spokenBy script) =
      [outcome.closing source] := by
  rw [List.flatMap_append, List.flatMap_cons, hsilent,
    flatMap_spokenBy_eq_nil h.apart_of_ended.2]
  simp [Happening.spokenBy]

/-- A script echoes the lines that it hands over. -/
theorem handedBy_eq_nil {story : List Happening}
    (h : ∀ line, echo line ∉ story.flatMap (Happening.spokenBy script)) :
    handedBy script story = [] := by
  refine List.filterMap_eq_nil_iff.mpr fun happening hmem => ?_
  cases happening with
  | handed other line =>
    have hne : other ≠ script := by
      rintro rfl
      exact h line (List.mem_flatMap.mpr ⟨_, hmem, by simp [Happening.spokenBy]⟩)
    simp [Happening.handedLine?, hne]
  | _ => rfl

end Story

namespace Session

variable {α : Type} {x : Executor α} {s t : Session α} {script : Nat} {path : String}
  {lines : List String}

/-- The sessions agree in all that a host can see but their logs. -/
structure SameStanding (s t : Session α) : Prop where
  own : t.own = s.own
  now : t.now = s.now
  isRunning : t.isRunning = s.isRunning
  results : t.results = s.results

/-- The log where a script came from a file is the one where it came from its lines, with the path
in the message about its end if it ran through. -/
inductive SameLog (script : Nat) (lines : List String) (path : String) (s t : Session α) : Prop
  | inFlight : s.flight?.map Flight.id = some script → t.log = s.log → SameLog script lines path s t
  | failed {text} : .ended script (.lines lines) (.failed text) ∈ s.story → t.log = s.log →
      SameLog script lines path s t
  | completed {n before after} :
      s.story = before ++ .ended script (.lines lines) (.completed n) :: after →
      s.log = before.flatMap Happening.events ++
        .shown (.success "Script execution completed") :: after.flatMap Happening.events →
      t.log = before.flatMap Happening.events ++
        .shown (.success ("Script execution completed: " ++ path)) ::
          after.flatMap Happening.events →
      SameLog script lines path s t

theorem Alike.sameStanding {R : List Happening → List Happening → Prop} (hR : Indifferent R)
    (h : Alike R s t) : SameStanding s t :=
  ⟨h.own_eq, h.now_eq, h.isRunning_eq, h.results_eq hR⟩

/-- A script that runs along in both sessions stands the same in them. -/
theorem Along.sameStanding {a b : Source} (h : Along script a b s t) : SameStanding s t := by
  rcases h with ⟨told, told', outcome, hheard, -, halike⟩ | habreast
  · exact halike.sameStanding (hheard.indifferent script a b outcome)
  · have hpaired := habreast.paired
    exact ⟨hpaired.own_eq, hpaired.now_eq, hpaired.right.trans hpaired.left.symm,
      hpaired.results_eq⟩

/-- What the log tells of a script that has ended. -/
theorem log_of_ended {before after : List Happening} {source : Source} {outcome : Outcome}
    (hstory : s.story = before ++ .ended script source outcome :: after) :
    s.log = before.flatMap Happening.events ++
      .shown (outcome.closing source) :: after.flatMap Happening.events := by
  rw [log, hstory, List.flatMap_append, List.flatMap_cons]
  rfl

theorem Along.sameLog (h : Along script (.lines lines) (.file path) s t) :
    SameLog script lines path s t := by
  rcases h with ⟨told, told', outcome, hheard, houtcome, -, ⟨later, hs, ht⟩, -⟩ | habreast
  · rw [List.append_assoc, List.singleton_append] at hs ht
    have hlog := log_of_ended hs
    have hlog' := log_of_ended ht
    rw [← hheard.events] at hlog'
    cases outcome with
    | completed n => exact .completed hs hlog hlog'
    | failed text =>
      exact .failed (hs ▸ List.mem_append_right _ List.mem_cons_self) (hlog'.trans hlog.symm)
    | rejected | cancelled n => exact houtcome.elim
  · have hlog : t.log = s.log := habreast.paired.heard.events.symm
    cases habreast with
    | ready _ hs _ _ _ _ => exact .inFlight (by rw [hs]; rfl) hlog
    | asleep _ hs _ _ => exact .inFlight (by rw [hs]; rfl) hlog

/-- A script from a file has its host do what one from the lines does. -/
structure Replays (x : Executor α) (lines : List String) (path : String) (s : Session α) :
    Prop where
  /-- Whatever the host does next short of cancelling, it gets the same answers at the same times.
  -/
  idle : s.isRunning = false → ∀ start, start = HostStep.run ∨ start = HostStep.spawn →
    ∀ steps, (∀ step ∈ steps, step ≠ .cancel) →
      Option.Rel (fun p q => p.1 = q.1 ∧ SameStanding p.2 q.2 ∧
          SameLog s.accepted lines path p.2 q.2)
        (takeAll x (start (.lines lines) :: steps) s) (takeAll x (start (.file path) :: steps) s)
  /-- Both are rejected while a script is in flight. -/
  busy : s.isRunning = true → ∀ start, start = HostStep.run ∨ start = HostStep.spawn → ∀ steps,
    Option.Rel (fun p q => p.1 = q.1 ∧ SameStanding p.2 q.2 ∧ q.2.log = p.2.log)
      (takeAll x (start (.lines lines) :: steps) s) (takeAll x (start (.file path) :: steps) s)

/-- A script is in flight whose file cannot be read, or it has failed because of that. It has said
nothing else. -/
inductive Unread (script : Nat) (path : String) (s : Session α) : Prop
  | ahead : s.flight? = some ⟨script, .file path, 0, .ready⟩ → s.readFile path = none →
      s.story.flatMap (Happening.spokenBy script) = [] → Unread script path s
  | failed {told} :
      told ++ [.ended script (.file path) (.failed (ScriptError.fileMissing path).message)] <+:
        s.story →
      told.flatMap (Happening.spokenBy script) = [] → Unread script path s

namespace Unread

theorem request (h : Unread script path s) (source : Source) :
    Unread script path (s.request source).2 := by
  cases h with
  | ahead hflight hread hsilent =>
    rw [Session.request, if_pos (by simp [isRunning, hflight])]
    refine .ahead hflight hread ?_
    rw [note, List.flatMap_append, hsilent]
    rfl
  | failed htold hsilent => exact .failed (prefix_request htold source) hsilent

theorem cancel (h : Unread script path s) : Unread script path s.cancel := by
  cases h with
  | ahead hflight hread hsilent =>
    refine .ahead hflight hread ?_
    rw [Session.cancel, note, List.flatMap_append, hsilent]
    rfl
  | failed htold hsilent => exact .failed (htold.trans (List.prefix_append ..)) hsilent

/-- The script fails as soon as the host waits. -/
theorem wait_eq_of_ahead (x : Executor α) (deadline : Option Nat)
    (hflight : s.flight? = some ⟨script, .file path, 0, .ready⟩) (hread : s.readFile path = none) :
    s.wait x deadline = some ({ s with waits := s.waits + 1 }.finish ⟨script, .file path, 0, .ready⟩
      (.failed (ScriptError.fileMissing path).message)) := by
  rw [Session.wait, resume_ready (s := { s with waits := s.waits + 1 }) hflight rfl]
  simp only [linesOf?, hread]

theorem wait {deadline : Option Nat} (h : Unread script path s)
    (hwait : s.wait x deadline = some t) : Unread script path t := by
  cases h with
  | ahead hflight hread hsilent =>
    obtain rfl := Option.some.inj ((wait_eq_of_ahead x deadline hflight hread).symm.trans hwait)
    exact .failed List.prefix_rfl hsilent
  | failed htold hsilent => exact .failed (prefix_wait htold hwait) hsilent

theorem at_time (h : Unread script path s) (now : Nat) : Unread script path { s with now } := by
  cases h with
  | ahead hflight hread hsilent => exact .ahead hflight hread hsilent
  | failed htold hsilent => exact .failed htold hsilent

/-- Whatever a host does, the script stays in flight unread until it fails. -/
theorem takeAll {steps : List HostStep} {answers : List Answer} (h : Unread script path s)
    (hsteps : takeAll x steps s = some (answers, t)) : Unread script path t := by
  refine takeAll_invariant (P := Unread script path) (fun h htake => ?_) h hsteps
  exact take_invariant (P := Unread script path) (fun source h => h.request source)
    (fun h => h.cancel) (fun _ h hwait => h.wait hwait) (fun now h => h.at_time now) h htake

/-- A script with an unread file that is awaited has failed, and the time is still the same. -/
theorem await (x : Executor α) (hs : s.Sound) (h : Unread script path s) :
    ∃ t, s.await x (.run script) = some (.failed (ScriptError.fileMissing path).message, t) ∧
      t.now = s.now ∧ t.own = s.own ∧ ∃ told later,
        t.story = told ++
          .ended script (.file path) (.failed (ScriptError.fileMissing path).message) :: later ∧
        told.flatMap (Happening.spokenBy script) = [] := by
  cases h with
  | ahead hflight hread hsilent =>
    have hwait := wait_eq_of_ahead x none hflight hread
    have hopen : s.results.lookup script = none := hs.lookup_eq_none hflight
    have hfound := lookup_finish ⟨script, .file path, 0, .ready⟩
      (.failed (ScriptError.fileMissing path).message) { s with waits := s.waits + 1 }
    exact ⟨_, await_of_wait hopen hwait hfound, rfl, rfl, s.story, [], rfl, hsilent⟩
  | @failed told htold hsilent =>
    obtain ⟨later, hlater⟩ := htold
    rw [List.append_assoc, List.singleton_append] at hlater
    refine ⟨s, ?_, rfl, rfl, told, later, hlater.symm, hsilent⟩
    have hknown : (s.results.lookup script).isSome = true :=
      mem_endedIds_iff_lookup.mpr (List.mem_filterMap.mpr
        ⟨_, hlater ▸ List.mem_append_right _ List.mem_cons_self, rfl⟩)
    obtain ⟨outcome, hlookup⟩ := Option.isSome_iff_exists.mp hknown
    obtain ⟨source, hended⟩ := ended_of_lookup hlookup
    -- the script ended once, so the outcome on record is the failure
    have hcoherent := hs.coherent
    rw [IsCoherent, ← hlater] at hcoherent
    have honce := hcoherent.outcomesOf_of_ended
    have hmem : outcome ∈ outcomesOf script s.story :=
      List.mem_filterMap.mpr ⟨_, hended, by simp [Happening.outcome?]⟩
    rw [← hlater, honce, List.mem_singleton] at hmem
    rw [Session.await, hlookup, hmem]

end Unread

/-- A script whose file cannot be read fails, before it comes to a line. -/
structure FailsUnread (x : Executor α) (path : String) (s : Session α) : Prop where
  run : ∃ t, s.run x (.file path) = some (.failed ("Script file not found: " ++ path), t) ∧
    t.log = s.log ++ [.shown (.error ("Script file not found: " ++ path))] ∧
    t.now = s.now ∧ t.own = s.own ∧ t.isRunning = false
  /-- So it does in the background, whatever the host does meanwhile. Behind it, only a script that
  was accepted later can be in flight. -/
  background : ∀ {steps answers t}, takeAll x steps (s.request (.file path)).2 = some (answers, t) →
    ∃ u, t.await x (.run s.accepted) = some (.failed ("Script file not found: " ++ path), u) ∧
      u.story.flatMap (Happening.spokenBy s.accepted) =
        [.error ("Script file not found: " ++ path)] ∧
      handedBy s.accepted u.story = [] ∧ u.now = t.now ∧ u.own = t.own ∧
      ∀ flight ∈ u.flight?, s.accepted < flight.id

theorem Sound.failsUnread (h : Sound s) (hidle : s.isRunning = false)
    (hread : s.readFile path = none) : FailsUnread x path s where
  run := by
    have hlines : s.linesOf? (.file path) = .error (.fileMissing path) := by
      simp only [linesOf?, hread]
    refine ⟨_, h.run_eq_failed hidle hlines, ?_, rfl, rfl, rfl⟩
    have hlog := log_of_ended (s := (s.departed (.file path)).finish (s.departure (.file path))
      (.failed (ScriptError.fileMissing path).message)) rfl
    rw [hlog, departed, Session.note, List.flatMap_append, List.append_assoc]
    rfl
  background := by
    intro steps answers t hsteps
    have hstart : Unread s.accepted path (s.request (.file path)).2 := by
      rw [Session.request, if_neg (by simp [hidle])]
      refine .ahead rfl hread ?_
      have hsilent : s.story.flatMap (Happening.spokenBy s.accepted) = [] :=
        flatMap_spokenBy_eq_nil fun happening hmem hof =>
          Nat.lt_irrefl _ (h.coherent.lt_of_script? hmem hof)
      rw [Session.note, List.flatMap_append, hsilent]
      rfl
    have ht := (h.request (.file path)).takeAll hsteps
    obtain ⟨u, hawait, hnow, hown, told, later, hstory, hsilent⟩ :=
      (hstart.takeAll hsteps).await x ht
    have hu := ht.await hawait
    have hcoherent := hu.coherent
    rw [IsCoherent, hstory] at hcoherent
    have hspoken := hcoherent.flatMap_spokenBy_of_ended hsilent
    rw [← hstory] at hspoken
    refine ⟨u, hawait, hspoken, handedBy_eq_nil fun line hmem => ?_, hnow, hown, ?_⟩
    · rw [hspoken, List.mem_singleton, echo] at hmem
      exact MessageKind.noConfusion (congrArg Message.kind hmem)
    · exact hu.lt_of_ended (hstory ▸ List.mem_append_right _ List.mem_cons_self)

/-- A text is read as the lines it was written of, but for an empty one at the end. -/
theorem exists_linesOf? {text : String} (hread : s.readFile path = some text)
    (hspells : Text.Spells lines text.toList) (hlines : ∀ line ∈ lines, Text.IsLine line) :
    ∃ kept lost, s.linesOf? (.lines lines) = .ok (kept ++ lost) ∧
      s.linesOf? (.file path) = .ok kept ∧ ∀ line ∈ lost, line = "" := by
  obtain ⟨lost, hkept, hlost⟩ := Text.exists_lines_append hspells hlines
  exact ⟨Text.lines text, lost, congrArg Except.ok hkept, by simp only [linesOf?, hread], hlost⟩

/-- A request for a script is rejected whatever its source, while one is in flight. -/
theorem rejected_alike (hrunning : s.isRunning = true) (a b : Source) {start : Source → HostStep}
    (hstart : start = .run ∨ start = .spawn) (steps : List HostStep) :
    Option.Rel (fun p q => p.1 = q.1 ∧ SameStanding p.2 q.2 ∧ q.2.log = p.2.log)
      (takeAll x (start a :: steps) s) (takeAll x (start b :: steps) s) := by
  have hR : Indifferent (SameSince (s.story ++ [.rejected a]) (s.story ++ [.rejected b])) :=
    indifferent_sameSince (by rw [List.countP_append, List.countP_append]; rfl)
      (by rw [List.filterMap_append, List.filterMap_append]; rfl)
  have halike : Alike (SameSince (s.story ++ [.rejected a]) (s.story ++ [.rejected b]))
      (s.note (.rejected a)) (s.note (.rejected b)) :=
    ⟨rfl, sameSince_self _ _, fun _ => rfl⟩
  have hgoes := rel_imp (halike.goOnAlike (x := x) hR steps) fun {p q} hpq => by
    obtain ⟨later, hp, hq⟩ := hpq.2.story
    have hlog : q.2.log = p.2.log := by
      simp only [log, hp, hq, List.flatMap_append, List.flatMap_singleton]
      rfl
    exact And.intro hpq.1 (And.intro (hpq.2.sameStanding hR) hlog)
  have htake : ∃ answer, ∀ source,
      (start source).take x s = some (answer, s.note (.rejected source)) := by
    rcases hstart with rfl | rfl
    · refine ⟨.outcome .rejected, fun source => ?_⟩
      rw [HostStep.take, (request_of_running source hrunning).2.1]
      rfl
    · refine ⟨.ticket (.rejected s.waits), fun source => ?_⟩
      rw [HostStep.take, (request_of_running (x := x) source hrunning).1]
  obtain ⟨answer, htake⟩ := htake
  simp only [Script.takeAll, htake]
  exact rel_map hgoes fun hpq => ⟨congrArg (answer :: ·) hpq.1, hpq.2⟩

/-- A file replays its lines in every session. -/
theorem replays_of_spells {text : String} (hx : x.NeverCancels)
    (hread : s.readFile path = some text) (hspells : Text.Spells lines text.toList)
    (hlines : ∀ line ∈ lines, Text.IsLine line) : Replays x lines path s where
  idle := by
    intro hidle start hstart steps hsteps
    obtain ⟨kept, lost, ha, hb, hlost⟩ := exists_linesOf? hread hspells hlines
    have htake : Option.Rel
        (fun p q => p.1 = q.1 ∧ Along s.accepted (.lines lines) (.file path) p.2 q.2)
        ((start (.lines lines)).take x s) ((start (.file path)).take x s) := by
      rcases hstart with rfl | rfl
      · exact rel_map (run_along hx hidle ha hb hlost) fun hpq =>
          ⟨congrArg Answer.outcome hpq.1, hpq.2⟩
      · refine .some ⟨?_, Or.inr (abreast_request hidle ha hb hlost)⟩
        rw [fst_request_of_idle hidle, fst_request_of_idle hidle]
    refine takeAll_rel (Q := fun u v => SameStanding u v ∧ SameLog s.accepted lines path u v)
      htake fun huv => ?_
    exact rel_imp (huv.takeAll hx hsteps) fun hpq => ⟨hpq.1, hpq.2.sameStanding, hpq.2.sameLog⟩
  busy := fun hrunning _ hstart steps => rejected_alike hrunning _ _ hstart steps

/-- A session executes script files by the lines of which they are written. -/
structure ExecutesFiles (x : Executor α) (s : Session α) : Prop where
  replays : ∀ {path text lines}, x.NeverCancels → s.readFile path = some text →
    Text.Spells lines text.toList → (∀ line ∈ lines, Text.IsLine line) → Replays x lines path s
  fails : ∀ {path}, s.readFile path = none → s.isRunning = false → FailsUnread x path s

/-- Whatever steps a host took from the start, the session executes script files by their lines. -/
theorem executesFiles_of_takeAll {own : α} {settings : ScriptSettings}
    {readFile : String → Option String} {waitWins : Nat → Bool} {before : List HostStep}
    {answers : List Answer}
    (hsteps : takeAll x before { new own settings readFile with waitWins } = some (answers, s)) :
    ExecutesFiles x s where
  replays := replays_of_spells
  fails := fun hread hidle =>
    ((sound_new own settings readFile waitWins).takeAll hsteps).failsUnread hidle hread

/-- A file with line breaks of both kinds, blank lines among others, and one behind the last. -/
def mixedFile (path : String) : Option String :=
  if path = "mixed" then some "again\r\n// note\n\r\npause(1)\nboom\rx\r\n" else none

/-- No line of `restless` cancels. -/
theorem neverCancels_restless : restless.NeverCancels := by
  rintro line own reaction hrun hmem
  obtain rfl := Option.some.inj hrun
  simp only at hmem
  split at hmem <;> simp at hmem

theorem executesFiles_mixedFile : ∃ s,
    takeAll restless [.spawn (.lines ["x"]), .cancel, .await (.run 0)]
      { new () .default mixedFile with waitWins := fun _ => true } =
        some ([.ticket (.run 0), .done, .outcome (.cancelled 0)], s) ∧
    Replays restless ["again", "// note", "", "pause(1)", "boom\rx", ""] "mixed" s ∧
    FailsUnread restless "missing" s := by
  have hanswers : (takeAll restless [.spawn (.lines ["x"]), .cancel, .await (.run 0)]
      { new () .default mixedFile with waitWins := fun _ => true }).map
        (fun p => (p.1, p.2.isRunning, p.2.readFile "mixed", p.2.readFile "missing")) =
          some ([.ticket (.run 0), .done, .outcome (.cancelled 0)], false, mixedFile "mixed",
            none) := by
    decide +kernel
  obtain ⟨⟨answers, s⟩, hsteps, he⟩ := Option.map_eq_some_iff.mp hanswers
  simp only [Prod.mk.injEq] at he
  obtain ⟨rfl, hidle, hread, hmissing⟩ := he
  have hspells : Text.Spells ["again", "// note", "", "pause(1)", "boom\rx", ""]
      "again\r\n// note\n\r\npause(1)\nboom\rx\r\n".toList :=
    .cons "again" .returnFeed (.cons "// note" .feed (.cons "" .returnFeed
      (.cons "pause(1)" .feed (.cons "boom\rx" .returnFeed (.last "")))))
  have hexecutes := executesFiles_of_takeAll hsteps
  exact ⟨s, hsteps,
    hexecutes.replays neverCancels_restless hread hspells (by decide +kernel),
    hexecutes.fails hmissing hidle⟩

/-- Only a cancellation can show that an empty line at the end was lost. -/
example : (takeAll restless [.spawn (.lines [""]), .cancel, .await (.run 0)]
      (new () .default fun _ => some "")).map Prod.fst =
        some [.ticket (.run 0), .done, .outcome (.cancelled 0)] ∧
    (takeAll restless [.spawn (.file "empty"), .cancel, .await (.run 0)]
      (new () .default fun _ => some "")).map Prod.fst =
        some [.ticket (.run 0), .done, .outcome (.completed 0)] := by
  decide +kernel

end Session

end CommandConsole.Script
