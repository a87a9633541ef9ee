import CommandConsole.Proofs.Console.Routing
import CommandConsole.Proofs.History
import CommandConsole.Proofs.Script.Sound
import CommandConsole.Terminal.Editor

/-!
# Submitted lines

A line that cannot be read changes nothing but what is shown. Any other line is remembered after its
handlers have run, so whatever they did to the history, the line is the newest one when it returns:
the next one to be recalled, by the console and by the editor. An editor submits only lines that are
not blank, and lets go of them.
-/

namespace CommandConsole

open Script (Effect Session)
open Terminal (Editor EditorAction KeyPress)

variable {depth : Nat} {line : String} {desk : Desk Handler} {i : Invocation}

/-- A line that cannot be read is reported, and nothing else comes of it. -/
theorem executeLine_of_parse_error {cause : ParseError} (h : Invocation.parse line = .error cause) :
    executeLine (depth + 1) line desk =
      some ⟨.error cause, [.say (.warning cause.message)], desk⟩ := by
  rw [executeLine, h]
  rfl

/-- A line that could be read has been dispatched when it returns, and remembered behind that. -/
theorem executeLine_of_parse_eq_some {done : Turn.Done (Except ParseError Outcome)}
    (h : Invocation.parse line = .ok i) (hdone : executeLine depth line desk = some done) :
    ∃ below outcome effects after,
      dispatch (executeLine below) i desk = some ⟨outcome, effects, after⟩ ∧
        done = ⟨.ok outcome, effects, { after with history := after.history.add line }⟩ := by
  cases depth with
  | zero => exact nomatch hdone
  | succ depth =>
    rw [executeLine_of_parse h, Turn.bind_eq_some_iff] at hdone
    obtain ⟨⟨outcome, effects, after⟩, second, hdispatch, hnext, rfl⟩ := hdone
    obtain rfl := Option.some.inj hnext
    exact ⟨depth, outcome, effects, after, hdispatch, by simp⟩

section Dispatch

variable {execute : String → Turn (Except ParseError Outcome)}

/-- Where no definition answers, that is reported, and nothing else comes of it. -/
theorem dispatch_of_findMatch_error {cause : LookupError}
    (h : desk.registry.findMatch i = .error cause) :
    dispatch execute i desk = some ⟨cause.outcome, [.say cause.report], desk⟩ := by
  rw [dispatch, Turn.desk_bind_apply, h]
  rfl

/-- Only where no definition answers is the outcome that of a missing one. -/
theorem findMatch_error_of_dispatch {outcome : Outcome} {effects : List Effect}
    {after : Desk Handler} (h : dispatch execute i desk = some ⟨outcome, effects, after⟩)
    (houtcome : outcome = .notFound ∨ outcome = .flagNotSupported) :
    ∃ cause, desk.registry.findMatch i = .error cause := by
  cases hmatch : desk.registry.findMatch i with
  | error cause => exact ⟨cause, rfl⟩
  | ok definition =>
    rw [dispatch, Turn.desk_bind_apply, hmatch, Turn.bind_eq_some_iff] at h
    obtain ⟨⟨⟨returned, failure?⟩, _, _⟩, second, -, hnext, hdone⟩ := h
    -- a definition that is called has been executed, or a call of it has failed
    have hcalled : outcome = .executed returned ∨
        ∃ text, outcome = .handlerFailed returned text := by
      cases failure? with
      | none =>
        obtain rfl := Option.some.inj hnext
        exact .inl ((Turn.Done.mk.injEq ..).mp hdone).1
      | some cause =>
        obtain rfl := Option.some.inj hnext
        exact .inr ⟨_, ((Turn.Done.mk.injEq ..).mp hdone).1⟩
    rcases hcalled with rfl | ⟨text, rfl⟩ <;> simp at houtcome

end Dispatch

namespace Terminal.Editor

variable {e : Editor} {k : KeyPress} {done : Turn.Done (EditorAction × Editor)}

/-- What completes the pending line submits nothing. -/
theorem complete_ne_submit (h : e.complete desk = some done) : done.value.1 ≠ .submit line := by
  rw [complete, Turn.desk_bind_apply] at h
  cases hcomplete : desk.complete e.buffer with
  | none | unique _ | ambiguous _ =>
    rw [hcomplete] at h
    obtain rfl := Option.some.inj h
    simp

/-- A key submits the pending line if that is not blank, and leaves none. -/
theorem press_eq_submit (h : e.press k desk = some done) (hsubmit : done.value.1 = .submit line) :
    Text.isBlank line = false ∧ done.value.2 = .empty := by
  rw [press] at h
  cases hkey : k.key with
  | enter =>
    rw [hkey] at h
    obtain rfl := Option.some.inj h
    rw [enter] at hsubmit ⊢
    split at hsubmit
    · exact nomatch hsubmit
    · next hblank =>
      obtain rfl := EditorAction.submit.inj hsubmit
      rw [if_neg hblank]
      exact ⟨by simpa using hblank, rfl⟩
  | tab =>
    rw [hkey] at h
    exact absurd hsubmit (complete_ne_submit h)
  | character c =>
    rw [hkey] at h
    obtain rfl := Option.some.inj h
    simp only [character] at hsubmit
    split at hsubmit
    · split at hsubmit
      · simp at hsubmit
      · split at hsubmit <;> simp at hsubmit
    · simp at hsubmit
  | backspace =>
    rw [hkey] at h
    obtain rfl := Option.some.inj h
    simp only [backspace] at hsubmit
    split at hsubmit <;> simp at hsubmit
  | escape | up | down | other =>
    rw [hkey] at h
    obtain rfl := Option.some.inj h
    simp at hsubmit

/-- What keys submit in the end is not blank, and nothing of it stays pending. -/
theorem pressAll_eq_submit {keys : List KeyPress} (h : pressAll keys e desk = some done)
    (hsubmit : done.value.1 = .submit line) :
    Text.isBlank line = false ∧ done.value.2 = .empty := by
  induction keys generalizing e desk done with
  | nil =>
    obtain rfl := Option.some.inj h
    simp at hsubmit
  | cons k keys ih =>
    cases keys with
    | nil => exact press_eq_submit h hsubmit
    | cons k' keys =>
      rw [pressAll, Turn.bind_eq_some_iff] at h
      · obtain ⟨first, second, -, hrest, rfl⟩ := h
        have hlast := ih hrest
        exact hlast hsubmit
      · simp

end Terminal.Editor

namespace Console

variable {c d : Console}

/-- Recalling the newest line gives it. -/
theorem take_previousLine (h : d.own.history.Newest line) :
    (d.take previousLine).map (·.1) = some (some line) := by
  rw [← h.previous]
  rfl

/-- The key for recalling makes the newest line the pending one. -/
theorem take_press_up (h : d.own.history.Newest line) (control : Bool) (editor : Editor) :
    (d.take (editor.press ⟨.up, control⟩)).map (·.1) = some (.redraw, ⟨line⟩) := by
  have hrecalled : (⟨d.own.history.previous.1.getD ""⟩ : Editor) = ⟨line⟩ := by
    rw [h.previous, Option.getD_some]
  rw [← hrecalled]
  rfl

/-- A line that cannot be read changes nothing but what is shown. -/
theorem execute_of_parse_error {cause : ParseError} (h : Invocation.parse line = .error cause) :
    c.execute (depth + 1) line = some (.error cause,
      { c with story := c.story ++ [.reported (.shown (.warning cause.message))] }) := by
  rw [execute, take, executeLine_of_parse_error h]
  rfl

/-- A line that could be read is dispatched and remembered, and its effects are applied then. -/
theorem execute_of_parse_ok {result : Except ParseError Outcome} (h : Invocation.parse line = .ok i)
    (hexecute : c.execute depth line = some (result, d)) :
    ∃ below outcome effects after,
      dispatch (executeLine below) i c.desk = some ⟨outcome, effects, after⟩ ∧
        result = .ok outcome ∧
        d = (c.withDesk { after with history := after.history.add line }).applyAll effects := by
  obtain ⟨done, hdone, he⟩ := Option.map_eq_some_iff.mp hexecute
  obtain ⟨below, outcome, effects, after, hdispatch, rfl⟩ := executeLine_of_parse_eq_some h hdone
  obtain ⟨rfl, rfl⟩ := Prod.mk.inj he
  exact ⟨below, outcome, effects, after, hdispatch, rfl, rfl⟩

/-- What comes of a line tells whether it could be read. -/
theorem parse_of_execute {result : Except ParseError Outcome}
    (hexecute : c.execute depth line = some (result, d)) :
    (∃ i outcome, Invocation.parse line = .ok i ∧ result = .ok outcome) ∨
      ∃ cause, Invocation.parse line = .error cause ∧ result = .error cause := by
  cases hparse : Invocation.parse line with
  | ok i =>
    obtain ⟨_, outcome, _, _, -, he, -⟩ := execute_of_parse_ok hparse hexecute
    exact .inl ⟨i, outcome, rfl, he⟩
  | error cause =>
    cases depth with
    | zero => exact nomatch hexecute
    | succ depth =>
      rw [execute_of_parse_error hparse] at hexecute
      obtain ⟨rfl, -⟩ := Prod.mk.inj (Option.some.inj hexecute)
      exact .inr ⟨cause, rfl, rfl⟩

/-- A line that could be read is the newest when it returns. -/
theorem newest_of_execute {result : Except ParseError Outcome}
    (hparse : Invocation.parse line = .ok i) (hexecute : c.execute depth line = some (result, d)) :
    d.own.history.Newest line := by
  obtain ⟨_, outcome, effects, after, -, -, rfl⟩ := execute_of_parse_ok hparse hexecute
  rw [Session.own_applyAll]
  exact History.newest_add (Invocation.isBlank_of_parse_eq_ok hparse)

/-- The console behind a line that no definition answers to: the line is remembered, and a message
is shown. -/
def unanswered (c : Console) (line : String) (message : Message) : Console :=
  { c with
    own := { c.own with history := c.own.history.add line }
    story := c.story ++ [.reported (.shown message)] }

/-- A line that no definition answers to is remembered and reported. -/
theorem execute_of_findMatch_error {cause : LookupError} (hparse : Invocation.parse line = .ok i)
    (h : c.own.registry.findMatch i = .error cause) :
    c.execute (depth + 1) line = some (.ok cause.outcome, c.unanswered line cause.report) := by
  have hdispatch : dispatch (executeLine depth) i c.desk = _ := dispatch_of_findMatch_error h
  have hexecute : executeLine (depth + 1) line c.desk = some ⟨.ok cause.outcome,
      [.say cause.report], { c.desk with history := c.desk.history.add line }⟩ := by
    rw [executeLine_of_parse hparse, Turn.bind_eq_some_iff]
    exact ⟨_, _, hdispatch, rfl, rfl⟩
  rw [execute, take, hexecute]
  rfl

/-- Only a line that no definition answers to has the outcome of a missing one. -/
theorem execute_of_unanswered {outcome : Outcome}
    (hexecute : c.execute depth line = some (.ok outcome, d))
    (houtcome : outcome = .notFound ∨ outcome = .flagNotSupported) :
    ∃ cause : LookupError, outcome = cause.outcome ∧ d = c.unanswered line cause.report := by
  rcases parse_of_execute hexecute with ⟨i, _, hparse, -⟩ | ⟨_, -, he⟩
  · obtain ⟨_, _, effects, after, hdispatch, he, -⟩ := execute_of_parse_ok hparse hexecute
    obtain rfl := Except.ok.inj he
    obtain ⟨cause, hmatch⟩ := findMatch_error_of_dispatch hdispatch houtcome
    cases depth with
    | zero => exact nomatch hexecute
    | succ depth =>
      rw [execute_of_findMatch_error hparse hmatch] at hexecute
      obtain ⟨hresult, rfl⟩ := Prod.mk.inj (Option.some.inj hexecute)
      exact ⟨cause, (Except.ok.inj hresult).symm, rfl⟩
  · exact nomatch he

/-- A line that is not blank is not reported as empty. -/
theorem execute_ne_empty (hblank : Text.isBlank line = false) :
    c.execute depth line ≠ some (.error .empty, d) := by
  intro hexecute
  rcases parse_of_execute hexecute with ⟨_, _, -, he⟩ | ⟨cause, hparse, he⟩
  · exact nomatch he
  · obtain rfl := Except.error.inj he
    rw [Invocation.isBlank_of_parse_eq_empty hparse] at hblank
    exact nomatch hblank

/-- What a submitted line does to a console. -/
structure Submits (c : Console) (line : String) : Prop where
  /-- A line that cannot be read returns with one warning, which is all that it changes. -/
  unread : ∀ cause, Invocation.parse line = .error cause → ∀ depth,
    c.execute (depth + 1) line = some (.error cause,
      { c with story := c.story ++ [.reported (.shown (.warning cause.message))] })
  /-- A line that could be read is the newest when it returns, whatever its handlers did: the next
  one to be recalled, and to be put back in the editor. -/
  remembered : ∀ i, Invocation.parse line = .ok i → ∀ depth result d,
    c.execute depth line = some (result, d) →
      (∃ outcome, result = .ok outcome) ∧ d.own.history.Newest line ∧
      (d.take previousLine).map (·.1) = some (some line) ∧
      ∀ control editor,
        (d.take (Editor.press ⟨.up, control⟩ editor)).map (·.1) = some (.redraw, ⟨line⟩)
  /-- A line that no definition answers to returns, remembered and reported by one message, which is
  all that it changes. -/
  missing : ∀ i cause, Invocation.parse line = .ok i → c.own.registry.findMatch i = .error cause →
    ∀ depth, c.execute (depth + 1) line =
      some (.ok cause.outcome, c.unanswered line cause.report)
  /-- No other line has the outcome of a missing command or flag. -/
  unanswered : ∀ depth outcome d, c.execute depth line = some (.ok outcome, d) →
    outcome = .notFound ∨ outcome = .flagNotSupported →
      ∃ cause : LookupError, outcome = cause.outcome ∧ d = c.unanswered line cause.report
  /-- Keys that submit the line, in any state of the editor and the console, leave nothing pending,
  and the line is not blank, so it is not read as empty. -/
  submitted : ∀ keys editor desk pending effects after,
    Editor.pressAll keys editor desk = some ⟨(.submit line, pending), effects, after⟩ →
      Text.isBlank line = false ∧ pending = .empty ∧
      ∀ depth d, c.execute depth line ≠ some (.error .empty, d)

/-- Whatever line is submitted to whatever console, it is either reported as one that cannot be
read, or remembered as the newest. -/
theorem submits (c : Console) (line : String) : Submits c line := by
  refine ⟨fun cause hparse depth => execute_of_parse_error hparse, ?_, ?_, ?_, ?_⟩
  · intro i hparse depth result d hexecute
    have hnewest := newest_of_execute hparse hexecute
    obtain ⟨_, outcome, _, _, -, hresult, -⟩ := execute_of_parse_ok hparse hexecute
    exact ⟨⟨outcome, hresult⟩, hnewest, take_previousLine hnewest, take_press_up hnewest⟩
  · intro i cause hparse hmatch depth
    exact execute_of_findMatch_error hparse hmatch
  · intro depth outcome d hexecute houtcome
    exact execute_of_unanswered hexecute houtcome
  · intro keys editor desk pending effects after hkeys
    obtain ⟨hblank, hpending⟩ := Editor.pressAll_eq_submit hkeys rfl
    exact ⟨hblank, hpending, fun depth d => execute_ne_empty hblank⟩

/-- A handler that executes a line, forgets the history and moves in it does not keep its own line
from being the newest. -/
example :
    let forget : Handler := fun _ =>
      .execute "help" fun _ => .clearHistory (.previousLine fun _ => .fail (.panic none))
    let c : Console := bare .default false fun _ => none
    ((c.register ⟨"forget", "", "", forget⟩).2.execute 2 "forget all").map
        (fun (result, d) => (result, d.own.history.entries, d.own.history.cursor)) =
      some (.ok (.handlerFailed 0 "handler panicked"), ["forget all"], some 1) := by
  decide +kernel

end Console

end CommandConsole
