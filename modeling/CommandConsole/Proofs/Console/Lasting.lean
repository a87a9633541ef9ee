import CommandConsole.Console.Basic
import CommandConsole.Proofs.Console.Routing
import CommandConsole.Proofs.Script.Host

/-!
# Properties that last

A property of a desk lasts if accepted registrations keep it and it does not depend on the history,
the request to end, the notes and on whether a script is in flight. A lasting property survives whatever handlers do: it holds behind
every program and every line, nested ones included, and at every moment while a program or a line is
under way. An executor that keeps a property of a session's own state keeps it in every step of a
host.
-/

namespace CommandConsole

variable {P : Desk Handler → Prop}

/-- Accepted registrations keep the property, and nothing else that a handler changes bears on it.
-/
structure Desk.Lasting (P : Desk Handler → Prop) : Prop where
  register : ∀ {desk after definition}, P desk → desk.register definition = .ok after → P after
  history : ∀ {desk} history, P desk → P { desk with history }
  exitRequested : ∀ {desk} exitRequested, P desk → P { desk with exitRequested }
  notes : ∀ {desk} notes, P desk → P { desk with notes }
  during : ∀ {desk} running, P desk → P (desk.during running)

/-- Effects keep a lasting property. -/
theorem Desk.Lasting.after (hP : Desk.Lasting P) {desk : Desk Handler} (effect : Script.Effect)
    (h : P desk) : P (desk.after effect) := by
  cases effect with
  | start source => exact hP.during true h
  | record report | cancel => exact h

namespace Turn

variable {α β : Type} {turn : Turn α}

/-- A turn that returns leaves the property as it was. -/
def Keeps (P : Desk Handler → Prop) (turn : Turn α) : Prop :=
  ∀ ⦃desk done⦄, P desk → turn desk = some done → P done.desk

theorem keeps_pure (value : α) : Keeps P (pure value) := by
  intro desk done h hdone
  obtain rfl := Option.some.inj hdone
  exact h

theorem Keeps.bind {next : α → Turn β} (hturn : Keeps P turn)
    (hnext : ∀ value, Keeps P (next value)) : Keeps P (turn >>= next) := by
  intro desk done h hdone
  obtain ⟨first, second, hfirst, hsecond, rfl⟩ := bind_eq_some_iff.mp hdone
  have hkept : P second.desk := hnext _ (hturn h hfirst) hsecond
  exact hkept

/-- Turning to the desk keeps what every way of going on keeps. -/
theorem keeps_desk_bind {next : Desk Handler → Turn β}
    (hnext : ∀ desk, P desk → Keeps P (next desk)) : Keeps P (desk >>= next) := by
  intro desk done h hdone
  rw [desk_bind_apply] at hdone
  exact hnext desk h h hdone

theorem keeps_act {effect : Script.Effect} (heffect : ∀ {desk}, P desk → P (desk.after effect)) :
    Keeps P (act effect) := by
  intro desk done h hdone
  obtain rfl := Option.some.inj hdone
  exact heffect h

theorem keeps_say (message : Message) : Keeps P (say message) := by
  refine keeps_act ?_
  exact fun h => h

theorem keeps_sayAll (messages : List Message) : Keeps P (sayAll messages) := by
  intro desk done h hdone
  obtain rfl := Option.some.inj hdone
  exact h

theorem keeps_changeWith {f : Desk Handler → α × Desk Handler} (hf : ∀ {desk}, P desk → P (f desk).2) :
    Keeps P (changeWith f) := by
  intro desk done h hdone
  obtain rfl := Option.some.inj hdone
  exact hf h

theorem keeps_change {f : Desk Handler → Desk Handler} (hf : ∀ {desk}, P desk → P (f desk)) :
    Keeps P (change f) := by
  intro desk done h hdone
  obtain rfl := Option.some.inj hdone
  exact hf h

theorem keeps_recalling (hP : Desk.Lasting P) (move : History → Option String × History) :
    Keeps P (recalling move) :=
  keeps_changeWith fun h => hP.history _ h

end Turn

open Turn (Keeps)

section Execution

variable {execute : String → Turn (Except ParseError Outcome)}

/-- A program keeps a lasting property if the lines that it executes do. -/
theorem Program.keeps (hP : Desk.Lasting P) (hexecute : ∀ line, Keeps P (execute line))
    (p : Program) : Keeps P (p.run execute) := by
  induction p with
  | done => exact Turn.keeps_pure _
  | fail cause => exact Turn.keeps_pure _
  | look next ih => exact Turn.keeps_desk_bind fun desk _ => ih desk.outline
  | act effect next ih =>
    refine (Turn.keeps_act ?_).bind fun _ => ih
    exact hP.after effect
  | register entry body next _ ih =>
    refine (Turn.keeps_changeWith ?_).bind ih
    intro desk h
    cases hregister : desk.register (entry.withHandler body) with
    | ok after => exact hP.register h hregister
    | error cause => exact h
  | execute line next ih => exact (hexecute line).bind ih
  | requestExit next ih => exact (Turn.keeps_change fun h => hP.exitRequested _ h).bind fun _ => ih
  | clearHistory next ih => exact (Turn.keeps_change fun h => hP.history _ h).bind fun _ => ih
  | previousLine next ih => exact (Turn.keeps_recalling hP _).bind ih
  | nextLine next ih => exact (Turn.keeps_recalling hP _).bind ih
  | keep notes next ih => exact (Turn.keeps_change fun h => hP.notes _ h).bind fun _ => ih

theorem keeps_callAll {call : List String → Turn (Except Failure Unit)}
    (hcall : ∀ args, Keeps P (call args)) (returned : Nat) (lists : List (List String)) :
    Keeps P (callAll call returned lists) := by
  induction lists generalizing returned with
  | nil => exact Turn.keeps_pure _
  | cons args rest ih =>
    refine (hcall args).bind fun result => ?_
    cases result with
    | ok _ => exact ih _
    | error cause => exact Turn.keeps_pure _

/-- Dispatching keeps what the calls of the definition keep. -/
theorem keeps_dispatch {i : Invocation}
    (hcall : ∀ {desk definition}, P desk → desk.registry.findMatch i = .ok definition → ∀ args,
      Keeps P ((definition.handler args).run execute)) :
    Keeps P (dispatch execute i) := by
  refine Turn.keeps_desk_bind fun desk hdesk => ?_
  cases hmatch : desk.registry.findMatch i with
  | error cause => exact (Turn.keeps_say _).bind fun _ => Turn.keeps_pure _
  | ok definition =>
    refine (keeps_callAll (hcall hdesk hmatch) _ _).bind fun report => ?_
    cases report.failure? with
    | none => exact Turn.keeps_pure _
    | some cause => exact (Turn.keeps_say _).bind fun _ => Turn.keeps_pure _

/-- Executing a line keeps what does not depend on the history and is kept by the calls of every
definition that the desk has, if nested lines keep it. -/
theorem keeps_executeLine_of_calls (hhistory : ∀ {desk} history, P desk → P { desk with history })
    (hcalls : ∀ {execute}, (∀ line, Keeps P (execute line)) → ∀ {i desk definition}, P desk →
      desk.registry.findMatch i = .ok definition → ∀ args,
      Keeps P ((definition.handler args).run execute))
    (depth : Nat) (line : String) : Keeps P (executeLine depth line) := by
  induction depth generalizing line with
  | zero => exact fun _ _ _ hdone => nomatch hdone
  | succ depth ih =>
    rw [executeLine]
    cases Invocation.parse line with
    | error cause => exact (Turn.keeps_say _).bind fun _ => Turn.keeps_pure _
    | ok i =>
      refine (keeps_dispatch (hcalls ih)).bind fun outcome => ?_
      exact (Turn.keeps_change fun h => hhistory _ h).bind fun _ => Turn.keeps_pure _

/-- Executing a line keeps a lasting property, whatever the handlers do. -/
theorem keeps_executeLine (hP : Desk.Lasting P) (depth : Nat) (line : String) :
    Keeps P (executeLine depth line) :=
  keeps_executeLine_of_calls hP.history
    (fun hexecute _ _ _ _ _ _ => Program.keeps hP hexecute _) depth line

end Execution

/-- The desks that come up while a program runs, where `inside` tells of those that come up inside a
line which it executes. -/
inductive Program.Meets (execute : String → Turn (Except ParseError Outcome))
    (inside : String → Desk Handler → Desk Handler → Prop) :
    Program → Desk Handler → Desk Handler → Prop
  | here {p desk} : Meets execute inside p desk desk
  | look {next desk moment} : Meets execute inside (next desk.outline) desk moment →
      Meets execute inside (.look next) desk moment
  | act {effect next desk moment} : Meets execute inside next (desk.after effect) moment →
      Meets execute inside (.act effect next) desk moment
  | accepted {entry body next desk after moment} :
      desk.register (entry.withHandler body) = .ok after →
      Meets execute inside (next none) after moment →
      Meets execute inside (.register entry body next) desk moment
  | refused {entry body next desk cause moment} :
      desk.register (entry.withHandler body) = .error cause →
      Meets execute inside (next (some cause)) desk moment →
      Meets execute inside (.register entry body next) desk moment
  | executing {line next desk moment} : inside line desk moment →
      Meets execute inside (.execute line next) desk moment
  | executed {line next desk done moment} : execute line desk = some done →
      Meets execute inside (next done.value) done.desk moment →
      Meets execute inside (.execute line next) desk moment
  | requestExit {next desk moment} :
      Meets execute inside next { desk with exitRequested := true } moment →
      Meets execute inside (.requestExit next) desk moment
  | clearHistory {next desk moment} :
      Meets execute inside next { desk with history := desk.history.clear } moment →
      Meets execute inside (.clearHistory next) desk moment
  | previousLine {next desk moment} :
      Meets execute inside (next desk.history.previous.1)
        { desk with history := desk.history.previous.2 } moment →
      Meets execute inside (.previousLine next) desk moment
  | nextLine {next desk moment} :
      Meets execute inside (next desk.history.next.1)
        { desk with history := desk.history.next.2 } moment →
      Meets execute inside (.nextLine next) desk moment
  | keep {notes next desk moment} : Meets execute inside next { desk with notes } moment →
      Meets execute inside (.keep notes next) desk moment

/-- The desks that come up while a line is executed, also if it does not return: the one at the
start, those inside a call of its definition, and the one at the end. -/
def LineMeets : Nat → String → Desk Handler → Desk Handler → Prop
  | 0, _, desk, moment => moment = desk
  | depth + 1, line, desk, moment =>
    moment = desk ∨
    (∃ i definition before args rest effects mid, Invocation.parse line = .ok i ∧
      desk.registry.findMatch i = .ok definition ∧ i.calls = before ++ args :: rest ∧
      AllReturn (definition.call (executeLine depth)) before desk effects mid ∧
      (definition.handler args).Meets (executeLine depth) (LineMeets depth) mid moment) ∨
    ∃ done, executeLine (depth + 1) line desk = some done ∧ moment = done.desk

/-- The desks that come up while lines are executed one after the other, as they are typed or as a
script has them. -/
inductive LinesMeet (depth : Nat) : List String → Desk Handler → Desk Handler → Prop
  | inside {line rest desk moment} : LineMeets depth line desk moment →
      LinesMeet depth (line :: rest) desk moment
  | behind {line rest desk done moment} : executeLine depth line desk = some done →
      LinesMeet depth rest done.desk moment → LinesMeet depth (line :: rest) desk moment

section Moments

variable {execute : String → Turn (Except ParseError Outcome)}
  {inside : String → Desk Handler → Desk Handler → Prop} {desk moment : Desk Handler}

theorem Program.Meets.keeps (hP : Desk.Lasting P) (hexecute : ∀ line, Keeps P (execute line))
    (hinside : ∀ {line desk moment}, inside line desk moment → P desk → P moment) {p : Program}
    (hmeets : p.Meets execute inside desk moment) (h : P desk) : P moment := by
  induction hmeets with
  | here => exact h
  | look _ ih | refused _ _ ih => exact ih h
  | @act effect _ _ _ _ ih => exact ih (hP.after effect h)
  | accepted hregister _ ih => exact ih (hP.register h hregister)
  | executing hmoment => exact hinside hmoment h
  | executed hdone _ ih => exact ih (hexecute _ h hdone)
  | requestExit _ ih => exact ih (hP.exitRequested _ h)
  | clearHistory _ ih | previousLine _ ih | nextLine _ ih => exact ih (hP.history _ h)
  | keep _ ih => exact ih (hP.notes _ h)

theorem AllReturn.keeps {call : List String → Turn (Except Failure Unit)}
    (hcall : ∀ args, Keeps P (call args)) {lists : List (List String)}
    {effects : List Script.Effect} (hall : AllReturn call lists desk effects moment) (h : P desk) :
    P moment := by
  induction hall with
  | nil => exact h
  | cons hfirst _ ih => exact ih (hcall _ h hfirst)

/-- A lasting property holds at every moment of a line. -/
theorem keeps_of_lineMeets (hP : Desk.Lasting P) {depth : Nat} {line : String}
    (hmeets : LineMeets depth line desk moment) (h : P desk) : P moment := by
  induction depth generalizing line desk moment with
  | zero =>
    obtain rfl : moment = desk := hmeets
    exact h
  | succ depth ih =>
    have hexecute := keeps_executeLine hP depth
    rcases hmeets with rfl | ⟨i, definition, before, args, rest, effects, mid, -, -, -, hall, hmid⟩ |
      ⟨done, hdone, rfl⟩
    · exact h
    · have hcalls := hall.keeps (fun args => (definition.handler args).keeps hP hexecute) h
      exact hmid.keeps hP hexecute (fun hmoment h => ih hmoment h) hcalls
    · exact keeps_executeLine hP (depth + 1) line h hdone

/-- A lasting property holds at every moment of any lines. -/
theorem keeps_of_linesMeet (hP : Desk.Lasting P) {depth : Nat} {lines : List String}
    (hmeets : LinesMeet depth lines desk moment) (h : P desk) : P moment := by
  induction hmeets with
  | inside hmoment => exact keeps_of_lineMeets hP hmoment h
  | behind hdone _ ih => exact ih (keeps_executeLine hP depth _ h hdone)

end Moments

namespace Script.Session

variable {α : Type} {Q : α → Prop} {x : Executor α} {s t : Session α}

private theorem own_perform
    (hx : ∀ {line own reaction}, Q own → x.run line own = some reaction → Q reaction.own)
    {flight : Flight} {line : String} {panic? : Option String} (h : Q s.own)
    (hperform : s.perform x flight line = some (panic?, t)) : Q t.own := by
  obtain ⟨reaction, hreaction, he⟩ := Option.map_eq_some_iff.mp hperform
  obtain ⟨rfl, rfl⟩ := Prod.mk.inj he
  change Q (Session.applyAll _ _).own
  rw [own_applyAll]
  exact hx h hreaction

/-- What the executor keeps of a session's own state is kept while a script goes on. -/
theorem own_resume
    (hx : ∀ {line own reaction}, Q own → x.run line own = some reaction → Q reaction.own)
    {deadline : Option Nat} (h : Q s.own) (hresume : s.resume x deadline = some t) : Q t.own := by
  refine resume_invariant (P := fun s => Q s.own) ?_ ?_ ?_ ?_ ?_ ?_ h hresume
  · exact fun _ _ _ h => h
  · exact fun _ _ h => h
  · exact fun _ _ h => h
  · exact fun h _ hperform => own_perform hx h hperform
  · exact fun _ _ h => h
  · exact fun _ _ _ h => h

/-- What the executor keeps of a session's own state is kept by every step of a host. -/
theorem own_take
    (hx : ∀ {line own reaction}, Q own → x.run line own = some reaction → Q reaction.own)
    {step : HostStep} {answer : Answer} (h : Q s.own) (htake : step.take x s = some (answer, t)) :
    Q t.own := by
  refine take_invariant (P := fun s => Q s.own) ?_ (fun h => h) ?_ (fun _ h => h) h htake
  · intro s source h
    rw [request]
    split <;> exact h
  · intro s t deadline h hwait
    exact own_resume (s := { s with waits := s.waits + 1 }) hx h hwait

end Script.Session

end CommandConsole
