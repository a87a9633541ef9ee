import CommandConsole.Proofs.Console.Builtins
import CommandConsole.Proofs.Console.Lasting

/-!
# Handlers that do not heed scripts

A handler can see whether a script is in flight, and go on in another way if one is. On a desk a
program is heedless if it does not: whenever it looks at the console, it goes on as it would while a
script is in flight, and so do the handlers of the lines that it executes. A line does the same
typed and as a line of a script if all handlers that get invoked are heedless. Nothing is asked of
other handlers. Where no handler ever heeds scripts, and none registers one that does, all lines do
the same in both ways.
-/

namespace CommandConsole

open Script (Effect)
open Turn (Keeps)

/-- A registration comes to the same while a script is in flight. -/
theorem Desk.register_during (definition : Definition Handler) (desk : Desk Handler) :
    (desk.during true).register definition = (desk.register definition).map (·.during true) := by
  have hregistry : (desk.during true).registry = desk.registry := rfl
  rw [register, register, hregistry]
  cases desk.registry.register definition <;> rfl

namespace Turn

variable {α β : Type} {turn : Turn α} {desk : Desk Handler}

/-- What a turn leaves behind while a script is in flight. -/
def Done.duringScript (done : Done α) : Done α :=
  { done with desk := done.desk.during true }

/-- On this desk the turn gives and does the same while a script is in flight. -/
def Overlooks (turn : Turn α) (desk : Desk Handler) : Prop :=
  turn (desk.during true) = (turn desk).map Done.duringScript

theorem Overlooks.bind {next : α → Turn β} (hturn : turn.Overlooks desk)
    (hnext : ∀ first, turn desk = some first → (next first.value).Overlooks first.desk) :
    (turn >>= next).Overlooks desk := by
  change Turn.bind turn next (desk.during true) = (Turn.bind turn next desk).map Done.duringScript
  simp only [Turn.bind, show turn (desk.during true) = _ from hturn]
  cases hfirst : turn desk with
  | none => rfl
  | some first =>
    have hsecond : next first.value (first.desk.during true) = _ := hnext first hfirst
    simp only [Option.map_some, Done.duringScript, hsecond]
    cases next first.value first.desk <;> rfl

/-- A turn that returns and does the same is followed by one that does the same. -/
theorem Overlooks.bind_of_eq_some {next : α → Turn β} {first : Done α} (hturn : turn.Overlooks desk)
    (hfirst : turn desk = some first) (hnext : (next first.value).Overlooks first.desk) :
    (turn >>= next).Overlooks desk := by
  refine hturn.bind fun other hother => ?_
  obtain rfl := Option.some.inj (hfirst.symm.trans hother)
  exact hnext

/-- Turning to the desk, where it does not matter whether a script is in flight. -/
theorem overlooks_desk_bind {next : Desk Handler → Turn β}
    (hsame : next (desk.during true) = next desk) (hnext : (next desk).Overlooks desk) :
    (Turn.desk >>= next).Overlooks desk := by
  rw [Overlooks, desk_bind_apply, desk_bind_apply, hsame]
  exact hnext

theorem overlooks_act (effect : Effect) : Overlooks (act effect) desk := by
  cases effect <;> rfl

end Turn

section Heedless

variable {execute : String → Turn (Except ParseError Outcome)}
  {inside : String → Desk Handler → Prop} {desk : Desk Handler}

/-- Run on a desk, the program never goes on otherwise because a script is in flight, where `inside`
tells the same of the handlers of a line that it executes. -/
def Program.Heedless (execute : String → Turn (Except ParseError Outcome))
    (inside : String → Desk Handler → Prop) : Program → Desk Handler → Prop
  | .done, _ => True
  | .fail _, _ => True
  | .look next, desk =>
    next (desk.during true).outline = next desk.outline ∧
      (next desk.outline).Heedless execute inside desk
  | .act effect next, desk => next.Heedless execute inside (desk.after effect)
  | .register entry body next, desk =>
    match desk.register (entry.withHandler body) with
    | .ok after => (next none).Heedless execute inside after
    | .error cause => (next (some cause)).Heedless execute inside desk
  | .execute line next, desk =>
    inside line desk ∧ ∀ done, execute line desk = some done →
      (next done.value).Heedless execute inside done.desk
  | .requestExit next, desk => next.Heedless execute inside { desk with exitRequested := true }
  | .clearHistory next, desk =>
    next.Heedless execute inside { desk with history := desk.history.clear }
  | .previousLine next, desk =>
    (next desk.history.previous.1).Heedless execute inside
      { desk with history := desk.history.previous.2 }
  | .nextLine next, desk =>
    (next desk.history.next.1).Heedless execute inside { desk with history := desk.history.next.2 }
  | .keep notes next, desk => next.Heedless execute inside { desk with notes }

/-- No handler that gets invoked while a line is executed on a desk goes on otherwise because a
script is in flight. -/
def LineHeedless : Nat → String → Desk Handler → Prop
  | 0, _, _ => True
  | depth + 1, line, desk =>
    ∀ i definition before args rest effects mid, Invocation.parse line = .ok i →
      desk.registry.findMatch i = .ok definition → i.calls = before ++ args :: rest →
      AllReturn (definition.call (executeLine depth)) before desk effects mid →
      (definition.handler args).Heedless (executeLine depth) (LineHeedless depth) mid

/-- A heedless program does the same while a script is in flight, if the lines that it executes do.
-/
theorem Program.Heedless.overlooks
    (hinside : ∀ line desk, inside line desk → (execute line).Overlooks desk) {p : Program}
    (h : p.Heedless execute inside desk) : (p.run execute).Overlooks desk := by
  induction p generalizing desk with
  | done | fail => rfl
  | look next ih =>
    refine Turn.overlooks_desk_bind ?_ (ih _ h.2)
    rw [h.1]
  | act effect next ih => exact (Turn.overlooks_act effect).bind_of_eq_some rfl (ih h)
  | register entry body next _ ih =>
    rw [Heedless] at h
    refine Turn.Overlooks.bind ?_ fun first hfirst => ?_
    · simp only [Turn.Overlooks, Turn.changeWith, desk.register_during]
      cases desk.register (entry.withHandler body) <;> rfl
    · obtain rfl := Option.some.inj hfirst
      cases hregister : desk.register (entry.withHandler body) with
      | ok after =>
        rw [hregister] at h
        exact ih _ h
      | error cause =>
        rw [hregister] at h
        exact ih _ h
  | execute line next ih =>
    exact (hinside _ _ h.1).bind fun first hfirst => ih _ (h.2 first hfirst)
  | requestExit next ih | clearHistory next ih | keep notes next ih =>
    exact Turn.Overlooks.bind_of_eq_some rfl rfl (ih h)
  | previousLine next ih | nextLine next ih =>
    exact Turn.Overlooks.bind_of_eq_some rfl rfl (ih _ h)

/-- Calls made one after the other do the same while a script is in flight, if each of those that are
made does. -/
theorem overlooks_callAll {call : List String → Turn (Except Failure Unit)}
    {lists : List (List String)}
    (hcall : ∀ before args rest effects mid, lists = before ++ args :: rest →
      AllReturn call before desk effects mid → (call args).Overlooks mid) (returned : Nat) :
    (callAll call returned lists).Overlooks desk := by
  induction lists generalizing desk returned with
  | nil => rfl
  | cons args rest ih =>
    refine (hcall [] args rest [] desk rfl .nil).bind ?_
    rintro ⟨value, effects, mid⟩ hfirst
    cases value with
    | error cause => rfl
    | ok _ =>
      refine ih (fun before args' rest' more last hlists hall => ?_) _
      exact hcall (args :: before) args' rest' _ last (congrArg _ hlists) (.cons hfirst hall)

/-- A line does the same typed and while a script is in flight, if all handlers that get invoked are
heedless. -/
theorem LineHeedless.overlooks {depth : Nat} {line : String} (h : LineHeedless depth line desk) :
    (executeLine depth line).Overlooks desk := by
  induction depth generalizing line desk with
  | zero => rfl
  | succ depth ih =>
    rw [executeLine]
    cases hparse : Invocation.parse line with
    | error cause => rfl
    | ok i =>
      have hdispatch : (dispatch (executeLine depth) i).Overlooks desk := by
        refine Turn.overlooks_desk_bind rfl ?_
        cases hmatch : desk.registry.findMatch i with
        | error cause => rfl
        | ok definition =>
          refine (overlooks_callAll ?_ 0).bind fun first _ => ?_
          · intro before args rest effects mid hlists hall
            have hcall := h i definition before args rest effects mid hparse hmatch hlists hall
            exact hcall.overlooks fun _ _ h => ih h
          · cases first.value.failure? <;> rfl
      exact hdispatch.bind fun first _ => rfl

end Heedless

/-- Whatever the program sees and whatever comes of what it does, it never goes on otherwise because
a script is in flight, and the handlers that it registers do not either. -/
def Program.Oblivious : Program → Prop
  | .done => True
  | .fail _ => True
  | .look next => ∀ view, next (view.during true) = next view ∧ (next view).Oblivious
  | .act _ next => next.Oblivious
  | .register _ body next =>
    (∀ args, (body args).Oblivious) ∧ ∀ refused, (next refused).Oblivious
  | .execute _ next => ∀ result, (next result).Oblivious
  | .requestExit next => next.Oblivious
  | .clearHistory next => next.Oblivious
  | .previousLine next => ∀ line, (next line).Oblivious
  | .nextLine next => ∀ line, (next line).Oblivious
  | .keep _ next => next.Oblivious

/-- No handler on the desk goes on otherwise because a script is in flight. -/
def Desk.Oblivious (desk : Desk Handler) : Prop :=
  ∀ definition ∈ desk.registry.definitions, ∀ args, (definition.handler args).Oblivious

section Oblivious

variable {execute : String → Turn (Except ParseError Outcome)}
  {inside : String → Desk Handler → Prop} {desk : Desk Handler}

theorem Desk.Oblivious.register {definition : Definition Handler} {after : Desk Handler}
    (h : desk.Oblivious) (hnew : ∀ args, (definition.handler args).Oblivious)
    (hregister : desk.register definition = .ok after) : after.Oblivious := by
  have hafter : (desk.register definition).toOption.getD desk = after := by
    rw [hregister]
    rfl
  intro other hother
  rcases Desk.definitions_register (hafter ▸ hother) with hmem | rfl
  · exact h other hmem
  · exact hnew

theorem Desk.Oblivious.after (effect : Effect) (h : desk.Oblivious) :
    (desk.after effect).Oblivious := by
  cases effect <;> exact h

/-- An oblivious program leaves only handlers like itself, if the lines that it executes do. -/
theorem Program.Oblivious.keeps (hexecute : ∀ line, Keeps Desk.Oblivious (execute line))
    {p : Program} (h : p.Oblivious) : Keeps Desk.Oblivious (p.run execute) := by
  induction p with
  | done | fail => exact Turn.keeps_pure _
  | look next ih => exact Turn.keeps_desk_bind fun desk _ => ih _ (h _).2
  | act effect next ih =>
    refine (Turn.keeps_act ?_).bind fun _ => ih h
    exact Desk.Oblivious.after effect
  | register entry body next _ ih =>
    refine (Turn.keeps_changeWith ?_).bind fun refused => ih refused (h.2 refused)
    intro desk hdesk
    cases hregister : desk.register (entry.withHandler body) with
    | ok after => exact hdesk.register h.1 hregister
    | error cause => exact hdesk
  | execute line next ih => exact (hexecute line).bind fun result => ih result (h result)
  | requestExit next ih | clearHistory next ih | keep notes next ih =>
    refine (Turn.keeps_change ?_).bind fun _ => ih h
    exact fun hdesk => hdesk
  | previousLine next ih | nextLine next ih =>
    refine (Turn.keeps_changeWith ?_).bind fun line => ih line (h line)
    exact fun hdesk => hdesk

/-- An oblivious program is heedless wherever all handlers are oblivious. -/
theorem Program.Oblivious.heedless (hexecute : ∀ line, Keeps Desk.Oblivious (execute line))
    (hinside : ∀ line desk, desk.Oblivious → inside line desk) {p : Program} (h : p.Oblivious)
    (hdesk : desk.Oblivious) : p.Heedless execute inside desk := by
  induction p generalizing desk with
  | done | fail => trivial
  | look next ih => exact ⟨(h desk.outline).1, ih _ (h _).2 hdesk⟩
  | act effect next ih => exact ih h (hdesk.after effect)
  | register entry body next _ ih =>
    rw [Heedless]
    cases hregister : desk.register (entry.withHandler body) with
    | ok after => exact ih _ (h.2 _) (hdesk.register h.1 hregister)
    | error cause => exact ih _ (h.2 _) hdesk
  | execute line next ih =>
    exact ⟨hinside line desk hdesk, fun done hdone => ih _ (h _) (hexecute line hdesk hdone)⟩
  | requestExit next ih | clearHistory next ih | keep notes next ih => exact ih h hdesk
  | previousLine next ih | nextLine next ih => exact ih _ (h _) hdesk

theorem Desk.Oblivious.of_findMatch {i : Invocation} {definition : Definition Handler}
    (hdesk : desk.Oblivious) (hmatch : desk.registry.findMatch i = .ok definition)
    (args : List String) : (definition.handler args).Oblivious :=
  hdesk definition (mem_of_findMatch hmatch) args

theorem keeps_oblivious_executeLine (depth : Nat) (line : String) :
    Keeps Desk.Oblivious (executeLine depth line) :=
  keeps_executeLine_of_calls (fun _ hdesk => hdesk)
    (fun hexecute _ _ _ hdesk hmatch args => (hdesk.of_findMatch hmatch args).keeps hexecute) depth
    line

/-- Where all handlers are oblivious, every line is heedless. -/
theorem Desk.Oblivious.lineHeedless (hdesk : desk.Oblivious) (depth : Nat) (line : String) :
    LineHeedless depth line desk := by
  induction depth generalizing desk line with
  | zero => trivial
  | succ depth ih =>
    intro i definition before args rest effects mid _ hmatch _ hall
    have hcall := fun args => hdesk.of_findMatch hmatch args
    have hexecute := keeps_oblivious_executeLine depth
    have hmid : mid.Oblivious := hall.keeps (fun args => (hcall args).keeps hexecute) hdesk
    exact (hcall args).heedless hexecute (fun line desk hdesk => ih hdesk line) hmid

end Oblivious

namespace Program

variable {next : Program}

theorem oblivious_done : Oblivious .done := trivial

theorem Oblivious.say (h : next.Oblivious) (message : Message) :
    (Program.say message next).Oblivious := h

theorem Oblivious.sayAll (h : next.Oblivious) (messages : List Message) :
    (Program.sayAll messages next).Oblivious := by
  induction messages with
  | nil => exact h
  | cons message messages ih => exact ih.say message

theorem Oblivious.requestExit (h : next.Oblivious) : (Program.requestExit next).Oblivious := h

theorem Oblivious.info (h : next.Oblivious) : (Program.info next).Oblivious :=
  fun _ => ⟨rfl, h.sayAll _⟩

/-- To ask for a script is not to look whether one is in flight. -/
theorem Oblivious.startScript (h : next.Oblivious) (source : Script.Source) :
    (Program.startScript source next).Oblivious := by
  intro view
  refine ⟨rfl, ?_⟩
  dsimp only
  split
  · exact h
  · trivial

end Program

namespace Builtins

open Program

theorem oblivious_describe (name : String) : (describe name .done).Oblivious :=
  fun _ => ⟨rfl, oblivious_done.say _⟩

theorem oblivious_help (args : List String) : (help args).Oblivious :=
  fun _ => ⟨rfl, oblivious_done.sayAll _⟩

theorem oblivious_helpOn (args : List String) : (helpOn args).Oblivious := by
  cases args with
  | nil => exact oblivious_done.say _
  | cons name _ => exact oblivious_describe name

theorem oblivious_executeScript (args : List String) : (executeScript args).Oblivious := by
  cases args with
  | nil => exact oblivious_done.say _
  | cons path _ =>
    intro view
    refine ⟨rfl, ?_⟩
    dsimp only
    split
    · exact oblivious_done.startScript _
    · trivial

/-- No builtin command goes on otherwise because a script is in flight. -/
theorem oblivious_of_mem_all {definition : Definition Handler} (hmem : definition ∈ all)
    (args : List String) : (definition.handler args).Oblivious :=
  forall_mem_all oblivious_help oblivious_helpOn oblivious_describe (fun _ => oblivious_done.info)
    (fun _ => oblivious_done.requestExit.say _) (fun _ => oblivious_done.say _)
    (fun _ => oblivious_done.info) oblivious_executeScript hmem args

end Builtins

/-- Where all commands are builtin ones, no handler goes on otherwise because a script is in flight.
-/
theorem Face.IsStock.oblivious {desk : Desk Handler} (h : desk.face.IsStock) : desk.Oblivious :=
  fun _ hmem => Builtins.oblivious_of_mem_all (h _ hmem)

theorem Console.oblivious_withBuiltins (settings : Settings) (readFile : String → Option String) :
    (withBuiltins settings true readFile).own.Oblivious := by
  refine Face.IsStock.oblivious ?_
  rw [face_withBuiltins]
  exact Face.isStock_builtin _ _

end CommandConsole
