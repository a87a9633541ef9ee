import CommandConsole.Proofs.Command.RegistrationLog
import CommandConsole.Proofs.Console.Lasting
import CommandConsole.Terminal.Editor

/-!
# Names known to completion

Completion has a copy of the registry's names, which every accepted registration renews. So the copy
is the registry's index on every desk that a host, the handlers of typed lines and those of script
lines can bring about, and at every moment while lines are executed. What is suggested is therefore
a part of the names that the help command shows, in the same order and without repetitions.
-/

namespace CommandConsole

open Terminal (Editor KeyPress)

variable {P : Desk Handler → Prop}

/-- The registry came about by registrations, and completion knows its names. -/
def Desk.InStep (d : Desk Handler) : Prop :=
  (∃ operations, d.registry = Registry.ofOperations operations) ∧ d.knownNames = d.registry.names

theorem Registry.ofOperations_append_singleton {η : Type} (operations : List (Operation η))
    (operation : Operation η) :
    ofOperations (operations ++ [operation]) = operation.apply (ofOperations operations) := by
  rw [ofOperations, List.foldl_append]
  rfl

/-- A registration that is accepted renews what completion knows. -/
theorem Desk.InStep.register {d after : Desk Handler} {definition : Definition Handler}
    (h : d.InStep) (hregister : d.register definition = .ok after) : after.InStep := by
  obtain ⟨⟨operations, hregistry⟩, -⟩ := h
  rw [Desk.register] at hregister
  cases haccepted : d.registry.register definition with
  | error cause =>
    rw [haccepted] at hregister
    cases hregister
  | ok registry =>
    rw [haccepted] at hregister
    obtain rfl := Except.ok.inj hregister
    refine ⟨⟨operations ++ [.register definition], ?_⟩, rfl⟩
    rw [Registry.ofOperations_append_singleton, Registry.Operation.apply, ← hregistry, haccepted]
    rfl

theorem Desk.lasting_inStep : Desk.Lasting Desk.InStep where
  register := Desk.InStep.register
  history := fun _ h => h
  exitRequested := fun _ h => h
  notes := fun _ h => h
  during := fun _ h => h

theorem Desk.inStep_new (settings : Settings) (canStartScripts : Bool) :
    Desk.InStep (.new settings canStartScripts) :=
  ⟨⟨[], rfl⟩, rfl⟩

/-- Registering commands one after the other keeps a lasting property. -/
theorem Builtins.registerAll_keeps (hP : Desk.Lasting P) (definitions : List (Definition Handler))
    {desk : Desk Handler} (h : P desk) : P (registerAll definitions desk) := by
  refine List.foldlRecOn definitions _ h fun desk h definition _ => ?_
  cases hregister : desk.register definition with
  | ok after => exact hP.register h hregister
  | error cause => exact h

namespace Console

/-- The turns that a console offers to its host. -/
inductive Offered : {α : Type} → Turn α → Prop
  | execute (depth : Nat) (line : String) : Offered (executeLine depth line)
  | write (message : Message) : Offered (Turn.say message)
  | displayInfo : Offered displayInfo
  | clear : Offered clear
  | requestExit : Offered requestExit
  | previousLine : Offered previousLine
  | nextLine : Offered nextLine
  | clearHistory : Offered clearHistory
  | press (k : KeyPress) (e : Editor) : Offered (e.press k)

/-- The consoles that a host can bring about: it registers commands, takes turns, and lets scripts
run. -/
inductive Operated : Console → Prop
  | bare (settings : Settings) (canStartScripts : Bool) (readFile : String → Option String)
      (waitWins : Nat → Bool) : Operated { bare settings canStartScripts readFile with waitWins }
  | withBuiltins (settings : Settings) (canStartScripts : Bool) (readFile : String → Option String)
      (waitWins : Nat → Bool) :
      Operated { withBuiltins settings canStartScripts readFile with waitWins }
  | register {c : Console} (definition : Definition Handler) : Operated c →
      Operated (c.register definition).2
  | take {α : Type} {turn : Turn α} {c d : Console} {value : α} : Operated c → Offered turn →
      c.take turn = some (value, d) → Operated d
  | step {depth : Nat} {step : Script.HostStep} {c d : Console} {answer : Script.Answer} :
      Operated c → step.take (consoleExecutor depth) c = some (answer, d) → Operated d

theorem keeps_displayInfo : Turn.Keeps P displayInfo :=
  Turn.keeps_desk_bind fun _ _ => Turn.keeps_sayAll _

/-- Key presses change nothing of a desk but its history. -/
theorem keeps_press (hP : Desk.Lasting P) (k : KeyPress) (e : Editor) :
    Turn.Keeps P (e.press k) := by
  rw [Editor.press]
  cases k.key with
  | up | down => exact (Turn.keeps_recalling hP _).bind fun _ => Turn.keeps_pure _
  | tab =>
    refine Turn.keeps_desk_bind fun desk _ => ?_
    cases desk.complete e.buffer with
    | none | unique name => exact Turn.keeps_pure _
    | ambiguous names => exact (Turn.keeps_sayAll _).bind fun _ => Turn.keeps_pure _
  | escape | character c | backspace | enter | other => exact Turn.keeps_pure _

theorem Offered.keeps (hP : Desk.Lasting P) {α : Type} {turn : Turn α} (h : Offered turn) :
    Turn.Keeps P turn := by
  cases h with
  | execute depth line => exact keeps_executeLine hP depth line
  | write message => exact Turn.keeps_say _
  | displayInfo => exact keeps_displayInfo
  | clear =>
    refine (Turn.keeps_act ?_).bind fun _ => keeps_displayInfo
    exact hP.after _
  | requestExit => exact Turn.keeps_change fun h => hP.exitRequested _ h
  | previousLine | nextLine => exact Turn.keeps_recalling hP _
  | clearHistory => exact Turn.keeps_change fun h => hP.history _ h
  | press k e => exact keeps_press hP k e

/-- A lasting property of new desks holds on the desk of every console that a host can bring about.
-/
theorem Operated.lasts (hP : Desk.Lasting P)
    (hnew : ∀ settings canStartScripts, P (.new settings canStartScripts)) {c : Console}
    (h : Operated c) : P c.own := by
  induction h with
  | bare settings canStartScripts readFile waitWins => exact hnew settings canStartScripts
  | withBuiltins settings canStartScripts readFile waitWins =>
    exact Builtins.registerAll_keeps hP _ (hnew settings canStartScripts)
  | @register c definition _ ih =>
    rw [Console.register]
    cases hregister : c.own.register definition with
    | ok desk => exact hP.register ih hregister
    | error cause => exact ih
  | take _ hoffered htake ih =>
    obtain ⟨done, hdone, he⟩ := Option.map_eq_some_iff.mp htake
    obtain ⟨-, rfl⟩ := Prod.mk.inj he
    rw [Script.Session.own_applyAll]
    exact hP.during _ (hoffered.keeps hP (hP.during _ ih) hdone)
  | step _ hstep ih =>
    refine Script.Session.own_take (Q := P) ?_ ih hstep
    intro line own reaction h hrun
    obtain ⟨done, hdone, rfl⟩ := Option.map_eq_some_iff.mp hrun
    exact hP.during _ (keeps_executeLine hP _ _ (hP.during _ h) hdone)

end Console

section Help

variable {execute : String → Turn (Except ParseError Outcome)} {desk : Desk Handler}

/-- A program that only shows messages shows them in their order. -/
theorem Program.run_sayAll (messages : List Message) :
    (Program.sayAll messages .done).run execute desk = some ⟨.ok (), messages.map .say, desk⟩ := by
  induction messages with
  | nil => rfl
  | cons message messages ih =>
    rw [Program.sayAll, List.foldr_cons, Program.run, Turn.bind_eq_some_iff]
    exact ⟨_, _, rfl, ih, rfl⟩

/-- What the help command shows where these are the names. -/
def Builtins.helpMessages (names : List String) : List Message :=
  .success "Available commands:" :: names.map (fun name => .normal ("  " ++ name)) ++
    [.information "Use '[command] -h' for more information on a specific command."]

theorem Builtins.run_help (args : List String) :
    (Builtins.help args).run execute desk =
      some ⟨.ok (), (helpMessages desk.registry.names).map .say, desk⟩ := by
  rw [Builtins.help, Program.run, Turn.desk_bind_apply]
  exact Program.run_sayAll _

/-- A line that names the builtin help command and no flag shows the names. -/
theorem executeLine_help {definition : Definition Handler}
    (hget : desk.registry.get? "help" "" = some definition)
    (hhandler : definition.handler = Builtins.help) {line word : String} {args : List String}
    (htokens : Token.tokenize line = word :: args) (hword : Text.lowercase word = "help")
    (hplain : args.any isFlag = false) (depth : Nat) :
    executeLine (depth + 1) line desk = some ⟨.ok (.executed 1),
      (Builtins.helpMessages desk.registry.names).map .say,
      { desk with history := desk.history.add line }⟩ := by
  have hparse := Invocation.parse_of_tokenize htokens
  rw [hword] at hparse
  have hleading : leadingFlag args = "" := by
    rw [leadingFlag, List.find?_eq_none.mpr (by simpa using hplain), Option.getD_none]
  have hlists : argumentLists args = [args] := by rw [argumentLists, hplain, if_neg (by simp)]
  have hcall : definition.call (executeLine depth) args desk =
      some ⟨.ok (), (Builtins.helpMessages desk.registry.names).map .say, desk⟩ := by
    rw [Definition.call, hhandler]
    exact Builtins.run_help args
  have hroutes : Routes (executeLine depth) "help" args desk (.executed 1)
      ((Builtins.helpMessages desk.registry.names).map .say ++ []) desk := by
    have hall := AllReturn.cons hcall .nil
    rw [← hlists] at hall
    have hexecuted := Routes.executed (hleading ▸ hget) hall
    rwa [hlists] at hexecuted
  rw [executeLine_of_parse hparse, Turn.bind_eq_some_iff]
  refine ⟨_, _, dispatch_eq_some_iff.mpr hroutes, rfl, ?_⟩
  simp only [List.append_nil]

end Help

/-- Completion and the registry of a desk know the same names. -/
structure NamesInStep (d : Desk Handler) : Prop where
  known : d.knownNames = d.registry.names
  increasing : d.knownNames.Pairwise (· < ·)
  named : ∀ name ∈ d.knownNames, Text.isBlank name = false
  /-- Whatever the text, some of the names are suggested, in their order and each once. -/
  suggested : ∀ part, (d.suggest part).Sublist d.registry.names ∧
    (d.suggest part).Pairwise (· < ·) ∧ (d.suggest part).Nodup
  /-- The number of suggestions tells what completion comes to. -/
  completed : ∀ part,
    ((d.suggest part).length = 0 → d.complete part = .none) ∧
    (∀ name, d.suggest part = [name] → d.complete part = .unique name) ∧
    (1 < (d.suggest part).length → d.complete part = .ambiguous (d.suggest part))
  /-- As long as the plain help command is the builtin one, it shows the names that completion knows,
  each once and in their order. -/
  help : ∀ definition, d.registry.get? "help" "" = some definition →
    definition.handler = Builtins.help → ∀ line word args, Token.tokenize line = word :: args →
    Text.lowercase word = "help" → args.any isFlag = false → ∀ depth,
      executeLine (depth + 1) line d = some ⟨.ok (.executed 1),
        (Builtins.helpMessages d.knownNames).map .say,
        { d with history := d.history.add line }⟩

/-- The number of suggestions tells what they allow. -/
theorem Completion.ofSuggestions_of_length (names : List String) :
    (names.length = 0 → ofSuggestions names = .none) ∧
    (∀ name, names = [name] → ofSuggestions names = .unique name) ∧
    (1 < names.length → ofSuggestions names = .ambiguous names) := by
  cases names with
  | nil => simp [ofSuggestions]
  | cons first rest => cases rest <;> simp [ofSuggestions]

theorem Desk.InStep.agrees {d : Desk Handler} (h : d.InStep) : NamesInStep d := by
  obtain ⟨⟨operations, hregistry⟩, hknown⟩ := h
  have hkeeps := Registry.keeps_ofOperations operations
  rw [← hregistry] at hkeeps
  have hincreasing : d.knownNames.Pairwise (· < ·) := hknown ▸ hkeeps.indexed.increasing
  have hsublist : ∀ part, (d.suggest part).Sublist d.knownNames := by
    intro part
    rw [Desk.suggest, Completion.suggest]
    split
    · exact List.nil_sublist _
    · exact List.filter_sublist
  refine
    { known := hknown
      increasing := hincreasing
      named := fun name hmem => ?_
      suggested := fun part => ?_
      completed := fun part => Completion.ofSuggestions_of_length _
      help := fun definition hget hhandler line word args htokens hword hplain depth => ?_ }
  · obtain ⟨definition, hdefinition, rfl⟩ := (hkeeps.indexed.mem_iff name).mp (hknown ▸ hmem)
    exact hkeeps.named _ ((Registry.standing_sublist _).subset (hkeeps.definitions ▸ hdefinition))
  · have hpart := hincreasing.sublist (hsublist part)
    exact ⟨hknown ▸ hsublist part, hpart, hpart.imp fun hlt => ne_of_lt hlt⟩
  · rw [executeLine_help hget hhandler htokens hword hplain depth, hknown]

namespace Console

/-- On every console that a host can bring about, and at every moment while lines are executed on
it, typed or by a script, completion and the registry know the same names. -/
theorem Operated.namesInStep {c : Console} (h : Operated c) :
    NamesInStep c.own ∧ ∀ depth lines running desk,
      LinesMeet depth lines (c.own.during running) desk → NamesInStep desk := by
  have hstep : c.own.InStep := h.lasts Desk.lasting_inStep Desk.inStep_new
  refine ⟨hstep.agrees, fun depth lines running desk hmeets => ?_⟩
  have hduring : (c.own.during running).InStep := Desk.lasting_inStep.during running hstep
  exact (keeps_of_linesMeet Desk.lasting_inStep hmeets hduring).agrees

/-- A console with a command that registers one more for its first argument, which is refused
without one. -/
def learning : Console :=
  let learn : Handler := fun args =>
    .register ⟨args.headD "", "", "", ()⟩ (fun _ => .done) fun _ => .done
  ((withBuiltins .default true fun _ => none).register ⟨"learn", "", "", learn⟩).2

/-- A script that runs in the background registers two commands, one of them twice, and has a
registration refused. -/
theorem namesInStep_learning :
    let script : Script.Source := .lines ["learn zip", "learn", "learn Zap", "learn zip"]
    ∃ d, (learning.request script).2.waitIdle (consoleExecutor 1) = some d ∧
      d.own.knownNames =
        ["Zap", "clear", "echo", "execute_script", "exit", "help", "learn", "version", "zip"] ∧
      d.own.suggest "z" = ["Zap", "zip"] ∧ d.own.complete "zi" = .unique "zip" ∧
      NamesInStep d.own := by
  intro script
  have hrun : ((learning.request script).2.waitIdle (consoleExecutor 1)).map
      (fun d => (d.own.knownNames, d.own.suggest "z", d.own.complete "zi")) = some
        (["Zap", "clear", "echo", "execute_script", "exit", "help", "learn", "version", "zip"],
          ["Zap", "zip"], .unique "zip") := by
    decide +kernel
  obtain ⟨d, hd, he⟩ := Option.map_eq_some_iff.mp hrun
  obtain ⟨hknown, hsuggest, hcomplete⟩ := by simpa only [Prod.mk.injEq] using he
  have hstart : Operated learning := .register _ (.withBuiltins .default true _ fun _ => false)
  have hspawn : (Script.HostStep.spawn script).take (consoleExecutor 1) learning =
      some (.ticket (learning.request script).1, (learning.request script).2) := rfl
  have hwait : Script.HostStep.waitIdle.take (consoleExecutor 1) (learning.request script).2 =
      some (.done, d) := by
    rw [Script.HostStep.take, hd]
    rfl
  have hwaited : Operated d := .step (.step hstart hspawn) hwait
  exact ⟨d, hd, hknown, hsuggest, hcomplete, hwaited.namesInStep.1⟩

end Console

end CommandConsole
