import CommandConsole.Console.Basic
import CommandConsole.Proofs.Console.Routing

/-!
# What builtin commands depend on

Lines leave much behind on a desk: they stay in the history, and they may ask for the application to
end. No builtin command looks at any of it, or at whether a script is in flight. What a line of builtin commands gives and does to its
host follows from the face of the desk, which such a line leaves as it was, and it does not depend
on how lines inside of lines are executed, for there are none.
-/

namespace CommandConsole

open Script (Effect)

/-- What builtin commands see of a desk. -/
structure Face where
  registry : Registry Handler
  version : String
  banner : String
  canStartScripts : Bool

def Desk.face (d : Desk Handler) : Face :=
  ⟨d.registry, d.settings.version, d.settings.banner, d.canStartScripts⟩

/-- A desk with a face on which nothing has happened. -/
def Face.desk (face : Face) : Desk Handler where
  settings := { Settings.default with version := face.version, banner := face.banner }
  registry := face.registry
  knownNames := face.registry.names
  history := .withCapacity History.defaultCapacity
  exitRequested := false
  canStartScripts := face.canStartScripts
  scriptRunning := false
  notes := []

@[simp] theorem Face.face_desk (face : Face) : face.desk.face = face := rfl

@[simp] theorem Desk.face_during (running : Bool) (d : Desk Handler) :
    (d.during running).face = d.face := rfl

theorem Desk.face_after (effect : Effect) (d : Desk Handler) : (d.after effect).face = d.face := by
  cases effect <;> rfl

/-- Every command is a builtin one. -/
def Face.IsStock (face : Face) : Prop :=
  ∀ definition ∈ face.registry.definitions, definition ∈ Builtins.all

variable {face : Face}

namespace Turn

variable {ι κ α β : Type}

/-- Whichever of these turns is taken, on whatever desk with this face, gives the same and does the
same to the host. It cancels no script and leaves the face as it was. -/
def Settles (face : Face) (turn : ι → Turn α) : Prop :=
  ∃ value effects, Effect.cancel ∉ effects ∧ ∀ i desk, desk.face = face →
    ∃ after, turn i desk = some ⟨value, effects, after⟩ ∧ after.face = face

theorem settles_pure (value : α) : Settles face fun _ : ι => (pure value : Turn α) :=
  ⟨value, [], List.not_mem_nil, fun _ desk hdesk => ⟨desk, rfl, hdesk⟩⟩

theorem Settles.bind {turn : ι → Turn α} {next : ι → α → Turn β} (hturn : Settles face turn)
    (hnext : ∀ value, Settles face fun i => next i value) :
    Settles face fun i => turn i >>= next i := by
  obtain ⟨value, effects, hcalm, hturn⟩ := hturn
  obtain ⟨result, more, hmore, hnext⟩ := hnext value
  have hboth : Effect.cancel ∉ effects ++ more := by simp [hcalm, hmore]
  refine ⟨result, effects ++ more, hboth, fun i desk hdesk => ?_⟩
  obtain ⟨mid, hmid, hface⟩ := hturn i desk hdesk
  obtain ⟨after, hafter, hkept⟩ := hnext i mid hface
  exact ⟨after, bind_eq_some_iff.mpr ⟨_, _, hmid, hafter, rfl⟩, hkept⟩

/-- Turning to the desk, where only its face matters for how it goes on. -/
theorem Settles.desk_bind {next : ι → Desk Handler → Turn β}
    (hnext : Settles face fun i => next i face.desk)
    (hface : ∀ i desk, desk.face = face → next i desk = next i face.desk) :
    Settles face fun i => Turn.desk >>= next i := by
  obtain ⟨value, effects, hcalm, hnext⟩ := hnext
  refine ⟨value, effects, hcalm, fun i desk hdesk => ?_⟩
  have happly : (Turn.desk >>= next i) desk = next i face.desk desk := by
    rw [desk_bind_apply, hface i desk hdesk]
  obtain ⟨after, hafter, hkept⟩ := hnext i desk hdesk
  exact ⟨after, happly.trans hafter, hkept⟩

/-- Fewer turns give and do the same all the more. -/
theorem Settles.comp {turn : ι → Turn α} (hturn : Settles face turn) (f : κ → ι) :
    Settles face fun k => turn (f k) := by
  obtain ⟨value, effects, hcalm, hturn⟩ := hturn
  exact ⟨value, effects, hcalm, fun k => hturn (f k)⟩

theorem settles_act {effect : Effect} (h : effect ≠ .cancel) :
    Settles face fun _ : ι => act effect := by
  have hcalm : Effect.cancel ∉ [effect] := by simpa using h.symm
  exact ⟨(), [effect], hcalm, fun _ desk hdesk =>
    ⟨desk.after effect, rfl, (desk.face_after effect).trans hdesk⟩⟩

/-- Showing a message and giving a value. -/
theorem settles_say (message : Message) (value : α) :
    Settles face fun _ : ι => say message >>= fun _ => pure value :=
  (settles_act (by simp [Effect.say])).bind fun _ => settles_pure value

theorem settles_change {f : Desk Handler → Desk Handler} (hf : ∀ desk, (f desk).face = desk.face) :
    Settles face fun _ : ι => change f :=
  ⟨(), [], List.not_mem_nil, fun _ desk hdesk => ⟨f desk, rfl, (hf desk).trans hdesk⟩⟩

end Turn

open Turn (Settles)

namespace Program

/-- The program does the same on every desk with this face, however lines are executed. -/
def Settled (face : Face) (p : Program) : Prop :=
  Settles face fun execute => p.run execute

theorem settled_done : Settled face .done :=
  Turn.settles_pure _

theorem settled_fail (cause : Failure) : Settled face (.fail cause) :=
  Turn.settles_pure _

variable {next : Program}

theorem Settled.look {next : Desk Unit → Program} (hnext : (next face.desk.outline).Settled face)
    (hface : ∀ desk : Desk Handler, desk.face = face → next desk.outline = next face.desk.outline) :
    (Program.look next).Settled face := by
  refine Settles.desk_bind hnext fun execute desk hdesk => ?_
  rw [hface desk hdesk]

theorem Settled.act {effect : Effect} (h : next.Settled face) (heffect : effect ≠ .cancel) :
    (Program.act effect next).Settled face :=
  (Turn.settles_act heffect).bind fun _ => h

theorem Settled.say (h : next.Settled face) (message : Message) :
    (Program.say message next).Settled face :=
  h.act (by simp [Effect.say])

theorem Settled.sayAll (h : next.Settled face) (messages : List Message) :
    (Program.sayAll messages next).Settled face := by
  induction messages with
  | nil => exact h
  | cons message messages ih => exact ih.say message

theorem Settled.info (h : next.Settled face) : (Program.info next).Settled face := by
  refine .look (h.sayAll _) fun desk hdesk => ?_
  subst hdesk
  rfl

theorem Settled.requestExit (h : next.Settled face) : (Program.requestExit next).Settled face := by
  have hexit : Settles face fun _ : String → Turn (Except ParseError Outcome) =>
      Turn.change fun desk => { desk with exitRequested := true } :=
    Turn.settles_change fun _ => rfl
  exact hexit.bind fun _ => h

theorem Settled.startScript (h : next.Settled face) (source : Script.Source) :
    (Program.startScript source next).Settled face := by
  refine .look ?_ fun desk hdesk => ?_
  · split
    · exact h.act (by simp)
    · exact settled_fail _
  · subst hdesk
    rfl

end Program

namespace Builtins

open Program

theorem settled_describe (name : String) {next : Program} (h : next.Settled face) :
    (describe name next).Settled face := by
  refine .look (h.say _) fun desk hdesk => ?_
  subst hdesk
  rfl

theorem settled_help (args : List String) : (help args).Settled face := by
  refine .look (settled_done.sayAll _) fun desk hdesk => ?_
  subst hdesk
  rfl

theorem settled_helpOn (args : List String) : (helpOn args).Settled face := by
  cases args with
  | nil => exact settled_done.say _
  | cons name _ => exact settled_describe name settled_done

theorem settled_executeScript (args : List String) : (executeScript args).Settled face := by
  cases args with
  | nil => exact settled_done.say _
  | cons path _ =>
    refine .look ?_ fun desk hdesk => ?_
    · split
      · exact settled_done.startScript _
      · exact settled_fail _
    · subst hdesk
      rfl

/-- Every builtin command has a property if these programs have it. -/
theorem forall_mem_all {Q : Program → Prop} (hhelp : ∀ args, Q (help args))
    (hhelpOn : ∀ args, Q (helpOn args)) (hdescribe : ∀ name, Q (describe name .done))
    (hclear : ∀ args, Q (clear args)) (hexit : ∀ args, Q (exit args))
    (hecho : ∀ args, Q (echo args)) (hversion : ∀ args, Q (version args))
    (hscript : ∀ args, Q (executeScript args)) {definition : Definition Handler}
    (hmem : definition ∈ all) (args : List String) : Q (definition.handler args) := by
  have hwithHelp : ∀ {name description handler}, (∀ args, Q (handler args)) →
      definition ∈ withHelp name description handler → Q (definition.handler args) := by
    intro name description handler hhandler hmem
    rcases List.mem_cons.mp hmem with rfl | hmem
    · exact hhandler args
    · obtain rfl := List.mem_singleton.mp hmem
      exact hdescribe name
  simp only [all, List.mem_append] at hmem
  rcases hmem with (((((hmem | hmem) | hmem) | hmem) | hmem) | hmem)
  · rcases List.mem_cons.mp hmem with rfl | hmem
    · exact hhelp args
    · obtain rfl := List.mem_singleton.mp hmem
      exact hhelpOn args
  · exact hwithHelp hclear hmem
  · exact hwithHelp hexit hmem
  · exact hwithHelp hecho hmem
  · exact hwithHelp hversion hmem
  · exact hwithHelp hscript hmem

/-- Every builtin command does the same on every desk with the same face. -/
theorem settled_of_mem_all {definition : Definition Handler} (hmem : definition ∈ all)
    (args : List String) : (definition.handler args).Settled face :=
  forall_mem_all settled_help settled_helpOn (fun name => settled_describe name settled_done)
    (fun _ => settled_done.info.act (by simp)) (fun _ => settled_done.requestExit.say _)
    (fun _ => settled_done.say _) (fun _ => settled_done.info) settled_executeScript hmem args

end Builtins

section Registering

variable {d e : Desk Handler}

/-- What a registration does to the face follows from the face. -/
theorem Desk.face_register (h : d.face = e.face) (definition : Definition Handler) :
    ((d.register definition).toOption.getD d).face =
      ((e.register definition).toOption.getD e).face := by
  have hregistry : d.registry = e.registry := congrArg Face.registry h
  rw [register, register, hregistry]
  cases e.registry.register definition with
  | error cause => exact h
  | ok registry => exact congrArg (fun face => { face with registry }) h

theorem Builtins.face_registerAll (h : d.face = e.face) (definitions : List (Definition Handler)) :
    (registerAll definitions d).face = (registerAll definitions e).face := by
  induction definitions generalizing d e with
  | nil => exact h
  | cons definition rest ih => exact ih (Desk.face_register h definition)

/-- Registering puts no other definitions on a desk. -/
theorem Desk.definitions_register {definition other : Definition Handler}
    (hmem : other ∈ ((d.register definition).toOption.getD d).registry.definitions) :
    other ∈ d.registry.definitions ∨ other = definition := by
  rw [register, Registry.register] at hmem
  split at hmem
  · next hregister =>
    split at hregister
    · cases hregister
    · obtain rfl := Except.ok.inj hregister
      rcases List.mem_append.mp hmem with hkept | hnew
      · exact Or.inl (List.mem_filter.mp hkept).1
      · exact Or.inr (List.mem_singleton.mp hnew)
  · exact Or.inl hmem

theorem Builtins.definitions_registerAll {definitions : List (Definition Handler)}
    {other : Definition Handler} (hmem : other ∈ (registerAll definitions d).registry.definitions) :
    other ∈ d.registry.definitions ∨ other ∈ definitions := by
  induction definitions generalizing d with
  | nil => exact Or.inl hmem
  | cons definition rest ih =>
    rcases ih hmem with hbefore | hrest
    · rcases Desk.definitions_register hbefore with hd | rfl
      · exact Or.inl hd
      · exact Or.inr List.mem_cons_self
    · exact Or.inr (List.mem_cons_of_mem _ hrest)

end Registering

/-- The face of a desk with the builtin commands. -/
def Face.builtin (version banner : String) : Face :=
  (Builtins.registerAll Builtins.all
    (.new { Settings.default with version, banner } true)).face

theorem Face.isStock_builtin (version banner : String) : (builtin version banner).IsStock := by
  intro definition hmem
  rcases Builtins.definitions_registerAll hmem with hnone | hall
  · cases hnone
  · exact hall

/-- Of its settings, a console with the builtin commands shows the version and the banner. -/
theorem Console.face_withBuiltins (settings : Settings) (readFile : String → Option String) :
    (withBuiltins settings true readFile).own.face =
      .builtin settings.version settings.banner :=
  Builtins.face_registerAll rfl Builtins.all

section Lines

variable {ι : Type}

theorem settles_callAll {call : ι → List String → Turn (Except Failure Unit)}
    (hcall : ∀ args, Settles face fun i => call i args) (returned : Nat)
    (lists : List (List String)) : Settles face fun i => callAll (call i) returned lists := by
  induction lists generalizing returned with
  | nil => exact Turn.settles_pure _
  | cons args rest ih =>
    refine (hcall args).bind fun result => ?_
    cases result with
    | ok _ => exact ih _
    | error cause => exact Turn.settles_pure _

theorem mem_of_findMatch {r : Registry Handler} {i : Invocation} {definition : Definition Handler}
    (h : r.findMatch i = .ok definition) : definition ∈ r.definitions := by
  have hfound : ∀ flag, r.get? i.name flag = some definition → definition ∈ r.definitions :=
    fun _ hget => List.mem_of_find?_eq_some hget
  rw [Registry.findMatch] at h
  split at h
  all_goals
    split at h
    · next hget =>
      obtain rfl := Except.ok.inj h
      exact hfound _ hget
    · cases h

theorem settles_dispatch (hstock : face.IsStock) (i : Invocation) :
    Settles face fun execute => dispatch execute i := by
  refine .desk_bind ?_ fun execute desk hdesk => ?_
  · cases hmatch : face.desk.registry.findMatch i with
    | error cause => exact Turn.settles_say _ _
    | ok definition =>
      have hmem : definition ∈ Builtins.all := hstock _ (mem_of_findMatch hmatch)
      refine (settles_callAll (Builtins.settled_of_mem_all hmem) _ _).bind fun report => ?_
      cases report.failure? with
      | none => exact Turn.settles_pure _
      | some cause => exact Turn.settles_say _ _
  · subst hdesk
    rfl

/-- A line of builtin commands does the same on every desk with the same face, up to whatever depth
lines may be executed inside of it. -/
theorem settles_executeLine (hstock : face.IsStock) (line : String) :
    Settles face fun depth : Nat => executeLine (depth + 1) line := by
  simp only [executeLine]
  cases Invocation.parse line with
  | error cause => exact Turn.settles_say _ _
  | ok i =>
    have hremember : Settles face fun _ : Nat =>
        Turn.change fun desk => { desk with history := desk.history.add line } :=
      Turn.settles_change fun _ => rfl
    refine ((settles_dispatch hstock i).comp executeLine).bind fun outcome => ?_
    exact hremember.bind fun _ => Turn.settles_pure _

end Lines

end CommandConsole
