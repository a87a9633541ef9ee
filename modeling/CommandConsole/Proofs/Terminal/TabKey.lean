import CommandConsole.Proofs.Completion
import CommandConsole.Proofs.Console.Names
import CommandConsole.Proofs.Console.Replay

/-!
# The tab key

On every console that a host can bring about, the tab key completes the pending line to the one
registered name that it can be completed to, offers the names if there are several, and does nothing
if there is none. A name to which a line was completed is the only one for itself too, because what
starts with its lowercase form starts with that of the line, so pressing the key again leaves it.
The key changes nothing of the console but what is shown.
-/

namespace CommandConsole

open Terminal (Editor EditorAction)

/-- The name is registered, and its lowercase form starts with the lowercase form of the text. -/
def Registry.Offers {η : Type} (r : Registry η) (part name : String) : Prop :=
  (∃ d ∈ r.definitions, d.name = name) ∧
    (Text.lowercase part).toList <+: (Text.lowercase name).toList

/-- A name that is the only one for a text is the only one for itself. -/
theorem Registry.offers_self_iff {η : Type} {r : Registry η} {part name : String}
    (honly : ∀ other, r.Offers part other ↔ other = name) (other : String) :
    r.Offers name other ↔ other = name := by
  obtain ⟨hregistered, hbegins⟩ := (honly name).mpr rfl
  constructor
  · rintro ⟨hother, hlonger⟩
    exact (honly other).mp ⟨hother, hbegins.trans hlonger⟩
  · rintro rfl
    exact ⟨hregistered, List.prefix_rfl⟩

namespace Desk.InStep

variable {d : Desk Handler} {part name : String}

theorem indexed (h : d.InStep) : d.registry.Indexed := by
  obtain ⟨⟨operations, hregistry⟩, -⟩ := h
  rw [hregistry]
  exact (Registry.keeps_ofOperations operations).indexed

/-- A registered name is not blank. -/
theorem isBlank_of_registered (h : d.InStep)
    (hregistered : ∃ definition ∈ d.registry.definitions, definition.name = name) :
    Text.isBlank name = false :=
  h.agrees.named name (h.2 ▸ (h.indexed.mem_iff name).mpr hregistered)

/-- The names suggested for a text that is not blank are those that the registry offers for it. -/
theorem mem_suggest_iff (h : d.InStep) :
    name ∈ d.suggest part ↔ Text.isBlank part = false ∧ d.registry.Offers part name := by
  rw [Desk.suggest, Completion.suggest, h.2]
  split
  · next hblank => simp [hblank]
  · next hblank =>
    rw [List.mem_filter, h.indexed.mem_iff, Completion.fits, List.isPrefixOf_iff_prefix]
    exact (and_iff_right (by simpa using hblank)).symm

/-- The only name for a text is completed to itself. -/
theorem complete_self (h : d.InStep) (honly : ∀ other, d.registry.Offers part other ↔ other = name) :
    d.complete name = .unique name := by
  have hself := Registry.offers_self_iff honly
  have hnamed := h.isBlank_of_registered ((honly name).mpr rfl).1
  have hsame : (d.suggest name).Perm [name] := by
    refine (List.perm_ext_iff_of_nodup (h.agrees.suggested name).2.2 (List.nodup_singleton _)).mpr ?_
    intro other
    rw [h.mem_suggest_iff, hself, List.mem_singleton]
    exact and_iff_right hnamed
  exact (h.agrees.completed name).2.1 name (List.perm_singleton.mp hsame)

end Desk.InStep

/-- What the tab key does to the pending line follows from what it can be completed to. -/
theorem Terminal.Editor.press_tab (e : Editor) (control : Bool) (desk : Desk Handler) :
    e.press ⟨.tab, control⟩ desk = some
      (match desk.complete e.buffer with
      | .none => ⟨(.nothing, e), [], desk⟩
      | .unique name => ⟨(.redraw, ⟨name⟩), [], desk⟩
      | .ambiguous names => ⟨(.redraw, e), (offer names).map .say, desk⟩) := by
  change e.complete desk = _
  rw [complete, Turn.desk_bind_apply]
  cases desk.complete e.buffer with
  | none => rfl
  | unique name => rfl
  | ambiguous names =>
    rw [Turn.bind_eq_some_iff]
    exact ⟨_, _, rfl, rfl, by simp⟩

namespace Console

variable {c : Console}

/-- The console behind messages that are shown. -/
def showing (messages : List Message) (c : Console) : Console :=
  { c with story := c.story ++ messages.map fun message => .reported (.shown message) }

theorem log_showing (messages : List Message) (c : Console) :
    (c.showing messages).log = c.log ++ messages.map .shown := by
  have hevents := Script.Session.events_reported (messages.map .shown)
  rw [List.map_map, List.map_map] at hevents
  rw [Script.Session.log, showing, List.flatMap_append]
  exact congrArg (c.log ++ ·) hevents

theorem take_press_tab (e : Editor) (control : Bool) (c : Console) :
    c.take (e.press ⟨.tab, control⟩) = some
      (match c.own.complete e.buffer with
      | .none => ((.nothing, e), c)
      | .unique name => ((.redraw, ⟨name⟩), c)
      | .ambiguous names => ((.redraw, e), c.showing (Editor.offer names))) := by
  have hcomplete : c.desk.complete e.buffer = c.own.complete e.buffer := rfl
  rw [take, Editor.press_tab, hcomplete]
  cases c.own.complete e.buffer with
  | none => rfl
  | unique name => rfl
  | ambiguous names =>
    have hrecords : (Editor.offer names).map Script.Effect.say =
        ((Editor.offer names).map .shown).map .record := by
      rw [List.map_map]
      rfl
    have hshown : c.applyAll ((Editor.offer names).map .say) = c.showing (Editor.offer names) := by
      rw [hrecords, Script.Session.applyAll_records, List.map_map]
      rfl
    exact congrArg (fun d => some ((EditorAction.redraw, e), d)) hshown

/-- What the tab key asks for, and the pending line and the console behind it. -/
inductive Tabs (c : Console) (e : Editor) : EditorAction → Editor → Console → Prop
  /-- The line is blank or there is no name for it, and nothing happens. -/
  | nothing : Text.isBlank e.buffer = true ∨ (∀ name, ¬ c.own.registry.Offers e.buffer name) →
      Tabs c e .nothing e c
  /-- There is one name for the line, which becomes the line, and stays it when the key is pressed
  again. -/
  | completed {name : String} : (∀ other, c.own.registry.Offers e.buffer other ↔ other = name) →
      c.own.complete e.buffer = .unique name → c.own.complete name = .unique name →
      (∀ control, c.take (Editor.press ⟨.tab, control⟩ ⟨name⟩) = some ((.redraw, ⟨name⟩), c)) →
      Tabs c e .redraw ⟨name⟩ c
  /-- There are several names for the line, which are shown once each and in their order. -/
  | offered {names : List String} : 1 < names.length → names.Pairwise (· < ·) →
      (∀ name, name ∈ names ↔ c.own.registry.Offers e.buffer name) →
      (c.showing (Editor.offer names)).log = c.log ++ .shown (.normal "Available commands:") ::
        names.map (fun name => .shown (.normal ("  " ++ name))) →
      Tabs c e .redraw e (c.showing (Editor.offer names))

/-- On every console that a host can bring about, and with every pending line, the tab key completes
the line to the only name for it, offers the names for it, or does nothing, and leaves the desk as
it is. -/
theorem Operated.tabs (h : Operated c) (e : Editor) (control : Bool) :
    ∃ action after d, c.take (e.press ⟨.tab, control⟩) = some ((action, after), d) ∧
      Tabs c e action after d ∧ d.own = c.own := by
  have hstep : c.own.InStep := h.lasts Desk.lasting_inStep Desk.inStep_new
  have hoffers : ∀ name, name ∈ c.own.suggest e.buffer ↔
      Text.isBlank e.buffer = false ∧ c.own.registry.Offers e.buffer name :=
    fun name => hstep.mem_suggest_iff
  obtain ⟨hnone, hunique, hambiguous⟩ := hstep.agrees.completed e.buffer
  have hincreasing := (hstep.agrees.suggested e.buffer).2.1
  rw [take_press_tab]
  cases hsuggest : c.own.suggest e.buffer with
  | nil =>
    rw [hnone (by rw [hsuggest, List.length_nil])]
    refine ⟨_, _, _, rfl, .nothing ?_, rfl⟩
    cases hblank : Text.isBlank e.buffer with
    | true => exact Or.inl rfl
    | false =>
      refine Or.inr fun name hoffer => ?_
      have hmem := (hoffers name).mpr ⟨hblank, hoffer⟩
      rw [hsuggest] at hmem
      exact List.not_mem_nil hmem
  | cons name others =>
    -- the line is not blank, as a name is suggested for it
    have hblank : Text.isBlank e.buffer = false :=
      ((hoffers name).mp (hsuggest ▸ List.mem_cons_self)).1
    simp only [hblank, true_and, hsuggest] at hoffers
    cases others with
    | nil =>
      have hcomplete := hunique name hsuggest
      have honly : ∀ other, c.own.registry.Offers e.buffer other ↔ other = name :=
        fun other => (hoffers other).symm.trans List.mem_singleton
      have hself := hstep.complete_self honly
      rw [hcomplete]
      refine ⟨_, _, _, rfl, .completed honly hcomplete hself fun control => ?_, rfl⟩
      rw [take_press_tab, hself]
    | cons second others =>
      rw [hsuggest] at hincreasing
      have hseveral : 1 < (name :: second :: others).length := by simp
      rw [hambiguous (hsuggest ▸ hseveral), hsuggest]
      refine ⟨_, _, _, rfl, .offered hseveral hincreasing hoffers ?_, rfl⟩
      rw [log_showing, Editor.offer, List.map_cons, List.map_map]
      rfl

/-- A console with two names of which one starts with a dotted capital letter, whose lowercase form
has two characters. -/
def dotted : Console :=
  let c := bare .default false fun _ => none
  let c := (c.register ⟨"İzmir", "", "", fun _ => .done⟩).2
  (c.register ⟨"izmir", "", "", fun _ => .done⟩).2

/-- The dotted letter has one name, and the plain one has both. -/
theorem tabs_dotted :
    (∃ d, dotted.take (Editor.press ⟨.tab, false⟩ ⟨"İ"⟩) = some ((.redraw, ⟨"İzmir"⟩), d) ∧
      Tabs dotted ⟨"İ"⟩ .redraw ⟨"İzmir"⟩ d ∧ d.own = dotted.own) ∧
    ∃ d, dotted.take (Editor.press ⟨.tab, false⟩ ⟨"i"⟩) = some ((.redraw, ⟨"i"⟩), d) ∧
      Tabs dotted ⟨"i"⟩ .redraw ⟨"i"⟩ d ∧ d.own = dotted.own ∧
      d.log = [.shown (.normal "Available commands:"), .shown (.normal "  izmir"),
        .shown (.normal "  İzmir")] := by
  have hoperated : Operated dotted :=
    .register _ (.register _ (.bare .default false _ fun _ => false))
  have hcompleted : (dotted.take (Editor.press ⟨.tab, false⟩ ⟨"İ"⟩)).map (·.1) =
      some (.redraw, ⟨"İzmir"⟩) := by
    decide +kernel
  have hoffered : (dotted.take (Editor.press ⟨.tab, false⟩ ⟨"i"⟩)).map
      (fun (done, d) => (done, d.log)) =
        some ((.redraw, ⟨"i"⟩), [.shown (.normal "Available commands:"),
          .shown (.normal "  izmir"), .shown (.normal "  İzmir")]) := by
    decide +kernel
  constructor
  · obtain ⟨action, after, d, htake, htabs, hown⟩ := hoperated.tabs ⟨"İ"⟩ false
    rw [htake] at hcompleted
    obtain ⟨rfl, rfl⟩ := Prod.mk.inj (Option.some.inj hcompleted)
    exact ⟨d, htake, htabs, hown⟩
  · obtain ⟨action, after, d, htake, htabs, hown⟩ := hoperated.tabs ⟨"i"⟩ false
    rw [htake] at hoffered
    obtain ⟨hdone, hlog⟩ := Prod.mk.inj (Option.some.inj hoffered)
    obtain ⟨rfl, rfl⟩ := Prod.mk.inj hdone
    exact ⟨d, htake, htabs, hown, hlog⟩

end Console

end CommandConsole
