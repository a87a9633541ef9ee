import CommandConsole.Proofs.Console.Routing
import CommandConsole.Proofs.Text.Sigma
import CommandConsole.Terminal.Editor

/-!
# Completing the beginning of a name

A known name is suggested for each of its beginnings that is not blank, unless the beginning is cut
behind a capital sigma that ends a word there and none in the name: then the lowercase form of the
beginning is no beginning of the lowercase form of the name. As long as the name is suggested,
typing its beginning and pressing the tab key completes it or offers it.
-/

namespace CommandConsole

open Terminal (Editor EditorAction KeyPress)
open Text (CutsSigma)

variable {names : List String} {name part : String} {rest : List Char}

namespace Completion

/-- A name fits its beginning, unless a sigma is cut off. -/
theorem fits_iff (hbegins : name.toList = part.toList ++ rest) :
    fits part name = true ↔ ¬ CutsSigma [] part.toList rest := by
  rw [fits, List.isPrefixOf_iff_prefix, Text.toList_lowercase, Text.toList_lowercase, hbegins]
  exact Text.lowerAfter_prefix_iff [] part.toList rest

/-- Which of the names are suggested. -/
theorem mem_suggest_iff (hname : name ∈ names) (hpart : Text.isBlank part = false) :
    name ∈ suggest names part ↔ fits part name = true := by
  unfold suggest
  rw [if_neg (by simp [hpart]), List.mem_filter]
  exact and_iff_right hname

/-- A name that is suggested is the only one or one of those that are offered. -/
theorem complete_of_mem (h : name ∈ suggest names part) :
    complete names part = .unique name ∨
      complete names part = .ambiguous (suggest names part) := by
  unfold complete
  cases hsuggest : suggest names part with
  | nil => simp [hsuggest] at h
  | cons first others =>
    cases others with
    | nil =>
      rw [hsuggest, List.mem_singleton] at h
      exact Or.inl (by rw [h]; rfl)
    | cons second others => exact Or.inr rfl

end Completion

namespace Terminal.Editor

/-- The keys that type a text. -/
def typing (cs : List Char) : List KeyPress :=
  cs.map fun c => ⟨.character c, false⟩

/-- Typing a text puts it behind the pending line. -/
theorem pressAll_typing (cs : List Char) (k : KeyPress) (e : Editor) :
    pressAll (typing cs ++ [k]) e = press k ⟨String.ofList (e.buffer.toList ++ cs)⟩ := by
  induction cs generalizing e with
  | nil => simp [typing, pressAll]
  | cons c cs ih =>
    have hstep : pressAll (typing (c :: cs) ++ [k]) e =
        pressAll (typing cs ++ [k]) ⟨e.buffer.push c⟩ := by
      cases htyping : typing cs ++ [k] with
      | nil => simp at htyping
      | cons next later =>
        have hkeys : typing (c :: cs) ++ [k] = ⟨.character c, false⟩ :: next :: later := by
          rw [← htyping]
          rfl
        rw [hkeys, pressAll]
        · exact Turn.pure_bind' _ _
        · simp
    rw [hstep, ih]
    simp

/-- The tab key completes the pending line to a name that is suggested for it, or offers it. -/
theorem press_tab_of_mem {desk : Desk Handler} {e : Editor} {k : KeyPress} (hkey : k.key = .tab)
    (h : name ∈ desk.suggest e.buffer) : ∃ after effects,
      press k e desk = some ⟨(.redraw, after), effects, desk⟩ ∧
      (after.buffer = name ∨ after = e ∧ effects = (offer (desk.suggest e.buffer)).map .say) := by
  have hpress : press k e desk = e.complete desk := by rw [press, hkey]
  rw [hpress, complete, Turn.desk_bind_apply]
  have hcomplete : desk.complete e.buffer = .unique name ∨
      desk.complete e.buffer = .ambiguous (desk.suggest e.buffer) := Completion.complete_of_mem h
  rcases hcomplete with hunique | hambiguous
  · rw [hunique]
    exact ⟨⟨name⟩, [], rfl, Or.inl rfl⟩
  · rw [hambiguous]
    refine ⟨e, (offer (desk.suggest e.buffer)).map .say, ?_, Or.inr ⟨rfl, rfl⟩⟩
    rw [Turn.bind_eq_some_iff]
    exact ⟨_, _, rfl, rfl, by simp⟩

end Terminal.Editor

/-- What completion makes of a beginning of a name, behind which the rest of the name is cut off. -/
structure Completes (names : List String) (name part : String) (rest : List Char) : Prop where
  /-- The name is suggested, unless a sigma is cut off. -/
  suggested : name ∈ Completion.suggest names part ↔ ¬ CutsSigma [] part.toList rest
  /-- So it is for every beginning without a capital sigma. -/
  plain : 'Σ' ∉ part.toList → name ∈ Completion.suggest names part
  /-- Typing the beginning and pressing the tab key gives the name, or offers it with others. -/
  tab : ¬ CutsSigma [] part.toList rest → ∀ desk : Desk Handler, desk.knownNames = names →
    ∀ control, ∃ editor effects,
      Editor.pressAll (Editor.typing part.toList ++ [⟨.tab, control⟩]) .empty desk =
        some ⟨(.redraw, editor), effects, desk⟩ ∧
      (editor.buffer = name ∨ editor.buffer = part ∧
        ∃ offered, name ∈ offered ∧ effects = (Editor.offer offered).map .say)

/-- A known name is suggested for each of its beginnings that is not blank, unless a sigma is cut
off. -/
theorem completes_of_prefix (hname : name ∈ names) (hpart : Text.isBlank part = false)
    (hbegins : name.toList = part.toList ++ rest) : Completes names name part rest := by
  have hsuggested : name ∈ Completion.suggest names part ↔ ¬ CutsSigma [] part.toList rest := by
    rw [Completion.mem_suggest_iff hname hpart, Completion.fits_iff hbegins]
  refine ⟨hsuggested, fun hplain => hsuggested.mpr fun hcut => hplain hcut.mem, ?_⟩
  intro hwhole desk hnames control
  have hbuffer : (⟨String.ofList (Editor.empty.buffer.toList ++ part.toList)⟩ : Editor) =
      ⟨part⟩ := by
    simp [Editor.empty]
  have hmem : name ∈ desk.suggest part := by
    rw [Desk.suggest, hnames]
    exact hsuggested.mpr hwhole
  rw [Editor.pressAll_typing, hbuffer]
  obtain ⟨editor, effects, hpress, hshown⟩ :=
    Editor.press_tab_of_mem (k := ⟨.tab, control⟩) (e := ⟨part⟩) rfl hmem
  refine ⟨editor, effects, hpress, ?_⟩
  rcases hshown with hcompleted | ⟨rfl, hoffered⟩
  · exact Or.inl hcompleted
  · exact Or.inr ⟨rfl, _, hmem, hoffered⟩

theorem completes_of_prefix_sigma : Completes ["ΑΣΑ", "ΑΣΒ", "echo"] "ΑΣΑ" "Α" "ΣΑ".toList ∧
    "ΑΣΑ" ∈ Completion.suggest ["ΑΣΑ", "ΑΣΒ", "echo"] "Α" := by
  have hcompletes : Completes ["ΑΣΑ", "ΑΣΒ", "echo"] "ΑΣΑ" "Α" "ΣΑ".toList :=
    completes_of_prefix (by decide) (by decide +kernel) (by decide)
  exact ⟨hcompletes, hcompletes.plain (by decide)⟩

/-- A name is not suggested for its beginning, which is not blank and cut behind a sigma. -/
theorem not_suggested_sigma : "ΑΣΑ".toList = "ΑΣ".toList ++ "Α".toList ∧
    Text.isBlank "ΑΣ" = false ∧ "ΑΣΑ" ∉ Completion.suggest ["ΑΣΑ"] "ΑΣ" := by
  decide +kernel

end CommandConsole
