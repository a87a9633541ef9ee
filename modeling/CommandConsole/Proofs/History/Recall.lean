import CommandConsole.Proofs.History.Retention
import Mathlib.Data.List.Chain
import Mathlib.Data.List.ReduceOption

/-!
# Going through a history

Recall stands at a line, or behind the newest one after a line was added, or nowhere while there are
no lines. Every step goes to a neighbouring line and recalls it, or recalls nothing and stays where
it is. So no sequence of steps leaves the lines or skips one, a step forth and back returns to the
line shown before, and steps back from a line just added recall every line once, the newest first.
-/

namespace CommandConsole.History

/-- The line at which recall stands, if it stands at one. -/
def selected (h : History) : Option String :=
  h.cursor.bind fun index => h.entries[index]?

/-- There is a cursor exactly while there are lines, at one of them or directly behind the last. -/
structure CursorFits (h : History) : Prop where
  none_iff : h.cursor = none ↔ h.entries = []
  le_length : ∀ index, h.cursor = some index → index ≤ h.entries.length

/-- A step in the direction comes from one place to the other. -/
def Direction.Moves : Direction → Nat → Nat → Prop
  | back, start, index => start = index + 1
  | forward, start, index => index = start + 1

/-- What steps recall, one after the other. -/
def recalled : List Direction → History → List (Option String)
  | [], _ => []
  | direction :: directions, h =>
    (h.step direction).1 :: recalled directions (h.step direction).2

/-- The history after steps one after the other. -/
def goThrough (directions : List Direction) (h : History) : History :=
  directions.foldl (fun h direction => (h.step direction).2) h

/-- The line shown last after some steps: the last one that they recalled, or else the one at which
recall stood before them. -/
def shownLast (directions : List Direction) (h : History) : Option String :=
  (recalled directions h).reduceOption.getLast?.or h.selected

/-- One of two lines follows directly upon the other. -/
def Adjacent (entries : List String) (line other : String) : Prop :=
  ∃ index, entries[index]? = some line ∧ entries[index + 1]? = some other ∨
    entries[index]? = some other ∧ entries[index + 1]? = some line

variable {h : History} {direction : Direction} {directions : List Direction} {line : String}

theorem selected_of_cursor {index : Nat} (hcursor : h.cursor = some index) :
    h.selected = h.entries[index]? := by
  rw [selected, hcursor, Option.bind_some]

namespace CursorFits

/-- A step stays where it is, or comes to a line and recalls it. -/
theorem step_cases (hfits : h.CursorFits) (direction : Direction) :
    h.step direction = (none, h) ∨ ∃ start index line, h.cursor = some start ∧
      direction.Moves start index ∧ h.entries[index]? = some line ∧
      h.step direction = (some line, { h with cursor := some index }) := by
  cases hcursor : h.cursor with
  | none =>
    have hempty := hfits.none_iff.mp hcursor
    refine Or.inl ?_
    cases direction with
    | back => rw [step, previous, hcursor]
    | forward => simp [step, next, hcursor, hempty]
  | some start =>
    have hle := hfits.le_length start hcursor
    cases direction with
    | back =>
      cases start with
      | zero => exact Or.inl (by rw [step, previous, hcursor])
      | succ index =>
        have hline : h.entries[index]? = some h.entries[index] := List.getElem?_eq_getElem hle
        refine Or.inr ⟨index + 1, index, _, rfl, rfl, hline, ?_⟩
        simp only [step, previous, hcursor, hline]
    | forward =>
      cases hline : h.entries[start + 1]? with
      | none => exact Or.inl (by simp [step, next, hcursor, hline])
      | some line =>
        refine Or.inr ⟨start, start + 1, line, rfl, rfl, hline, ?_⟩
        simp only [step, next, hcursor, hline]

theorem step (hfits : h.CursorFits) (direction : Direction) :
    (h.step direction).2.CursorFits := by
  rcases hfits.step_cases direction with hstays | ⟨start, index, line, hcursor, -, hline, hstep⟩
  · rw [hstays]
    exact hfits
  · rw [hstep]
    have hlt := (List.getElem?_eq_some_iff.mp hline).1
    refine ⟨iff_of_false (by simp) ?_, fun other hother => ?_⟩
    · exact List.ne_nil_of_length_pos (Nat.zero_lt_of_lt hlt)
    · obtain rfl := Option.some.inj hother
      exact Nat.le_of_lt hlt

/-- Whatever is done with a history, the cursor fits the lines. -/
theorem apply (hfits : h.CursorFits) (operation : Operation) : (operation.apply h).CursorFits := by
  cases operation with
  | add line =>
    by_cases hblank : Text.isBlank line = true
    · rwa [Operation.apply, add, if_pos hblank]
    · obtain ⟨kept, -, hentries⟩ := entries_add (h := h) (by simpa using hblank)
      have hcursor := (newest_add (h := h) (by simpa using hblank)).cursor
      rw [Operation.apply]
      refine ⟨by simp [hcursor, hentries], fun index hindex => ?_⟩
      rw [hcursor] at hindex
      exact Nat.le_of_eq (Option.some.inj hindex).symm
  | step direction => exact hfits.step direction
  | clear => exact ⟨iff_of_true rfl rfl, by simp [Operation.apply, clear]⟩

theorem goThrough (hfits : h.CursorFits) (directions : List Direction) :
    (h.goThrough directions).CursorFits := by
  refine List.foldlRecOn directions _ hfits ?_
  intro h hfits direction _
  exact hfits.step direction

/-- A step that recalls a line came from one place to the line's. -/
theorem step_eq_some (hfits : h.CursorFits) {after : History}
    (hstep : h.step direction = (some line, after)) : ∃ start index, h.cursor = some start ∧
      direction.Moves start index ∧ h.entries[index]? = some line ∧
      after = { h with cursor := some index } := by
  rcases hfits.step_cases direction with hstays | ⟨start, index, _, hcursor, hmoves, hline, hcomes⟩
  · rw [hstays] at hstep
    exact nomatch (Prod.mk.inj hstep).1
  · rw [hcomes] at hstep
    obtain ⟨hsame, rfl⟩ := Prod.mk.inj hstep
    exact ⟨start, index, hcursor, hmoves, hsame ▸ hline, rfl⟩

/-- A step that recalls nothing changes nothing. -/
theorem eq_of_step_none (hfits : h.CursorFits) {after : History}
    (hstep : h.step direction = (none, after)) : after = h := by
  rcases hfits.step_cases direction with hstays | ⟨_, _, _, -, -, -, hcomes⟩
  · rw [hstays] at hstep
    exact (Prod.mk.inj hstep).2.symm
  · rw [hcomes] at hstep
    exact nomatch (Prod.mk.inj hstep).1

/-- A line that is recalled is the one at which recall stands then. -/
theorem selected_of_step (hfits : h.CursorFits) {after : History}
    (hstep : h.step direction = (some line, after)) :
    after.selected = some line ∧ after = { h with cursor := after.cursor } := by
  obtain ⟨_, index, -, -, hline, rfl⟩ := hfits.step_eq_some hstep
  exact ⟨hline, rfl⟩

/-- A line that is recalled next follows upon the one at which recall stood, or goes before it. -/
theorem adjacent_of_step (hfits : h.CursorFits) {shown : String} {after : History}
    (hshown : h.selected = some shown) (hstep : h.step direction = (some line, after)) :
    Adjacent h.entries shown line := by
  obtain ⟨start, index, hcursor, hmoves, hline, -⟩ := hfits.step_eq_some hstep
  rw [selected_of_cursor hcursor] at hshown
  cases direction with
  | back =>
    obtain rfl : start = index + 1 := hmoves
    exact ⟨index, Or.inr ⟨hline, hshown⟩⟩
  | forward =>
    obtain rfl : index = start + 1 := hmoves
    exact ⟨start, Or.inl ⟨hshown, hline⟩⟩

/-- A step back from a line that a step forward came to returns to where that step began. -/
theorem back_of_forward (hfits : h.CursorFits) {after : History}
    (hstep : h.step .forward = (some line, after)) :
    ∃ shown, h.selected = some shown ∧ after.step .back = (some shown, h) := by
  obtain ⟨start, index, hcursor, hmoves, hline, rfl⟩ := hfits.step_eq_some hstep
  obtain rfl : index = start + 1 := hmoves
  have hlt := (List.getElem?_eq_some_iff.mp hline).1
  have hstart : h.entries[start]? = some h.entries[start] :=
    List.getElem?_eq_getElem (Nat.lt_of_succ_lt hlt)
  refine ⟨h.entries[start], (selected_of_cursor hcursor).trans hstart, ?_⟩
  simp only [History.step, previous, hstart, ← hcursor]

/-- A step forward from a line that a step back came to returns to the line at which that step
began, if it began at one. -/
theorem forward_of_back (hfits : h.CursorFits) {shown : String} {after : History}
    (hshown : h.selected = some shown) (hstep : h.step .back = (some line, after)) :
    after.step .forward = (some shown, h) := by
  obtain ⟨start, index, hcursor, hmoves, hline, rfl⟩ := hfits.step_eq_some hstep
  obtain rfl : start = index + 1 := hmoves
  rw [selected_of_cursor hcursor] at hshown
  simp only [History.step, next, hshown, ← hcursor]

/-- After some steps, recall stands at the line that was shown last. -/
theorem selected_goThrough (hfits : h.CursorFits) (directions : List Direction) :
    (h.goThrough directions).selected = h.shownLast directions := by
  induction directions generalizing h with
  | nil => rfl
  | cons direction directions ih =>
    refine (ih (hfits.step direction)).trans ?_
    rw [shownLast, shownLast, recalled]
    rcases hstep : h.step direction with ⟨line?, after⟩
    cases line? with
    | none => rw [List.reduceOption_cons_of_none, hfits.eq_of_step_none hstep]
    | some line =>
      rw [List.reduceOption_cons_of_some, (hfits.selected_of_step hstep).1,
        List.getLast?_cons]
      cases (recalled directions after).reduceOption.getLast? <;> rfl

/-- The lines that steps recall follow upon one another, from the one at which recall stood on. -/
theorem isChain_recalled (hfits : h.CursorFits) (directions : List Direction) :
    List.IsChain (Adjacent h.entries)
      (h.selected.toList ++ (recalled directions h).reduceOption) := by
  induction directions generalizing h with
  | nil =>
    rw [recalled, List.reduceOption_nil, List.append_nil]
    cases h.selected with
    | none => exact .nil
    | some shown => exact .singleton shown
  | cons direction directions ih =>
    have hlater := ih (hfits.step direction)
    rw [(entries_step direction h).1] at hlater
    rw [recalled]
    rcases hstep : h.step direction with ⟨line?, after⟩
    rw [hstep] at hlater
    cases line? with
    | none =>
      obtain rfl := hfits.eq_of_step_none hstep
      exact hlater
    | some line =>
      rw [(hfits.selected_of_step hstep).1] at hlater
      rw [List.reduceOption_cons_of_some]
      cases hshown : h.selected with
      | none => exact hlater
      | some shown => exact .cons_cons (hfits.adjacent_of_step hshown hstep) hlater

end CursorFits

/-- Steps back recall the lines in front of the cursor, the last one first, and nothing behind that.
-/
theorem recalled_replicate_back {n : Nat} (hcursor : h.cursor = some n)
    (hle : n ≤ h.entries.length) (count : Nat) :
    recalled (List.replicate count .back) h =
      (List.range count).map fun i => (h.entries.take n).reverse[i]? := by
  induction count generalizing h n with
  | zero => rfl
  | succ count ih =>
    rw [List.replicate_succ, recalled, List.range_succ_eq_map, List.map_cons, List.map_map]
    cases n with
    | zero =>
      have hstays : h.step .back = (none, h) := by rw [step, previous, hcursor]
      rw [hstays]
      exact congrArg (none :: ·) (ih hcursor hle)
    | succ n =>
      have hline : h.entries[n]? = some h.entries[n] := List.getElem?_eq_getElem hle
      have hmoves : h.step .back = (some h.entries[n], { h with cursor := some n }) := by
        simp only [step, previous, hcursor, hline]
      have htake : (h.entries.take (n + 1)).reverse = h.entries[n] :: (h.entries.take n).reverse := by
        rw [List.take_add_one, hline, Option.toList_some, List.reverse_append]
        rfl
      rw [hmoves, htake]
      exact congrArg (some h.entries[n] :: ·)
        (ih (h := { h with cursor := some n }) rfl (Nat.le_of_succ_le hle))

/-- However recall goes through a history, it neither leaves the lines nor skips one. -/
structure WalksAlong (h : History) : Prop where
  cursor_none_iff : h.cursor = none ↔ h.entries = []
  cursor_le : ∀ index, h.cursor = some index → index ≤ h.entries.length
  /-- A line that is recalled is the one at the new place of the cursor, and only that changes. -/
  recalls : ∀ direction line after, h.step direction = (some line, after) →
    after.selected = some line ∧ after = { h with cursor := after.cursor }
  /-- A step that recalls nothing changes nothing. -/
  stays : ∀ direction after, h.step direction = (none, after) → after = h
  /-- Steps back from a line that was added recall each line once, the newest first, and nothing
  behind that. -/
  backwards : ∀ line, Text.isBlank line = false → (h.add line).selected = none ∧
    (h.add line).entries.Nodup ∧ ∀ count, recalled (List.replicate count .back) (h.add line) =
      (List.range count).map fun i => (h.add line).entries.reverse[i]?
  /-- Of the lines that steps recall, each follows directly upon the one before or goes before it. -/
  neighbours : ∀ directions,
    List.IsChain (Adjacent h.entries) (recalled directions h).reduceOption
  /-- A step back after a step forward recalls the line shown before both. -/
  returnsBack : ∀ directions line after,
    (h.goThrough directions).step .forward = (some line, after) →
      ∃ shown, h.shownLast directions = some shown ∧
        after.step .back = (some shown, h.goThrough directions)
  /-- A step forward after a step back recalls the line shown before both, if recall was at one. -/
  returnsForward : ∀ directions line shown after,
    (h.goThrough directions).selected = some shown →
    (h.goThrough directions).step .back = (some line, after) →
      h.shownLast directions = some shown ∧
        after.step .forward = (some shown, h.goThrough directions)

theorem cursorFits_ofOperations (capacity : Nat) (operations : List Operation) :
    (ofOperations capacity operations).CursorFits := by
  have hnew : (withCapacity capacity).CursorFits :=
    ⟨iff_of_true rfl rfl, by simp [withCapacity]⟩
  refine List.foldlRecOn operations Operation.apply hnew ?_
  intro h hfits operation _
  exact hfits.apply operation

/-- Whatever was done with a history of whatever capacity, recall walks along its lines. -/
theorem walksAlong_ofOperations (capacity : Nat) (operations : List Operation) :
    WalksAlong (ofOperations capacity operations) := by
  have hfits := cursorFits_ofOperations capacity operations
  refine
    { cursor_none_iff := hfits.none_iff
      cursor_le := hfits.le_length
      recalls := fun direction line after hstep => hfits.selected_of_step hstep
      stays := fun direction after hstep => hfits.eq_of_step_none hstep
      backwards := fun line hline => ?_
      neighbours := fun directions => ?_
      returnsBack := fun directions line after hstep => ?_
      returnsForward := fun directions line shown after hshown hstep => ?_ }
  · have hcursor := (newest_add (h := ofOperations capacity operations) hline).cursor
    have hadded : (ofOperations capacity operations).add line =
        ofOperations capacity (operations ++ [.add line]) := by
      rw [ofOperations_append]
      rfl
    refine ⟨?_, ?_, fun count => ?_⟩
    · rw [selected_of_cursor hcursor, List.getElem?_eq_none (Nat.le_refl _)]
    · rw [hadded]
      exact nodup_entries_ofOperations capacity _
    · rw [recalled_replicate_back hcursor (Nat.le_refl _), List.take_length]
  · exact (hfits.isChain_recalled directions).right_of_append
  · obtain ⟨shown, hshown, hback⟩ := (hfits.goThrough directions).back_of_forward hstep
    exact ⟨shown, (hfits.selected_goThrough directions).symm.trans hshown, hback⟩
  · exact ⟨(hfits.selected_goThrough directions).symm.trans hshown,
      (hfits.goThrough directions).forward_of_back hshown hstep⟩

end CommandConsole.History
