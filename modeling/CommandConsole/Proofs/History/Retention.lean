import CommandConsole.Proofs.History
import Mathlib.Data.List.Dedup
import Mathlib.Data.List.DropRight
import Mathlib.Data.List.Induction

/-!
# Which lines a history keeps

A history removes an earlier copy of a line that is added, and lines at its front above the
capacity, at every addition. What it keeps in the end is told without these steps: of the lines that
were added since the last clearing and are not blank, each counts at its last place only, and of
these the last ones are kept, up to the capacity. The two agree because a line that was evicted has
a full history of other lines behind it, and stays cut off until it is added again.
-/

namespace CommandConsole.History

/-- The two ways to go through the lines. -/
inductive Direction where
  | back
  | forward
  deriving DecidableEq, Repr

/-- Goes one line back or forward and recalls it, unless there is none. -/
def step : Direction → History → Option String × History
  | .back => previous
  | .forward => next

/-- What is done with a history. -/
inductive Operation where
  | add (line : String)
  | step (direction : Direction)
  | clear
  deriving DecidableEq, Repr

/-- The history after an operation. -/
def Operation.apply (h : History) : Operation → History
  | .add line => h.add line
  | .step direction => (h.step direction).2
  | .clear => h.clear

/-- A new history after operations one after the other. -/
def ofOperations (capacity : Nat) (operations : List Operation) : History :=
  operations.foldl Operation.apply (withCapacity capacity)

/-- The line that is added, if it is not blank. -/
def Operation.added? : Operation → Option String
  | .add line => if Text.isBlank line then none else some line
  | .step _ | .clear => none

/-- The lines that were added since the last clearing and are not blank. -/
def recorded (operations : List Operation) : List String :=
  (operations.rtakeWhile (· != .clear)).filterMap Operation.added?

/-- The last lines up to a number, where each line counts at its last place only. -/
def lastDistinct (n : Nat) (lines : List String) : List String :=
  lines.dedup.rtake n

section Lines

variable {lines : List String} {line : String} {n : Nat}

/-- A line that comes last is distinct from the others at its last place. -/
theorem dedup_concat (lines : List String) (line : String) :
    (lines ++ [line]).dedup = lines.dedup.filter (· != line) ++ [line] := by
  induction lines with
  | nil => rfl
  | cons first rest ih =>
    by_cases hlast : first = line
    · subst hlast
      rw [List.cons_append, List.dedup_cons_of_mem (by simp), ih]
      by_cases hmem : first ∈ rest
      · rw [List.dedup_cons_of_mem hmem]
      · rw [List.dedup_cons_of_notMem hmem, List.filter_cons_of_neg (by simp)]
    · by_cases hmem : first ∈ rest
      · rw [List.cons_append, List.dedup_cons_of_mem (by simp [hmem]), ih,
          List.dedup_cons_of_mem hmem]
      · rw [List.cons_append, List.dedup_cons_of_notMem (by simp [hmem, hlast]), ih,
          List.dedup_cons_of_notMem hmem, List.filter_cons_of_pos (by simp [hlast]),
          List.cons_append]

/-- Behind as many lines as are kept, nothing in front counts. -/
theorem rtake_append_of_le (front : List String) (h : n ≤ lines.length) :
    (front ++ lines).rtake n = lines.rtake n := by
  have hfront : front.length ≤ (front ++ lines).length - n := by
    rw [List.length_append]
    omega
  rw [List.rtake, List.rtake, List.drop_append, List.drop_eq_nil_of_le hfront, List.nil_append,
    List.length_append]
  congr 1
  omega

/-- Cutting distinct lines before one is added makes no difference to cutting them behind that. -/
theorem rtake_filter_rtake (hdistinct : lines.Nodup) :
    ((lines.rtake n).filter (· != line) ++ [line]).rtake n =
      (lines.filter (· != line) ++ [line]).rtake n := by
  by_cases hfew : lines.length ≤ n
  · have hwhole : lines.rtake n = lines := by
      rw [List.rtake, Nat.sub_eq_zero_of_le hfew, List.drop_zero]
    rw [hwhole]
  · -- at most the line itself is missing from a full cut
    have hcut : (lines.rtake n).length = n := by
      rw [List.rtake, List.length_drop]
      omega
    have hlength : n ≤ ((lines.rtake n).filter (· != line) ++ [line]).length := by
      have hnodup : (lines.rtake n).Nodup := hdistinct.sublist (List.drop_sublist ..)
      have hone := List.le_length_erase (a := line) (l := lines.rtake n)
      rw [hnodup.erase_eq_filter, hcut] at hone
      rw [List.length_append, List.length_singleton]
      omega
    have hsplit : lines.filter (· != line) =
        (lines.take (lines.length - n)).filter (· != line) ++
          (lines.rtake n).filter (· != line) := by
      rw [← List.filter_append, List.rtake, List.take_append_drop]
    rw [hsplit, List.append_assoc, rtake_append_of_le _ hlength]

end Lines

section Entries

variable {line : String} {h : History}

/-- Adding a line cuts the lines behind that. -/
theorem entries_add_eq_rtake (hline : Text.isBlank line = false) :
    (h.add line).entries = (h.entries.filter (· != line) ++ [line]).rtake h.capacity := by
  rw [add, if_neg (by simp [hline])]
  rfl

/-- Going through the lines changes neither them nor how many are kept. -/
theorem entries_step (direction : Direction) (h : History) :
    (h.step direction).2.entries = h.entries ∧ (h.step direction).2.capacity = h.capacity := by
  cases direction with
  | back =>
    rw [step, previous]
    split <;> exact ⟨rfl, rfl⟩
  | forward =>
    rw [step, next]
    split <;> exact ⟨rfl, rfl⟩

theorem capacity_apply (operation : Operation) (h : History) :
    (operation.apply h).capacity = h.capacity := by
  cases operation with
  | add line =>
    rw [Operation.apply, add]
    split <;> rfl
  | step direction => exact (entries_step direction h).2
  | clear => rfl

/-- Only adding a line makes it one of those that are kept. -/
theorem mem_of_mem_apply {operation : Operation} (hother : operation ≠ .add line)
    (hmem : line ∈ (operation.apply h).entries) : line ∈ h.entries := by
  cases operation with
  | add other =>
    rw [Operation.apply] at hmem
    by_cases hblank : Text.isBlank other = true
    · rwa [add, if_pos hblank] at hmem
    · obtain ⟨kept, hkept, hentries⟩ := entries_add (h := h) (by simpa using hblank)
      rw [hentries, List.mem_append, List.mem_singleton] at hmem
      rcases hmem with hmem | rfl
      · exact (List.mem_filter.mp (hkept.subset hmem)).1
      · exact absurd rfl hother
  | step direction => rwa [Operation.apply, (entries_step direction h).1] at hmem
  | clear => exact absurd hmem List.not_mem_nil

end Entries

section Operations

variable {capacity : Nat} {operations : List Operation} {line : String}

theorem ofOperations_append (capacity : Nat) (before after : List Operation) :
    ofOperations capacity (before ++ after) =
      after.foldl Operation.apply (ofOperations capacity before) :=
  List.foldl_append

theorem capacity_ofOperations (capacity : Nat) (operations : List Operation) :
    (ofOperations capacity operations).capacity = max capacity 1 := by
  have hnew : (withCapacity capacity).capacity = max capacity 1 := rfl
  refine List.foldlRecOn (motive := fun h => h.capacity = max capacity 1) operations
    Operation.apply hnew ?_
  intro h hcapacity operation _
  rw [capacity_apply, hcapacity]

theorem recorded_concat_clear (operations : List Operation) :
    recorded (operations ++ [.clear]) = [] := by
  rw [recorded, List.rtakeWhile_concat_neg _ _ _ (by simp), List.filterMap_nil]

/-- What is done but a clearing adds its line to the record, if it has one. -/
theorem recorded_concat {operation : Operation} (hkeeps : operation ≠ .clear) :
    recorded (operations ++ [operation]) = recorded operations ++ operation.added?.toList := by
  rw [recorded, List.rtakeWhile_concat_pos _ _ _ (by simpa using hkeeps), List.filterMap_append]
  cases hadded : operation.added? <;> simp [recorded, hadded]

/-- However a history came about, it keeps the last distinct lines on record. -/
theorem entries_ofOperations (capacity : Nat) (operations : List Operation) :
    (ofOperations capacity operations).entries =
      lastDistinct (max capacity 1) (recorded operations) := by
  induction operations using List.reverseRecOn with
  | nil => simp [ofOperations, withCapacity, recorded, lastDistinct]
  | append_singleton operations operation ih =>
    rw [ofOperations_append, List.foldl_cons, List.foldl_nil]
    cases operation with
    | add line =>
      rw [recorded_concat (by simp), Operation.apply, Operation.added?]
      by_cases hblank : Text.isBlank line = true
      · rw [add, if_pos hblank, if_pos hblank, ih, Option.toList_none, List.append_nil]
      · rw [if_neg hblank, entries_add_eq_rtake (by simpa using hblank), capacity_ofOperations, ih,
          lastDistinct, rtake_filter_rtake (List.nodup_dedup _), Option.toList_some, lastDistinct,
          dedup_concat]
    | step direction =>
      rw [Operation.apply, (entries_step direction _).1, ih, recorded_concat (by simp),
        Operation.added?, Option.toList_none, List.append_nil]
    | clear =>
      rw [recorded_concat_clear, lastDistinct, List.dedup_nil, List.rtake_nil]
      rfl

/-- What is kept is on record, each line at its last place. -/
theorem sublist_dedup_recorded (capacity : Nat) (operations : List Operation) :
    (ofOperations capacity operations).entries.Sublist (recorded operations).dedup := by
  rw [entries_ofOperations]
  exact List.drop_sublist ..

theorem nodup_entries_ofOperations (capacity : Nat) (operations : List Operation) :
    (ofOperations capacity operations).entries.Nodup :=
  (List.nodup_dedup _).sublist (sublist_dedup_recorded capacity operations)

/-- A line that is kept in the end has been kept since it was added last. -/
theorem mem_entries_of_foldl {h : History} (hother : .add line ∉ operations)
    (hmem : line ∈ (operations.foldl Operation.apply h).entries) : line ∈ h.entries := by
  induction operations generalizing h with
  | nil => exact hmem
  | cons operation operations ih =>
    obtain ⟨hne, hother⟩ := not_or.mp (List.mem_cons.not.mp hother)
    exact mem_of_mem_apply (Ne.symm hne) (ih hother hmem)

/-- A history after some operations keeps the last distinct lines. -/
structure KeepsLastDistinct (capacity : Nat) (operations : List Operation) : Prop where
  entries : (ofOperations capacity operations).entries =
    lastDistinct (max capacity 1) (recorded operations)
  distinct : (ofOperations capacity operations).entries.Nodup
  notBlank : ∀ line ∈ (ofOperations capacity operations).entries, Text.isBlank line = false
  length_le : (ofOperations capacity operations).entries.length ≤ max capacity 1
  /-- Going through the lines does not change them. -/
  recalling : ∀ direction, ((ofOperations capacity operations).step direction).2.entries =
    (ofOperations capacity operations).entries
  /-- No line of the last distinct ones was missing at any moment since it was added last. -/
  lasting : ∀ before after, operations = before ++ after →
    ∀ line ∈ lastDistinct (max capacity 1) (recorded operations), .add line ∉ after →
      line ∈ (ofOperations capacity before).entries

/-- Whatever is done with a history of whatever capacity, it keeps the last distinct lines. -/
theorem keepsLastDistinct (capacity : Nat) (operations : List Operation) :
    KeepsLastDistinct capacity operations := by
  have hentries := entries_ofOperations capacity operations
  refine ⟨hentries, nodup_entries_ofOperations capacity operations, fun line hmem => ?_, ?_,
    fun direction => (entries_step direction _).1, ?_⟩
  · have hrecorded : line ∈ recorded operations :=
      List.mem_dedup.mp ((sublist_dedup_recorded capacity operations).subset hmem)
    obtain ⟨operation, -, hadded⟩ := List.mem_filterMap.mp hrecorded
    cases operation with
    | add other =>
      rw [Operation.added?] at hadded
      split at hadded
      · exact nomatch hadded
      · next hblank =>
        obtain rfl := Option.some.inj hadded
        simpa using hblank
    | step direction | clear => exact nomatch hadded
  · rw [hentries, lastDistinct, List.rtake, List.length_drop]
    omega
  · rintro before after rfl line hmem hother
    rw [← hentries, ofOperations_append] at hmem
    exact mem_entries_of_foldl hother hmem

/-- A line that was evicted and is added again counts at its new place. -/
example : (ofOperations 2 [.add "a", .add "b", .add " ", .add "c", .step .back, .add "a",
    .add "c"]).entries = ["a", "c"] := by
  decide +kernel

end Operations

end CommandConsole.History
