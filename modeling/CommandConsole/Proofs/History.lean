import CommandConsole.History

/-!
# The newest line of a history

A line that was added last stands behind all others, nowhere else, and in front of the cursor. It is
there because a history always has room for one line, and it is the next one to be recalled.
-/

namespace CommandConsole.History

variable {line : String} {h : History}

/-- The line is kept once, as the last one, and the cursor stands behind it. -/
structure Newest (line : String) (h : History) : Prop where
  last : h.entries.getLast? = some line
  once : h.entries.count line = 1
  cursor : h.cursor = some h.entries.length

/-- A line that is added stands behind those that are kept of the others. -/
theorem entries_add (hline : Text.isBlank line = false) :
    ∃ kept, kept.Sublist (h.entries.filter (· != line)) ∧
      (h.add line).entries = kept ++ [line] := by
  have hpos := h.capacity_pos
  refine ⟨_, List.drop_sublist ((h.entries.filter (· != line)).length + 1 - h.capacity) _, ?_⟩
  rw [add, if_neg (by simp [hline])]
  simp only [List.length_append, List.length_singleton]
  exact List.drop_append_of_le_length (by omega)

/-- A line that is added is the newest. -/
theorem newest_add (hline : Text.isBlank line = false) : (h.add line).Newest line := by
  obtain ⟨kept, hkept, hentries⟩ := entries_add (h := h) hline
  refine ⟨?_, ?_, ?_⟩
  · rw [hentries, List.getLast?_concat]
  · have hothers : line ∉ kept := fun hmem => by simpa using hkept.subset hmem
    rw [hentries, List.count_append, List.count_eq_zero.mpr hothers, List.count_singleton_self]
  · rw [add, if_neg (by simp [hline])]

/-- The newest line is the next one to be recalled. -/
theorem Newest.previous (hnewest : h.Newest line) : h.previous.1 = some line := by
  have hlast := hnewest.last
  rw [List.getLast?_eq_getElem?] at hlast
  have hpos : 0 < h.entries.length := by
    have hlt := (List.getElem?_eq_some_iff.mp hlast).1
    omega
  obtain ⟨index, hindex⟩ := Nat.exists_eq_add_one.mpr hpos
  rw [hindex] at hlast
  rw [History.previous, hnewest.cursor, hindex]
  exact hlast

end CommandConsole.History
