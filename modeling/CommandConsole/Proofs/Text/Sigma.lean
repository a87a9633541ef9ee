import CommandConsole.Text.Lowercase

/-!
# Lowercasing the beginning of a text

What a character is lowercased to depends on what follows it for one character only: a capital sigma
that ends a word becomes a final sigma. So the lowercase form of a text begins with the lowercase
form of its beginning, unless the text is cut behind a sigma that ends a word there and none in the
whole.
-/

namespace CommandConsole.Text

/-- The lowercase form of the middle of a text. What stands before it is read backwards. -/
def lowerWithin (rest : List Char) : List Char → List Char → List Char
  | _, [] => []
  | before, c :: after =>
    lowerBetween before c (after ++ rest) ++ lowerWithin rest (c :: before) after

variable (before part rest : List Char)

/-- A text is lowercased part by part, each between the others. -/
theorem lowerAfter_append : lowerAfter before (part ++ rest) =
    lowerWithin rest before part ++ lowerAfter (part.reverse ++ before) rest := by
  induction part generalizing before with
  | nil => rfl
  | cons c part ih =>
    rw [List.cons_append, lowerAfter, ih, lowerWithin, List.append_assoc, List.reverse_cons,
      List.append_assoc, List.singleton_append]

/-- How many characters a character becomes does not depend on what follows it. -/
theorem length_lowerBetween (c : Char) (after after' : List Char) :
    (lowerBetween before c after).length = (lowerBetween before c after').length := by
  by_cases hsigma : c = 'Σ'
  · simp [lowerBetween, hsigma]
  · simp [lowerBetween, hsigma]

theorem length_lowerWithin :
    (lowerWithin rest before part).length = (lowerAfter before part).length := by
  induction part generalizing before with
  | nil => rfl
  | cons c part ih =>
    rw [lowerWithin, lowerAfter, List.length_append, List.length_append, ih,
      length_lowerBetween before c (part ++ rest) part]

/-- Looking past case-ignorable characters goes on where a text holds nothing else. -/
theorem meetsCased_append (front : List Char) : meetsCased (front ++ rest) =
    if front.all isCaseIgnorable then meetsCased rest else meetsCased front := by
  unfold meetsCased
  induction front with
  | nil => simp
  | cons c front ih =>
    by_cases hc : isCaseIgnorable c = true
    · simpa [hc] using ih
    · simp [hc]

/-- Text without other than case-ignorable characters has no cased one to be met. -/
theorem meetsCased_of_all {cs : List Char} (h : cs.all isCaseIgnorable = true) :
    meetsCased cs = false := by
  have happend := meetsCased_append [] cs
  rw [List.append_nil, if_pos h] at happend
  exact happend

/-- The text is cut, in front of the rest, behind a capital sigma that ends a word there and goes on
with it. What stands before the text is read backwards. -/
def CutsSigma (before part rest : List Char) : Prop :=
  ∃ front back, part = front ++ 'Σ' :: back ∧ meetsCased (front.reverse ++ before) = true ∧
    back.all isCaseIgnorable = true ∧ meetsCased rest = true

theorem cutsSigma_cons (c : Char) : CutsSigma before (c :: part) rest ↔
    (c = 'Σ' ∧ meetsCased before = true ∧ part.all isCaseIgnorable = true ∧
      meetsCased rest = true) ∨ CutsSigma (c :: before) part rest := by
  constructor
  · rintro ⟨front, back, hpart, hfront, hback, hrest⟩
    cases front with
    | nil =>
      obtain ⟨rfl, rfl⟩ := List.cons.inj hpart
      exact Or.inl ⟨rfl, hfront, hback, hrest⟩
    | cons d front =>
      obtain ⟨rfl, rfl⟩ := List.cons.inj hpart
      refine Or.inr ⟨front, back, rfl, ?_, hback, hrest⟩
      rwa [List.reverse_cons, List.append_assoc, List.singleton_append] at hfront
  · rintro (⟨rfl, hbefore, hpart, hrest⟩ | ⟨front, back, rfl, hfront, hback, hrest⟩)
    · exact ⟨[], part, rfl, hbefore, hpart, hrest⟩
    · refine ⟨c :: front, back, rfl, ?_, hback, hrest⟩
      rwa [List.reverse_cons, List.append_assoc, List.singleton_append]

/-- A character is lowercased the same with more text behind, unless it is a sigma at such a cut. -/
theorem lowerBetween_append_iff (c : Char) :
    lowerBetween before c (part ++ rest) = lowerBetween before c part ↔
      ¬ (c = 'Σ' ∧ meetsCased before = true ∧ part.all isCaseIgnorable = true ∧
        meetsCased rest = true) := by
  by_cases hsigma : c = 'Σ'
  · by_cases hpart : part.all isCaseIgnorable = true
    · cases hbefore : meetsCased before <;> cases hrest : meetsCased rest <;>
        simp [lowerBetween, hsigma, endsWord, meetsCased_append, hpart, meetsCased_of_all hpart,
          hbefore, hrest]
    · simp [lowerBetween, hsigma, endsWord, meetsCased_append, hpart]
  · simp [lowerBetween, hsigma]

/-- A part is lowercased the same with more text behind, unless a sigma is cut off. -/
theorem lowerWithin_eq_iff :
    lowerWithin rest before part = lowerAfter before part ↔ ¬ CutsSigma before part rest := by
  induction part generalizing before with
  | nil => simp [lowerWithin, lowerAfter, CutsSigma]
  | cons c part ih =>
    rw [lowerWithin, lowerAfter, cutsSigma_cons, not_or, ← lowerBetween_append_iff, ← ih]
    constructor
    · intro h
      exact List.append_inj h (length_lowerBetween before c _ _)
    · rintro ⟨hhead, htail⟩
      rw [hhead, htail]

/-- The lowercase form of a text begins with the one of its beginning, unless a sigma is cut off. -/
theorem lowerAfter_prefix_iff :
    lowerAfter before part <+: lowerAfter before (part ++ rest) ↔ ¬ CutsSigma before part rest := by
  rw [lowerAfter_append, ← lowerWithin_eq_iff]
  constructor
  · intro hbegins
    have hlength := length_lowerWithin before part rest
    have hwithin : lowerAfter before part <+: lowerWithin rest before part :=
      List.prefix_of_prefix_length_le hbegins (List.prefix_append ..) (Nat.le_of_eq hlength.symm)
    exact (hwithin.eq_of_length hlength.symm).symm
  · intro hsame
    rw [← hsame]
    exact List.prefix_append ..

/-- Only a text with a capital sigma can be cut so. -/
theorem CutsSigma.mem {before part rest : List Char} (h : CutsSigma before part rest) :
    'Σ' ∈ part := by
  obtain ⟨front, back, rfl, -⟩ := h
  simp

end CommandConsole.Text
