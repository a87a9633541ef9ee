import CommandConsole.Text.Lowercase

/-!
# Lowercasing twice

No image of a lowercase mapping has a mapping itself, which is checked run by run over the table. So
a lowercase text consists of characters that are their own lowercase form wherever they stand, and
lowercasing it again changes nothing. No character but the quote is lowercased to a quote.
-/

namespace CommandConsole.Text

section Table

/-- The points between two, at a distance of `step`, have no mapping in the runs: a run at which the
look-up of one of them can end lies above all of them, or maps every second point and they are the
others. -/
def missedBy (first last step : Nat) : List (Nat × Nat × Nat × Nat) → Bool
  | [] => true
  | (low, high, stride, _) :: runs =>
    bif high.blt first then missedBy first last step runs
    else bif last.blt low then low.ble high
    else stride.beq 2 && !(first % 2).beq (low % 2) && (step.beq 2 || first.beq last) &&
      missedBy first last step runs

variable {n : Nat} {run : Nat × Nat × Nat × Nat}

theorem not_mapped_of_missedBy {runs : List (Nat × Nat × Nat × Nat)} {first last step : Nat}
    (h : missedBy first last step runs = true) (hfirst : first ≤ n) (hlast : n ≤ last)
    (hstep : (n - first) % step = 0) (hfind : (runs.find? fun run => n ≤ run.2.1) = some run) :
    ¬(run.1 ≤ n ∧ (n - run.1) % run.2.2.1 = 0) := by
  induction runs with
  | nil => simp at hfind
  | cons head runs ih =>
    obtain ⟨low, high, stride, image⟩ := head
    simp only [missedBy, Bool.cond_eq_ite, Nat.blt_eq] at h
    by_cases hreached : n ≤ high
    · obtain rfl : (low, high, stride, image) = run := by simpa [hreached] using hfind
      rintro ⟨hlow, hstride⟩
      simp only at hlow hstride
      rw [if_neg (by omega), if_neg (by omega)] at h
      simp only [Bool.and_eq_true, Bool.or_eq_true, Bool.not_eq_true', ← Bool.not_eq_true,
        Nat.beq_eq] at h
      obtain ⟨⟨⟨rfl, hparity⟩, hpoints⟩, -⟩ := h
      rcases hpoints with rfl | rfl <;> omega
    · rw [List.find?_cons_of_neg (by simpa using hreached)] at hfind
      refine ih ?_ hfind
      split at h
      · exact h
      · split at h
        · simp only [Nat.ble_eq] at h
          omega
        · exact (Bool.and_eq_true_iff.mp h).2

/-- A code point that a mapping leads to. -/
structure Settled (n : Nat) : Prop where
  valid : n.isValidChar
  aboveQuote : 0x22 < n
  notDotted : n ≠ 0x130
  fixed : lowerCodePoint n = n

theorem Settled.toNat_ofNat (h : Settled n) : (Char.ofNat n).toNat = n := by
  rw [Char.ofNat, dif_pos h.valid]
  rfl

/-- The images of a run are settled. -/
def settles (run : Nat × Nat × Nat × Nat) : Bool :=
  let (first, last, step, image) := run
  let final := image + (last - first)
  (0x22).blt image && (final.blt 0xD800 || (0xDFFF).blt image && final.blt 0x110000) &&
    (final.blt 0x130 || (0x130).blt image) && missedBy image final step lowercaseRuns

theorem all_settles : lowercaseRuns.all settles = true := by
  decide +kernel

theorem settled_image (hmem : run ∈ lowercaseRuns) (hfirst : run.1 ≤ n) (hlast : n ≤ run.2.1)
    (hstep : (n - run.1) % run.2.2.1 = 0) : Settled (run.2.2.2 + (n - run.1)) := by
  have h := List.all_eq_true.mp all_settles run hmem
  obtain ⟨first, last, step, image⟩ := run
  simp only at hfirst hlast hstep ⊢
  simp only [settles, Bool.and_eq_true, Bool.or_eq_true, Nat.blt_eq] at h
  obtain ⟨⟨⟨hquote, hvalid⟩, hdotted⟩, hmissed⟩ := h
  refine ⟨?_, by omega, by omega, ?_⟩
  · rcases hvalid with hvalid | hvalid
    · exact Or.inl (by omega)
    · exact Or.inr ⟨by omega, by omega⟩
  · have hstep' : (image + (n - first) - image) % step = 0 := by
      rw [Nat.add_sub_cancel_left]
      exact hstep
    rw [lowerCodePoint]
    split
    · next other high stride low hfind =>
      have hnot := not_mapped_of_missedBy hmissed (by omega) (by omega) hstep' hfind
      rw [if_neg]
      simpa using hnot
    · rfl

/-- A mapping leads nowhere else or to a settled code point. -/
theorem settled_lowerCodePoint (n : Nat) : lowerCodePoint n = n ∨ Settled (lowerCodePoint n) := by
  rw [lowerCodePoint]
  split
  · next first last step image hfind =>
    split
    · next hmapped =>
      simp only [Bool.and_eq_true, decide_eq_true_eq, beq_iff_eq] at hmapped
      have hlast : n ≤ last := by simpa using List.find?_some hfind
      exact Or.inr (settled_image (List.mem_of_find?_eq_some hfind) hmapped.1 hlast hmapped.2)
    · exact Or.inl rfl
  · exact Or.inl rfl

end Table

section Characters

variable {c d : Char}

/-- What a character is lowercased to by itself is its own lowercase form. -/
theorem lowerChar_of_mem_lowerChar (h : d ∈ lowerChar c) : lowerChar d = [d] := by
  rw [lowerChar] at h
  split at h
  · simp only [List.mem_cons, List.not_mem_nil, or_false] at h
    rcases h with rfl | rfl <;> decide +kernel
  · next hdotted =>
    obtain rfl := List.mem_singleton.mp h
    rcases settled_lowerCodePoint c.toNat with hsame | hsettled
    · simp [hsame, lowerChar, hdotted]
    · have htoNat := hsettled.toNat_ofNat
      have hne : Char.ofNat (lowerCodePoint c.toNat) ≠ 'İ' := by
        intro he
        rw [he] at htoNat
        exact hsettled.notDotted htoNat.symm
      rw [lowerChar, if_neg hne, htoNat, hsettled.fixed]

/-- A character that is its own lowercase form is lowercased to itself wherever it stands. -/
theorem lowerBetween_of_lowerChar (h : lowerChar c = [c]) (before after : List Char) :
    lowerBetween before c after = [c] := by
  have hsigma : c ≠ 'Σ' := by
    rintro rfl
    exact absurd h (by decide +kernel)
  rw [lowerBetween, if_neg hsigma, h]

theorem lowerChar_of_mem_lowerBetween {before after : List Char}
    (h : d ∈ lowerBetween before c after) : lowerChar d = [d] := by
  rw [lowerBetween] at h
  split at h
  · split at h <;> obtain rfl := List.mem_singleton.mp h <;> decide +kernel
  · exact lowerChar_of_mem_lowerChar h

/-- Only a quote is lowercased to a quote. -/
theorem eq_quote_of_mem_lowerBetween {before after : List Char}
    (h : '"' ∈ lowerBetween before c after) : c = '"' := by
  rw [lowerBetween] at h
  split at h
  · split at h <;> simp at h
  · rw [lowerChar] at h
    split at h
    · simp at h
    · have hquote := List.mem_singleton.mp h
      rcases settled_lowerCodePoint c.toNat with hsame | hsettled
      · rw [hsame, Char.ofNat_toNat] at hquote
        exact hquote.symm
      · have htoNat := congrArg Char.toNat hquote
        rw [hsettled.toNat_ofNat] at htoNat
        have habove := hsettled.aboveQuote
        rw [← htoNat] at habove
        exact absurd habove (by decide)

end Characters

section Texts

variable {before cs : List Char}

theorem lowerChar_of_mem_lowerAfter {d : Char} (h : d ∈ lowerAfter before cs) :
    lowerChar d = [d] := by
  induction cs generalizing before with
  | nil => simp [lowerAfter] at h
  | cons c cs ih =>
    rw [lowerAfter, List.mem_append] at h
    rcases h with h | h
    · exact lowerChar_of_mem_lowerBetween h
    · exact ih h

theorem lowerAfter_of_lowerChar (h : ∀ c ∈ cs, lowerChar c = [c]) : lowerAfter before cs = cs := by
  induction cs generalizing before with
  | nil => rfl
  | cons c cs ih =>
    rw [lowerAfter, lowerBetween_of_lowerChar (h c List.mem_cons_self),
      ih fun d hd => h d (List.mem_cons_of_mem _ hd), List.singleton_append]

theorem quote_mem_of_mem_lowerAfter (h : '"' ∈ lowerAfter before cs) : '"' ∈ cs := by
  induction cs generalizing before with
  | nil => simp [lowerAfter] at h
  | cons c cs ih =>
    rw [lowerAfter, List.mem_append] at h
    rcases h with h | h
    · exact eq_quote_of_mem_lowerBetween h ▸ List.mem_cons_self
    · exact List.mem_cons_of_mem _ (ih h)

/-- Lowercasing a lowercase text changes nothing. -/
theorem lowercase_lowercase (s : String) : lowercase (lowercase s) = lowercase s := by
  rw [← String.toList_inj, toList_lowercase, toList_lowercase]
  exact lowerAfter_of_lowerChar fun c hc => lowerChar_of_mem_lowerAfter hc

/-- A text without quotes has none when it is lowercased. -/
theorem quote_notMem_lowercase {s : String} (h : '"' ∉ s.toList) :
    '"' ∉ (lowercase s).toList := by
  rw [toList_lowercase]
  exact fun hmem => h (quote_mem_of_mem_lowerAfter hmem)

/-- The lowercase forms of texts without quotes are the lowercase texts without quotes. -/
theorem exists_lowercase_iff {name : String} :
    (∃ s : String, '"' ∉ s.toList ∧ name = lowercase s) ↔
      lowercase name = name ∧ '"' ∉ name.toList := by
  constructor
  · rintro ⟨s, hs, rfl⟩
    exact ⟨lowercase_lowercase s, quote_notMem_lowercase hs⟩
  · rintro ⟨hlower, hquote⟩
    exact ⟨name, hquote, hlower.symm⟩

end Texts

end CommandConsole.Text
