import CommandConsole.Command.Token

/-!
# The pattern of a token

A token is a run of characters that are neither white space nor quotes, or a text in quotes.
Scanning a line finds the matches of this pattern from left to right: where no match begins, a
character is passed over, and where one begins, the longest is taken and the search goes on behind
it. The tokens found in this way are determined by the line, and they are the tokens of its scan.
-/

namespace CommandConsole.Token

open CommandConsole.Text

/-- A text that matches the pattern, with the token that it gives. -/
inductive Matches : List Char → List Char → Prop
  | run {cs} : cs ≠ [] → (∀ c ∈ cs, isBare c = true) → Matches cs cs
  | span {cs} : '"' ∉ cs → Matches ('"' :: (cs ++ ['"'])) cs

/-- A match begins at the start of a text. -/
def BeginsMatch (cs : List Char) : Prop :=
  ∃ text token rest, Matches text token ∧ cs = text ++ rest

/-- The tokens of a text by its leftmost and longest matches, none of which overlap. -/
inductive Found : List Char → List (List Char) → Prop
  | nil : Found [] []
  | skip {c cs tokens} : ¬BeginsMatch (c :: cs) → Found cs tokens → Found (c :: cs) tokens
  | take {text token rest tokens} : Matches text token →
      (∀ longer other after, Matches longer other → text ++ rest = longer ++ after →
        longer.length ≤ text.length) →
      Found rest tokens → Found (text ++ rest) (token :: tokens)

section Characters

variable {c : Char}

theorem isBare_iff : isBare c = true ↔ isBlankChar c = false ∧ c ≠ '"' := by
  simp [isBare]

theorem isBare_quote : isBare '"' = false := by
  decide

theorem isBlankChar_quote : isBlankChar '"' = false := by
  decide

theorem isBare_of_isBlankChar (h : isBlankChar c = true) : isBare c = false := by
  simp [isBare, h]

/-- A character is white space, a quote, or belongs to a run. -/
theorem blank_or_quote_or_bare (c : Char) :
    isBlankChar c = true ∨ c = '"' ∨ isBare c = true := by
  rw [isBare_iff]
  by_cases hq : c = '"'
  · exact Or.inr (Or.inl hq)
  · cases hb : isBlankChar c with
    | true => exact Or.inl rfl
    | false => exact Or.inr (Or.inr ⟨rfl, hq⟩)

end Characters

section Spans

variable {inside after : List Char}

theorem isUnquoted_of_notMem (h : '"' ∉ inside) : ∀ c ∈ inside, isUnquoted c = true := by
  intro c hc
  simp only [isUnquoted, bne_iff_ne]
  rintro rfl
  exact h hc

theorem takeWhile_isUnquoted (h : '"' ∉ inside) :
    (inside ++ '"' :: after).takeWhile isUnquoted = inside := by
  rw [List.takeWhile_append_of_pos (isUnquoted_of_notMem h)]
  simp [isUnquoted]

theorem dropWhile_isUnquoted (h : '"' ∉ inside) :
    (inside ++ '"' :: after).dropWhile isUnquoted = '"' :: after := by
  rw [List.dropWhile_append_of_pos (isUnquoted_of_notMem h)]
  simp [isUnquoted]

theorem dropWhile_isUnquoted_eq_nil_iff {cs : List Char} :
    cs.dropWhile isUnquoted = [] ↔ '"' ∉ cs := by
  constructor
  · intro hdrop hmem
    obtain ⟨inside, after, rfl, hinside⟩ := List.eq_append_cons_of_mem hmem
    simp [dropWhile_isUnquoted hinside] at hdrop
  · intro h
    have hdrop : (cs ++ []).dropWhile isUnquoted = [].dropWhile isUnquoted :=
      List.dropWhile_append_of_pos (isUnquoted_of_notMem h)
    simpa using hdrop

/-- What stands before the first quote of a text is determined by the text. -/
theorem span_unique {inside' after' : List Char} (h : '"' ∉ inside) (h' : '"' ∉ inside')
    (he : inside ++ '"' :: after = inside' ++ '"' :: after') : inside = inside' :=
  calc inside = (inside ++ '"' :: after).takeWhile isUnquoted := (takeWhile_isUnquoted h).symm
    _ = (inside' ++ '"' :: after').takeWhile isUnquoted := by rw [he]
    _ = inside' := takeWhile_isUnquoted h'

end Spans

section Scanning

variable {c : Char} {cs rest : List Char}

@[simp] theorem scan_nil : scan [] = [] := by
  rw [scan]

/-- White space is passed over. -/
theorem scan_blank (h : isBlankChar c = true) (rest : List Char) :
    scan (c :: rest) = scan rest := by
  have hq : c ≠ '"' := by
    rintro rfl
    simp [isBlankChar_quote] at h
  rw [scan, if_neg hq, if_pos h]

/-- A quote that is never closed is passed over. -/
theorem scan_unclosed (h : '"' ∉ rest) : scan ('"' :: rest) = scan rest := by
  rw [scan, if_pos rfl]
  split
  · rfl
  · next hdrop => simp [dropWhile_isUnquoted_eq_nil_iff.mpr h] at hdrop

/-- The text between two quotes is a token. -/
theorem scan_span {inside : List Char} (h : '"' ∉ inside) (after : List Char) :
    scan ('"' :: (inside ++ '"' :: after)) = inside :: scan after := by
  rw [scan, if_pos rfl]
  split
  · next hdrop => simp [dropWhile_isUnquoted h] at hdrop
  · next hdrop =>
    rw [dropWhile_isUnquoted h] at hdrop
    obtain ⟨-, rfl⟩ := List.cons.inj hdrop
    rw [takeWhile_isUnquoted h]

/-- A run of bare characters is a token, where no bare character follows. -/
theorem scan_run {run : List Char} (hne : run ≠ []) (hrun : ∀ c ∈ run, isBare c = true)
    (hrest : rest.head?.all (!isBare ·) = true) : scan (run ++ rest) = run :: scan rest := by
  obtain ⟨c, tail, rfl⟩ := List.exists_cons_of_ne_nil hne
  obtain ⟨hblank, hquote⟩ := isBare_iff.mp (hrun c List.mem_cons_self)
  have htail : ∀ c ∈ tail, isBare c = true := fun c hc => hrun c (List.mem_cons_of_mem _ hc)
  have htake : (tail ++ rest).takeWhile isBare = tail := by
    rw [List.takeWhile_append_of_pos htail]
    cases rest <;> simp_all
  have hdrop : (tail ++ rest).dropWhile isBare = rest := by
    rw [List.dropWhile_append_of_pos htail]
    cases rest <;> simp_all
  rw [List.cons_append, scan, if_neg hquote, if_neg (by simp [hblank]), htake, hdrop]

/-- Induction along a scan, over what it passes over and what it takes. -/
@[elab_as_elim]
theorem scan_induction {motive : List Char → Prop} (nil : motive [])
    (blank : ∀ c cs, isBlankChar c = true → motive cs → motive (c :: cs))
    (unclosed : ∀ cs, '"' ∉ cs → motive cs → motive ('"' :: cs))
    (span : ∀ inside after, '"' ∉ inside → motive after →
      motive ('"' :: (inside ++ '"' :: after)))
    (run : ∀ run rest, run ≠ [] → (∀ c ∈ run, isBare c = true) →
      rest.head?.all (!isBare ·) = true → motive rest → motive (run ++ rest)) (cs : List Char) :
    motive cs := by
  induction cs using scan.induct with
  | case1 => exact nil
  | case2 cs hdrop ih => exact unclosed cs (dropWhile_isUnquoted_eq_nil_iff.mp hdrop) ih
  | case3 cs quote after hdrop ih =>
    have hmem : '"' ∈ cs := Decidable.byContradiction fun hmem => by
      simp [dropWhile_isUnquoted_eq_nil_iff.mpr hmem] at hdrop
    obtain ⟨inside, after', rfl, hinside⟩ := List.eq_append_cons_of_mem hmem
    rw [dropWhile_isUnquoted hinside] at hdrop
    obtain ⟨-, rfl⟩ := List.cons.inj hdrop
    exact span inside after' hinside ih
  | case4 c cs _ hblank ih => exact blank c cs hblank ih
  | case5 c cs hquote hblank ih =>
    have hbare : isBare c = true := isBare_iff.mpr ⟨by simpa using hblank, hquote⟩
    have hrun : ∀ d ∈ c :: cs.takeWhile isBare, isBare d = true := by
      simpa [hbare] using List.all_eq_true.mp (List.all_takeWhile (p := isBare) (l := cs))
    have hrest : (cs.dropWhile isBare).head?.all (!isBare ·) = true := by
      have hhead := List.head?_dropWhile_not isBare cs
      cases hd : (cs.dropWhile isBare).head? with
      | none => rfl
      | some d => simpa [hd] using hhead
    have hmotive := run (c :: cs.takeWhile isBare) _ (by simp) hrun hrest ih
    simpa using hmotive

/-- No match begins with white space. -/
theorem not_beginsMatch_blank (h : isBlankChar c = true) : ¬BeginsMatch (c :: cs) := by
  rintro ⟨text, token, rest, hmatch, he⟩
  cases hmatch with
  | run hne hbare =>
    obtain ⟨d, tail, rfl⟩ := List.exists_cons_of_ne_nil hne
    obtain ⟨rfl, -⟩ := List.cons.inj he
    simp [isBare_of_isBlankChar h] at hbare
  | span _ =>
    obtain ⟨rfl, -⟩ := List.cons.inj he
    simp [isBlankChar_quote] at h

/-- No match begins with a quote that is never closed. -/
theorem not_beginsMatch_unclosed (h : '"' ∉ cs) : ¬BeginsMatch ('"' :: cs) := by
  rintro ⟨text, token, rest, hmatch, he⟩
  cases hmatch with
  | run hne hbare =>
    obtain ⟨d, tail, rfl⟩ := List.exists_cons_of_ne_nil hne
    obtain ⟨rfl, -⟩ := List.cons.inj he
    simp [isBare_quote] at hbare
  | span _ =>
    obtain ⟨-, rfl⟩ := List.cons.inj he
    simp at h

/-- A character at which no match begins is passed over. -/
theorem scan_of_not_beginsMatch (h : ¬BeginsMatch (c :: cs)) : scan (c :: cs) = scan cs := by
  rcases blank_or_quote_or_bare c with hblank | rfl | hbare
  · exact scan_blank hblank cs
  · refine scan_unclosed fun hmem => h ?_
    obtain ⟨inside, after, rfl, hinside⟩ := List.eq_append_cons_of_mem hmem
    exact ⟨_, inside, after, .span hinside, by simp⟩
  · exact absurd ⟨[c], [c], cs, .run (by simp) (by simpa using hbare), rfl⟩ h

/-- A longest match at the start is taken. -/
theorem scan_of_longest {text token : List Char} (hmatch : Matches text token)
    (hlongest : ∀ longer other after, Matches longer other → text ++ rest = longer ++ after →
      longer.length ≤ text.length) : scan (text ++ rest) = token :: scan rest := by
  cases hmatch with
  | run hne hbare =>
    refine scan_run hne hbare ?_
    cases rest with
    | nil => rfl
    | cons c after =>
      -- a bare character behind the run would make it longer
      cases hc : isBare c with
      | false => simp [hc]
      | true =>
        have hlonger : Matches (text ++ [c]) (text ++ [c]) := by
          refine .run (by simp) fun d hd => ?_
          rcases List.mem_append.mp hd with hd | hd
          · exact hbare d hd
          · obtain rfl := List.mem_singleton.mp hd
            exact hc
        have hle := hlongest _ _ after hlonger (by simp)
        rw [List.length_append, List.length_singleton] at hle
        omega
  | span hinside => simpa using scan_span hinside rest

/-- A run is as long as it can be, where no bare character follows. -/
theorem longest_run {run : List Char} (hrun : ∀ c ∈ run, isBare c = true)
    (hrest : rest.head?.all (!isBare ·) = true) {longer other after : List Char} (hne : run ≠ [])
    (hmatch : Matches longer other) (he : run ++ rest = longer ++ after) :
    longer.length ≤ run.length := by
  cases hmatch with
  | run _ hbare =>
    rcases List.append_eq_append_iff.mp he with ⟨more, rfl, rfl⟩ | ⟨less, rfl, -⟩
    · cases more with
      | nil => simp
      | cons c more =>
        have hc := hbare c (by simp)
        simp [hc] at hrest
    · simp
  | span _ =>
    obtain ⟨c, tail, rfl⟩ := List.exists_cons_of_ne_nil hne
    obtain ⟨rfl, -⟩ := List.cons.inj he
    simp [isBare_quote] at hrun

/-- A text in quotes is the only match that begins where it begins. -/
theorem longest_span {inside : List Char} (hinside : '"' ∉ inside)
    {longer other after : List Char} (hmatch : Matches longer other)
    (he : '"' :: (inside ++ ['"']) ++ rest = longer ++ after) :
    longer.length ≤ ('"' :: (inside ++ ['"'])).length := by
  cases hmatch with
  | run hne hbare =>
    obtain ⟨c, tail, rfl⟩ := List.exists_cons_of_ne_nil hne
    obtain ⟨rfl, -⟩ := List.cons.inj he
    simp [isBare_quote] at hbare
  | span hother =>
    have hrest : inside ++ '"' :: rest = other ++ '"' :: after := by simpa using he
    exact Nat.le_of_eq (by rw [span_unique hinside hother hrest])

end Scanning

/-- Scanning finds the matches of the pattern. -/
theorem found_scan (cs : List Char) : Found cs (scan cs) := by
  induction cs using scan_induction with
  | nil => exact scan_nil ▸ .nil
  | blank c cs hblank ih =>
    rw [scan_blank hblank]
    exact .skip (not_beginsMatch_blank hblank) ih
  | unclosed cs hopen ih =>
    rw [scan_unclosed hopen]
    exact .skip (not_beginsMatch_unclosed hopen) ih
  | span inside after hinside ih =>
    rw [scan_span hinside]
    have hfound := Found.take (.span hinside)
      (fun _ _ _ hmatch he => longest_span hinside hmatch he) ih
    simpa using hfound
  | run run rest hne hrun hrest ih =>
    rw [scan_run hne hrun hrest]
    exact .take (.run hne hrun) (fun _ _ _ hmatch he => longest_run hrun hrest hne hmatch he) ih

/-- The tokens of a scan are exactly those that leftmost and longest matches of the pattern give. -/
theorem found_iff {cs : List Char} {tokens : List (List Char)} :
    Found cs tokens ↔ scan cs = tokens := by
  constructor
  · intro h
    induction h with
    | nil => exact scan_nil
    | skip hnone _ ih => exact (scan_of_not_beginsMatch hnone).trans ih
    | take hmatch hlongest _ ih => rw [scan_of_longest hmatch hlongest, ih]
  · rintro rfl
    exact found_scan cs

end CommandConsole.Token
