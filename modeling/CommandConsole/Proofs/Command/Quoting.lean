import CommandConsole.Proofs.Command.Pattern

/-!
# Quotes in a line

The quotes of a line cut it into segments, and their number says which segments stand in quotes:
each second one, except for the last, whose quote may never be closed. A segment in quotes is a
token as it stands, and every other segment gives its longest runs of characters that are not white
space. Scanning from left to right comes to the same tokens, for a text with an even number of
quotes is scanned apart from what follows it.
-/

namespace CommandConsole.Token

open CommandConsole.Text

/-- The parts of a line before, between and behind its quotes. -/
def segments (cs : List Char) : List (List Char) :=
  cs.splitOn '"'

/-- The longest runs of characters that are not white space. -/
def runs (cs : List Char) : List (List Char) :=
  (cs.splitOnP isBlankChar).filter (!·.isEmpty)

/-- The tokens of the segment with a number, of a number of segments. -/
def tokensOfSegment (count index : Nat) (segment : List Char) : List (List Char) :=
  if index % 2 = 1 ∧ index + 1 < count then [segment] else runs segment

/-- The tokens of all segments. -/
def tokensOfSegments (parts : List (List Char)) : List (List Char) :=
  parts.zipIdx.flatMap fun (segment, index) => tokensOfSegment parts.length index segment

section Runs

variable {cs rest : List Char}

@[simp] theorem runs_nil : runs [] = [] := by
  simp [runs]

/-- White space in front does not matter. -/
theorem runs_blank {c : Char} (h : isBlankChar c = true) (cs : List Char) :
    runs (c :: cs) = runs cs := by
  simp [runs, List.splitOnP_cons_eq_if_modifyHead, h]

/-- A text without white space is a run, where no other character follows that is not white space.
-/
theorem runs_run {run : List Char} (hne : run ≠ []) (hrun : ∀ c ∈ run, isBlankChar c = false)
    (hrest : rest.head?.all isBlankChar = true) : runs (run ++ rest) = run :: runs rest := by
  have hkept : [run].filter (!·.isEmpty) = [run] := by simp [hne]
  cases rest with
  | nil => rw [List.append_nil, runs, List.splitOnP_eq_singleton hrun, hkept, runs_nil]
  | cons c rest =>
    have hc : isBlankChar c = true := by simpa using hrest
    rw [runs_blank hc, runs, List.splitOnP_append_cons run rest hc,
      List.splitOnP_eq_singleton hrun, List.filter_append, hkept]
    rfl

end Runs

section Scanning

variable {cs rest : List Char}

/-- A text with an even number of quotes is scanned apart from what follows it, unless a bare
character follows. -/
theorem scan_append {before : List Char} (heven : before.count '"' % 2 = 0)
    (hrest : rest.head?.all (!isBare ·) = true) :
    scan (before ++ rest) = scan before ++ scan rest := by
  induction before using scan_induction with
  | nil => simp
  | blank c before hblank ih =>
    have hne : c ≠ '"' := by
      rintro rfl
      simp [isBlankChar_quote] at hblank
    rw [List.count_cons_of_ne hne] at heven
    rw [List.cons_append, scan_blank hblank, scan_blank hblank, ih heven]
  | unclosed before hopen _ =>
    rw [List.count_cons_self, List.count_eq_zero.mpr hopen] at heven
    omega
  | span inside after hinside ih =>
    have hcount : after.count '"' % 2 = 0 := by
      rw [List.count_cons_self, List.count_append, List.count_eq_zero.mpr hinside,
        List.count_cons_self] at heven
      omega
    calc scan ('"' :: (inside ++ '"' :: after) ++ rest)
        = scan ('"' :: (inside ++ '"' :: (after ++ rest))) := by simp
      _ = inside :: (scan after ++ scan rest) := by rw [scan_span hinside, ih hcount]
      _ = scan ('"' :: (inside ++ '"' :: after)) ++ scan rest := by
          rw [scan_span hinside, List.cons_append]
  | run run before hne hrun hbefore ih =>
    have hquote : '"' ∉ run := fun hmem => by simpa [isBare_quote] using hrun _ hmem
    rw [List.count_append, List.count_eq_zero.mpr hquote, Nat.zero_add] at heven
    have hbehind : (before ++ rest).head?.all (!isBare ·) = true := by
      cases before with
      | nil => exact hrest
      | cons c before => exact hbefore
    rw [List.append_assoc, scan_run hne hrun hbehind, scan_run hne hrun hbefore, ih heven]
    rfl

/-- A text without quotes gives its runs. -/
theorem scan_eq_runs (h : '"' ∉ cs) : scan cs = runs cs := by
  induction cs using scan_induction with
  | nil => simp
  | blank c cs hblank ih =>
    rw [scan_blank hblank, runs_blank hblank]
    exact ih fun hmem => h (List.mem_cons_of_mem _ hmem)
  | unclosed cs _ _ => exact absurd List.mem_cons_self h
  | span inside after _ _ => exact absurd List.mem_cons_self h
  | run run rest hne hrun hrest ih =>
    have hnot : '"' ∉ rest := fun hmem => h (List.mem_append_right _ hmem)
    have hnonblank : ∀ c ∈ run, isBlankChar c = false := fun c hc => (isBare_iff.mp (hrun c hc)).1
    have hblank : rest.head?.all isBlankChar = true := by
      cases rest with
      | nil => rfl
      | cons c rest =>
        -- what ends a run is a quote or white space, and there are no quotes
        rcases blank_or_quote_or_bare c with hc | rfl | hc
        · simpa using hc
        · exact absurd List.mem_cons_self hnot
        · simp [hc] at hrest
    rw [scan_run hne hrun hrest, runs_run hne hnonblank hblank, ih hnot]

/-- No token holds a quote. -/
theorem quote_notMem_of_mem_scan {token : List Char} (h : token ∈ scan cs) : '"' ∉ token := by
  induction cs using scan_induction with
  | nil => simp at h
  | blank c cs hblank ih => exact ih (scan_blank hblank cs ▸ h)
  | unclosed cs hopen ih => exact ih (scan_unclosed hopen ▸ h)
  | span inside after hinside ih =>
    rw [scan_span hinside, List.mem_cons] at h
    rcases h with rfl | h
    · exact hinside
    · exact ih h
  | run run rest hne hrun hrest ih =>
    rw [scan_run hne hrun hrest, List.mem_cons] at h
    rcases h with rfl | h
    · exact fun hmem => by simpa [isBare_quote] using hrun _ hmem
    · exact ih h

/-- The tokens hold every character that is neither white space nor a quote, once and in order. -/
theorem filter_flatten_scan (cs : List Char) :
    (scan cs).flatten.filter isBare = cs.filter isBare := by
  induction cs using scan_induction with
  | nil => simp
  | blank c cs hblank ih => simp [scan_blank hblank, ih, isBare_of_isBlankChar hblank]
  | unclosed cs hopen ih => simp [scan_unclosed hopen, ih, isBare_quote]
  | span inside after hinside ih => simp [scan_span hinside, ih, isBare_quote]
  | run run rest hne hrun hrest ih => simp [scan_run hne hrun hrest, ih]

end Scanning

section Segments

variable {cs : List Char}

theorem segments_of_notMem (h : '"' ∉ cs) : segments cs = [cs] :=
  List.splitOn_eq_singleton h

theorem segments_append_quote {outside : List Char} (h : '"' ∉ outside) (rest : List Char) :
    segments (outside ++ '"' :: rest) = outside :: segments rest :=
  List.splitOn_append_cons_self_of_not_mem h rest

theorem segments_ne_nil (cs : List Char) : segments cs ≠ [] :=
  List.splitOn_ne_nil '"' cs

/-- There is one segment more than there are quotes. -/
theorem length_segments (cs : List Char) : (segments cs).length = cs.count '"' + 1 := by
  induction cs with
  | nil => rfl
  | cons c cs ih =>
    rw [segments, List.splitOn_cons_eq_if_modifyHead]
    by_cases hc : c = '"'
    · subst hc
      rw [if_pos (by simp), List.length_cons, List.count_cons_self, ← ih, segments]
    · rw [if_neg (by simpa using hc), List.length_modifyHead, List.count_cons_of_ne hc, ← ih,
        segments]

theorem tokensOfSegments_single (outside : List Char) :
    tokensOfSegments [outside] = runs outside := by
  simp [tokensOfSegments, tokensOfSegment]

theorem tokensOfSegments_unclosed (outside unclosed : List Char) :
    tokensOfSegments [outside, unclosed] = runs outside ++ runs unclosed := by
  simp [tokensOfSegments, tokensOfSegment]

/-- A segment in quotes and the one before it do not change the parity of the others. -/
theorem tokensOfSegments_cons_cons (outside inside : List Char) {parts : List (List Char)}
    (h : parts ≠ []) :
    tokensOfSegments (outside :: inside :: parts) =
      runs outside ++ inside :: tokensOfSegments parts := by
  have hpos := List.length_pos_iff.mpr h
  have hshift : ∀ index segment, tokensOfSegment (parts.length + 2) (index + 2) segment =
      tokensOfSegment parts.length index segment := by
    intro index segment
    have hiff : (index + 2) % 2 = 1 ∧ index + 2 + 1 < parts.length + 2 ↔
        index % 2 = 1 ∧ index + 1 < parts.length := by omega
    simp only [tokensOfSegment, hiff]
  have hfirst : tokensOfSegment (parts.length + 2) 0 outside = runs outside := by
    simp [tokensOfSegment]
  have hsecond : tokensOfSegment (parts.length + 2) 1 inside = [inside] :=
    if_pos ⟨rfl, by omega⟩
  calc tokensOfSegments (outside :: inside :: parts)
      = tokensOfSegment (parts.length + 2) 0 outside ++
          (tokensOfSegment (parts.length + 2) 1 inside ++
            (parts.zipIdx 2).flatMap fun (segment, index) =>
              tokensOfSegment (parts.length + 2) index segment) := rfl
    _ = runs outside ++ ([inside] ++ parts.zipIdx.flatMap fun (segment, index) =>
          tokensOfSegment (parts.length + 2) (index + 2) segment) := by
        rw [hfirst, hsecond, List.zipIdx_eq_map_add, List.flatMap_map]
        simp only [Nat.add_comm 2]
    _ = runs outside ++ inside :: tokensOfSegments parts := by
        simp only [hshift]
        rfl

/-- The tokens of a scan are those of the segments. -/
theorem scan_eq_tokensOfSegments (cs : List Char) : scan cs = tokensOfSegments (segments cs) := by
  induction hn : cs.length using Nat.strongRecOn generalizing cs with
  | _ n ih =>
    by_cases hquote : '"' ∈ cs
    · obtain ⟨outside, behind, rfl, houtside⟩ := List.eq_append_cons_of_mem hquote
      have hscan : scan (outside ++ '"' :: behind) = runs outside ++ scan ('"' :: behind) := by
        rw [scan_append (by simp [List.count_eq_zero.mpr houtside]) (by simp [isBare_quote]),
          scan_eq_runs houtside]
      rw [hscan, segments_append_quote houtside]
      by_cases hclosed : '"' ∈ behind
      · obtain ⟨inside, after, rfl, hinside⟩ := List.eq_append_cons_of_mem hclosed
        have hlt : after.length < n := by
          subst hn
          simp only [List.length_append, List.length_cons]
          omega
        rw [segments_append_quote hinside, tokensOfSegments_cons_cons _ _ (segments_ne_nil after),
          scan_span hinside, ih after.length hlt after rfl]
      · rw [segments_of_notMem hclosed, tokensOfSegments_unclosed, scan_unclosed hclosed,
          scan_eq_runs hclosed]
    · rw [segments_of_notMem hquote, tokensOfSegments_single, scan_eq_runs hquote]

/-- With an even number of quotes, each second segment stands in quotes. -/
theorem tokensOfSegments_of_even (h : cs.count '"' % 2 = 0) :
    tokensOfSegments (segments cs) = (segments cs).zipIdx.flatMap fun (segment, index) =>
      if index % 2 = 1 then [segment] else runs segment := by
  have hlength := length_segments cs
  rw [tokensOfSegments, List.flatMap_def, List.flatMap_def]
  congr 1
  refine List.map_congr_left fun (segment, index) hmem => ?_
  have hlt := List.snd_lt_of_mem_zipIdx hmem
  have hiff : index % 2 = 1 ∧ index + 1 < (segments cs).length ↔ index % 2 = 1 := by omega
  simp only [tokensOfSegment, hiff]

/-- The last of an odd number of quotes is read as white space. -/
theorem scan_lastQuote {before behind : List Char} (heven : before.count '"' % 2 = 0)
    (hbehind : '"' ∉ behind) :
    scan (before ++ '"' :: behind) = scan (before ++ ' ' :: behind) := by
  have hspace : isBlankChar ' ' = true := by decide
  rw [scan_append heven (by simp [isBare_quote]), scan_unclosed hbehind,
    scan_append heven (by simp [isBare_of_isBlankChar hspace]), scan_blank hspace]

end Segments

theorem map_toList_tokenize (line : String) :
    (tokenize line).map String.toList = scan line.toList := by
  simp [tokenize, Function.comp_def]

/-- No token of a line holds a quote. -/
theorem quote_notMem_of_mem_tokenize {line token : String} (h : token ∈ tokenize line) :
    '"' ∉ token.toList := by
  obtain ⟨cs, hcs, rfl⟩ := List.mem_map.mp h
  rw [String.toList_ofList]
  exact quote_notMem_of_mem_scan hcs

/-- The tokens of a line are those that the grammar of quotes gives it. -/
structure Grammatical (line : String) : Prop where
  /-- They are found by leftmost and longest matches of the pattern that do not overlap. -/
  found : ∀ tokens, Found line.toList tokens ↔ (tokenize line).map String.toList = tokens
  /-- They are the tokens of the segments between the quotes, chosen by the number of the segment
  and by whether a quote follows it. -/
  segments : tokenize line = (tokensOfSegments (segments line.toList)).map String.ofList
  /-- With an even number of quotes, none is dropped: each second segment is a token. -/
  paired : line.toList.count '"' % 2 = 0 →
    tokenize line = ((Token.segments line.toList).zipIdx.flatMap fun (segment, index) =>
      if index % 2 = 1 then [segment] else runs segment).map String.ofList
  /-- Of an odd number of quotes only the last is dropped, and read as white space. -/
  unpaired : ∀ before behind, line.toList = before ++ '"' :: behind → '"' ∉ behind →
    before.count '"' % 2 = 0 → tokenize line = tokenize (String.ofList (before ++ ' ' :: behind))
  /-- No token holds a quote. -/
  unquoted : ∀ token ∈ tokenize line, '"' ∉ token.toList
  /-- Every other character that is not white space stands in one token, in the order of the line.
  -/
  complete : ((tokenize line).flatMap String.toList).filter isBare = line.toList.filter isBare

/-- Every line is cut into tokens by the grammar of quotes. -/
theorem grammatical_tokenize (line : String) : Grammatical line where
  found tokens := by rw [found_iff, map_toList_tokenize]
  segments := by rw [tokenize, scan_eq_tokensOfSegments]
  paired h := by rw [tokenize, scan_eq_tokensOfSegments, tokensOfSegments_of_even h]
  unpaired before behind hline hbehind heven := by
    rw [tokenize, hline, scan_lastQuote heven hbehind, tokenize, String.toList_ofList]
  unquoted _ hmem := quote_notMem_of_mem_tokenize hmem
  complete := by
    rw [List.flatMap_def, map_toList_tokenize, filter_flatten_scan]

-- glued and empty spans, and a last quote that is never closed
example : tokensOfSegments (segments "give\"gold bar\"x \"\" say \"hi there".toList) =
    ["give", "gold bar", "x", "", "say", "hi", "there"].map String.toList := by
  decide

end CommandConsole.Token
