import CommandConsole.Proofs.Command.Grouping
import CommandConsole.Proofs.Command.Rendering

/-!
# What lines are read as

Three kinds of lines are told apart by their characters. A line of white space is empty, a line of
white space with one quote in it has no tokens, and every other line is a command: two quotes hold a
token between them wherever they stand, and so does any other character. The first token names the
command, and the name is empty just when the line begins with a pair of quotes. Each other token is
a flag or an argument, at the number of flags up to it.
-/

namespace CommandConsole

open Text (isBlankChar lowercase)
open Token (tokenize)

section Placing

/-- The tokens, each with the number of flags among the tokens up to it. -/
def placedTokens (tokens : List String) : List Placed :=
  tokens.mapIdx fun index token => ⟨(tokens.take (index + 1)).countP isFlag, token⟩

/-- A placed token behind a number of flags more. -/
def Placed.behind (count : Nat) (a : Placed) : Placed :=
  ⟨count + a.position, a.text⟩

/-- A flag in front of some tokens moves their places by one. -/
theorem placedTokens_cons_flag {token : String} (h : isFlag token = true) (tokens : List String) :
    placedTokens (token :: tokens) = ⟨1, token⟩ :: (placedTokens tokens).map (.behind 1) := by
  rw [placedTokens, List.mapIdx_cons]
  congr 1
  · simp [h]
  · refine List.ext_getElem (by simp [placedTokens]) fun index _ _ => ?_
    simp [placedTokens, Placed.behind, h, Nat.add_comm 1]

theorem placedTokens_cons_argument {token : String} (h : isFlag token = false)
    (tokens : List String) :
    placedTokens (token :: tokens) = ⟨0, token⟩ :: placedTokens tokens := by
  simp [placedTokens, List.mapIdx_cons, h]

/-- Splitting sorts the placed tokens into flags and arguments. -/
theorem splitFlagsAfter_eq (count : Nat) (tokens : List String) :
    splitFlagsAfter count tokens =
      (((placedTokens tokens).map (.behind count)).filter (isFlag ·.text),
        ((placedTokens tokens).map (.behind count)).filter (!isFlag ·.text)) := by
  induction tokens generalizing count with
  | nil => rfl
  | cons token tokens ih =>
    cases hflag : isFlag token with
    | true =>
      have hmoved : Placed.behind count ∘ Placed.behind 1 = Placed.behind (count + 1) := by
        funext a
        simp [Placed.behind, Nat.add_assoc]
      rw [placedTokens_cons_flag hflag, List.map_cons, List.map_map, hmoved]
      simp [splitFlagsAfter, hflag, ih, Placed.behind]
    | false =>
      rw [placedTokens_cons_argument hflag, List.map_cons]
      simp [splitFlagsAfter, hflag, ih, Placed.behind]

/-- The flags and arguments of some tokens are the placed tokens of either kind. -/
theorem splitFlags_eq (tokens : List String) :
    splitFlags tokens = ((placedTokens tokens).filter (isFlag ·.text),
      (placedTokens tokens).filter (!isFlag ·.text)) := by
  have hsame : (placedTokens tokens).map (.behind 0) = placedTokens tokens := by
    simp [Placed.behind, List.map_id'']
  rw [splitFlags, splitFlagsAfter_eq, hsame]

end Placing

namespace Token

/-- A text has no token when it holds one quote at most, and white space otherwise. -/
theorem scan_eq_nil_iff {cs : List Char} :
    scan cs = [] ↔ cs.count '"' ≤ 1 ∧ ∀ c ∈ cs, c ≠ '"' → isBlankChar c = true := by
  induction cs using scan_induction with
  | nil => simp
  | blank c cs hblank ih =>
    have hne : c ≠ '"' := by
      rintro rfl
      simp [isBlankChar_quote] at hblank
    rw [scan_blank hblank, ih, List.count_cons_of_ne hne]
    simp [hblank]
  | unclosed cs hopen ih =>
    rw [scan_unclosed hopen, ih, List.count_cons_self, List.count_eq_zero.mpr hopen]
    simp
  | span inside after hinside _ =>
    -- two quotes hold a token, whatever stands between them
    rw [scan_span hinside]
    simp only [List.count_cons_self, List.count_append, reduceCtorEq, false_iff, not_and]
    omega
  | run run rest hne hrun hrest _ =>
    obtain ⟨c, tail, rfl⟩ := List.exists_cons_of_ne_nil hne
    obtain ⟨hblank, hquote⟩ := isBare_iff.mp (hrun c List.mem_cons_self)
    rw [scan_run hne hrun hrest]
    simp only [reduceCtorEq, false_iff, not_and]
    intro _ hall
    simp [hall c (by simp) hquote] at hblank

/-- The first token of a text is empty when the text begins with a pair of quotes. -/
theorem scan_eq_nil_cons_iff {cs : List Char} {tokens : List (List Char)} :
    scan cs = [] :: tokens ↔ ∃ (front : Blanks) (after : List Char),
      cs = front.val ++ '"' :: '"' :: after ∧ tokens = scan after := by
  constructor
  · intro h
    induction cs using scan_induction with
    | nil => simp at h
    | blank c cs hblank ih =>
      obtain ⟨⟨front, hfront⟩, after, rfl, htokens⟩ := ih (scan_blank hblank cs ▸ h)
      exact ⟨⟨c :: front, by simpa [hblank] using hfront⟩, after, rfl, htokens⟩
    | unclosed cs hopen ih =>
      -- without quotes there is no token between quotes
      obtain ⟨front, after, rfl, -⟩ := ih (scan_unclosed hopen ▸ h)
      simp at hopen
    | span inside after hinside _ =>
      obtain ⟨rfl, rfl⟩ := List.cons.inj (scan_span hinside after ▸ h)
      exact ⟨⟨[], by simp⟩, after, rfl, rfl⟩
    | run run rest hne hrun hrest _ =>
      rw [scan_run hne hrun hrest] at h
      exact absurd (List.cons.inj h).1 hne
  · rintro ⟨front, after, rfl, rfl⟩
    have hempty : '"' ∉ ([] : List Char) := List.not_mem_nil
    rw [scan_blanks]
    exact scan_span hempty after

end Token

/-- Lowercasing leaves nothing of the empty text only. -/
theorem Text.lowercase_eq_empty_iff (s : String) : lowercase s = "" ↔ s = "" := by
  rw [← String.toList_inj, ← String.toList_inj, Text.toList_lowercase]
  cases s.toList with
  | nil => simp [Text.lowerAfter]
  | cons c cs =>
    have hne : Text.lowerBetween [] c cs ≠ [] := by
      unfold Text.lowerBetween Text.lowerChar
      split
      · simp
      · split <;> simp
    simp [Text.lowerAfter, hne]

namespace Invocation

/-- Every character of the line is white space. -/
def IsEmptyLine (line : String) : Prop :=
  ∀ c ∈ line.toList, isBlankChar c = true

/-- The line holds one quote, and every other character of it is white space. -/
def IsLoneQuote (line : String) : Prop :=
  line.toList.count '"' = 1 ∧ ∀ c ∈ line.toList, c ≠ '"' → isBlankChar c = true

/-- The line begins with a pair of quotes, behind white space. -/
def BeginsUnnamed (line : String) : Prop :=
  ∃ front after, line.toList = front ++ '"' :: '"' :: after ∧
    ∀ c ∈ front, isBlankChar c = true

/-- The invocation of a command by its first token, with the flags and arguments of the others. -/
def named (first : String) (tokens : List String) : Invocation where
  name := lowercase first
  flags := (placedTokens tokens).filter (isFlag ·.text)
  arguments := (placedTokens tokens).filter (!isFlag ·.text)

/-- How a line is read. -/
structure ReadsAs (line : String) : Prop where
  empty : parse line = .error .empty ↔ IsEmptyLine line
  noTokens : parse line = .error .noTokens ↔ IsLoneQuote line
  command : ¬ IsEmptyLine line → ¬ IsLoneQuote line → ∃ first tokens,
    tokenize line = first :: tokens ∧ parse line = .ok (named first tokens)
  /-- The name is empty behind a leading pair of quotes, and for no other command. -/
  unnamed : ∀ i, parse line = .ok i → (i.name = "" ↔ BeginsUnnamed line)

variable {line : String}

theorem isEmptyLine_iff : IsEmptyLine line ↔ Text.isBlank line = true := by
  rw [IsEmptyLine, Text.isBlank, List.all_eq_true]

/-- A blank line holds no quote. -/
theorem IsEmptyLine.count_quote (h : IsEmptyLine line) : line.toList.count '"' = 0 := by
  refine List.count_eq_zero.mpr fun hmem => ?_
  simpa [Token.isBlankChar_quote] using h _ hmem

/-- A line without tokens is blank, or blank but for one quote. -/
theorem tokenize_eq_nil_iff : tokenize line = [] ↔ IsEmptyLine line ∨ IsLoneQuote line := by
  rw [tokenize, List.map_eq_nil_iff, Token.scan_eq_nil_iff]
  constructor
  · rintro ⟨hcount, hblank⟩
    by_cases hquote : '"' ∈ line.toList
    · have hpos := List.count_pos_iff.mpr hquote
      exact Or.inr ⟨by omega, hblank⟩
    · refine Or.inl fun c hc => hblank c hc ?_
      rintro rfl
      exact hquote hc
  · rintro (hempty | ⟨hcount, hblank⟩)
    · exact ⟨by rw [hempty.count_quote]; omega, fun c hc _ => hempty c hc⟩
    · exact ⟨by omega, hblank⟩

theorem parse_of_tokenize_cons {first : String} {tokens : List String}
    (h : tokenize line = first :: tokens) : parse line = .ok (named first tokens) := by
  rw [parse_of_tokenize h, ofTokens, splitFlags_eq]
  rfl

theorem parse_of_tokenize_nil (h : tokenize line = []) :
    parse line = if Text.isBlank line then .error .empty else .error .noTokens := by
  rw [parse, h]

/-- The first token is empty when the line begins with a pair of quotes. -/
theorem beginsUnnamed_iff {first : String} {tokens : List String}
    (h : tokenize line = first :: tokens) : first = "" ↔ BeginsUnnamed line := by
  have hscan : Token.scan line.toList = first.toList :: tokens.map String.toList := by
    rw [← Token.map_toList_tokenize, h, List.map_cons]
  constructor
  · rintro rfl
    obtain ⟨⟨front, hfront⟩, after, hline, -⟩ := Token.scan_eq_nil_cons_iff.mp hscan
    exact ⟨front, after, hline, hfront⟩
  · rintro ⟨front, after, hline, hfront⟩
    have hempty := Token.scan_eq_nil_cons_iff.mpr ⟨⟨front, hfront⟩, after, hline, rfl⟩
    rw [hscan] at hempty
    exact String.toList_inj.mp (List.cons.inj hempty).1

/-- Every line is read as empty, as one without tokens, or as a command, by its characters. -/
theorem readsAs_line (line : String) : ReadsAs line := by
  have hnil : tokenize line = [] ↔ IsEmptyLine line ∨ IsLoneQuote line := tokenize_eq_nil_iff
  cases htokens : tokenize line with
  | nil =>
    have hparse := parse_of_tokenize_nil htokens
    rcases hnil.mp htokens with hempty | hquote
    · rw [if_pos (isEmptyLine_iff.mp hempty)] at hparse
      have hnot : ¬ IsLoneQuote line := fun h => by simpa [h.1] using hempty.count_quote
      exact ⟨by simp [hparse, hempty], by simp [hparse, hnot], fun h => absurd hempty h,
        fun i hi => by simp [hparse] at hi⟩
    · have hnot : ¬ IsEmptyLine line := fun h => by simpa [hquote.1] using h.count_quote
      rw [if_neg (isEmptyLine_iff.not.mp hnot)] at hparse
      exact ⟨by simp [hparse, hnot], by simp [hparse, hquote], fun _ h => absurd hquote h,
        fun i hi => by simp [hparse] at hi⟩
  | cons first tokens =>
    have hparse := parse_of_tokenize_cons htokens
    have hneither : ¬ (IsEmptyLine line ∨ IsLoneQuote line) := by
      rw [← hnil, htokens]
      exact List.cons_ne_nil first tokens
    obtain ⟨hempty, hquote⟩ := not_or.mp hneither
    refine ⟨by simp [hparse, hempty], by simp [hparse, hquote], fun _ _ => ⟨_, _, htokens, hparse⟩, ?_⟩
    intro i hi
    obtain rfl := Except.ok.inj (hparse.symm.trans hi)
    rw [← beginsUnnamed_iff htokens]
    exact Text.lowercase_eq_empty_iff first

-- the three kinds of lines, and a command without a name
example : parse "\u3000\t" = .error .empty ∧ parse " \"\u2028" = .error .noTokens ∧
    parse " \"\"Give -i \"\" -" =
      .ok ⟨"", [⟨1, "-i"⟩, ⟨2, "-"⟩], [⟨0, "Give"⟩, ⟨1, ""⟩]⟩ := by
  decide +kernel

end Invocation

end CommandConsole
