import CommandConsole.Command.Invocation
import CommandConsole.Proofs.Command.Pattern

/-!
# Flags and the arguments behind them

Numbering the flags of a line and placing its arguments at these numbers groups the tokens by the
flags they follow. The argument lists of an invocation's calls are exactly these groups, so every
argument behind the first flag belongs to one call, and those before it to none. A line with a token
is not blank, so it is always read as an invocation.
-/

namespace CommandConsole

/-- The tokens strictly between each flag and the next one, or the end. -/
def argumentGroups : List String → List (List String)
  | [] => []
  | token :: tokens =>
    if isFlag token then tokens.takeWhile (!isFlag ·) :: argumentGroups tokens
    else argumentGroups tokens

/-- The argument lists for some tokens: one for each flag, or one with everything. -/
def argumentLists (tokens : List String) : List (List String) :=
  if tokens.any isFlag then argumentGroups tokens else [tokens]

/-- The first flag among some tokens, or the empty one. -/
def leadingFlag (tokens : List String) : String :=
  (tokens.find? isFlag).getD ""

/-- A definition is chosen by the empty text or by one of the tokens, which is a flag. -/
theorem leadingFlag_eq (tokens : List String) :
    leadingFlag tokens = "" ∨ isFlag (leadingFlag tokens) = true ∧ leadingFlag tokens ∈ tokens := by
  rw [leadingFlag]
  cases hfind : tokens.find? isFlag with
  | none => exact .inl rfl
  | some flag => exact .inr ⟨List.find?_some hfind, List.mem_of_find?_eq_some hfind⟩

/-- There is one group for each flag. -/
theorem length_argumentGroups (tokens : List String) :
    (argumentGroups tokens).length = tokens.countP isFlag := by
  induction tokens with
  | nil => rfl
  | cons token tokens ih =>
    by_cases h : isFlag token <;> simp [argumentGroups, h, ih]

private theorem takeWhile_append_filter_dropWhile (p : String → Bool) (tokens : List String) :
    tokens.takeWhile p ++ (tokens.dropWhile p).filter p = tokens.filter p := by
  have hself : (tokens.takeWhile p).filter p = tokens.takeWhile p :=
    List.filter_eq_self.mpr (List.all_eq_true.mp List.all_takeWhile)
  calc tokens.takeWhile p ++ (tokens.dropWhile p).filter p
      = (tokens.takeWhile p ++ tokens.dropWhile p).filter p := by rw [List.filter_append, hself]
    _ = tokens.filter p := by rw [List.takeWhile_append_dropWhile]

/-- The groups hold each argument behind the first flag once and in order, and no other one. -/
theorem flatten_argumentGroups (tokens : List String) :
    (argumentGroups tokens).flatten =
      (tokens.dropWhile (!isFlag ·)).filter (!isFlag ·) := by
  induction tokens with
  | nil => rfl
  | cons token tokens ih =>
    by_cases h : isFlag token
    · rw [argumentGroups, if_pos h, List.flatten_cons, ih, takeWhile_append_filter_dropWhile]
      simp [h]
    · rw [argumentGroups, if_neg h, ih]
      simp [h]

/-- A group is read off the token list at its flag. -/
theorem getElem?_argumentGroups {flag : String} (hflag : isFlag flag = true)
    {between rest : List String} (hbetween : ∀ token ∈ between, isFlag token = false)
    (hrest : rest.head?.all isFlag = true) (before : List String) :
    (argumentGroups (before ++ flag :: (between ++ rest)))[before.countP isFlag]? =
      some between := by
  induction before with
  | nil =>
    have htake : (between ++ rest).takeWhile (!isFlag ·) = between := by
      rw [List.takeWhile_append_of_pos fun token ht => by simp [hbetween token ht]]
      cases rest with
      | nil => simp
      | cons token tokens => simp_all
    simp [argumentGroups, hflag, htake]
  | cons token before ih =>
    by_cases h : isFlag token
    · rw [List.cons_append, argumentGroups, if_pos h, List.countP_cons_of_pos h,
        List.getElem?_cons_succ, ih]
    · rw [List.cons_append, argumentGroups, if_neg h, List.countP_cons_of_neg h, ih]

section Splitting

variable (count : Nat) (tokens : List String)

/-- Flags are numbered above the count they start from. -/
theorem lt_position_of_mem_flags {count : Nat} {tokens : List String} {flag : Placed}
    (h : flag ∈ (splitFlagsAfter count tokens).1) : count < flag.position := by
  induction tokens generalizing count with
  | nil => simp [splitFlagsAfter] at h
  | cons token tokens ih =>
    by_cases hf : isFlag token
    · simp only [splitFlagsAfter, hf, if_true, List.mem_cons] at h
      rcases h with rfl | h
      · exact Nat.lt_succ_self count
      · exact Nat.lt_of_succ_lt (ih h)
    · simp only [splitFlagsAfter, hf, Bool.false_eq_true, if_false] at h
      exact ih h

/-- Arguments are placed at the count they start from or above. -/
theorem le_position_of_mem_arguments {count : Nat} {tokens : List String} {argument : Placed}
    (h : argument ∈ (splitFlagsAfter count tokens).2) : count ≤ argument.position := by
  induction tokens generalizing count with
  | nil => simp [splitFlagsAfter] at h
  | cons token tokens ih =>
    by_cases hf : isFlag token
    · simp only [splitFlagsAfter, hf, if_true] at h
      exact Nat.le_of_succ_le (ih h)
    · simp only [splitFlagsAfter, hf, Bool.false_eq_true, if_false, List.mem_cons] at h
      rcases h with rfl | h
      · exact Nat.le_refl count
      · exact ih h

/-- The flags are the tokens that are flags. -/
theorem map_text_flags :
    (splitFlagsAfter count tokens).1.map (·.text) = tokens.filter isFlag := by
  induction tokens generalizing count with
  | nil => rfl
  | cons token tokens ih =>
    by_cases hf : isFlag token <;> simp [splitFlagsAfter, hf, ih]

/-- The arguments are the other tokens. -/
theorem map_text_arguments :
    (splitFlagsAfter count tokens).2.map (·.text) = tokens.filter (!isFlag ·) := by
  induction tokens generalizing count with
  | nil => rfl
  | cons token tokens ih =>
    by_cases hf : isFlag token <;> simp [splitFlagsAfter, hf, ih]

/-- The arguments placed at the count they start from are those before the first flag. -/
theorem arguments_at_start :
    ((splitFlagsAfter count tokens).2.filter (·.position == count)).map (·.text) =
      tokens.takeWhile (!isFlag ·) := by
  induction tokens generalizing count with
  | nil => rfl
  | cons token tokens ih =>
    by_cases hf : isFlag token
    · have hnone : (splitFlagsAfter (count + 1) tokens).2.filter (·.position == count) = [] := by
        refine List.filter_eq_nil_iff.mpr fun argument ha => ?_
        have hle := le_position_of_mem_arguments ha
        simp only [beq_iff_eq]
        omega
      simp [splitFlagsAfter, hf, hnone]
    · simp [splitFlagsAfter, hf, ih]

/-- The arguments placed at each flag are the group of that flag. -/
theorem arguments_at_flags :
    (splitFlagsAfter count tokens).1.map (fun flag =>
      ((splitFlagsAfter count tokens).2.filter (·.position == flag.position)).map (·.text)) =
        argumentGroups tokens := by
  induction tokens generalizing count with
  | nil => rfl
  | cons token tokens ih =>
    by_cases hf : isFlag token
    · simp only [splitFlagsAfter, hf, if_true, List.map_cons, argumentGroups]
      rw [arguments_at_start, ih]
    · simp only [splitFlagsAfter, hf, Bool.false_eq_true, if_false, argumentGroups]
      rw [← ih count]
      refine List.map_congr_left fun flag hflag => ?_
      have hlt := lt_position_of_mem_flags hflag
      have hne : (count == flag.position) = false := by
        rw [beq_eq_false_iff_ne]
        omega
      simp [hne]

end Splitting

namespace Invocation

variable (name : String) (tokens : List String)

/-- The invocation of a command by its name and the tokens behind it. -/
def ofTokens : Invocation :=
  ⟨name, (splitFlags tokens).1, (splitFlags tokens).2⟩

/-- The definition is chosen by the first token that is a flag. -/
theorem primaryFlag?_ofTokens : (ofTokens name tokens).primaryFlag? = tokens.find? isFlag := by
  rw [primaryFlag?, ofTokens, splitFlags, ← List.head?_map, map_text_flags, List.head?_filter]

/-- The calls are made with the argument lists of the tokens. -/
theorem calls_ofTokens : (ofTokens name tokens).calls = argumentLists tokens := by
  have hflags := map_text_flags 0 tokens
  by_cases h : tokens.any isFlag
  · have hne : (splitFlagsAfter 0 tokens).1 ≠ [] := by
      intro he
      rw [he, List.map_nil, eq_comm, List.filter_eq_nil_iff] at hflags
      obtain ⟨token, hmem, hf⟩ := List.any_eq_true.mp h
      exact hflags token hmem hf
    simp only [calls, hasFlags, ofTokens, splitFlags, argumentLists, h, if_true,
      List.isEmpty_eq_false_iff.mpr hne, Bool.not_false]
    rw [← arguments_at_flags 0 tokens]
    refine List.map_congr_left fun flag hflag => ?_
    have hlt := lt_position_of_mem_flags hflag
    rw [argumentsAt, if_neg (by omega)]
  · have hnone : ∀ token ∈ tokens, ¬isFlag token = true := by simpa using h
    have hnil : (splitFlagsAfter 0 tokens).1 = [] := by
      rw [List.filter_eq_nil_iff.mpr hnone] at hflags
      exact List.map_eq_nil_iff.mp hflags
    have hall : tokens.filter (!isFlag ·) = tokens :=
      List.filter_eq_self.mpr fun token ht => by simpa using hnone token ht
    simp only [calls, hasFlags, ofTokens, splitFlags, argumentLists, h, hnil, argumentsAt,
      List.isEmpty_nil, Bool.not_true, Bool.false_eq_true, if_false, if_true]
    rw [map_text_arguments, hall]

end Invocation

/-- Blank characters hold no token. -/
theorem Token.scan_eq_nil_of_blank {cs : List Char} (h : ∀ c ∈ cs, Text.isBlankChar c = true) :
    Token.scan cs = [] := by
  induction cs with
  | nil => exact scan_nil
  | cons c cs ih =>
    rw [scan_blank (h c List.mem_cons_self)]
    exact ih fun c' hc' => h c' (List.mem_cons_of_mem c hc')

namespace Invocation

variable {line : String} {i : Invocation}

/-- A line with a token is read as the command that its first token names. -/
theorem parse_of_tokenize {name : String} {tokens : List String}
    (h : Token.tokenize line = name :: tokens) :
    parse line = .ok (ofTokens (Text.lowercase name) tokens) := by
  have hb : Text.isBlank line = false := by
    rw [Bool.eq_false_iff]
    intro hb
    have hall : ∀ c ∈ line.toList, Text.isBlankChar c = true := List.all_eq_true.mp hb
    rw [Token.tokenize, Token.scan_eq_nil_of_blank hall] at h
    exact absurd h (by simp)
  rw [parse, hb, h]
  rfl

/-- A line is read as an invocation if it has a token, of the command that the first one names. -/
theorem parse_eq_ok_iff :
    parse line = .ok i ↔ ∃ name tokens,
      Token.tokenize line = name :: tokens ∧ i = ofTokens (Text.lowercase name) tokens := by
  constructor
  · intro hparse
    cases htokens : Token.tokenize line with
    | cons name tokens =>
      rw [parse_of_tokenize htokens] at hparse
      exact ⟨name, tokens, rfl, (Except.ok.inj hparse).symm⟩
    | nil =>
      rw [parse, htokens] at hparse
      split at hparse <;> simp at hparse
  · rintro ⟨name, tokens, htokens, rfl⟩
    exact parse_of_tokenize htokens

/-- A line that is read as an invocation is not blank. -/
theorem isBlank_of_parse_eq_ok (h : parse line = .ok i) : Text.isBlank line = false := by
  rw [parse] at h
  split at h
  · simp at h
  · next hblank => simpa using hblank

/-- Only a blank line is read as empty. -/
theorem isBlank_of_parse_eq_empty (h : parse line = .error .empty) : Text.isBlank line = true := by
  rw [parse] at h
  split at h
  · next hblank => exact hblank
  · split at h <;> simp at h

end Invocation

end CommandConsole
