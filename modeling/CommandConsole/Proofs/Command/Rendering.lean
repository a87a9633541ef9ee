import CommandConsole.Proofs.Command.Quoting
import Mathlib.Data.List.Chain

/-!
# Writing tokens as a line

A token without quotes can be written into a line in quotes, and bare if it is not empty and holds
no white space. White space stands before, between and behind the tokens, and there may be none
between two of them where one is in quotes. However a list of tokens is written, the line is cut
into these tokens again. The tokens of a line hold no quotes, so they can always be written.
-/

namespace CommandConsole.Token

open CommandConsole.Text

/-- White space of any length. -/
abbrev Blanks : Type :=
  { cs : List Char // ∀ c ∈ cs, isBlankChar c = true }

/-- A token as it is written into a line. -/
structure Written where
  token : String
  inQuotes : Bool
  /-- The token holds no quote. -/
  unquoted : '"' ∉ token.toList
  /-- A bare token is a run of characters. -/
  bare : inQuotes = false → token ≠ "" ∧ ∀ c ∈ token.toList, isBlankChar c = false

/-- The text of a written token. -/
def Written.text (w : Written) : List Char :=
  if w.inQuotes then '"' :: (w.token.toList ++ ['"']) else w.token.toList

/-- Two written tokens, each with the white space behind it, stand apart in a line. -/
def Apart (first second : Written × Blanks) : Prop :=
  first.2.val = [] → first.1.inQuotes = true ∨ second.1.inQuotes = true

/-- A way of writing tokens as a line. -/
structure Rendering (tokens : List String) where
  /-- The white space before the first token. -/
  lead : Blanks
  /-- The written tokens, each with the white space behind it. -/
  parts : List (Written × Blanks)
  written : parts.map (·.1.token) = tokens
  apart : parts.IsChain Apart

/-- The text of written tokens with the white space behind them. -/
def textOfParts (parts : List (Written × Blanks)) : List Char :=
  parts.flatMap fun part => part.1.text ++ part.2.val

/-- The line in which tokens are written. -/
def Rendering.line {tokens : List String} (r : Rendering tokens) : String :=
  String.ofList (r.lead.val ++ textOfParts r.parts)

/-- White space before a text does not matter. -/
theorem scan_blanks (blanks : Blanks) (rest : List Char) :
    scan (blanks.val ++ rest) = scan rest := by
  obtain ⟨blanks, h⟩ := blanks
  induction blanks with
  | nil => rfl
  | cons c blanks ih =>
    rw [List.cons_append, scan_blank (h c List.mem_cons_self)]
    exact ih fun d hd => h d (List.mem_cons_of_mem _ hd)

/-- A written token is read as the token, where no character behind a bare one belongs to it. -/
theorem scan_text (w : Written) {rest : List Char}
    (hrest : w.inQuotes = false → rest.head?.all (!isBare ·) = true) :
    scan (w.text ++ rest) = w.token.toList :: scan rest := by
  cases hquotes : w.inQuotes with
  | true =>
    have htext : w.text = '"' :: (w.token.toList ++ ['"']) := by simp [Written.text, hquotes]
    have hscan := scan_span w.unquoted rest
    simpa [htext] using hscan
  | false =>
    obtain ⟨hne, hblank⟩ := w.bare hquotes
    have htext : w.text = w.token.toList := by simp [Written.text, hquotes]
    have hrun : ∀ c ∈ w.token.toList, isBare c = true := by
      intro c hc
      refine isBare_iff.mpr ⟨hblank c hc, ?_⟩
      rintro rfl
      exact w.unquoted hc
    rw [htext, scan_run (by simpa using hne) hrun (hrest hquotes)]

/-- What is written behind a bare token does not belong to it. -/
theorem head?_behind {part : Written × Blanks} {parts : List (Written × Blanks)}
    (hapart : (part :: parts).IsChain Apart) (hbare : part.1.inQuotes = false) :
    (part.2.val ++ textOfParts parts).head?.all (!isBare ·) = true := by
  obtain ⟨written, blanks, hblanks⟩ := part
  cases blanks with
  | cons c blanks =>
    have hc := isBare_of_isBlankChar (hblanks c List.mem_cons_self)
    simp [hc]
  | nil =>
    cases parts with
    | nil => rfl
    | cons next parts =>
      -- no white space follows, so the next token is in quotes
      have hnext : next.1.inQuotes = true :=
        ((List.isChain_cons_cons.mp hapart).1 rfl).resolve_left (by simpa using hbare)
      simp [textOfParts, Written.text, hnext, isBare_quote]

/-- Written tokens that stand apart are read one by one. -/
theorem scan_textOfParts {parts : List (Written × Blanks)} (h : parts.IsChain Apart) :
    scan (textOfParts parts) = parts.map (·.1.token.toList) := by
  induction parts with
  | nil => simp [textOfParts]
  | cons part parts ih =>
    have htext : textOfParts (part :: parts) =
        part.1.text ++ (part.2.val ++ textOfParts parts) := by simp [textOfParts]
    rw [htext, scan_text part.1 (head?_behind h), scan_blanks, ih h.tail, List.map_cons]

/-- A line is cut into the tokens that are written in it. -/
theorem tokenize_line {tokens : List String} (r : Rendering tokens) : tokenize r.line = tokens := by
  have hscan : scan r.line.toList = r.parts.map (·.1.token.toList) := by
    rw [Rendering.line, String.toList_ofList, scan_blanks, scan_textOfParts r.apart]
  calc tokenize r.line
      = (r.parts.map (·.1.token.toList)).map String.ofList := by rw [tokenize, hscan]
    _ = r.parts.map (·.1.token) := by simp [Function.comp_def]
    _ = tokens := r.written

/-- A token in quotes. -/
def Written.quoting (token : String) (h : '"' ∉ token.toList) : Written where
  token := token
  inQuotes := true
  unquoted := h
  bare := by simp

/-- One space. -/
def space : Blanks :=
  ⟨[' '], fun c hc => by
    obtain rfl := List.mem_singleton.mp hc
    decide⟩

/-- Writes each token in quotes, with a space behind it. -/
def Rendering.quoting (tokens : List String) (h : ∀ token ∈ tokens, '"' ∉ token.toList) :
    Rendering tokens where
  lead := ⟨[], by simp⟩
  parts := tokens.attach.map fun token =>
    (.quoting token.val (h token.val token.property), space)
  written := by simp [Written.quoting, Function.comp_def]
  apart := by
    refine List.Pairwise.isChain ((List.pairwise_map).mpr ?_)
    exact List.pairwise_of_forall fun _ _ _ => Or.inl rfl

/-- However tokens are written, the line is cut into them again. The tokens of a line hold no quotes
and can be written, and however they are, the line is cut into the same tokens. -/
theorem tokenize_of_written :
    (∀ (tokens : List String) (r : Rendering tokens), tokenize r.line = tokens) ∧
      ∀ line : String, (∀ token ∈ tokenize line, '"' ∉ token.toList) ∧
        Nonempty (Rendering (tokenize line)) ∧
          ∀ r : Rendering (tokenize line), tokenize r.line = tokenize line := by
  refine ⟨fun _ r => tokenize_line r, fun line => ?_⟩
  have hunquoted : ∀ token ∈ tokenize line, '"' ∉ token.toList :=
    fun token hmem => quote_notMem_of_mem_tokenize hmem
  exact ⟨hunquoted, ⟨.quoting _ hunquoted⟩, fun r => tokenize_line r⟩

end CommandConsole.Token
