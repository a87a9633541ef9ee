import CommandConsole.Text.Lines

/-!
# Texts written line by line

Lines can be written one after the other with a line break of either kind behind each, which can be
missing behind the last. Reading the lines of such a text gives back the lines that were written, of
which only an empty one at the very end can be lost.
-/

namespace CommandConsole.Text

/-- The two kinds of line breaks. -/
inductive LineBreak where
  | feed
  | returnFeed
  deriving DecidableEq, Repr

def LineBreak.chars : LineBreak → List Char
  | feed => ['\n']
  | returnFeed => ['\r', '\n']

/-- A line break behind the text ends there, and none is inside. -/
def IsLine (line : String) : Prop :=
  '\n' ∉ line.toList ∧ line.toList.getLast? ≠ some '\r'

instance (line : String) : Decidable (IsLine line) :=
  inferInstanceAs (Decidable (_ ∧ _))

/-- The text is the lines one after the other, with a line break behind each, which can be missing
behind the last. -/
inductive Spells : List String → List Char → Prop
  | nil : Spells [] []
  | last (line : String) : Spells [line] line.toList
  | cons (line : String) (lineBreak : LineBreak) {lines : List String} {text : List Char} :
      Spells lines text → Spells (line :: lines) (line.toList ++ (lineBreak.chars ++ text))

variable {cs rest : List Char} {line : String}

/-- What is not a line feed goes on with a line. -/
theorem linesFrom_append (h : '\n' ∉ cs) (start rest : List Char) :
    linesFrom start (cs ++ rest) = linesFrom (cs.reverse ++ start) rest := by
  induction cs generalizing start with
  | nil => rfl
  | cons c cs ih =>
    have hne : c ≠ '\n' := fun he => h (he ▸ List.mem_cons_self)
    have hmem : '\n' ∉ cs := fun hmem => h (List.mem_cons_of_mem _ hmem)
    rw [List.cons_append, linesFrom, if_neg hne, ih hmem, List.reverse_cons,
      List.append_assoc, List.singleton_append]

/-- A line with a line break behind it is read as one. -/
theorem linesFrom_line (h : IsLine line) (lineBreak : LineBreak) (rest : List Char) :
    linesFrom [] (line.toList ++ (lineBreak.chars ++ rest)) = line.toList :: linesFrom [] rest := by
  rw [linesFrom_append h.1, List.append_nil]
  cases lineBreak with
  | feed =>
    have hkept : dropReturn line.toList = line.toList := if_neg h.2
    simp only [LineBreak.chars, List.singleton_append, linesFrom, List.reverse_reverse, if_true,
      hkept]
  | returnFeed =>
    have hdropped : dropReturn (line.toList ++ ['\r']) = line.toList := by simp [dropReturn]
    have hne : '\r' ≠ '\n' := by decide
    simp only [LineBreak.chars, List.cons_append, List.nil_append, linesFrom, hne, if_false, if_true,
      List.reverse_cons, List.reverse_reverse, hdropped]

/-- A line with nothing behind it is read as one, unless it is empty. -/
theorem linesFrom_last (h : IsLine line) :
    linesFrom [] line.toList = if line = "" then [] else [line.toList] := by
  have hread := linesFrom_append h.1 [] []
  rw [List.append_nil, List.append_nil] at hread
  rw [hread, linesFrom, List.reverse_reverse]
  by_cases hempty : line = ""
  · simp [hempty]
  · simp [hempty]

/-- The lines of a text are those of which it was written, but for an empty one at the end. -/
theorem exists_lines_append {lines : List String} {text : List Char} (h : Spells lines text)
    (hlines : ∀ line ∈ lines, IsLine line) :
    ∃ lost, lines = (linesFrom [] text).map String.ofList ++ lost ∧ ∀ line ∈ lost, line = "" := by
  induction h with
  | nil => exact ⟨[], rfl, fun _ h => absurd h List.not_mem_nil⟩
  | last line =>
    rw [linesFrom_last (hlines line List.mem_cons_self)]
    by_cases hempty : line = ""
    · exact ⟨[line], by rw [if_pos hempty]; rfl, by simp [hempty]⟩
    · exact ⟨[], by simp [hempty], fun _ h => absurd h List.not_mem_nil⟩
  | @cons line lineBreak lines text _ ih =>
    obtain ⟨hline, hlines⟩ := List.forall_mem_cons.mp hlines
    obtain ⟨lost, hlost, hempty⟩ := ih hlines
    refine ⟨lost, ?_, hempty⟩
    rw [linesFrom_line hline, List.map_cons, List.cons_append, ← hlost, String.ofList_toList]

end CommandConsole.Text
