import CommandConsole.Text.Blank

/-!
# Tokens of a line

A line is cut into tokens from left to right. A token is either the text between two quotes, which
may be empty and may hold white space, or a longest run of characters that are neither white space
nor quotes. A quote without a partner is passed over, so what follows it is read as if it were not
there.
-/

namespace CommandConsole.Token

open CommandConsole.Text

/-- The character belongs to a run outside quotes. -/
def isBare (c : Char) : Bool :=
  !isBlankChar c && c != '"'

/-- The character is not the quote. -/
def isUnquoted (c : Char) : Bool :=
  c != '"'

private theorem length_dropWhile_le (p : Char → Bool) (cs : List Char) :
    (cs.dropWhile p).length ≤ cs.length := by
  induction cs with
  | nil => simp
  | cons c cs ih =>
    rw [List.dropWhile_cons]
    split
    · exact Nat.le_succ_of_le ih
    · exact Nat.le_refl _

/-- The tokens of a line. -/
def scan : List Char → List (List Char)
  | [] => []
  | c :: rest =>
    if c = '"' then
      match _h : rest.dropWhile isUnquoted with
      | [] => scan rest
      | _ :: after => rest.takeWhile isUnquoted :: scan after
    else if isBlankChar c then scan rest
    else (c :: rest.takeWhile isBare) :: scan (rest.dropWhile isBare)
termination_by cs => cs.length
decreasing_by
  · simp
  · have hle := length_dropWhile_le isUnquoted rest
    rw [_h] at hle
    simp only [List.length_cons] at hle ⊢
    omega
  · simp
  · have hle := length_dropWhile_le isBare rest
    simp only [List.length_cons]
    omega

/-- The tokens of a line as texts. -/
def tokenize (s : String) : List String :=
  (scan s.toList).map String.ofList

end CommandConsole.Token
