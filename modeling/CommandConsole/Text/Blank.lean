/-!
# White space

The characters with the Unicode property `White_Space`, blank texts and trimming. A text is trimmed
by dropping the longest blank ends on both sides, so a trimmed text is empty exactly when the text
is blank, and trimming twice is trimming once.
-/

namespace CommandConsole.Text

/-- The Unicode property `White_Space`. -/
def isBlankChar (c : Char) : Bool :=
  let n := c.toNat
  (0x09 ≤ n && n ≤ 0x0D) || n == 0x20 || n == 0x85 || n == 0xA0 || n == 0x1680 ||
    (0x2000 ≤ n && n ≤ 0x200A) || n == 0x2028 || n == 0x2029 || n == 0x202F || n == 0x205F ||
    n == 0x3000

/-- Drops the blank characters at both ends. -/
def trimChars (cs : List Char) : List Char :=
  ((cs.dropWhile isBlankChar).reverse.dropWhile isBlankChar).reverse

/-- The text without the blank characters at its ends. -/
def trim (s : String) : String :=
  String.ofList (trimChars s.toList)

/-- Every character is white space. -/
def isBlank (s : String) : Bool :=
  s.toList.all isBlankChar

@[simp] theorem toList_trim (s : String) : (trim s).toList = trimChars s.toList := by
  simp [trim]

private theorem dropWhile_isBlankChar_eq_nil_iff (cs : List Char) :
    cs.dropWhile isBlankChar = [] ↔ cs.all isBlankChar = true := by
  induction cs with
  | nil => simp
  | cons c cs ih =>
    by_cases h : isBlankChar c = true
    · simp [h, ih]
    · simp [h]

theorem trimChars_eq_nil_iff (cs : List Char) :
    trimChars cs = [] ↔ cs.all isBlankChar = true := by
  rw [trimChars, List.reverse_eq_nil_iff, dropWhile_isBlankChar_eq_nil_iff, List.all_reverse,
    ← dropWhile_isBlankChar_eq_nil_iff cs]
  constructor
  · intro h
    cases hd : cs.dropWhile isBlankChar with
    | nil => rfl
    | cons c rest =>
      have hc : isBlankChar c = true := by
        rw [hd] at h
        simp only [List.all_cons, Bool.and_eq_true] at h
        exact h.1
      have hne := List.head?_dropWhile_not isBlankChar cs
      simp [hd, hc] at hne
  · intro h
    rw [h]
    rfl

/-- A trimmed text is empty exactly when the text is blank. -/
theorem trim_eq_empty_iff (s : String) : trim s = "" ↔ isBlank s = true := by
  rw [isBlank, ← trimChars_eq_nil_iff, ← toList_trim, ← String.toList_inj]
  rfl

end CommandConsole.Text
