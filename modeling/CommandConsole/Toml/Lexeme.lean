import CommandConsole.Toml.Value
import CommandConsole.Binary64.Reading

/-!
# Lexemes of a document

The parts of a document that hold no other values: blanks and comments, strings, numbers, dates and
times. A reader takes a text that starts with a lexeme and gives its value and the rest of the text,
or nothing if the text starts otherwise.
-/

namespace CommandConsole.Toml

/-- Takes a lexeme off the front of a text. -/
abbrev Reader (α : Type) := List Char → Option (α × List Char)

/-- Puts a character in front of a text that was read. -/
def withChar (c : Char) (read : Option (List Char × List Char)) : Option (List Char × List Char) :=
  read.map fun (text, rest) => (c :: text, rest)

/-! ### Blanks, line breaks and comments -/

/-- A space or a tab. -/
def isSpace (c : Char) : Bool :=
  c == ' ' || c == '\t'

def skipSpaces (cs : List Char) : List Char :=
  cs.dropWhile isSpace

/-- A character of a comment: any but the control characters, the tab excepted. -/
def isCommentChar (c : Char) : Bool :=
  c == '\t' || (0x20 ≤ c.toNat && c.toNat != 0x7F)

/-- Skips one line break. -/
def skipNewline? : List Char → Option (List Char)
  | '\n' :: rest => some rest
  | '\r' :: '\n' :: rest => some rest
  | _ => none

/-- Skips one line break or the end of the text. -/
def skipLineBreak? (cs : List Char) : Option (List Char) :=
  if cs = [] then some [] else skipNewline? cs

/-- Skips what may stand behind the content of a line: spaces, a comment, and the line break. -/
def skipLineEnd? (cs : List Char) : Option (List Char) :=
  match skipSpaces cs with
  | '#' :: rest => skipLineBreak? (rest.dropWhile isCommentChar)
  | rest => skipLineBreak? rest

/-- Skips spaces, line breaks and comments; inside a comment only a line break ends it. -/
def skipFiller? (inComment : Bool) : List Char → Option (List Char)
  | [] => some []
  | '\n' :: rest => skipFiller? false rest
  | '\r' :: '\n' :: rest => skipFiller? false rest
  | c :: rest =>
    if inComment then
      if isCommentChar c then skipFiller? true rest else none
    else if isSpace c then skipFiller? false rest
    else if c = '#' then skipFiller? true rest
    else some (c :: rest)

/-! ### Strings -/

/-- The value of a hexadecimal digit. -/
def hexValue? (c : Char) : Option Nat :=
  if c.isDigit then some (c.toNat - '0'.toNat)
  else if 'a' ≤ c ∧ c ≤ 'f' then some (c.toNat - 'a'.toNat + 10)
  else if 'A' ≤ c ∧ c ≤ 'F' then some (c.toNat - 'A'.toNat + 10)
  else none

/-- The character whose code point is written by hexadecimal digits. -/
def escapedChar? (digits : List Char) : Option Char :=
  match digits.mapM hexValue? with
  | some values =>
    let code := values.foldl (fun n d => 16 * n + d) 0
    if code.isValidChar then some (Char.ofNat code) else none
  | none => none

/-- A character that stands for itself in a string with escapes. -/
def isBasicChar (c : Char) : Bool :=
  isCommentChar c && c != '"' && c != '\\'

/-- A character that stands for itself in a string without escapes. -/
def isLiteralChar (c : Char) : Bool :=
  isCommentChar c && c != '\''

/-- The character of an escape by one letter. -/
def letterEscape? : Char → Option Char
  | 'b' => some '\x08'
  | 't' => some '\t'
  | 'n' => some '\n'
  | 'f' => some '\x0c'
  | 'r' => some '\r'
  | '"' => some '"'
  | '\\' => some '\\'
  | _ => none

/-- The rest of a string with escapes, on one line. -/
def readBasic : Reader (List Char)
  | [] => none
  | '"' :: rest => some ([], rest)
  | '\\' :: 'u' :: a :: b :: c :: d :: rest =>
    (escapedChar? [a, b, c, d]).bind fun x => withChar x (readBasic rest)
  | '\\' :: 'U' :: a :: b :: c :: d :: e :: f :: g :: h :: rest =>
    (escapedChar? [a, b, c, d, e, f, g, h]).bind fun x => withChar x (readBasic rest)
  | '\\' :: c :: rest => (letterEscape? c).bind fun x => withChar x (readBasic rest)
  | c :: rest => if isBasicChar c then withChar c (readBasic rest) else none

/-- The rest of a string without escapes, on one line. -/
def readLiteral : Reader (List Char)
  | [] => none
  | '\'' :: rest => some ([], rest)
  | c :: rest => if isLiteralChar c then withChar c (readLiteral rest) else none

/-- Nothing but spaces stands before the next line break. -/
def endsLine (cs : List Char) : Bool :=
  (skipNewline? (skipSpaces cs)).isSome

/-- The rest of a string with escapes over several lines. It ends at three quotes, before which up
to two more belong to the text. After a backslash at the end of a line, blanks and line breaks are
skipped.
-/
def readLongBasic (skipping : Bool) : Reader (List Char)
  | [] => none
  | '"' :: '"' :: '"' :: '"' :: '"' :: rest => some (['"', '"'], rest)
  | '"' :: '"' :: '"' :: '"' :: rest => some (['"'], rest)
  | '"' :: '"' :: '"' :: rest => some ([], rest)
  | '"' :: rest => withChar '"' (readLongBasic false rest)
  | '\n' :: rest =>
    if skipping then readLongBasic true rest else withChar '\n' (readLongBasic false rest)
  | '\r' :: '\n' :: rest =>
    if skipping then readLongBasic true rest else withChar '\n' (readLongBasic false rest)
  | '\\' :: 'u' :: a :: b :: c :: d :: rest =>
    (escapedChar? [a, b, c, d]).bind fun x => withChar x (readLongBasic false rest)
  | '\\' :: 'U' :: a :: b :: c :: d :: e :: f :: g :: h :: rest =>
    (escapedChar? [a, b, c, d, e, f, g, h]).bind fun x => withChar x (readLongBasic false rest)
  | '\\' :: c :: rest =>
    if endsLine (c :: rest) then readLongBasic true (c :: rest)
    else (letterEscape? c).bind fun x => withChar x (readLongBasic false rest)
  | c :: rest =>
    if skipping && isSpace c then readLongBasic true rest
    else if isBasicChar c then withChar c (readLongBasic false rest)
    else none

/-- The rest of a string without escapes over several lines, which ends like one with escapes. -/
def readLongLiteral : Reader (List Char)
  | [] => none
  | '\'' :: '\'' :: '\'' :: '\'' :: '\'' :: rest => some (['\'', '\''], rest)
  | '\'' :: '\'' :: '\'' :: '\'' :: rest => some (['\''], rest)
  | '\'' :: '\'' :: '\'' :: rest => some ([], rest)
  | '\'' :: rest => withChar '\'' (readLongLiteral rest)
  | '\n' :: rest => withChar '\n' (readLongLiteral rest)
  | '\r' :: '\n' :: rest => withChar '\n' (readLongLiteral rest)
  | c :: rest => if isLiteralChar c then withChar c (readLongLiteral rest) else none

/-- Drops a line break directly behind the opening of a string over several lines. -/
def dropFirstBreak (cs : List Char) : List Char :=
  (skipNewline? cs).getD cs

/-- Any of the four kinds of strings. -/
def readString : Reader (List Char)
  | '"' :: '"' :: '"' :: rest => readLongBasic false (dropFirstBreak rest)
  | '\'' :: '\'' :: '\'' :: rest => readLongLiteral (dropFirstBreak rest)
  | '"' :: rest => readBasic rest
  | '\'' :: rest => readLiteral rest
  | _ => none

/-! ### Numbers -/

/-- Further digits of a word, between which single underscores may stand. -/
def readMoreDigits (isDigit : Char → Bool) : Reader (List Char)
  | [] => some ([], [])
  | '_' :: c :: rest => if isDigit c then withChar c (readMoreDigits isDigit rest) else none
  | c :: rest =>
    if c = '_' then none
    else if isDigit c then withChar c (readMoreDigits isDigit rest)
    else some ([], c :: rest)

/-- A word of at least one digit. -/
def readDigits (isDigit : Char → Bool) : Reader (List Char)
  | [] => none
  | c :: rest => if isDigit c then withChar c (readMoreDigits isDigit rest) else none

/-- The digits before the point: a zero alone, or a word that starts with no zero. -/
def readWhole : Reader (List Char)
  | '0' :: rest => some (['0'], rest)
  | cs => readDigits Char.isDigit cs

/-- An exponent, if there is one. -/
def readExponent : Reader (Option Int)
  | [] => some (none, [])
  | mark :: rest =>
    if mark = 'e' ∨ mark = 'E' then
      let (negative, rest) := Binary64.splitSign rest
      (readDigits Char.isDigit rest).map fun (digits, rest) =>
        let size : Int := Binary64.digitsValue digits
        (some (if negative then -size else size), rest)
    else some (none, mark :: rest)

/-- The first integer that has no place, `2^63`. -/
def integerLimit : Int := 9223372036854775808

/-- An integer, if it has a place: integers of 64 bits with a sign do. -/
def integer? (value : Int) : Option Value :=
  if -integerLimit ≤ value ∧ value < integerLimit then some (.integer value) else none

/-- The number nearest to a decimal; one that is too large has no place, unless it is below zero. -/
def float? (negative : Bool) (digits : List Char) (exponent : Int) : Option Value :=
  let x := Binary64.ofDecimal negative ⟨digits, exponent⟩
  if x = .infinite false then none else some (.float x)

/-- A decimal number behind its sign: with a fraction or an exponent it is a float. -/
def readDecimal (negative : Bool) : Reader Value := fun cs => do
  let (whole, rest) ← readWhole cs
  match rest with
  | '.' :: rest =>
    let (fraction, rest) ← readDigits Char.isDigit rest
    let (exponent, rest) ← readExponent rest
    let value ← float? negative (whole ++ fraction) (exponent.getD 0 - fraction.length)
    some (value, rest)
  | _ =>
    let (exponent, rest) ← readExponent rest
    let value ← match exponent with
      | some exponent => float? negative whole exponent
      | none =>
        let size : Int := Binary64.digitsValue whole
        integer? (if negative then -size else size)
    some (value, rest)

/-- An integer in a base, behind the mark of the base. -/
def readBased (base : Nat) : Reader Value := fun cs => do
  let isDigit := fun c => (hexValue? c).any (· < base)
  let (digits, rest) ← readDigits isDigit cs
  let size := digits.foldl (fun n c => base * n + (hexValue? c).getD 0) 0
  let value ← integer? size
  some (value, rest)

/-- An integer or a float. -/
def readNumber : Reader Value
  | '0' :: 'x' :: rest => readBased 16 rest
  | '0' :: 'o' :: rest => readBased 8 rest
  | '0' :: 'b' :: rest => readBased 2 rest
  | cs =>
    let (negative, rest) := Binary64.splitSign cs
    match rest with
    | 'i' :: 'n' :: 'f' :: rest => some (.float (.infinite negative), rest)
    | 'n' :: 'a' :: 'n' :: rest => some (.float .nan, rest)
    | rest => readDecimal negative rest

/-! ### Dates and times -/

/-- A number of so many digits. -/
def readFixed : Nat → Nat → Reader Nat
  | 0, value, cs => some (value, cs)
  | _ + 1, _, [] => none
  | n + 1, value, c :: rest =>
    if c.isDigit then readFixed n (10 * value + Binary64.digitValue c) rest else none

/-- A number of two digits in a range. -/
def readTwo (low high : Nat) : Reader Nat := fun cs =>
  match readFixed 2 0 cs with
  | some (value, rest) => if low ≤ value ∧ value ≤ high then some (value, rest) else none
  | none => none

/-- Skips one given character. -/
def skipChar? (c : Char) : List Char → Option (List Char)
  | [] => none
  | d :: rest => if c = d then some rest else none

/-- The year has a 29th of February. -/
def isLeapYear (year : Nat) : Bool :=
  year % 4 == 0 && (year % 100 != 0 || year % 400 == 0)

/-- The last day of a month. -/
def lastDay (year month : Nat) : Nat :=
  if month = 2 then if isLeapYear year then 29 else 28
  else if month = 4 ∨ month = 6 ∨ month = 9 ∨ month = 11 then 30
  else 31

/-- Skips a date that the calendar has. -/
def skipDate? (cs : List Char) : Option (List Char) := do
  let (year, rest) ← readFixed 4 0 cs
  let (month, rest) ← readTwo 1 12 (← skipChar? '-' rest)
  let (_, rest) ← readTwo 1 (lastDay year month) (← skipChar? '-' rest)
  some rest

/-- Skips a time of day, with seconds and perhaps a fraction of them. -/
def skipTime? (cs : List Char) : Option (List Char) := do
  let (_, rest) ← readTwo 0 23 cs
  let (_, rest) ← readTwo 0 59 (← skipChar? ':' rest)
  let (_, rest) ← readTwo 0 60 (← skipChar? ':' rest)
  match rest with
  | '.' :: d :: fraction =>
    some (if d.isDigit then fraction.dropWhile Char.isDigit else rest)
  | rest => some rest

/-- Skips an offset from universal time. -/
def skipOffset? : List Char → Option (List Char)
  | [] => none
  | c :: rest =>
    if c = 'Z' ∨ c = 'z' then some rest
    else if c = '+' ∨ c = '-' then do
      let (_, rest) ← readTwo 0 23 rest
      let (_, rest) ← readTwo 0 59 (← skipChar? ':' rest)
      some rest
    else none

/-- The mark between a date and a time. -/
def isDateTimeMark (c : Char) : Bool :=
  c == 'T' || c == 't' || c == ' '

/-- Skips a time and an offset, if they follow a date. -/
def skipTimeOfDate (cs : List Char) : List Char :=
  match cs with
  | [] => []
  | c :: rest =>
    if isDateTimeMark c then
      match skipTime? rest with
      | some rest => (skipOffset? rest).getD rest
      | none => cs
    else cs

/-- A date, a time, or both. -/
def readDateTime : Reader Value := fun cs =>
  match skipDate? cs with
  | some rest => some (.dateTime, skipTimeOfDate rest)
  | none => (skipTime? cs).map fun rest => (.dateTime, rest)

/-! ### Scalars -/

/-- A value that holds no other values. -/
def readScalar : Reader Value := fun cs =>
  match cs with
  | 't' :: 'r' :: 'u' :: 'e' :: rest => some (.boolean true, rest)
  | 'f' :: 'a' :: 'l' :: 's' :: 'e' :: rest => some (.boolean false, rest)
  | c :: _ =>
    if c = '"' ∨ c = '\'' then
      (readString cs).map fun (text, rest) => (.string (String.ofList text), rest)
    else
      match readDateTime cs with
      | some read => some read
      | none => readNumber cs
  | [] => none

end CommandConsole.Toml
