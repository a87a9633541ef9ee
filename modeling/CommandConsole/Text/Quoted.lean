import CommandConsole.Text.Printable

/-!
# Quoted text

A text in double quotes as it is shown in descriptions of values. The quote, the backslash, the line
breaks, the tab and the null character have short escapes, and every other character that cannot be
shown by itself is written by its code point in hexadecimal digits.
-/

namespace CommandConsole.Text

/-- The code point in lowercase hexadecimal digits, in braces. -/
def codePointEscape (c : Char) : List Char :=
  ['\\', 'u', '\x7b'] ++ Nat.toDigits 16 c.toNat ++ ['\x7d']

/-- The form of a character between double quotes. -/
def escapeChar (c : Char) : List Char :=
  match c with
  | '\x00' => ['\\', '0']
  | '\t' => ['\\', 't']
  | '\r' => ['\\', 'r']
  | '\n' => ['\\', 'n']
  | '\\' => ['\\', '\\']
  | '"' => ['\\', '"']
  | c => if isPrintable c then [c] else codePointEscape c

/-- The text between double quotes, with escapes. -/
def quoted (s : String) : String :=
  String.ofList ('"' :: s.toList.flatMap escapeChar ++ ['"'])

end CommandConsole.Text
