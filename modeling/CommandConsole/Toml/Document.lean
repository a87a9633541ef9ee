import CommandConsole.Toml.Lexeme

/-!
# Documents

A document is a list of lines that are blank, hold a comment, give a value to a dotted key, or open
a table or the next table of an array by a header. Values that hold other values may be nested, and
keys may be dotted, less than eighty deep. A document that breaks a rule has no content.
-/

namespace CommandConsole.Toml

/-- The first depth at which nothing is read any more. -/
def depthLimit : Nat := 80

/-- A character of a key without quotes. -/
def isKeyChar (c : Char) : Bool :=
  ('a' ≤ c && c ≤ 'z') || ('A' ≤ c && c ≤ 'Z') || c.isDigit || c == '_' || c == '-'

/-- One name of a key. -/
def readName : Reader String := fun cs =>
  match cs with
  | '"' :: rest => (readBasic rest).map fun (text, rest) => (String.ofList text, rest)
  | '\'' :: rest => (readLiteral rest).map fun (text, rest) => (String.ofList text, rest)
  | cs =>
    match cs.takeWhile isKeyChar with
    | [] => none
    | name => some (String.ofList name, cs.dropWhile isKeyChar)

/-- The names of a dotted key, with spaces around each. -/
def readNames : Nat → Reader (List String)
  | 0, _ => none
  | fuel + 1, cs =>
    match readName (skipSpaces cs) with
    | none => none
    | some (name, rest) =>
      match skipSpaces rest with
      | '.' :: rest => (readNames fuel rest).map fun (names, rest) => (name :: names, rest)
      | rest => some ([name], rest)

/-- A key: the names before the last one, and the last one. -/
def readKey : Reader (List String × String) := fun cs =>
  match readNames depthLimit cs with
  | some (names, rest) =>
    match names.getLast? with
    | some last => if names.length < depthLimit then some ((names.dropLast, last), rest) else none
    | none => none
  | none => none

/-- The items of an array behind the opening bracket. -/
def readItems (item : Reader Value) : Nat → Reader (List Value)
  | 0, _ => none
  | fuel + 1, cs =>
    match skipFiller? false cs with
    | some (']' :: rest) => some ([], rest)
    | some cs =>
      match item cs with
      | none => none
      | some (value, rest) =>
        match skipFiller? false rest with
        | some (']' :: rest) => some ([value], rest)
        | some (',' :: rest) =>
          (readItems item fuel rest).map fun (values, rest) => (value :: values, rest)
        | _ => none
    | none => none

/-- A key and its value. -/
def readAssignment (item : Reader Value) : Reader (List String × String × Value) := fun cs =>
  match readKey cs with
  | some ((path, key), '=' :: rest) =>
    (item (skipSpaces rest)).map fun (value, rest) => ((path, key, value), rest)
  | _ => none

/-- The assignments of a table in braces, the first of them not yet read. -/
def readAssignments (item : Reader Value) : Nat → Entries → Reader Entries
  | 0, _, _ => none
  | fuel + 1, entries, cs =>
    match readAssignment item cs with
    | none => none
    | some ((path, key, value), rest) =>
      match entries.insertDotted key value path with
      | none => none
      | some entries =>
        match skipSpaces rest with
        | '\x7d' :: rest => some (entries, rest)
        | ',' :: rest => readAssignments item fuel entries rest
        | _ => none

/-- A value that opens at most so many others inside it. -/
def readValue : Nat → Reader Value
  | 0, cs => readScalar cs
  | depth + 1, cs =>
    match cs with
    | '[' :: rest =>
      (readItems (readValue depth) (rest.length + 1) rest).map fun (values, rest) =>
        (.array values, rest)
    | '\x7b' :: rest =>
      match skipSpaces rest with
      | '\x7d' :: rest => some (.table .inline [], rest)
      | rest =>
        (readAssignments (readValue depth) (rest.length + 1) [] rest).map fun (entries, rest) =>
          (.table .inline entries, rest)
    | cs => readScalar cs

/-- A document as far as it has been read. -/
structure Draft where
  entries : Entries
  /-- The names of the table that was opened last, none for the document itself. -/
  openPath : List String

namespace Draft

/-- Gives a value to a key of the open table. -/
def assign (path : List String) (key : String) (value : Value) (d : Draft) : Option Draft :=
  (d.entries.changeAt (Entries.insertDotted key value path) d.openPath).map fun entries =>
    { d with entries }

/-- Opens a table. -/
def openTable (path : List String) (name : String) (d : Draft) : Option Draft :=
  (d.entries.changeAt (Entries.openTable name) path).map fun entries => ⟨entries, path ++ [name]⟩

/-- Opens the next table of an array. -/
def openElement (path : List String) (name : String) (d : Draft) : Option Draft :=
  (d.entries.changeAt (Entries.openElement name) path).map fun entries => ⟨entries, path ++ [name]⟩

end Draft

/-- Reads one line with content, or the first lines of one that goes on over several. -/
def readLine (d : Draft) (cs : List Char) : Option (Draft × List Char) :=
  match cs with
  | '[' :: '[' :: rest =>
    match readKey rest with
    | some ((path, name), ']' :: ']' :: rest) => do
      some (← d.openElement path name, ← skipLineEnd? rest)
    | _ => none
  | '[' :: rest =>
    match readKey rest with
    | some ((path, name), ']' :: rest) => do
      some (← d.openTable path name, ← skipLineEnd? rest)
    | _ => none
  | cs =>
    match readAssignment (readValue (depthLimit - 1)) cs with
    | some ((path, key, value), rest) => do
      some (← d.assign path key value, ← skipLineEnd? rest)
    | none => none

/-- Reads the lines of a document; each takes a character at least. -/
def readLines : Nat → Draft → List Char → Option Draft
  | 0, _, _ => none
  | fuel + 1, d, cs =>
    match skipSpaces cs with
    | [] => some d
    | cs =>
      match skipLineEnd? cs with
      | some rest => readLines fuel d rest
      | none =>
        match readLine d cs with
        | some (d, rest) => readLines fuel d rest
        | none => none

/-- The content of a document, a byte order mark at its start left out. -/
def parse? (text : String) : Option Entries :=
  let cs := text.toList
  let cs := if cs.head? = some '\ufeff' then cs.drop 1 else cs
  (readLines (cs.length + 1) ⟨[], []⟩ cs).map (·.entries)

end CommandConsole.Toml
