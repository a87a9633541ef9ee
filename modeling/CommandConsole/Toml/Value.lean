import CommandConsole.Binary64.Basic

/-!
# Values of a document

A document is a table: a list of keys with their values, each key once, in the order in which they
were written. Tables remember how they came to be, since that decides what later lines may add to
them. Dates and times keep no content, for no setting is one.
-/

namespace CommandConsole.Toml

/-- How a table came to be. -/
inductive Origin where
  /-- Written in braces as a value. -/
  | inline
  /-- Opened by a header of its own. -/
  | defined
  /-- Passed through by the header of a table inside it. -/
  | implied
  /-- Passed through by a dotted key. -/
  | dotted
  deriving DecidableEq, Repr

/-- A value of a document. -/
inductive Value where
  | string (text : String)
  | integer (value : Int)
  | float (value : Binary64)
  | boolean (value : Bool)
  | dateTime
  /-- An array written as a value. -/
  | array (items : List Value)
  /-- The tables opened by array headers, in order. -/
  | tables (items : List (List (String × Value)))
  | table (origin : Origin) (entries : List (String × Value))

/-- The content of a table. -/
abbrev Entries := List (String × Value)

namespace Entries

/-- The value of a key. -/
def get? (entries : Entries) (key : String) : Option Value :=
  entries.lookup key

/-- Puts a value in place of the one of a key. -/
def replace (entries : Entries) (key : String) (value : Value) : Entries :=
  entries.map fun entry => if entry.1 = key then (key, value) else entry

/--
Adds a value under a dotted key: the names before the last one lead through tables that such keys
may extend. Those are tables that dotted keys made, tables implied by a header, except as the last
one, and the last of the tables of an array, except as the last one.
-/
def insertDotted (key : String) (value : Value) : List String → Entries → Option Entries
  | [], entries =>
    if (entries.get? key).isSome then none else some (entries ++ [(key, value)])
  | name :: path, entries =>
    match entries.get? name with
    | none =>
      (insertDotted key value path []).map fun inner =>
        entries ++ [(name, .table .dotted inner)]
    | some (.table .dotted inner) =>
      (insertDotted key value path inner).map fun inner =>
        entries.replace name (.table .dotted inner)
    | some (.table .implied inner) =>
      if path = [] then none
      else
        (insertDotted key value path inner).map fun inner =>
          entries.replace name (.table .implied inner)
    | some (.tables items) =>
      match path, items.getLast? with
      | _ :: _, some inner =>
        (insertDotted key value path inner).map fun inner =>
          entries.replace name (.tables (items.dropLast ++ [inner]))
      | _, _ => none
    | some _ => none

/--
Changes the table at the end of a path of header names, which leads through tables that are not
values and through the last table of an array, and makes the tables that are not there.
-/
def changeAt (change : Entries → Option Entries) : List String → Entries → Option Entries
  | [], entries => change entries
  | name :: path, entries =>
    match entries.get? name with
    | none =>
      (changeAt change path []).map fun inner => entries ++ [(name, .table .implied inner)]
    | some (.table .inline _) => none
    | some (.table origin inner) =>
      (changeAt change path inner).map fun inner => entries.replace name (.table origin inner)
    | some (.tables items) =>
      match items.getLast? with
      | some inner =>
        (changeAt change path inner).map fun inner =>
          entries.replace name (.tables (items.dropLast ++ [inner]))
      | none => none
    | some _ => none

/-- Opens a table by a header: a new one, or one that was only implied so far. -/
def openTable (name : String) (entries : Entries) : Option Entries :=
  match entries.get? name with
  | none => some (entries ++ [(name, .table .defined [])])
  | some (.table .implied inner) => some (entries.replace name (.table .defined inner))
  | some _ => none

/-- Opens the next table of an array by a header. -/
def openElement (name : String) (entries : Entries) : Option Entries :=
  match entries.get? name with
  | none => some (entries ++ [(name, .tables [[]])])
  | some (.tables items) => some (entries.replace name (.tables (items ++ [[]])))
  | some _ => none

end Entries

end CommandConsole.Toml
