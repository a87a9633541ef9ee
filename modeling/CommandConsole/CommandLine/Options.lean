/-!
# Command line options

Options are written with their long or, where they have one, their short name. A value follows as
the next word, behind an equals sign, or directly behind a short name, and several short names
without a value may share one word. No option may be given twice, and there are no words beside the
options. Asking for the version or for help ends the reading.
-/

namespace CommandConsole.CommandLine

/-- What the options of a command line ask for. -/
structure Options where
  config? : Option String
  script? : Option String
  historySize? : Option Nat
  noColour : Bool
  logLevel? : Option String
  deriving DecidableEq, Repr

/-- Why there are no options to go by. -/
inductive Stop where
  | version
  | help
  /-- The command line is not well formed. -/
  | misuse
  deriving DecidableEq, Repr

/-- The options that take a value. -/
inductive Valued where
  | config
  | script
  | historySize
  | logLevel
  deriving DecidableEq, Repr

/-- The options that take no value. -/
inductive Plain where
  | noColour
  | version
  | help
  deriving DecidableEq, Repr

/-- An option of either sort. -/
inductive Name where
  | valued (name : Valued)
  | plain (name : Plain)
  deriving DecidableEq, Repr

/-- The option with a long name. -/
def longName? : String → Option Name
  | "config" => some (.valued .config)
  | "script" => some (.valued .script)
  | "history-size" => some (.valued .historySize)
  | "log-level" => some (.valued .logLevel)
  | "no-color" => some (.plain .noColour)
  | "version" => some (.plain .version)
  | "help" => some (.plain .help)
  | _ => none

/-- The option with a short name. -/
def shortName? : Char → Option Name
  | 'c' => some (.valued .config)
  | 's' => some (.valued .script)
  | 'l' => some (.valued .logLevel)
  | 'V' => some (.plain .version)
  | 'h' => some (.plain .help)
  | _ => none

/-- The first number that is too large for a count. -/
def countLimit : Nat := Nat.pow 2 64

/-- A count below the limit in decimal digits, perhaps behind a plus sign. -/
def count? (text : String) : Option Nat :=
  let digits := match text.toList with
    | '+' :: digits => digits
    | digits => digits
  if digits ≠ [] ∧ digits.all Char.isDigit then
    let value := digits.foldl (fun n c => 10 * n + (c.toNat - '0'.toNat)) 0
    if value < countLimit then some value else none
  else none

namespace Options

def none : Options := ⟨.none, .none, .none, false, .none⟩

/-- Sets an option that has not been set before. -/
def set (name : Valued) (value : String) (o : Options) : Except Stop Options :=
  match name with
  | .config =>
    if value = "" ∨ o.config?.isSome then .error .misuse
    else .ok { o with config? := some value }
  | .script =>
    if value = "" ∨ o.script?.isSome then .error .misuse
    else .ok { o with script? := some value }
  | .historySize =>
    match count? value with
    | some size =>
      if o.historySize?.isSome then .error .misuse
      else .ok { o with historySize? := some size }
    | .none => .error .misuse
  | .logLevel =>
    if o.logLevel?.isSome then .error .misuse else .ok { o with logLevel? := some value }

/-- Turns an option on that has not been on before. -/
def turnOn (name : Plain) (o : Options) : Except Stop Options :=
  match name with
  | .noColour => if o.noColour then .error .misuse else .ok { o with noColour := true }
  | .version => .error .version
  | .help => .error .help

end Options

/-- The word is no value but an option. -/
def isOptionWord (word : String) : Bool :=
  match word.toList with
  | '-' :: _ :: _ => true
  | _ => false

/-- Reads the short names of a word: the options so far, and the one whose value is the next word.
-/
def readShort : List Char → Options → Except Stop (Options × Option Valued)
  | [], o => .ok (o, none)
  | c :: rest, o =>
    match shortName? c with
    | none => .error .misuse
    | some (.plain name) =>
      match o.turnOn name with
      | .ok o => readShort rest o
      | .error stop => .error stop
    | some (.valued name) =>
      match rest with
      | [] => .ok (o, some name)
      | '=' :: value => (o.set name (String.ofList value)).map (·, none)
      | value => (o.set name (String.ofList value)).map (·, none)

/-- Reads the long name of a word, behind its dashes. -/
def readLong (word : List Char) (o : Options) : Except Stop (Options × Option Valued) :=
  let name := String.ofList (word.takeWhile (· != '='))
  match longName? name, word.dropWhile (· != '=') with
  | none, _ => .error .misuse
  | some (.plain name), [] => (o.turnOn name).map (·, none)
  | some (.plain _), _ :: _ => .error .misuse
  | some (.valued name), [] => .ok (o, some name)
  | some (.valued name), _ :: value => (o.set name (String.ofList value)).map (·, none)

/-- Reads one word that is not a value. -/
def readWord (word : String) (o : Options) : Except Stop (Options × Option Valued) :=
  match word.toList with
  | '-' :: '-' :: name => readLong name o
  | '-' :: c :: names => readShort (c :: names) o
  | _ => .error .misuse

/-- Reads the words of a command line, the first of which may be the value of an option. -/
def readWords : List String → Options → Option Valued → Except Stop Options
  | [], o, none => .ok o
  | [], _, some _ => .error .misuse
  | word :: words, o, some name =>
    if isOptionWord word then .error .misuse
    else
      match o.set name word with
      | .ok o => readWords words o none
      | .error stop => .error stop
  | word :: words, o, none =>
    if word = "--" then if words = [] then .ok o else .error .misuse
    else
      match readWord word o with
      | .ok (o, pending) => readWords words o pending
      | .error stop => .error stop

/-- The options of a command line. -/
def parse (words : List String) : Except Stop Options :=
  readWords words .none none

end CommandConsole.CommandLine
