import CommandConsole.Message

/-!
# Colours of messages

Each kind of message but the normal one has a colour. A painted message is preceded by the colour's
control sequence and followed by the one that resets colours; where the message itself resets them,
the colour is set again.
-/

namespace CommandConsole

/-- The number of a kind's colour in a control sequence. -/
def MessageKind.colour? : MessageKind → Option Nat
  | normal => none
  | error => some 31
  | success => some 32
  | warning => some 33
  | information => some 36

namespace Terminal

/-- The control sequence that resets colours. -/
def resetColour : List Char := ['\x1b', '[', '0', 'm']

/-- The control sequence that sets a colour. -/
def setColour (code : Nat) : List Char :=
  ['\x1b', '['] ++ Nat.toDigits 10 code ++ ['m']

/-- Sets a colour again behind every reset. -/
def keepColour (colour : List Char) : List Char → List Char
  | '\x1b' :: '[' :: '0' :: 'm' :: rest => resetColour ++ colour ++ keepColour colour rest
  | c :: rest => c :: keepColour colour rest
  | [] => []

/-- The text of a message in the colour of its kind, if there are colours. -/
def paint (coloured : Bool) (message : Message) : String :=
  match coloured, message.kind.colour? with
  | true, some code =>
    let colour := setColour code
    String.ofList (colour ++ keepColour colour message.text.toList ++ resetColour)
  | _, _ => message.text

end Terminal

end CommandConsole
