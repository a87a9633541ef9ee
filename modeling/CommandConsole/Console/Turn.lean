import CommandConsole.Console.Program

/-!
# Turns

A turn is an action on a console's desk. It gives a value, the effects it had on the host in their
order, and the desk it leaves, or nothing at all if it does not return. In a sequence of turns each
goes on with the desk that the one before it left, and the effects follow one another.
-/

namespace CommandConsole

/-- What a turn that returns leaves behind. -/
structure Turn.Done (α : Type) where
  value : α
  effects : List Script.Effect
  desk : Desk Handler

/-- An action on a console's desk, which may not return. -/
def Turn (α : Type) : Type :=
  Desk Handler → Option (Turn.Done α)

namespace Turn

variable {α β : Type}

/-- Does nothing and gives a value. -/
protected def pure (value : α) : Turn α :=
  fun desk => some ⟨value, [], desk⟩

/-- Goes on with what a turn gave. -/
protected def bind (turn : Turn α) (next : α → Turn β) : Turn β := fun desk =>
  match turn desk with
  | none => none
  | some first =>
    match next first.value first.desk with
    | none => none
    | some second => some { second with effects := first.effects ++ second.effects }

instance : Monad Turn where
  pure := Turn.pure
  bind := Turn.bind

/-- Does not return. -/
def never : Turn α :=
  fun _ => none

/-- Gives the desk. -/
def desk : Turn (Desk Handler) :=
  fun desk => some ⟨desk, [], desk⟩

/-- Changes the desk. -/
def change (f : Desk Handler → Desk Handler) : Turn Unit :=
  fun desk => some ⟨(), [], f desk⟩

/-- Changes the desk and gives a value. -/
def changeWith (f : Desk Handler → α × Desk Handler) : Turn α := fun desk =>
  let (value, desk) := f desk
  some ⟨value, [], desk⟩

/-- Moves through the history and gives the line that is recalled. -/
def recalling (move : History → Option String × History) : Turn (Option String) :=
  changeWith fun desk =>
    let (line, history) := move desk.history
    (line, { desk with history })

/-- Has an effect on the host. -/
def act (effect : Script.Effect) : Turn Unit :=
  fun desk => some ⟨(), [effect], desk.after effect⟩

/-- Shows a message. -/
def say (message : Message) : Turn Unit :=
  act (.say message)

/-- Shows messages. -/
def sayAll (messages : List Message) : Turn Unit :=
  fun desk => some ⟨(), messages.map .say, desk⟩

theorem pure_bind' (value : α) (next : α → Turn β) : (pure value >>= next) = next value := by
  funext desk
  change Turn.bind (Turn.pure value) next desk = next value desk
  simp only [Turn.bind, Turn.pure, List.nil_append]
  cases next value desk <;> rfl

end Turn

/-- Runs a program, with the way in which it executes further lines. -/
def Program.run (execute : String → Turn (Except ParseError Outcome)) :
    Program → Turn (Except Failure Unit)
  | .done => pure (.ok ())
  | .fail cause => pure (.error cause)
  | .look next => do (next (← Turn.desk).outline).run execute
  | .act effect next => do
    Turn.act effect
    next.run execute
  | .register entry body next => do
    let refused ← Turn.changeWith fun desk =>
      match desk.register (entry.withHandler body) with
      | .ok desk => (none, desk)
      | .error cause => (some cause, desk)
    (next refused).run execute
  | .execute line next => do (next (← execute line)).run execute
  | .requestExit next => do
    Turn.change fun desk => { desk with exitRequested := true }
    next.run execute
  | .clearHistory next => do
    Turn.change fun desk => { desk with history := desk.history.clear }
    next.run execute
  | .previousLine next => do (next (← Turn.recalling History.previous)).run execute
  | .nextLine next => do (next (← Turn.recalling History.next)).run execute
  | .keep notes next => do
    Turn.change fun desk => { desk with notes }
    next.run execute

end CommandConsole
