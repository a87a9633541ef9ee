import CommandConsole.CommandLine.Run

/-!
# The application

Reads the files that the command line names, and runs the script in real time, writing what it shows
as it is shown.
-/

namespace CommandConsole.Application

open CommandConsole.CommandLine

/-- How deep lines may be executed inside lines. -/
def depth : Nat := 10000

/-- The text of a file, if there is one that holds text. -/
def readText (path : String) : IO (Option String) := do
  try
    let content ← IO.FS.readBinFile path
    pure (String.fromUTF8? content)
  catch _ => pure none

/-- Writes the events from a number on. -/
def writeFrom (coloured : Bool) (count : Nat) (console : Console) : IO Unit := do
  let out ← IO.getStdout
  out.putStr (outputOf coloured (console.log.drop count))
  out.flush

/-- Sleeps in naps that the system can count. -/
def sleep (milliseconds : Nat) : IO Unit := do
  let nap := 1000000000
  for _ in [0:milliseconds / nap] do
    IO.sleep nap.toUInt32
  IO.sleep (milliseconds % nap).toUInt32

/-- Lets the script in flight go on to its next wait and waits with it, until none is in flight. -/
partial def play (coloured : Bool) (count : Nat) (console : Console) : IO Console := do
  match console.wait (consoleExecutor depth) (some (console.now + 1)) with
  | none => throw (IO.userError "a line does not return")
  | some console =>
    writeFrom coloured count console
    match console.flight? with
    | some ⟨_, _, _, .asleep wake _⟩ =>
      Application.sleep (wake - console.now)
      play coloured console.log.length { console with now := wake }
    | _ => pure console

end CommandConsole.Application

open CommandConsole CommandConsole.CommandLine CommandConsole.Application in
/-- Runs the application on its command line. -/
def main (words : List String) : IO UInt32 := do
  let paths := match parse words with
    | .ok o => o.config?.toList ++ o.script?.toList
    | .error _ => []
  let texts ← paths.mapM fun path => do pure (path, ← readText path)
  let readFile := fun path => (texts.lookup path).join
  let surroundings : Surroundings :=
    { forced? := ← IO.getEnv "CLICOLOR_FORCE"
      forbidden? := ← IO.getEnv "NO_COLOR"
      allowed? := ← IO.getEnv "CLICOLOR"
      toTerminal := ← (← IO.getStdout).isTty }
  match jobOf readFile surroundings.coloured words with
  | .error answer =>
    (← IO.getStdout).putStr answer.output
    pure answer.exitCode.toUInt32
  | .ok job =>
    match job.script? with
    | none => pure failureCode.toUInt32
    | some path =>
      let (_, console) := (job.console readFile).request (.file path)
      let console ← play job.coloured 0 console
      let outcome := (console.results.head?.map (·.2)).getD .rejected
      pure (exitCodeOf outcome).toUInt32
