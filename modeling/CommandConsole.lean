import CommandConsole.Main
import CommandConsole.Sink
import CommandConsole.FileTree
import CommandConsole.Terminal.Editor
import CommandConsole.Proofs.Console.Routing
import CommandConsole.Proofs.Console.Replay
import CommandConsole.Proofs.Script.SingleFlight
import CommandConsole.Proofs.Script.Cancellation
import CommandConsole.Proofs.Command.Answering
import CommandConsole.Proofs.Command.RegistrationLog
import CommandConsole.Proofs.Console.Submission
import CommandConsole.Proofs.Console.Names
import CommandConsole.Proofs.Terminal.Transcript
import CommandConsole.Proofs.Console.Builtins
import CommandConsole.Proofs.Console.LineByLine
import CommandConsole.CommandLine.Rendering
import CommandConsole.Proofs.CommandLine.Rendering
import CommandConsole.Proofs.CommandLine.ScriptMode
import CommandConsole.Proofs.Script.Schedule
import CommandConsole.Proofs.Script.Marks
import CommandConsole.Proofs.Settings.Pause
import CommandConsole.Proofs.Completion
import CommandConsole.Proofs.History.Recall
import CommandConsole.Proofs.Terminal.TabKey
import CommandConsole.Proofs.Script.File
import CommandConsole.Proofs.Command.Reading
import CommandConsole.Proofs.Command.Merging
import CommandConsole.Proofs.Script.PauseAnnouncement
import CommandConsole.Proofs.Settings.Overrides
