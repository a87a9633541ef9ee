import CommandConsole.Console.Program

/-!
# Builtin commands

The commands that a console has from the start: help, clear, exit, echo, version and execute_script.
Each but help has a second form with the flag `-h`, which shows the description of the first.
-/

namespace CommandConsole.Builtins

/-- Shows a command's name with its description. -/
def describe (name : String) (next : Program) : Program :=
  .look fun desk => .say (.information (name ++ ": " ++ desk.describe name)) next

/-- Shows every command's name. -/
def help : Handler := fun _ =>
  .look fun desk =>
    .sayAll
      (.success "Available commands:" ::
        desk.registry.names.map (fun name => .normal ("  " ++ name)) ++
        [.information "Use '[command] -h' for more information on a specific command."])
      .done

/-- Shows the description of the command that is named. -/
def helpOn : Handler
  | [] => .say (.information "Usage: help -c [command]") .done
  | name :: _ => describe name .done

def clear : Handler := fun _ =>
  .clear .done

def exit : Handler := fun _ =>
  .say (.success "Exiting application...") (.requestExit .done)

def echo : Handler := fun args =>
  .say (.normal (String.intercalate " " args)) .done

def version : Handler := fun _ =>
  .info .done

/-- Starts the script at a path in the background. -/
def executeScript : Handler
  | [] => .say (.normal "Usage: execute_script <file_path>") .done
  | path :: _ =>
    .look fun desk =>
      if desk.canStartScripts then .startScript (.file path) .done
      else .fail (.error Program.noBackground ["scripts need an async runtime"])

/-- A command's plain form and the form that shows its description. -/
def withHelp (name description : String) (handler : Handler) : List (Definition Handler) :=
  [⟨name, description, "", handler⟩,
    ⟨name, "Shows help for " ++ name ++ " command", "-h", fun _ => describe name .done⟩]

/-- The builtin commands in the order of their registration. -/
def all : List (Definition Handler) :=
  [⟨"help", "Displays all available commands\nUsage: help", "", help⟩,
    ⟨"help", "Shows help for a specific command", "-c", helpOn⟩] ++
  withHelp "clear" "Clears the console\nUsage: clear" clear ++
  withHelp "exit" "Exits the application\nUsage: exit" exit ++
  withHelp "echo" "Prints the given text to the console\nUsage: echo <text>" echo ++
  withHelp "version" "Displays the current version of the application\nUsage: version" version ++
  withHelp "execute_script" "Executes a script file\nUsage: execute_script <file_path>" executeScript

/-- Registers commands one after the other; one that is not accepted changes nothing. -/
def registerAll (definitions : List (Definition Handler)) (desk : Desk Handler) : Desk Handler :=
  definitions.foldl (fun desk definition => (desk.register definition).toOption.getD desk) desk

end CommandConsole.Builtins
