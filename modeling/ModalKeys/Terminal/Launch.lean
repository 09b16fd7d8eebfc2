import ModalKeys.Settings

/-!
# Command lines

A session is started with the file that holds its settings. Without one it has the keymaps of the
`simple` preset.
-/

namespace ModalKeys

/-- What a command line asks for. -/
inductive Launch where
  /-- To explain the command line. -/
  | help
  /-- To start a session with the settings of a file. -/
  | session (settingsFile : Option String)
  deriving DecidableEq, Repr

inductive LaunchError where
  | missingFile (option : String)
  | repeated (option : String)
  | unexpected (argument : String)
  deriving DecidableEq, Repr

def LaunchError.message : LaunchError → String
  | missingFile option => s!"{option} needs a file"
  | repeated option => s!"{option} is given twice"
  | unexpected argument => s!"unexpected argument {argument}"

namespace Launch

def usage : String := "Try out keymaps in the terminal.

Usage: modal-keys [--settings FILE]

Options:
  -s, --settings FILE  settings to load keymaps from (the simple preset when omitted)
  -h, --help           print this text
"

def ofArguments : List String → Except LaunchError Launch
  | [] => .ok (.session none)
  | argument :: rest =>
    if argument = "-h" ∨ argument = "--help" then .ok .help
    else if argument = "-s" ∨ argument = "--settings" then
      match rest with
      | [] => .error (.missingFile argument)
      | file :: rest => do
        match ← ofArguments rest with
        | .help => .ok .help
        | .session none => .ok (.session (some file))
        | .session (some _) => .error (.repeated argument)
    else .error (.unexpected argument)

/-- The settings of a session that is started without a file. -/
def defaultSettings : Settings := { preset := .simple }

end Launch

end ModalKeys
