import ModalKeys.Text.Quoted

/-!
# Errors of commands and of key dispatch
-/

namespace ModalKeys

/-- Why a command failed: the host does not know it, it was given arguments it cannot use, or
anything else. -/
inductive CommandError where
  | unknown (command : String)
  | invalidArguments (command : String)
  | failed (text : String)
  deriving DecidableEq, Repr

def CommandError.message : CommandError → String
  | unknown command => s!"Unknown command: {command}"
  | invalidArguments command => s!"Invalid arguments for {command}"
  | failed text => s!"Error: {text}"

abbrev CommandResult := Except CommandError Unit

/-- Why a key or a mode switch could not be processed. -/
inductive DispatchError where
  | modeNotFound (name : String)
  | command (error : CommandError)
  deriving DecidableEq, Repr

def DispatchError.message : DispatchError → String
  | modeNotFound name => s!"Mode {quoted name} not found"
  | command error => s!"Failed command: {error.message}"

/-- Why a text does not name a key: it is not exactly one character. -/
structure KeyError where
  given : String
  deriving DecidableEq, Repr

def KeyError.message (e : KeyError) : String :=
  s!"Key must be a single character, but {quoted e.given} was given"

/-- The only character of a text. -/
def singleKey (text : String) : Except KeyError Char :=
  match text.toList with
  | [c] => .ok c
  | _ => .error ⟨text⟩

end ModalKeys
