import ModalKeys.EnterOptions
import ModalKeys.Host

/-!
# Built-in commands

Commands that switch modes are carried out at once and never reach the host. Their names start with
`modalex.`; other commands that do so are the host's.
-/

namespace ModalKeys

namespace Builtin

def namespaceMark : String := "modalex."

/-- The command's name without the mark of built-in commands. -/
def shortName? (command : String) : Option String :=
  (dropFront? namespaceMark.toList command.toList).map String.ofList
where
  dropFront? : List Char → List Char → Option (List Char)
    | [], rest => some rest
    | c :: cs, d :: ds => if c = d then dropFront? cs ds else none
    | _ :: _, [] => none

def visual (shape : VisualShape) : ModeRequest := ⟨.visual, { visualShape := some shape }⟩

def search (range : SearchRange) (direction : SearchDirection) (singleChar : Bool) : ModeRequest :=
  ⟨.search, {
    searchRange := some range
    searchDirection := some direction
    singleChar := some singleChar }⟩

/-- The commands that always ask for the same switch. -/
def fixed : List (String × ModeRequest) := [
  ("enterNormal", ⟨.normal, {}⟩),
  ("enterInsert", ⟨.insert, {}⟩),
  ("enterVisual", visual .plain),
  ("enterVisualLine", visual .line),
  ("enterVisualBlock", visual .block),
  ("enterSearchAfter", search .document .after false),
  ("enterSearchBefore", search .document .before false),
  ("enterSearchCharLineAfter", search .line .after true),
  ("enterSearchCharLineBefore", search .line .before true)]

/-- The switch that `enterMode` arguments ask for: the mode is named by the member `mode`, and the
options stand beside it. -/
def namedMode? : Option Json → Option ModeRequest
  | some (.object members) => do
    let mode ← Mode.ofName? (← (← Json.member? "mode" members).string?)
    some ⟨mode, ← EnterOptions.ofMembers? Json.isNullOrEmpty members⟩
  | _ => none

/-- The switch that a command asks for, or nothing when the command is the host's. -/
def request (command : String) (args : Option Json) : Except CommandError (Option ModeRequest) :=
  match shortName? command with
  | none => .ok none
  | some name =>
    if name = "enterMode" then
      match namedMode? args with
      | some request => .ok (some request)
      | none => .error (.invalidArguments command)
    else .ok (fixed.lookup name)

end Builtin

end ModalKeys
