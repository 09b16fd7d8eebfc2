import ModalKeys.Json.Described
import ModalKeys.Mode
import ModalKeys.Error

/-!
# Actions

An action says what to do once a key sequence has been typed: run a named command, run a callback, or
run several actions in order.

A callback is given the keys that were typed and answers with a `Script`, the conversation that it
then has with the editor. `σ` is the state that callbacks share with the host. No step of a conversation
changes a keymap: a callback that keeps a handle to one, and binds keys while it runs, has no `Script`.
-/

namespace ModalKeys

/-- What a callback does, step by step. -/
inductive Script (σ : Type) where
  | done
  | fail (error : CommandError)
  /-- Asks for the active mode and for the name of the modal whose binding runs. -/
  | ask (next : Mode → String → Script σ)
  /-- Reads and changes the shared state. -/
  | update (step : σ → σ) (next : σ → Script σ)
  | enter (mode : Mode) (options : EnterOptions) (next : Script σ)
  /-- Runs a command and goes on with its result. -/
  | execute (command : String) (args : Option Json) (next : CommandResult → Script σ)

/-- What to do when a key sequence is complete. -/
inductive Action (σ : Type) where
  | command (name : String) (args : Option Json)
  | callback (run : List Char → Script σ)
  | sequence (items : List (Action σ))

instance : Inhabited (Script σ) := ⟨.done⟩

instance : Inhabited (Action σ) := ⟨.sequence []⟩

namespace Script

def finish : CommandResult → Script σ
  | .ok () => done
  | .error e => fail e

end Script

namespace Action

/-- Passes the typed keys to a command as `{"text": keys}`. As default and timeout handler of Insert
mode it types what does not complete a binding. -/
def typeKeys (command : String) : Action σ :=
  callback fun keys =>
    .execute command (some (.object [("text", .string (String.ofList keys))])) Script.finish

mutual

/-- An action as it is shown to a developer. -/
def described : Action σ → String
  | .command name none => "Command(" ++ quoted name ++ ")"
  | .command name (some args) => "Command(" ++ quoted name ++ ", " ++ args.described ++ ")"
  | .callback _ => "Function(..)"
  | .sequence items => "Sequence([" ++ ", ".intercalate (describedItems items) ++ "])"
termination_by structural a => a

def describedItems : List (Action σ) → List String
  | [] => []
  | a :: rest => described a :: describedItems rest
termination_by structural items => items

end

end Action

end ModalKeys
