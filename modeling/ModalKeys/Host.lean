import ModalKeys.Json.Basic
import ModalKeys.Mode
import ModalKeys.Error

/-!
# Hosts

A host is the text editor that commands are meant for. Its state has type `σ`, and each of its hooks
is a function on that state. The keymaps of an editor are not part of it: a host that keeps a handle to
one of them, and binds keys when it is called, is not a `Host`.

While a host works on a command or a search it cannot switch modes. It asks for switches on a
`ModeSwitch`, and they are carried out in order once it has returned.
-/

namespace ModalKeys

structure ModeRequest where
  mode : Mode
  options : EnterOptions
  deriving DecidableEq, Repr

/-- The mode that was active when a host was called, and the switches it has asked for since. -/
structure ModeSwitch where
  current : Mode
  pending : List ModeRequest := []
  deriving DecidableEq, Repr

namespace ModeSwitch

def enter (m : ModeSwitch) (mode : Mode) (options : EnterOptions) : ModeSwitch :=
  { m with pending := m.pending ++ [⟨mode, options⟩] }

def enterNamed (m : ModeSwitch) (name : String) (options : EnterOptions) :
    Except DispatchError ModeSwitch :=
  match Mode.ofName? name with
  | some mode => .ok (m.enter mode options)
  | none => .error (.modeNotFound name)

end ModeSwitch

/-- What a host answers: its new state, the switches it asks for, and whether it succeeded. Switches
are carried out also when it did not. -/
structure HostReply (σ : Type) where
  state : σ
  modes : ModeSwitch
  result : CommandResult

/-- How a host works. A host needs to run commands only; by default it accepts every search and has
no use for the hooks around a mode switch. -/
structure Host (σ : Type) where
  execute : σ → ModeSwitch → String → Option Json → HostReply σ
  search : σ → ModeSwitch → SearchQuery → HostReply σ := fun s modes _ => ⟨s, modes, .ok ()⟩
  willLeave : σ → Mode → σ := fun s _ => s
  willEnter : σ → Mode → EnterOptions → σ := fun s _ _ => s
  didEnter : σ → Mode → σ := fun s _ => s

end ModalKeys
