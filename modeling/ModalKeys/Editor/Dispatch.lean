import ModalKeys.Builtin
import ModalKeys.Editor.Basic

/-!
# Running actions and dispatching keys

Actions run against the editor itself, so the rest of a sequence already runs in a mode that an
earlier step has switched to. An action that fails ends there, but switches made before stay. The
modal that resolved the action is reset once the action has finished, whatever it came to.
-/

namespace ModalKeys

namespace Editor

/-- Passes a command to the host and carries out the switches that it asks for. -/
def runCommand (e : Editor σ) (command : String) (args : Option Json) : Editor σ × CommandResult :=
  let reply := e.host.execute e.state { current := e.mode } command args
  ({ e with state := reply.state }.applyRequests reply.modes.pending, reply.result)

def runSearch (e : Editor σ) (query : SearchQuery) : Editor σ × CommandResult :=
  let reply := e.host.search e.state { current := e.mode } query
  ({ e with state := reply.state }.applyRequests reply.modes.pending, reply.result)

/-- Runs a command. Built-in ones switch modes right away, and all others are the host's. -/
def execute (e : Editor σ) (command : String) (args : Option Json) : Editor σ × CommandResult :=
  match Builtin.request command args with
  | .error error => (e, .error error)
  | .ok (some request) => (e.transition request.mode request.options, .ok ())
  | .ok none => e.runCommand command args

/-- Holds the conversation of a callback. `name` is that of the modal whose binding runs. -/
def converse (name : String) (e : Editor σ) : Script σ → Editor σ × CommandResult
  | .done => (e, .ok ())
  | .fail error => (e, .error error)
  | .ask next => e.converse name (next e.mode name)
  | .update step next => { e with state := step e.state }.converse name (next e.state)
  | .enter mode options next => (e.transition mode options).converse name next
  | .execute command args next =>
    let (e, result) := e.execute command args
    e.converse name (next result)

mutual

def exec (name : String) (keys : List Char) (e : Editor σ) : Action σ → Editor σ × CommandResult
  | .command command args => e.execute command args
  | .callback run => e.converse name (run keys)
  | .sequence items => execAll name keys e items
termination_by structural action => action

/-- Runs actions in order until one fails. -/
def execAll (name : String) (keys : List Char) (e : Editor σ) :
    List (Action σ) → Editor σ × CommandResult
  | [] => (e, .ok ())
  | action :: rest =>
    match exec name keys e action with
    | (e, .ok ()) => execAll name keys e rest
    | (e, .error error) => (e, .error error)
termination_by structural actions => actions

end

/-- Does what a key or a timeout came to in the modal of `source`. -/
def resolve (e : Editor σ) (source : Mode) : Resolution σ → Editor σ × CommandResult
  | .pending => (e, .ok ())
  | .unhandled => (e.modify source Modal.reset, .ok ())
  | .run action =>
    let (e, result) := exec (e.modal source).name (e.modal source).keySeq e action
    -- the action may have switched modes, but the keys were typed in the modal of `source`
    (e.modify source Modal.reset, result)
  -- the text stays until the mode is left
  | .search query => e.runSearch query

/-- Passes a key typed at `now` to the modal of a mode, without doing what it comes to. -/
def onKey (e : Editor σ) (mode : Mode) (key : Char) (now : Nat) : Editor σ × Resolution σ :=
  let (modal, resolution) := (e.modal mode).onKey e.store key now
  (e.modify mode fun _ => modal, resolution)

/-- Has the modal of a mode take a key, active or not. The caller does what the key comes to. -/
def feed (e : Editor σ) (mode : Mode) (key : Char) (now : Nat) : Editor σ × Resolution σ :=
  let (e, resolution) := e.onKey mode key now
  (e.release, resolution)

def inputKey (e : Editor σ) (key : Char) (now : Nat) : Editor σ × Except DispatchError Unit :=
  let source := e.mode
  let (e, resolution) := e.onKey source key now
  let (e, result) := e.resolve source resolution
  (e.release, result.mapError .command)

def inputKeys (e : Editor σ) (keys : List Char) (now : Nat) : Editor σ × Except DispatchError Unit :=
  match keys with
  | [] => (e, .ok ())
  | key :: rest =>
    match e.inputKey key now with
    | (e, .ok ()) => e.inputKeys rest now
    | (e, .error error) => (e, .error error)

/-- Resolves the typed keys of the active mode if their deadline has come by `now`, and tells whether
it had. -/
def checkTimeout (e : Editor σ) (now : Nat) : Editor σ × Except DispatchError Bool :=
  let source := e.mode
  match (e.modal source).onTimeout now with
  | (_, none) => (e, .ok false)
  | (modal, some resolution) =>
    let (e, result) := (e.modify source fun _ => modal).resolve source resolution
    (e.release, (result.mapError .command).map fun _ => true)

def enterMode (e : Editor σ) (mode : Mode) (options : EnterOptions) : Editor σ :=
  (e.transition mode options).release

def enterModeNamed (e : Editor σ) (name : String) (options : EnterOptions) :
    Editor σ × Except DispatchError Unit :=
  match Mode.ofName? name with
  | some mode => (e.enterMode mode options, .ok ())
  | none => (e, .error (.modeNotFound name))

end Editor

end ModalKeys
