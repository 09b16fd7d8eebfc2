import ModalKeys.Action
import ModalKeys.Host

/-!
# A recording host

A host for rehearsing configurations. It writes down what it is asked to do, and what it does in
return is given by lists of effects. Callbacks that write into the same record are built from lists
of steps.
-/

namespace ModalKeys

inductive Note where
  /-- The host was asked to run a command while a mode was active. -/
  | execute (command : String) (mode : Mode) (args : Option Json)
  | search (mode : Mode) (query : SearchQuery)
  | willLeave (mode : Mode)
  | willEnter (mode : Mode) (options : EnterOptions)
  | didEnter (mode : Mode)
  /-- The host asked for a switch and was refused. -/
  | refused (error : DispatchError)
  /-- A callback was given keys, in a mode and for a modal. -/
  | called (label : Json) (keys : List Char) (mode : Mode) (modal : String)
  /-- A callback went on after an error. -/
  | caught (error : CommandError)

/-- Everything that was written down, the latest first. -/
abbrev Record := List Note

/-- What a recording host does when it is called. -/
inductive Effect where
  | enter (mode : Mode) (options : EnterOptions)
  | enterNamed (name : String) (options : EnterOptions)
  | fail (error : CommandError)

/-- Has effects in order until one fails. -/
def Effect.perform (record : Record) (modes : ModeSwitch) : List Effect → HostReply Record
  | [] => ⟨record, modes, .ok ()⟩
  | .enter mode options :: rest => perform record (modes.enter mode options) rest
  | .enterNamed name options :: rest =>
    match modes.enterNamed name options with
    | .ok modes => perform record modes rest
    | .error error => perform (.refused error :: record) modes rest
  | .fail error :: _ => ⟨record, modes, .error error⟩

namespace Host

/-- Writes down commands and nothing else. -/
def commandRecorder : Host Record where
  execute record modes command args :=
    ⟨.execute command modes.current args :: record, modes, .ok ()⟩

/-- Writes down every call and then has the effects listed for the command or for searches. -/
def recorder (commands : List (String × List Effect)) (search : List Effect) : Host Record where
  execute record modes command args :=
    Effect.perform (.execute command modes.current args :: record) modes
      ((commands.lookup command).getD [])
  search record modes query := Effect.perform (.search modes.current query :: record) modes search
  willLeave record mode := .willLeave mode :: record
  willEnter record mode options := .willEnter mode options :: record
  didEnter record mode := .didEnter mode :: record

end Host

inductive CallbackStep where
  | note (label : Json)
  | enter (mode : Mode) (options : EnterOptions)
  /-- Runs a command. Its failure is written down if `catching`, and ends the callback otherwise. -/
  | execute (command : String) (args : Option Json) (catching : Bool)
  | fail (error : CommandError)

/-- The script of some steps for the keys that were typed. -/
def CallbackStep.script (keys : List Char) : List CallbackStep → Script Record
  | [] => .done
  | .note label :: rest =>
    .ask fun mode modal =>
      .update (.called label keys mode modal :: ·) fun _ => script keys rest
  | .enter mode options :: rest => .enter mode options (script keys rest)
  | .execute command args catching :: rest =>
    .execute command args fun
      | .ok () => script keys rest
      | .error error =>
        if catching then .update (.caught error :: ·) fun _ => script keys rest
        else .fail error
  | .fail error :: _ => .fail error

end ModalKeys
