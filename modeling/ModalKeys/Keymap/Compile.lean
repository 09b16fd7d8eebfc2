import ModalKeys.Action
import ModalKeys.KeySpec
import ModalKeys.Keymap.Lifetime
import ModalKeys.Keymap.ConfigError

/-!
# Compiling keymap configurations

A configuration is a JSON object. Each of its keys is a key spec, and each value one of

* a string, or an object with a member `command`: a command,
* an array of those, also nested: a sequence of commands,
* any other object: a keymap for longer key sequences,
* a number from 0 down: an alias for the keymap that encloses the value, the one that is that many
  levels further out.

The members `id` and `help` describe the keymap itself. All keys of one spec share what its value
compiles to. Values are compiled in the order of the text, so a later spec wins over an earlier one,
and the first error is the one reported.
-/

namespace ModalKeys

/-- A part of a compilation. It has the store that is left also when it fails. -/
abbrev Compiler (σ : Type) : Type → Type := ExceptT ConfigError (StateM (Store (Action σ)))

namespace Compiler

variable {β γ : Type}

/-- What comes of it, and the store that is left. -/
def attempt (x : Compiler σ β) (s : Store (Action σ)) :
    Except ConfigError β × Store (Action σ) := x.run s

/-- What comes of it if the store is dropped after an error. -/
def result (x : Compiler σ β) (s : Store (Action σ)) : Except ConfigError (β × Store (Action σ)) :=
  (x.attempt s).1.map (·, (x.attempt s).2)

theorem result_pure (b : β) (s : Store (Action σ)) :
    (pure b : Compiler σ β).result s = .ok (b, s) := rfl

theorem attempt_bind (x : Compiler σ β) (f : β → Compiler σ γ) (s : Store (Action σ)) :
    (x >>= f).attempt s = match x.attempt s with
      | (.ok b, s') => (f b).attempt s'
      | (.error error, s') => (.error error, s') := by
  show ExceptT.bindCont f (x.attempt s).1 (x.attempt s).2 = _
  rcases x.attempt s with ⟨_ | _, s'⟩ <;> rfl

theorem result_bind (x : Compiler σ β) (f : β → Compiler σ γ) (s : Store (Action σ)) :
    (x >>= f).result s = x.result s >>= fun r => (f r.1).result r.2 := by
  unfold result
  rw [attempt_bind]
  rcases x.attempt s with ⟨_ | _, s'⟩ <;> rfl

end Compiler

namespace Config

/-- The string under a reserved name. -/
def describe (name : String) (fault : Json → ConfigFault) (members : List (String × Json)) :
    Except ConfigFault (Option String) :=
  match Json.member? name members with
  | none => .ok none
  | some (.string s) => .ok (some s)
  | some v => .error (fault v)

/-- Whether a member describes the keymap instead of binding keys. -/
def isReserved (name : String) : Bool := name == "id" || name == "help"

/-- The keymap that a back reference leads to, counted outwards from the innermost of `enclosing`. -/
def reference (enclosing : List KeymapId) (n : JsonNumber) : Except ConfigFault KeymapId :=
  match n.toInt64? with
  | none => .error (.fractionalReference n)
  | some i =>
    if 0 < i then .error (.forwardReference i)
    else match enclosing[i.natAbs]? with
      | some target => .ok target
      | none => .error (.referenceOutOfRange i enclosing.length)

/-- Reads a command with arguments from the members of an object. -/
def command (members : List (String × Json)) : Except ConfigFault (Action σ) :=
  match Json.member? "command" members with
  | some (.string name) =>
    if name = "" then .error .emptyCommand
    else match Json.member? "args" members with
      | none | some .null => .ok (.command name none)
      | some (.object ms) => .ok (.command name (some (.object ms)))
      | some (.string s) => .ok (.command name (some (.string s)))
      | some v => .error (.badArguments v)
  | _ => .error (.notBinding (.object members))

mutual

/-- Reads an action. -/
def action : Json → Except ConfigFault (Action σ)
  | .string name => if name = "" then .error .emptyCommand else .ok (.command name none)
  | .object members => command members
  | .array items => (actions items).map .sequence
  | .null => .error (.notBinding .null)
  | .bool b => .error (.notBinding (.bool b))
  | .number n => .error (.notBinding (.number n))
termination_by structural v => v

def actions : List Json → Except ConfigFault (List (Action σ))
  | [] => .ok []
  | v :: vs => do
    let a ← action v
    .ok (a :: (← actions vs))
termination_by structural vs => vs

end

/-- Goes on with a result, or fails with its fault at a path. -/
def located (path : List String) (r : Except ConfigFault β) : Compiler σ β :=
  MonadExcept.ofExcept (r.mapError (⟨path, ·⟩))

/-- Adds a keymap described by the members `id` and `help`. -/
def describedKeymap (path : List String) (members : List (String × Json)) :
    Compiler σ KeymapId := do
  let id ← located path (describe "id" .idNotString members)
  let help ← located path (describe "help" .helpNotString members)
  modifyGet fun s => s.create id help

/-- Reads an action and gives it a tag of its own. -/
def taggedAction (path : List String) (v : Json) : Compiler σ (Slot (Action σ)) := do
  let act ← located path (action v)
  let tag ← modifyGet Store.freshTag
  return .bound (.action tag act)

mutual

/-- Compiles a value. `enclosing` are the keymaps around it, innermost first, and `path` the
configuration keys that lead to it. -/
def value (enclosing : List KeymapId) (path : List String) :
    Json → Compiler σ (Slot (Action σ))
  | .number n => do
    let target ← located path (reference enclosing n)
    return .aliasOf target
  | .object members =>
    if Json.hasMember "command" members then taggedAction path (.object members)
    else do
      let km ← describedKeymap path members
      entries km enclosing path members
      return .bound (.keymap km)
  | .null => located path (.error (.notBinding .null))
  | .bool b => located path (.error (.notBinding (.bool b)))
  | .string name => taggedAction path (.string name)
  | .array items => taggedAction path (.array items)
termination_by structural v => v

/-- Compiles the members of a keymap in order. -/
def entries (km : KeymapId) (enclosing : List KeymapId) (path : List String) :
    List (String × Json) → Compiler σ Unit
  | [] => return
  | m :: ms => do
    entry km enclosing path m
    entries km enclosing path ms
termination_by structural ms => ms

/-- Compiles one member of a keymap. -/
def entry (km : KeymapId) (enclosing : List KeymapId) (path : List String) :
    String × Json → Compiler σ Unit
  | (name, v) =>
    if isReserved name then return
    else do
      let path := path ++ [name]
      let keys ← located path ((KeySpec.keys name).mapError (.keySpec name))
      let slot ← value (km :: enclosing) path v
      modify fun s => s.putAll km keys slot
termination_by structural m => m

end

/-- Compiles a configuration as a whole. -/
def outermost : Json → Compiler σ KeymapId
  | .object members => do
    let km ← describedKeymap [] members
    entries km [] [] members
    return km
  | v => located [] (.error (.notKeymap v))

end Config

namespace Store

/-- Compiles a configuration into a new keymap, without holding it. After an error the store has what had
been added by then, which nobody holds either. -/
def attempt (s : Store (Action σ)) (config : Json) :
    Except ConfigError KeymapId × Store (Action σ) := (Config.outermost config).attempt s

/-- Compiles a configuration into a new keymap, without holding it. -/
def compile (s : Store (Action σ)) (config : Json) :
    Except ConfigError (KeymapId × Store (Action σ)) := (Config.outermost config).result s

/-- Compiles a configuration and takes a handle to the new keymap. An error leaves the store as it
was. -/
def load (s : Store (Action σ)) (config : Json) :
    Except ConfigError (KeymapId × Store (Action σ)) := do
  let (km, s) ← s.compile config
  .ok (km, s.hold km)

end Store

end ModalKeys
