import ModalKeys.Editor.Dispatch
import ModalKeys.Settings

/-!
# Setting up the keymaps and modals of an editor

Configurations that fail to compile are skipped, and their errors are reported together once the
others have been applied.
-/

namespace ModalKeys

namespace Editor

/-! ## Single modals -/

/-- Changes the modal of a mode and releases the keymaps it has given up. -/
def update (e : Editor σ) (mode : Mode) (f : Modal σ → Modal σ) : Editor σ :=
  (e.modify mode f).release

def reset (e : Editor σ) (mode : Mode) : Editor σ := e.update mode Modal.reset

def resetCurrent (e : Editor σ) : Editor σ := e.reset e.mode

def resetAll (e : Editor σ) : Editor σ := e.resetModals.release

/-- Sets how many nanoseconds a mode waits for a further key. -/
def setWait (e : Editor σ) (mode : Mode) (wait : Option Nat) : Editor σ :=
  e.update mode (Modal.setWait · wait)

/-- Sets the wait of a mode in milliseconds. -/
def setTimeout (e : Editor σ) (mode : Mode) (timeout : Option Nat) : Editor σ :=
  e.update mode (Modal.setTimeout · timeout)

def setDefaultHandler (e : Editor σ) (mode : Mode) (action : Option (Action σ)) : Editor σ :=
  e.update mode (Modal.setDefaultHandler · action)

def setTimeoutHandler (e : Editor σ) (mode : Mode) (action : Option (Action σ)) : Editor σ :=
  e.update mode (Modal.setTimeoutHandler · action)

def setVisualShape (e : Editor σ) (mode : Mode) (shape : VisualShape) : Editor σ :=
  e.update mode (Modal.setVisualShape · shape)

def load (e : Editor σ) (config : Json) : Except ConfigError (KeymapId × Editor σ) := do
  let (km, store) ← e.store.load config
  .ok (km, { e with store }.release)

def drop (e : Editor σ) (id : KeymapId) : Editor σ := { e with store := e.store.drop id }.release

def updateKeymap (e : Editor σ) (mode : Mode) (layer : KeymapId) : Editor σ :=
  let (modal, store) := (e.modal mode).updateKeymap e.store e.held layer
  ({ e with store }.modify mode fun _ => modal).release

def setKeymap (e : Editor σ) (mode : Mode) (root : KeymapId) : Editor σ :=
  e.update mode (Modal.setKeymap · root)

def clearKeymap (e : Editor σ) (mode : Mode) : Editor σ :=
  let (modal, store) := (e.modal mode).clearKeymap e.store
  ({ e with store }.modify mode fun _ => modal).release

def bindKey (e : Editor σ) (mode : Mode) (key : Char) (action : Action σ) : Editor σ :=
  match (e.modal mode).root? with
  | none => e
  | some root =>
    let (tag, store) := e.store.freshTag
    { e with store := store.put root key (.bound (.action tag action)) }.release

/-! ## All keymaps -/

def clearKeymaps (e : Editor σ) : Editor σ :=
  KeymapLayers.modes.foldl clearKeymap e

/-- Compiles a layer and merges what compiles. Returns the errors of the rest. -/
def mergeLayer (e : Editor σ) (name : String) (layers : KeymapLayers) :
    Editor σ × List LayerError :=
  let (keymaps, errors, store) := layers.compile name e.store
  (keymaps.foldl (fun e (mode, km) => (e.updateKeymap mode km).drop km) { e with store }, errors)

def mergeLayers (e : Editor σ) : List (String × KeymapLayers) → Editor σ × List LayerError
  | [] => (e, [])
  | (name, layers) :: rest =>
    let (e, errors) := e.mergeLayer name layers
    let (e, more) := e.mergeLayers rest
    (e, errors ++ more)

def updateKeymaps (e : Editor σ) (layers : KeymapLayers) : Editor σ × List LayerError :=
  e.mergeLayer "keymaps" layers

/-- The layer of a preset with its name. -/
def presetLayer (preset : Preset) : List (String × KeymapLayers) :=
  preset.layers.toList.map ("preset", ·)

def applyPreset (e : Editor σ) (preset : Preset) : Editor σ × List LayerError :=
  e.mergeLayers (presetLayer preset)

/-- Replaces the keymaps and the Insert mode timeout by those of some settings. -/
def updateFromSettings (e : Editor σ) (settings : Settings) : Editor σ × List LayerError :=
  let e := e.setTimeout .insert settings.insertTimeoutMillis
  e.clearKeymaps.mergeLayers (presetLayer settings.preset ++
    settings.customKeymaps.toList.map ("custom", ·) ++ [("inline", settings.inlineKeymaps)])

end Editor

end ModalKeys
