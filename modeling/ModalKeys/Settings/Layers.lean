import ModalKeys.Keymap.Compile

/-!
# Keymap layers

A layer has a keymap configuration for some of the modes that match keys. Modes are compiled on their
own, so that one that fails does not keep the others back.
-/

namespace ModalKeys

/-- Keymap configurations for the modes that match keys. -/
structure KeymapLayers where
  normal : Option Json := none
  insert : Option Json := none
  visual : Option Json := none

namespace KeymapLayers

/-- The modes that can have a configuration, in the order in which they are compiled. -/
def modes : List Mode := [.normal, .insert, .visual]

def get? (layers : KeymapLayers) : Mode → Option Json
  | .normal => layers.normal
  | .insert => layers.insert
  | .visual => layers.visual
  | .search => none

/-- Null counts as no configuration. -/
def config? : Option Json → Option Json
  | some .null => none
  | v => v

/-- Reads layers from an object, or from an array of at most three configurations. -/
def ofJson? : Json → Option KeymapLayers
  | .object members => some {
      normal := config? (Json.member? "normal" members)
      insert := config? (Json.member? "insert" members)
      visual := config? (Json.member? "visual" members) }
  | .array items =>
    if items.length ≤ 3 then
      some { normal := config? items[0]?, insert := config? items[1]?, visual := config? items[2]? }
    else none
  | _ => none

/-- Compiled keymaps with their modes, in order and each with a handle, and the errors of the others
under the layer's name. -/
def compile (layers : KeymapLayers) (layer : String) (s : Store (Action σ)) :
    List (Mode × KeymapId) × List LayerError × Store (Action σ) :=
  modes.foldl (fun (keymaps, errors, s) mode =>
    match layers.get? mode with
    | none => (keymaps, errors, s)
    | some config =>
      match s.load config with
      | .ok (km, s) => (keymaps ++ [(mode, km)], errors, s)
      | .error error => (keymaps, errors ++ [⟨layer, mode, error⟩], s)) ([], [], s)

end KeymapLayers

end ModalKeys
