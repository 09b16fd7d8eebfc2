import ModalKeys.Proofs.Editor.Layering
import ModalKeys.Proofs.Keymap.SideBySide

/-!
# Configurations that fail

Whether a configuration compiles can be told from the configuration alone. Layers that are repaired, by
leaving out what does not compile, therefore do to an editor all that the layers themselves do, and
report nothing. The errors that the layers report can be listed without looking at the editor.
-/

namespace ModalKeys

variable {σ : Type}

/-- The error of a configuration that does not compile. It is the same in all stores. -/
def Config.failure? (config : Json) : Option ConfigError :=
  match (default : Store (Action Unit)).compile config with
  | .ok _ => none
  | .error error => some error

theorem Config.failure?_eq_some_iff (s : Store (Action σ)) (config : Json) (error : ConfigError) :
    failure? config = some error ↔ s.compile config = .error error := by
  rw [Store.compile_error_iff s (default : Store (Action Unit)), failure?]
  split
  · next h => simp [h]
  · next h => simp [h]

theorem Config.failure?_of_error {s : Store (Action σ)} {config : Json} {error : ConfigError}
    (h : s.compile config = .error error) : failure? config = some error :=
  (failure?_eq_some_iff s config error).2 h

theorem Config.failure?_of_ok {s s' : Store (Action σ)} {config : Json} {root : KeymapId}
    (h : s.compile config = .ok (root, s')) : failure? config = none := by
  rw [Option.eq_none_iff_forall_ne_some]
  intro error he
  rw [failure?_eq_some_iff s, h] at he
  cases he

namespace KeymapLayers

/-- The error of the configuration for a mode, under the name of the layer. -/
def failure? (name : String) (layers : KeymapLayers) (mode : Mode) : Option LayerError :=
  (layers.get? mode).bind fun config => (Config.failure? config).map (⟨name, mode, ·⟩)

/-- The errors of the configurations in a layer, mode by mode. -/
def failures (name : String) (layers : KeymapLayers) : List LayerError :=
  modes.filterMap (layers.failure? name)

/-- A layer without the configurations that do not compile. -/
def repaired (layers : KeymapLayers) : KeymapLayers where
  normal := layers.normal.filter fun config => (Config.failure? config).isNone
  insert := layers.insert.filter fun config => (Config.failure? config).isNone
  visual := layers.visual.filter fun config => (Config.failure? config).isNone

theorem get?_repaired (layers : KeymapLayers) (mode : Mode) : layers.repaired.get? mode =
    (layers.get? mode).filter fun config => (Config.failure? config).isNone := by
  cases mode <;> rfl

section LoadNext

variable {layers : KeymapLayers} {mode : Mode} {config : Json} {keymaps : List (Mode × KeymapId)}
  {errors : List LayerError} {s s₁ : Store (Action σ)}

theorem loadNext_of_none (h : layers.get? mode = none) (name : String) :
    layers.loadNext name (keymaps, errors, s) mode = (keymaps, errors, s) := by
  rw [loadNext, h]

theorem loadNext_of_ok (h : layers.get? mode = some config) {km : KeymapId}
    (compiled : s.compile config = .ok (km, s₁)) (name : String) :
    layers.loadNext name (keymaps, errors, s) mode =
      (keymaps ++ [(mode, km)], errors, s₁.hold km) := by
  have loaded : s.load config = .ok (km, s₁.hold km) := by
    unfold Store.load
    rw [compiled]
    rfl
  rw [loadNext, h]
  dsimp only
  rw [loaded]

theorem loadNext_of_error (h : layers.get? mode = some config) {error : ConfigError}
    (failed : s.compile config = .error error) (name : String) :
    layers.loadNext name (keymaps, errors, s) mode =
      (keymaps, errors ++ [⟨name, mode, error⟩], s) := by
  have fails : s.load config = .error error := by
    unfold Store.load
    rw [failed]
    rfl
  rw [loadNext, h]
  dsimp only
  rw [fails]

end LoadNext

/-- The configurations that compile are loaded in the same way, and the errors of the others come in
the order of the modes. -/
theorem foldl_loadNext_repaired (layers : KeymapLayers) (name : String) (rest : List Mode)
    (keymaps : List (Mode × KeymapId)) (errors : List LayerError) (s : Store (Action σ)) :
    ∃ keymaps' s',
      rest.foldl (layers.repaired.loadNext name) (keymaps, [], s) = (keymaps', [], s') ∧
      rest.foldl (layers.loadNext name) (keymaps, errors, s) =
        (keymaps', errors ++ rest.filterMap (layers.failure? name), s') := by
  induction rest generalizing keymaps errors s with
  | nil => exact ⟨keymaps, s, rfl, by rw [List.filterMap_nil, List.append_nil]; rfl⟩
  | cons mode rest ih =>
      rw [List.foldl_cons, List.foldl_cons]
      have repaired := layers.get?_repaired mode
      have failure : layers.failure? name mode = (layers.get? mode).bind fun config =>
        (Config.failure? config).map (⟨name, mode, ·⟩) := rfl
      cases hc : layers.get? mode with
      | none =>
          rw [hc] at repaired failure
          rw [loadNext_of_none repaired, loadNext_of_none hc, List.filterMap_cons_none failure]
          exact ih keymaps errors s
      | some config =>
          rw [hc, Option.filter_some] at repaired
          rw [hc, Option.bind_some] at failure
          cases compiled : s.compile config with
          | ok r =>
              obtain ⟨km, s₁⟩ := r
              rw [Config.failure?_of_ok compiled] at repaired failure
              rw [loadNext_of_ok repaired compiled, loadNext_of_ok hc compiled,
                List.filterMap_cons_none failure]
              exact ih _ errors (s₁.hold km)
          | error error =>
              rw [Config.failure?_of_error compiled] at repaired failure
              rw [loadNext_of_none repaired, loadNext_of_error hc compiled,
                List.filterMap_cons_some failure]
              obtain ⟨keymaps', s', left, right⟩ := ih keymaps (errors ++ [⟨name, mode, error⟩]) s
              rw [List.append_assoc] at right
              exact ⟨keymaps', s', left, right⟩

theorem compile_repaired (layers : KeymapLayers) (name : String) (s : Store (Action σ)) :
    layers.repaired.compile name s = ((layers.compile name s).1, [], (layers.compile name s).2.2) ∧
      (layers.compile name s).2.1 = layers.failures name := by
  obtain ⟨keymaps, s', left, right⟩ := foldl_loadNext_repaired layers name modes [] [] s
  have left : layers.repaired.compile name s = (keymaps, [], s') := left
  have right : layers.compile name s = (keymaps, [] ++ layers.failures name, s') := right
  rw [left, right]
  exact ⟨rfl, rfl⟩

end KeymapLayers

namespace Editor

theorem mergeLayer_repaired (e : Editor σ) (name : String) (layers : KeymapLayers) :
    e.mergeLayer name layers.repaired = ((e.mergeLayer name layers).1, []) ∧
      (e.mergeLayer name layers).2 = layers.failures name := by
  obtain ⟨same, errors⟩ := layers.compile_repaired name e.store
  rw [mergeLayer, mergeLayer, same]
  exact ⟨rfl, errors⟩

/-- Layers without what does not compile. -/
def repairedLayers (layers : List (String × KeymapLayers)) :
    List (String × KeymapLayers) :=
  layers.map fun layer => (layer.1, layer.2.repaired)

/-- The errors of all layers, in order. -/
def layerFailures (layers : List (String × KeymapLayers)) : List LayerError :=
  layers.flatMap fun layer => layer.2.failures layer.1

theorem mergeLayers_repaired (e : Editor σ) (layers : List (String × KeymapLayers)) :
    e.mergeLayers (repairedLayers layers) = ((e.mergeLayers layers).1, []) ∧
      (e.mergeLayers layers).2 = layerFailures layers := by
  induction layers generalizing e with
  | nil => exact ⟨rfl, rfl⟩
  | cons layer rest ih =>
      obtain ⟨name, layers⟩ := layer
      obtain ⟨same, errors⟩ := e.mergeLayer_repaired name layers
      obtain ⟨same', errors'⟩ := ih (e.mergeLayer name layers).1
      have repaired : repairedLayers ((name, layers) :: rest) =
        (name, layers.repaired) :: repairedLayers rest := rfl
      have failures : layerFailures ((name, layers) :: rest) =
        layers.failures name ++ layerFailures rest := rfl
      rw [repaired, mergeLayers, mergeLayers, same, failures, ← errors, ← errors']
      dsimp only
      rw [same']
      exact ⟨rfl, rfl⟩

end Editor

/-! ## Settings -/

namespace Settings

/-- The layers of some settings, in the order in which they are merged. -/
def layers (settings : Settings) : List (String × KeymapLayers) :=
  Editor.presetLayer settings.preset ++ settings.customKeymaps.toList.map ("custom", ·) ++
    [("inline", settings.inlineKeymaps)]

/-- Settings without the configurations that do not compile. Presets stay as they are. -/
def repaired (settings : Settings) : Settings :=
  { settings with
    customKeymaps := settings.customKeymaps.map (·.repaired)
    normalKeymaps := (settings.inlineKeymaps.repaired).normal
    insertKeymaps := (settings.inlineKeymaps.repaired).insert
    visualKeymaps := (settings.inlineKeymaps.repaired).visual }

end Settings

/-- The errors of all layers. -/
def Settings.failures (settings : Settings) : List LayerError :=
  Editor.layerFailures settings.layers

theorem Config.failure?_simple :
    [Preset.simpleNormal, .object [], Preset.simpleVisual].all fun config =>
      (Config.failure? config).isNone := by
  decide +kernel

namespace Editor

/-- There is nothing to repair in a preset. -/
theorem repairedLayers_presetLayer (preset : Preset) :
    repairedLayers (presetLayer preset) = presetLayer preset := by
  cases preset with
  | none => rfl
  | simple =>
      obtain ⟨normal, insert, visual⟩ : (Config.failure? Preset.simpleNormal).isNone ∧
          (Config.failure? (.object [])).isNone ∧ (Config.failure? Preset.simpleVisual).isNone := by
        simpa using Config.failure?_simple
      simp only [repairedLayers, presetLayer, Preset.layers, Option.toList_some, List.map_cons,
        List.map_nil, KeymapLayers.repaired, Option.filter_some, normal, insert, visual, if_true]

end Editor

theorem Settings.layers_repaired (settings : Settings) :
    settings.repaired.layers = Editor.repairedLayers settings.layers := by
  unfold layers Editor.repairedLayers
  rw [List.map_append, List.map_append]
  have preset := Editor.repairedLayers_presetLayer settings.preset
  unfold Editor.repairedLayers at preset
  rw [preset]
  unfold repaired
  cases settings.customKeymaps <;> rfl

/-- Settings do to an editor what they do without the configurations that fail, and report these. -/
theorem Editor.updateFromSettings_repaired (e : Editor σ) (settings : Settings) :
    e.updateFromSettings settings.repaired = ((e.updateFromSettings settings).1, []) ∧
      (e.updateFromSettings settings).2 = settings.failures := by
  have merged := mergeLayers_repaired
    (e.setTimeout .insert settings.insertTimeoutMillis).clearKeymaps settings.layers
  rw [← Settings.layers_repaired] at merged
  exact merged

end ModalKeys
