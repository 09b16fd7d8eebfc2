import ModalKeys.Proofs.Editor.Isolation
import ModalKeys.Proofs.Editor.Reapplying
import ModalKeys.Proofs.Keymap.LaidOver

/-!
# The last layer

Settings without back references never make an alias, so that the layers of an editor are laid over one
another by rebinding keys alone. The last configuration for a mode then has the last word on its actions,
unless a keymap of the layers before it comes to lie under two objects of the configuration.
-/

namespace ModalKeys

variable {σ : Type}

/-! ## Configurations with one object inside -/

namespace Config

theorem eq_of_lastBinding?_singleton {key : Char} {name : String} {v w : Json} {i : Nat}
    (h : lastBinding? key [(name, v)] = some (i, w)) : i = 0 ∧ w = v := by
  rw [lastBinding?_singleton] at h
  split at h
  · cases h
    exact ⟨rfl, rfl⟩
  · cases h

/-- A configuration with one object inside, which has an action. -/
theorem path_of_interpret_single {name name' : String} {v w : Json}
    (hv : meaning v = .keymap [(name', w)]) (hw : meaning w = .action) {keys : List Char}
    {place : Place} (hne : keys ≠ []) (h : interpret (.object [(name, v)]) keys = some (.object place)) :
    place.path = [0] := by
  obtain ⟨key, rest, rfl⟩ := List.exists_cons_of_ne_nil hne
  rw [interpret, follow] at h
  split at h
  · cases h
  · next i v' hl =>
      obtain ⟨rfl, rfl⟩ := eq_of_lastBinding?_singleton hl
      rw [hv] at h
      cases rest with
      | nil =>
          cases h
          rfl
      | cons key rest =>
          dsimp only at h
          rw [follow] at h
          split at h
          · cases h
          · next i w' hl =>
              obtain ⟨rfl, rfl⟩ := eq_of_lastBinding?_singleton hl
              rw [hw] at h
              dsimp only at h
              split at h <;> cases h

end Config

/-! ## Layers before the last one -/

namespace KeymapLayers

/-- The layers before the last one that has a configuration for a mode. -/
def beforeLast (mode : Mode) : List (String × KeymapLayers) → List (String × KeymapLayers)
  | [] => []
  | layer :: rest => if (configs mode rest).isEmpty then [] else layer :: beforeLast mode rest

theorem exists_last {mode : Mode} {layers : List (String × KeymapLayers)} {config : Json}
    (h : (configs mode layers).getLast? = some config) : ∃ name last after,
      layers = beforeLast mode layers ++ (name, last) :: after ∧ last.get? mode = some config ∧
        configs mode after = [] := by
  induction layers with
  | nil => cases h
  | cons layer rest ih =>
      obtain ⟨name, layer⟩ := layer
      rw [beforeLast]
      by_cases none : configs mode rest = []
      · rw [if_pos (List.isEmpty_iff.2 none)]
        refine ⟨name, layer, rest, rfl, ?_, none⟩
        cases hc : layer.get? mode with
        | none =>
            rw [configs_cons_of_none hc, none] at h
            cases h
        | some c =>
            rw [configs_cons_of_some hc, none] at h
            exact h
      · rw [if_neg (mt List.isEmpty_iff.1 none)]
        have later : (configs mode rest).getLast? = some config := by
          cases hc : layer.get? mode with
          | none => rwa [configs_cons_of_none hc] at h
          | some c =>
              rw [configs_cons_of_some hc] at h
              generalize configs mode rest = others at h none ⊢
              cases others with
              | nil => exact absurd rfl none
              | cons c' others => rwa [List.getLast?_cons_cons] at h
        obtain ⟨name', last, after, heq, hc, rest⟩ := ih later
        exact ⟨name', last, after, congrArg (_ :: ·) heq, hc, rest⟩

/-- No configuration of a layer has a back reference. -/
def Forward (layers : KeymapLayers) : Prop :=
  ∀ mode config, layers.get? mode = some config → Config.everyBack (fun _ _ => false) config

theorem Forward.repaired {layers : KeymapLayers} (h : layers.Forward) : layers.repaired.Forward := by
  intro mode config hc
  rw [get?_repaired] at hc
  exact h mode config (Option.filter_eq_some_iff.1 hc).1

theorem Loads.forward {layers : KeymapLayers} {modes : List Mode} {s s' : Store (Action σ)}
    {keymaps : List (Mode × KeymapId)} (loads : Loads layers modes s keymaps s')
    (h : layers.Forward) (hs : s.Forward) : s'.Forward := by
  induction loads with
  | nil => exact hs
  | skip _ _ ih => exact ih hs
  | load hc compiled _ ih =>
      have compiled := hs.compile (h _ _ hc) compiled
      exact ih compiled

end KeymapLayers

namespace Editor

variable {e e' : Editor σ} {mode : Mode} {K : KeymapId → Prop} {pending : List (Mode × KeymapId)}
  {root : KeymapId} {config : Json}

/-! ## Editors without aliases -/

theorem forward_take (h : e.store.Forward) (p : Mode × KeymapId) : (e.take p).store.Forward := by
  obtain ⟨other, km⟩ := p
  have drop (x : Editor σ) (hx : x.store.Forward) : (x.drop km).store.Forward :=
    Store.Forward.release (s := x.store.drop km) hx _
  cases hr : (e.modal other).root? with
  | none =>
      rw [take, updateKeymap_of_none hr]
      exact drop _ (h.release _)
  | some root =>
      rw [take_eq hr]
      refine drop _ (Store.Forward.release ?_ _)
      rw [store_merged]
      exact (h.merge _ root km).1

theorem forward_foldl_take (h : e.store.Forward) (keymaps : List (Mode × KeymapId)) :
    (keymaps.foldl take e).store.Forward := by
  induction keymaps generalizing e with
  | nil => exact h
  | cons p rest ih => exact ih (forward_take h p)

theorem forward_mergeLayer {layers : KeymapLayers} (forward : layers.Forward) (h : e.store.Forward)
    (name : String) : (e.mergeLayer name layers).1.store.Forward := by
  obtain ⟨same, -⟩ := layers.compile_repaired name e.store
  rw [mergeLayer_eq]
  exact forward_foldl_take ((KeymapLayers.loads_of_compile same).forward forward.repaired h) _

theorem forward_mergeLayers {layers : List (String × KeymapLayers)}
    (forward : ∀ layer ∈ layers, layer.2.Forward) (h : e.store.Forward) :
    (e.mergeLayers layers).1.store.Forward := by
  induction layers generalizing e with
  | nil => exact h
  | cons layer rest ih =>
      obtain ⟨first, forward⟩ := List.forall_mem_cons.1 forward
      exact ih forward (forward_mergeLayer first h layer.1)

/-! ## A layer laid over the others -/

/-- What a keymap of the region owns stays. -/
theorem Passes.retains {handles : List KeymapId} (h : Passes mode K handles e e')
    (region : e.store.Region K) {id : KeymapId} (hid : K id)
    (held : id ∈ (e.modal mode).held ++ handles) : e.store.Retains id e'.store :=
  h.keymap? _ (Store.supported_owns held) fun _ => region.of_owns hid

theorem Divided.inside_root (h : e.Divided mode K pending) (hm : mode ∈ KeymapLayers.modes)
    (hr : (e.modal mode).root? = some root) : K root := by
  obtain ⟨root', hr', -, hK⟩ := h.root mode hm
  cases hr.symm.trans hr'
  exact hK.2 rfl

/-- Without aliases, a mode serves what it serves by way of keymaps of its own. -/
theorem Divided.serves (h : e.Divided mode K pending) (hm : mode ∈ KeymapLayers.modes)
    (hr : (e.modal mode).root? = some root) (forward : e.store.Forward) (alive : e.store.alive root) :
    e.Serves mode K root (e.store.Owns root)
      fun keys => (e.store.walk root keys).map Binding.outcome where
  root? := hr
  served := ⟨.self, forward.encloses alive, fun _ => rfl⟩
  inside _ := h.region.of_owns (h.inside_root hm hr)
  supported := Store.supported_owns (Modal.root_mem_held hr)

/-- What the root keymap owns after a merge stays when the keymap that came in has been given up. -/
theorem retains_take (hr : (e.modal mode).root? = some root) (km : KeymapId) :
    (e.store.merge (km :: (e.modal mode).held ++ e.held) root km).Retains root
      (e.take (mode, km)).store := by
  intro id ho
  rw [← store_merged] at ho
  exact keymap?_take_of_held km hr (Store.supported_owns List.mem_cons_self) id ho

/-- What a mode serves has all actions of a configuration. -/
def ServesActions (e : Editor σ) (mode : Mode) (K : KeymapId → Prop) (root : KeymapId)
    (config : Json) : Prop :=
  ∃ J f, e.Serves mode K root J f ∧ ∀ keys path v,
    Config.interpret config keys = some (.action path v) → f keys = some (.action (Config.described v))

theorem ServesActions.of_passes {handles : List KeymapId} (h : e.ServesActions mode K root config)
    (passes : Passes mode K handles e e') : e'.ServesActions mode K root config := by
  obtain ⟨J, f, serves, actions⟩ := h
  exact ⟨J, f, serves.of_passes passes fun _ hid => hid, actions⟩

/-- The mode takes in the keymap of a configuration. -/
theorem Divided.servesActions_take {rest : List (Mode × KeymapId)} {km : KeymapId}
    {s s' : Store (Action σ)} (h : e.Divided mode K ((mode, km) :: rest))
    (hr : (e.modal mode).root? = some root) (laid : e.store.LaidOnce root km)
    (compiled : s.compile config = .ok (km, s')) (kept : s'.Retains km e.store) :
    (e.take (mode, km)).ServesActions mode K root config := by
  have hm := (h.loaded _ List.mem_cons_self).mem
  have stays := retains_take hr km
  obtain ⟨forward, same⟩ := laid.forward.merge (km :: (e.modal mode).held ++ e.held) root km
  have alive := (same root).trans laid.alive.1
  refine ⟨_, _, h.take.serves hm (root?_take hr hr km) (forward_take laid.forward _)
    ((Store.alive_of_agree (stays root .self)).trans alive), fun keys path v hi => ?_⟩
  obtain ⟨tag, hw⟩ := laid.walk_merge_of_compile compiled kept
    (km :: (e.modal mode).held ++ e.held) hi
  rw [(forward.encloses alive).walk_of_agree stays .self, hw]
  rfl

/-- A layer with a configuration for the mode, whose actions come out on top. -/
theorem Divided.servesActions_mergeLayer (h : e.Divided mode K []) (hm : mode ∈ KeymapLayers.modes)
    (hr : (e.modal mode).root? = some root) (forward : e.store.Forward) (alive : e.store.alive root)
    {name : String} {layers : KeymapLayers} (ok : (e.mergeLayer name layers).2 = [])
    (backless : layers.Forward) (hc : layers.get? mode = some config)
    (once : e.store.MeetsOnce root config) : ∃ K' : KeymapId → Prop,
      (e.mergeLayer name layers).1.Divided mode K' [] ∧
        (e.mergeLayer name layers).1.ServesActions mode K' root config := by
  obtain ⟨keymaps, s, K', heq, loads, old, divided, passes⟩ := h.exists_loads ok
  rw [heq]
  obtain ⟨before, after, km, rfl, ⟨s₀, s₁, le, compiled, same⟩, others⟩ :=
    loads.split (by decide) hm hc
  rw [List.foldl_append, List.foldl_cons]
  obtain ⟨others, others'⟩ := List.forall_mem_append.1 others
  have loaded := divided.loaded _ (List.mem_append_right before List.mem_cons_self)
  have held := Modal.root_mem_held hr
  have hr₀ := hr
  rw [← modal_withStore e s] at hr₀
  obtain ⟨divided₁, passes₁⟩ := divided.foldl_take others
  -- neither the root keymap nor the new one has changed when their merge begins
  have kept := (passes.retains h.region (h.inside_root hm hr) (List.mem_append_left _ held)).trans
    (passes₁.retains divided.region (divided.inside_root hm hr₀)
      (List.mem_append_left _ (Modal.root_mem_held hr₀)))
  have new := Store.Retains.trans
    (fun id ho => same id (Store.lt_next_of_alive ((Store.encloses_of_compile compiled).alive id ho)))
    (passes₁.retains divided.region (loaded.inside.2 rfl) (List.mem_append_right _ List.mem_cons_self))
  have forward₁ := forward_foldl_take (e := { e with store := s }) (loads.forward backless forward)
    before
  have hr₁ := hr₀
  rw [← passes₁.modal] at hr₁
  generalize before.foldl Editor.take _ = e₁ at divided₁ hr₁ kept new forward₁ ⊢
  have laid : e₁.store.LaidOnce root km := by
    refine Store.laidOnce_of_compile compiled new forward₁
      ((Store.alive_of_agree (kept root .self)).trans alive) (fun id ho => ?_) ?_
    · have owned := kept.owns_of_owns .self ho
      exact Nat.lt_of_lt_of_le (h.lt id (h.region.of_owns (h.inside_root hm hr) owned)) le
    · exact once.of_walk fun keys => (forward.encloses alive).walk_of_agree kept .self keys
  have taken := divided₁.servesActions_take hr₁ laid compiled new
  have divided₂ := divided₁.take
  rw [← List.append_nil after] at divided₂
  obtain ⟨divided₃, passes₃⟩ := divided₂.foldl_take others'
  exact ⟨K', divided₃, taken.of_passes passes₃⟩

theorem ServesActions.mergeLayers (h : e.ServesActions mode K root config)
    (divided : e.Divided mode K []) {layers : List (String × KeymapLayers)}
    (ok : (e.mergeLayers layers).2 = []) (none : KeymapLayers.configs mode layers = []) :
    ∃ K' : KeymapId → Prop, (e.mergeLayers layers).1.ServesActions mode K' root config := by
  obtain ⟨J, f, serves, actions⟩ := h
  obtain ⟨K', serves⟩ := serves.mergeLayers divided ok none
  exact ⟨K', J, f, serves, actions⟩

theorem ServesActions.exists_walk (h : e.ServesActions mode K root config) {keys : List Char}
    {path : List Nat} {v : Json} (hi : Config.interpret config keys = some (.action path v)) :
    ∃ tag, e.store.walk root keys = some (.action tag (Config.described v)) := by
  obtain ⟨J, f, serves, actions⟩ := h
  have outcome := (serves.served.walk keys).trans (actions keys path v hi)
  obtain ⟨binding, hw, hb⟩ := Option.map_eq_some_iff.1 outcome
  cases binding with
  | keymap id => cases hb
  | action tag act =>
      cases hb
      exact ⟨tag, hw⟩

/-- The objects inside of a configuration never meet a root keymap. If there is but one of them, there is
nothing else to meet twice. -/
theorem Rooted.meetsOnce (h : e.Rooted) (hr : (e.modal mode).root? = some root)
    {members : List (String × Json)}
    (single : ∀ keys keys' place place', keys ≠ [] → keys' ≠ [] →
      Config.interpret (.object members) keys = some (.object place) →
      Config.interpret (.object members) keys' = some (.object place') → place.path = place'.path) :
    e.store.MeetsOnce root (.object members) := by
  have first : (root : Nat) < 3 := (startRoot?_eq_some ((h.root? mode).symm.trans hr)).1
  have start {keys : List Char} (hw : e.store.walk root keys = some (.keymap root)) : keys = [] := by
    by_contra hne
    exact Nat.not_lt_of_le (h.le_of_walk hne hw) first
  have here {id : KeymapId} (hw : e.store.walk root [] = some (.keymap id)) : id = root := by
    rw [Store.walk, if_pos (h.alive first)] at hw
    exact (Binding.keymap.inj (Option.some.inj hw)).symm
  intro keys keys' id place place' hw hw' hp hp'
  by_cases empty : keys = []
  · subst empty
    rw [here hw] at hw'
    cases start hw'
    cases hp.symm.trans hp'
    rfl
  · by_cases empty' : keys' = []
    · subst empty'
      rw [here hw'] at hw
      exact absurd (start hw) empty
    · exact single keys keys' place place' empty empty' hp hp'

/-! ## Settings -/

/-- A new editor that is to take in the layers of some settings. -/
def cleared (host : Host σ) (state : σ) (settings : Settings) : Editor σ :=
  ((create host state).setTimeout .insert settings.insertTimeoutMillis).clearKeymaps

/-- A new editor that has taken in the layers of some settings up to the last one that compiles for a
mode. -/
def beforeLast (host : Host σ) (state : σ) (settings : Settings) (mode : Mode) : Editor σ :=
  ((cleared host state settings).mergeLayers (KeymapLayers.beforeLast mode settings.repaired.layers)).1

theorem forward_cleared (host : Host σ) (state : σ) (settings : Settings) :
    (cleared host state settings).store.Forward := by
  have bare : (cleared host state settings).Bare :=
    clearKeymaps_preserves (P := Bare) (fun _ mode h => h.clearKeymap mode)
      (Bare.release ((bare_create host state).modify .insert rfl))
  intro id key slot hs
  cases (bare.slots id key).symm.trans hs

theorem beforeLast_preserves {P : Editor σ → Prop} (step : ∀ e e', Moves e e' → P e → P e')
    {host : Host σ} {state : σ} (new : P (create host state)) (settings : Settings) (mode : Mode) :
    P (beforeLast host state settings mode) :=
  Moves.mergeLayers step (Moves.clearKeymaps step
    (Moves.update step new .insert (Modal.follows_of_matcher? rfl))) _

end Editor

/-- The layers that compile have no back references if none has. -/
theorem Settings.forward_repaired {settings : Settings}
    (backless : ∀ mode, ∀ config ∈ settings.configs mode, Config.everyBack (fun _ _ => false) config) :
    ∀ layer ∈ settings.repaired.layers, layer.2.Forward := by
  rw [Settings.layers_repaired]
  intro repaired hr
  obtain ⟨layer, hl, rfl⟩ := List.mem_map.1 hr
  refine KeymapLayers.Forward.repaired fun mode config hc => backless mode config ?_
  exact List.mem_filterMap.2 ⟨layer, hl, hc⟩

/-- Keys that run a command without arguments. -/
def Binding.runs (name : String) : Binding (Action σ) → Bool
  | .action _ (.command other none) => other == name
  | _ => false

theorem Binding.exists_of_runs {name : String} {binding : Binding (Action σ)} (h : binding.runs name) :
    ∃ tag, binding = .action tag (.command name none) := by
  unfold runs at h
  split at h
  · next tag other =>
      cases beq_iff_eq.1 h
      exact ⟨tag, rfl⟩
  · cases h

namespace Editor

/-- In a new editor the last configuration that compiles for a mode has the last word on its actions, if
there are no back references and no keymap of the layers before it comes to lie under two objects of the
configuration. -/
theorem last_layer_wins (host : Host σ) (state : σ) {settings : Settings}
    (backless : ∀ mode, ∀ config ∈ settings.configs mode, Config.everyBack (fun _ _ => false) config)
    {mode : Mode} {config : Json} (last : (settings.repaired.configs mode).getLast? = some config)
    (once : ∀ root, ((beforeLast host state settings mode).modal mode).root? = some root →
      (beforeLast host state settings mode).store.MeetsOnce root config) :
    ∃ root,
      (((create host state).updateFromSettings settings).1.modal mode).root? = some root ∧
      ∀ keys path v, Config.interpret config keys = some (.action path v) → ∃ tag,
        ((create host state).updateFromSettings settings).1.store.walk root keys =
          some (.action tag (Config.described v)) := by
  have configs : settings.repaired.configs mode =
    KeymapLayers.configs mode settings.repaired.layers := rfl
  obtain ⟨name, layers, after, split, hc, none⟩ := KeymapLayers.exists_last (configs ▸ last)
  have hm := mem_modes_of_configs (List.getLast?_isSome.1 (Option.isSome_of_eq_some last))
  have forward := Settings.forward_repaired backless
  -- the editor when it is the turn of the last configuration
  have rooted : (beforeLast host state settings mode).Rooted :=
    beforeLast_preserves (fun _ _ => Moves.rooted) (rooted_create host state) settings mode
  obtain ⟨K, confined⟩ := beforeLast_preserves (P := fun e => ∃ K, e.Confined mode K [])
    (fun _ _ moves h => exists_confined_of_moves h moves) (exists_confined_create host state hm)
    settings mode
  have older : (beforeLast host state settings mode).store.Forward :=
    forward_mergeLayers (fun layer hl => forward layer (by rw [split]; exact List.mem_append_left _ hl))
      (forward_cleared host state settings)
  have ok : ((cleared host state settings).mergeLayers settings.repaired.layers).2 = [] := by
    rw [Settings.layers_repaired]
    exact congrArg Prod.snd (mergeLayers_repaired _ settings.layers).1
  have updated : ((create host state).updateFromSettings settings).1 =
      ((cleared host state settings).mergeLayers settings.repaired.layers).1 :=
    (congrArg Prod.fst ((create host state).updateFromSettings_repaired settings).1).symm
  have first : layers.Forward := forward (name, layers) (by rw [split]; simp)
  rw [split, mergeLayers_append, mergeLayers_cons] at ok updated
  obtain ⟨ok, ok'⟩ := List.append_eq_nil_iff.1 (List.append_eq_nil_iff.1 ok).2
  obtain ⟨root, hr, -⟩ := confined.divided.root mode hm
  obtain ⟨K', divided, serves⟩ := confined.divided.servesActions_mergeLayer hm hr older
    (rooted.alive (startRoot?_eq_some ((rooted.root? mode).symm.trans hr)).1) ok first hc (once root hr)
  obtain ⟨K'', serves⟩ := serves.mergeLayers divided ok' none
  rw [updated]
  refine ⟨root, ?_, fun keys path v => serves.exists_walk⟩
  obtain ⟨J, f, serves, -⟩ := serves
  exact serves.root?

theorem backless_twoLayers {first last : List (String × Json)}
    (hf : Config.everyBack (fun _ _ => false) (.object first))
    (hl : Config.everyBack (fun _ _ => false) (.object last)) (mode : Mode) :
    ∀ config ∈ (twoLayers first last).configs mode, Config.everyBack (fun _ _ => false) config := by
  cases mode with
  | normal => exact List.forall_mem_cons.2 ⟨hf, List.forall_mem_singleton.2 hl⟩
  | _ => exact fun _ hc => absurd hc List.not_mem_nil

/-- A keymap that the first configuration has under two keys comes to lie under one object of the second
one, in both places. -/
theorem last_layer_wins_on_shared_keymap :
    let first : List (String × Json) := [("a,b", .object [("x", .string "one")])]
    let last : List (String × Json) := [("a,b", .object [("x-z", .string "two")])]
    ∃ (e : Editor Record) (root : KeymapId) (tag tag' : Nat),
      (create Host.commandRecorder []).updateFromSettings (twoLayers first last) = (e, []) ∧
      (e.modal .normal).root? = some root ∧
      e.store.walk root ['a', 'x'] = some (.action tag (.command "two" none)) ∧
      e.store.walk root ['b', 'z'] = some (.action tag' (.command "two" none)) := by
  intro first last
  have compiles :
      ((create Host.commandRecorder []).updateFromSettings (twoLayers first last)).2 = [] := by
    decide +kernel
  have backless : ∀ mode, ∀ config ∈ (twoLayers first last).configs mode,
      Config.everyBack (fun _ _ => false) config :=
    backless_twoLayers (by decide) (by decide)
  have configs : ((twoLayers first last).repaired.configs .normal).getLast? = some (.object last) := by
    obtain ⟨ok, ok'⟩ : (Config.failure? (.object first)).isNone ∧
        (Config.failure? (.object last)).isNone := by decide +kernel
    have layers : (twoLayers first last).layers = [("custom", { normal := some (.object first) }),
      ("inline", { normal := some (.object last) })] := rfl
    have repaired : (twoLayers first last).repaired.layers = (twoLayers first last).layers := by
      rw [Settings.layers_repaired, layers]
      simp [repairedLayers, KeymapLayers.repaired, ok, ok']
    show (KeymapLayers.configs .normal (twoLayers first last).repaired.layers).getLast? = _
    rw [repaired]
    rfl
  have rooted : (beforeLast Host.commandRecorder [] (twoLayers first last) .normal).Rooted :=
    beforeLast_preserves (fun _ _ => Moves.rooted) (rooted_create _ _) _ _
  have inside (keys : List Char) (place : Config.Place) (hne : keys ≠ [])
      (hp : Config.interpret (.object last) keys = some (.object place)) : place.path = [0] :=
    Config.path_of_interpret_single rfl rfl hne hp
  obtain ⟨root, hr, walks⟩ := last_layer_wins Host.commandRecorder [] backless configs
    fun root hr => rooted.meetsOnce hr fun keys keys' place place' hne hne' hp hp' =>
      (inside keys place hne hp).trans (inside keys' place' hne' hp').symm
  generalize (create Host.commandRecorder []).updateFromSettings (twoLayers first last) = updated
    at compiles hr walks ⊢
  obtain ⟨e, errors⟩ := updated
  cases compiles
  obtain ⟨tag, near⟩ := walks ['a', 'x'] [0, 0] (.string "two") rfl
  obtain ⟨tag', far⟩ := walks ['b', 'z'] [0, 0] (.string "two") rfl
  exact ⟨e, root, tag, tag', rfl, hr, near, far⟩

/-- Two objects of the last configuration come to lie on a keymap that the one before it has under two
keys, and what the second object has replaces what the first one had. -/
theorem last_layer_overwritten :
    let first : List (String × Json) := [("a,b", .object [])]
    let last : List (String × Json) :=
      [("a", .object [("x", .string "one")]), ("b", .object [("x", .string "two")])]
    ∃ (e : Editor Record) (root : KeymapId) (tag : Nat),
      (create Host.commandRecorder []).updateFromSettings (twoLayers first last) = (e, []) ∧
      (∀ mode, ∀ config ∈ (twoLayers first last).configs mode,
        Config.everyBack (fun _ _ => false) config) ∧
      (twoLayers first last).configs .normal = [.object first, .object last] ∧
      Config.interpret (.object last) ['a', 'x'] = some (.action [0, 0] (.string "one")) ∧
      (e.modal .normal).root? = some root ∧
      e.store.walk root ['a', 'x'] = some (.action tag (.command "two" none)) ∧
      ∀ tag', e.store.walk root ['a', 'x'] ≠
        some (.action tag' (Config.described (.string "one"))) := by
  intro first last
  have check : ((cleared Host.commandRecorder [] (twoLayers first last)).mergeLayersWithin 40
      [("custom", { normal := some (.object first) }),
        ("inline", { normal := some (.object last) })]).any fun e =>
      (e.modal .normal).root? == some 0 &&
      (e.store.walk 0 ['a', 'x']).any (·.runs "two") := by
    decide +kernel
  obtain ⟨e, he, check⟩ := (Option.any_eq_true _ _).1 check
  rw [Bool.and_eq_true, beq_iff_eq] at check
  obtain ⟨hr, check⟩ := check
  obtain ⟨binding, hw, check⟩ := (Option.any_eq_true _ _).1 check
  obtain ⟨tag, rfl⟩ := Binding.exists_of_runs check
  refine ⟨e, 0, tag, mergeLayers_eq_of_mergeLayersWithin he,
    backless_twoLayers (by decide) (by decide), rfl, rfl, hr, hw, fun tag' h => ?_⟩
  rw [hw] at h
  simp [Config.described] at h

end Editor

end ModalKeys
