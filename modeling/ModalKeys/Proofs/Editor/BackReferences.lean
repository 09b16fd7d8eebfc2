import ModalKeys.Host.Recording
import ModalKeys.Proofs.Editor.Layering
import ModalKeys.Proofs.Editor.Operation

/-!
# Keymaps from settings

An update from settings starts over with keymaps without keys, so that each mode comes to serve the
configurations that the settings have for it. A back reference leads to an enclosing object of its own
configuration then, not to the keymap that this object has been merged into.
-/

namespace ModalKeys

variable {σ : Type}

namespace Editor

open KeyTree

variable {e e' : Editor σ} {mode : Mode}

/-! ## Editors without keys -/

/-- No keymap has a key, and the root keymaps of the modes are there, each mode with its own one. -/
structure Bare (e : Editor σ) : Prop where
  slots : ∀ id key, e.store.slot? id key = none
  root : ∀ mode ∈ KeymapLayers.modes, ∃ root, (e.modal mode).root? = some root ∧ e.store.alive root
  apart : ∀ mode ∈ KeymapLayers.modes, ∀ other ∈ KeymapLayers.modes,
    (e.modal mode).root? = (e.modal other).root? → mode = other

theorem slot?_create_eq_none {s : Store (Action σ)} (h : ∀ id key, s.slot? id key = none)
    (name help : Option String) (id : KeymapId) (key : Char) :
    (s.create name help).2.slot? id key = none := by
  rw [Store.slot?_create, h, ite_self]

theorem bare_create (host : Host σ) (state : σ) : (create host state).Bare where
  slots := slot?_create_eq_none (slot?_create_eq_none (slot?_create_eq_none
    (fun _ _ => rfl) none none) none none) none none
  root mode hm := by
    have : mode = .normal ∨ mode = .insert ∨ mode = .visual := by
      simpa [KeymapLayers.modes] using hm
    rcases this with rfl | rfl | rfl
    · exact ⟨_, rfl, rfl⟩
    · exact ⟨_, rfl, rfl⟩
    · exact ⟨_, rfl, rfl⟩
  apart := by
    have roots : ∀ mode : Mode, ((create host state).modal mode).root? =
        if mode = .normal then some 0 else if mode = .insert then some 1
        else if mode = .visual then some 2 else none := by
      intro mode
      cases mode <;> rfl
    intro mode _ other _
    rw [roots, roots]
    revert mode other
    decide

/-- A step that gives no key to any keymap and keeps the root keymaps. -/
theorem Bare.of_within (h : e.Bare) (slots : ∀ id key, e'.store.slot? id key = none)
    (root? : ∀ mode, (e'.modal mode).root? = (e.modal mode).root?)
    (alive : ∀ mode root, (e.modal mode).root? = some root → e.store.alive root →
      e'.store.alive root) : e'.Bare where
  slots := slots
  root m hm := by
    obtain ⟨root, hr, here⟩ := h.root m hm
    exact ⟨root, (root? m).trans hr, alive m root hr here⟩
  apart m hm other ho := by
    rw [root?, root?]
    exact h.apart m hm other ho

theorem Bare.release (h : e.Bare) : e.release.Bare := by
  refine h.of_within (fun id key => ?_) (fun m => by rw [modal_release]) fun m root hr alive => ?_
  · rw [Option.eq_none_iff_forall_ne_some]
    intro slot hs
    cases (h.slots id key).symm.trans ((e.store.within_release _).slot? hs)
  · have held := e.held_modal_subset m (Modal.root_mem_held hr)
    exact (Store.alive_of_agree (Store.keymap?_release_of_mem held)).trans alive

theorem Bare.modify (h : e.Bare) (mode : Mode) {f : Modal σ → Modal σ}
    (hf : (f (e.modal mode)).root? = (e.modal mode).root?) : (e.modify mode f).Bare := by
  have store : (e.modify mode f).store = e.store := by cases mode <;> rfl
  refine h.of_within (fun id key => ?_) (fun m => ?_) fun m root _ alive => ?_
  · rw [store, h.slots]
  · rw [modal_modify]
    split
    · next hm =>
        subst hm
        exact hf
    · rfl
  · rw [store]
    exact alive

theorem Bare.withStore (h : e.Bare) {s : Store (Action σ)} (slots : ∀ id key, s.slot? id key = none)
    (alive : ∀ id, e.store.alive id → s.alive id) : { e with store := s }.Bare :=
  h.of_within slots (fun mode => by cases mode <;> rfl) fun _ root _ => alive root

theorem Bare.clearKeymap (h : e.Bare) (mode : Mode) : (e.clearKeymap mode).Bare := by
  rw [Editor.clearKeymap, Modal.clearKeymap]
  have reset := Modal.root?_reset (e.modal mode)
  cases hr : (e.modal mode).root? with
  | none => exact Bare.release (h.modify mode (f := fun _ => (e.modal mode).reset) reset)
  | some root =>
      refine Bare.release (Bare.modify (e := { e with store := e.store.clear root })
        (h.withStore (fun id key => ?_) fun id alive => ?_) mode ?_)
      · rw [Store.slot?_clear, h.slots, ite_self]
      · exact (Store.alive_modify ..).trans alive
      · have same := Modal.root?_mapMatcher (reset.trans hr)
          (f := fun matcher => { matcher with layers := [] }) fun _ => rfl
        refine same.trans (hr.symm.trans ?_)
        cases mode <;> rfl

theorem Bare.exists_root (h : e.Bare) (hm : mode ∈ KeymapLayers.modes) : ∃ root,
    e.Divided mode (· = root) [] ∧
      e.Grows mode (· = root) root (node root fun _ => none) (Config.layered []) := by
  obtain ⟨root, hr, alive⟩ := h.root mode hm
  have none {id : KeymapId} {key : Char} {slot : Slot (Action σ)} (P : Prop)
      (hs : e.store.slot? id key = some slot) : P := by
    rw [h.slots] at hs
    cases hs
  refine ⟨root, ⟨⟨fun _ _ _ _ hs => none _ hs, fun _ _ _ _ hs => none _ hs⟩, ?_, ?_, nofun, .nil⟩,
    hr, Store.grown_empty alive (h.slots root), ?_⟩
  · rintro _ rfl
    exact Store.lt_next_of_alive alive
  · intro other ho
    obtain ⟨r, hr', alive'⟩ := h.root other ho
    refine ⟨r, hr', Store.lt_next_of_alive alive', ?_, ?_⟩
    · rintro rfl
      exact h.apart other ho mode hm (hr'.trans hr.symm)
    · rintro rfl
      exact Option.some.inj (hr'.symm.trans hr)
  · intro id hid
    rcases mem_node.1 hid with rfl | ⟨key, t, ht, -⟩
    · rfl
    · cases ht

end Editor

/-- The configurations for a mode in some settings: that of the preset, and then what is laid over it. -/
def Settings.configs (settings : Settings) (mode : Mode) : List Json :=
  KeymapLayers.configs mode (Editor.presetLayer settings.preset ++
    settings.customKeymaps.toList.map ("custom", ·) ++ [("inline", settings.inlineKeymaps)])

namespace Editor

variable {host : Host σ} {state : σ} {settings : Settings} {mode : Mode}

theorem mem_modes_of_configs (h : settings.configs mode ≠ []) : mode ∈ KeymapLayers.modes := by
  by_contra none
  have search : mode = .search := by
    revert none
    cases mode <;> decide
  subst search
  refine h (List.filterMap_eq_nil_iff.2 ?_)
  exact fun _ _ => rfl

/-- After an update from settings that compile, each mode serves its configurations, laid over one
another. Those before the last one have to be plain. -/
theorem outcome_walk_updateFromSettings (hm : mode ∈ KeymapLayers.modes)
    (ok : ((create host state).updateFromSettings settings).2 = [])
    (plain : ∀ config ∈ (settings.configs mode).dropLast,
      ∃ members, config = .object members ∧ Config.Plain members) :
    ∃ root,
      (((create host state).updateFromSettings settings).1.modal mode).root? = some root ∧
      ∀ keys, (((create host state).updateFromSettings settings).1.store.walk root keys).map
        Binding.outcome = Config.layered (settings.configs mode) keys := by
  have bare : ((create host state).setTimeout .insert settings.insertTimeoutMillis).Bare :=
    Bare.release ((bare_create host state).modify .insert rfl)
  replace bare := clearKeymaps_preserves (P := Bare) (fun _ mode h => h.clearKeymap mode) bare
  obtain ⟨root, divided, grows⟩ := bare.exists_root hm
  obtain ⟨K, J, serves⟩ := grows.mergeLayers divided hm ok plain
  exact ⟨root, serves.root?, serves.served.walk⟩

/-- A back reference of the last configuration for a mode leads to the enclosing object of that
configuration, laid over what the others have under the reference. The place of this object in the
keymap of the mode has the same object, laid over what the others have at that place. -/
theorem outcome_back_updateFromSettings (host : Host σ) (state : σ) (settings : Settings)
    (ok : ((create host state).updateFromSettings settings).2 = []) (mode : Mode)
    (earlier : List Json) (last inner : List (String × Json))
    (configs : settings.configs mode = earlier ++ [.object last])
    (plain : ∀ config ∈ earlier, ∃ members, config = .object members ∧ Config.Plain members)
    (keys : List Char) (key : Char) (i levels : Nat) (v : Json)
    (nested : Config.nested? last keys = some inner)
    (bound : Config.lastBinding? key inner = some (i, v)) (back : Config.meaning v = .back levels)
    (near : levels ≤ keys.length) :
    ∃ root,
      (((create host state).updateFromSettings settings).1.modal mode).root? = some root ∧
      ∀ more,
        (((create host state).updateFromSettings settings).1.store.walk root
          (keys ++ key :: more)).map Binding.outcome =
          Outcome.above
            (fun rest => Config.outcome (.object last) (keys.take (keys.length - levels) ++ rest))
            (fun rest => Config.layered earlier (keys ++ key :: rest)) more ∧
        (((create host state).updateFromSettings settings).1.store.walk root
          (keys.take (keys.length - levels) ++ more)).map Binding.outcome =
          Outcome.above
            (fun rest => Config.outcome (.object last) (keys.take (keys.length - levels) ++ rest))
            (fun rest => Config.layered earlier (keys.take (keys.length - levels) ++ rest)) more := by
  have nonempty : settings.configs mode ≠ [] := by simp [configs]
  have dropLast : (settings.configs mode).dropLast = earlier := by simp [configs]
  obtain ⟨root, hr, walk⟩ := outcome_walk_updateFromSettings (mem_modes_of_configs nonempty) ok
    (by rwa [dropLast])
  have objects (config : Json) (hc : config ∈ earlier) : ∃ members, config = .object members :=
    (plain config hc).imp fun _ h => h.1
  refine ⟨root, hr, fun more => ⟨?_, ?_⟩⟩
  · rw [walk, configs, Config.layered_back objects nested bound back near]
  · rw [walk, configs, Config.layered_append, Outcome.above_append (Config.followed_outcome _)
      (Config.followed_layered objects) (Config.outcome_take nested _)]

/-- Settings with two configurations for Normal mode. -/
def twoLayers (first last : List (String × Json)) : Settings :=
  { customKeymaps := some { normal := some (.object first) }, normalKeymaps := some (.object last) }

/-- A reference back to the keymap of a prefix. A key that the first configuration has after the prefix
is not there after the reference. -/
theorem outcome_back_two_layers : ∃ (e : Editor Record) (root : KeymapId),
    (create Host.commandRecorder []).updateFromSettings (twoLayers
      [("d", .object [("x", .string "cut")])]
      [("d", .object [("d", .string "deleteLine"), ("2-9", .object [
        ("d", .string "deleteLine"), ("2-9", .number (.integer (-1)))])])]) = (e, []) ∧
    (e.modal .normal).root? = some root ∧
    (e.store.walk root ['d', '2', '2', 'd']).map Binding.outcome =
      some (.action (.command "deleteLine" none)) ∧
    (e.store.walk root ['d', '2', '2', 'x']).map Binding.outcome = none ∧
    (e.store.walk root ['d', 'x']).map Binding.outcome = some (.action (.command "cut" none)) := by
  let first : List (String × Json) := [("d", .object [("x", .string "cut")])]
  let digits : List (String × Json) :=
    [("d", .string "deleteLine"), ("2-9", .number (.integer (-1)))]
  let last : List (String × Json) :=
    [("d", .object [("d", .string "deleteLine"), ("2-9", .object digits)])]
  have ok : ((create Host.commandRecorder []).updateFromSettings (twoLayers first last)).2 = [] := by
    decide +kernel
  have plain : ∀ config ∈ [Json.object first],
      ∃ members, config = .object members ∧ Config.Plain members := by
    intro config hc
    exact ⟨first, List.mem_singleton.1 hc, Config.plain_of_check (by decide +kernel)⟩
  obtain ⟨root, hr, walks⟩ := outcome_back_updateFromSettings Host.commandRecorder []
    (twoLayers first last) ok .normal [.object first] last digits rfl plain ['d', '2'] '2' 1 1
    (.number (.integer (-1))) rfl rfl rfl (by decide)
  generalize (create Host.commandRecorder []).updateFromSettings (twoLayers first last) = updated
    at ok hr walks
  obtain ⟨e, errors⟩ := updated
  cases ok
  exact ⟨e, root, rfl, hr, (walks ['d']).1.trans rfl, (walks ['x']).1.trans rfl,
    (walks ['x']).2.trans rfl⟩

/-! ## References that lead elsewhere -/

/-- Merges a loaded keymap into the root keymap of its mode, if a number of steps is enough. -/
def takeWithin (n : Nat) (e : Editor σ) (p : Mode × KeymapId) : Option (Editor σ) :=
  match (e.modal p.1).root? with
  | none => none
  | some root =>
    let merging := e.store.mergeWithin n (p.2 :: (e.modal p.1).held ++ e.held) root p.2
    if root ≠ p.2 ∧ merging.tasks = [] then
      some (({ e with store := merging.store }.modify p.1 fun modal => modal.mapMatcher fun matcher =>
        { matcher with layers := p.2 :: matcher.layers }).release.drop p.2)
    else none

/-- Merges layers if they compile and a number of steps is enough for each keymap. -/
def mergeLayersWithin (n : Nat) : Editor σ → List (String × KeymapLayers) → Option (Editor σ)
  | e, [] => some e
  | e, (name, layers) :: rest =>
    match layers.compile name e.store with
    | (keymaps, [], s) => do
      let e ← keymaps.foldlM (takeWithin n) { e with store := s }
      mergeLayersWithin n e rest
    | _ => none

theorem take_eq_of_takeWithin {n : Nat} {e e' : Editor σ} {p : Mode × KeymapId}
    (h : e.takeWithin n p = some e') : e.take p = e' := by
  obtain ⟨mode, km⟩ := p
  rw [takeWithin] at h
  split at h
  · cases h
  · next root hr =>
      dsimp only at h
      split at h
      · next fits =>
          cases h
          rw [take_eq hr, merged, Store.merge_eq_mergeWithin n fits.1 fits.2]
      · cases h

theorem mergeLayers_eq_of_mergeLayersWithin {n : Nat} {e e' : Editor σ}
    {layers : List (String × KeymapLayers)} (h : e.mergeLayersWithin n layers = some e') :
    e.mergeLayers layers = (e', []) := by
  have taken (keymaps : List (Mode × KeymapId)) (e e' : Editor σ)
      (h : keymaps.foldlM (takeWithin n) e = some e') : keymaps.foldl take e = e' := by
    induction keymaps generalizing e with
    | nil => exact Option.some.inj h
    | cons p rest ih =>
        obtain ⟨e₁, h₁, h⟩ := Option.bind_eq_some_iff.1 h
        rw [List.foldl_cons, take_eq_of_takeWithin h₁]
        exact ih e₁ h
  induction layers generalizing e with
  | nil =>
      cases h
      rfl
  | cons layer rest ih =>
      obtain ⟨name, layers⟩ := layer
      rw [mergeLayersWithin] at h
      split at h
      · next keymaps s hc =>
          obtain ⟨e₁, h₁, h⟩ := Option.bind_eq_some_iff.1 h
          rw [mergeLayers_cons, mergeLayer_eq, hc]
          dsimp only
          rw [taken _ _ _ h₁, ih h]
          rfl
      · cases h

/-- The second of two configurations has a back reference, which does not lead to the keymap that
encloses it in the keymap of the mode: some keys come to something else there. -/
def LeadsElsewhere (first last : List (String × Json)) (keys : List Char) (key : Char) (levels : Nat)
    (more : List Char) : Prop :=
  ∃ (e : Editor Record) (root below : KeymapId) (inner : List (String × Json)) (i : Nat) (v : Json),
    (create Host.commandRecorder []).updateFromSettings (twoLayers first last) = (e, []) ∧
    (twoLayers first last).configs .normal = [.object first, .object last] ∧
    Config.nested? last keys = some inner ∧ Config.lastBinding? key inner = some (i, v) ∧
    Config.meaning v = .back levels ∧ levels ≤ keys.length ∧
    (e.modal .normal).root? = some root ∧ e.store.walk root keys = some (.keymap below) ∧
    (e.store.walk root (keys ++ key :: more)).map Binding.outcome ≠
      (e.store.walk root (keys.take (keys.length - levels) ++ more)).map Binding.outcome

theorem leadsElsewhere_of_check (n : Nat) {first last inner : List (String × Json)}
    {keys more : List Char} {key : Char} {i levels : Nat} {v : Json}
    (nested : Config.nested? last keys = some inner)
    (bound : Config.lastBinding? key inner = some (i, v)) (back : Config.meaning v = .back levels)
    (near : levels ≤ keys.length)
    (check : (((create Host.commandRecorder []).setTimeout .insert none).clearKeymaps.mergeLayersWithin
      n [("custom", { normal := some (.object first) }),
        ("inline", { normal := some (.object last) })]).any fun e =>
      (e.modal .normal).root? == some 0 &&
      ((e.store.walk 0 keys).bind Binding.keymap?).isSome &&
      (e.store.walk 0 (keys ++ key :: more)).any Binding.isAction !=
        (e.store.walk 0 (keys.take (keys.length - levels) ++ more)).any Binding.isAction) :
    LeadsElsewhere first last keys key levels more := by
  obtain ⟨e, he, check⟩ := (Option.any_eq_true _ _).1 check
  simp only [Bool.and_eq_true, beq_iff_eq, bne_iff_ne] at check
  obtain ⟨⟨hr, keymap⟩, differ⟩ := check
  obtain ⟨below, hb⟩ := Option.isSome_iff_exists.1 keymap
  obtain ⟨binding, hw, hb⟩ := Option.bind_eq_some_iff.1 hb
  have there : e.store.walk 0 keys = some (.keymap below) := by
    cases binding with
    | keymap id =>
        cases hb
        exact hw
    | action tag act => cases hb
  refine ⟨e, 0, below, inner, i, v, mergeLayers_eq_of_mergeLayersWithin he, rfl, nested, bound, back,
    near, hr, there, fun same => differ ?_⟩
  -- equal outcomes are both actions or both none
  have any (b : Option (Binding (Action Record))) : b.any Binding.isAction =
      (b.map Binding.outcome).any fun | .keymap => false | .action _ => true := by
    rcases b with _ | ⟨id⟩ | ⟨tag, act⟩ <;> rfl
  rw [any, any, same]

/-- First, the enclosing keymap has a key from the first configuration. Then the first configuration
has one keymap in two places, under two keys or by a back reference of its own: what the second one has
in one place goes into the other, and an action there replaces the reference. -/
theorem leadsElsewhere_in_merged_keymaps :
    LeadsElsewhere [("a", .string "cmd")] [("z", .object [("r", .number (.integer (-1)))])]
      ['z'] 'r' 1 ['a'] ∧
    LeadsElsewhere [("p,q", .object [])]
      [("p", .object [("k", .number (.integer (-1)))]), ("q", .object [("k", .string "cmd")])]
      ['p'] 'k' 1 [] ∧
    LeadsElsewhere [("q", .object [("r", .number (.integer (-1)))])]
      [("q", .object [("k", .number (.integer 0)),
        ("r", .object [("q", .object [("k", .string "cmd")])])])]
      ['q'] 'k' 0 [] := by
  refine ⟨?_, ?_, ?_⟩
  · exact leadsElsewhere_of_check 40 rfl rfl rfl (by decide) (by decide +kernel)
  · exact leadsElsewhere_of_check 40 rfl rfl rfl (by decide) (by decide +kernel)
  · exact leadsElsewhere_of_check 40 rfl rfl rfl (by decide) (by decide +kernel)

end Editor

end ModalKeys
