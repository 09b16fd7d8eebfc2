import ModalKeys.Proofs.Editor.Operation
import ModalKeys.Proofs.Keymap.Regions
import ModalKeys.Proofs.Keymap.Serving
import ModalKeys.Proofs.Modal.Layers

/-!
# Merging the layers of all modes

The keymaps that a mode can come to are a region of the store. A layer is compiled for all modes first,
and then merged mode by mode. What is merged into another mode leaves the region alone, so that each
mode serves its own configurations, laid over one another in the order of the layers.
-/

namespace ModalKeys

variable {σ : Type}

/-! ## Loading a layer -/

namespace Store

open KeyTree

/-- The second store has a keymap for a configuration, compiled after the first one. -/
def Gained (s s' : Store (Action σ)) (config : Json) (km : KeymapId) : Prop :=
  ∃ s₀ s₁ : Store (Action σ), s.next ≤ s₀.next ∧ s₀.compile config = .ok (km, s₁) ∧
    ∀ id : Nat, id < s₁.next → s'.keymap? id = s₁.keymap? id

variable {s s' : Store (Action σ)} {config : Json} {km : KeymapId}

/-- The new keymaps serve the configuration, as a tree if it is plain. -/
theorem Gained.exists_served (h : s.Gained s' config km) : ∃ D : KeymapId → Prop,
    s'.Served km D (Config.outcome config) ∧ s'.Supported [km] D ∧
      (∀ id : Nat, D id → s.next ≤ id) ∧ (∀ id, D id → s'.Owns km id) ∧
      ∀ members, config = .object members → Config.Plain members →
        ∃ t, s'.Grown km t (Config.outcome config) ∧ ∀ id, t.Mem id → D id := by
  obtain ⟨s₀, s₁, le, compiled, agree⟩ := h
  have served := served_of_compile compiled
  have same (id : KeymapId) (ho : s₁.Owns km id) : s'.keymap? id = s₁.keymap? id :=
    agree id (lt_next_of_alive (served.encloses.alive id ho))
  refine ⟨s₁.Owns km, served.of_agree same, ?_, ?_, fun id ho => Retains.owns same ho, ?_⟩
  · exact (supported_owns List.mem_cons_self).of_agree same
  · exact fun id ho => Nat.le_trans le (le_of_owns compiled ho)
  · rintro members rfl plain
    obtain ⟨t, grown, mem⟩ := grown_of_compile plain compiled
    exact ⟨t, grown.of_agree fun id hid => same id (mem id hid), mem⟩

end Store

namespace KeymapLayers

/-- The configurations of some layers for a mode, in order. -/
def configs (mode : Mode) (layers : List (String × KeymapLayers)) : List Json :=
  layers.filterMap fun layer => layer.2.get? mode

theorem configs_cons_of_none {mode : Mode} {layers : KeymapLayers} (h : layers.get? mode = none)
    (name : String) (rest : List (String × KeymapLayers)) :
    configs mode ((name, layers) :: rest) = configs mode rest :=
  List.filterMap_cons_none h

theorem configs_cons_of_some {mode : Mode} {layers : KeymapLayers} {config : Json}
    (h : layers.get? mode = some config) (name : String) (rest : List (String × KeymapLayers)) :
    configs mode ((name, layers) :: rest) = config :: configs mode rest :=
  List.filterMap_cons_some h

/-- The configurations for some modes are loaded one after the other. -/
inductive Loads (layers : KeymapLayers) : List Mode → Store (Action σ) → List (Mode × KeymapId) →
    Store (Action σ) → Prop
  | nil {s : Store (Action σ)} : Loads layers [] s [] s
  | skip {mode : Mode} {rest : List Mode} {s s' : Store (Action σ)}
      {keymaps : List (Mode × KeymapId)} : layers.get? mode = none →
      Loads layers rest s keymaps s' → Loads layers (mode :: rest) s keymaps s'
  | load {mode : Mode} {rest : List Mode} {s s₁ s' : Store (Action σ)} {config : Json}
      {km : KeymapId} {keymaps : List (Mode × KeymapId)} : layers.get? mode = some config →
      s.compile config = .ok (km, s₁) → Loads layers rest (s₁.hold km) keymaps s' →
      Loads layers (mode :: rest) s ((mode, km) :: keymaps) s'

/-- Loads the configuration for one more mode. -/
def loadNext (layers : KeymapLayers) (layer : String) :
    List (Mode × KeymapId) × List LayerError × Store (Action σ) → Mode →
    List (Mode × KeymapId) × List LayerError × Store (Action σ)
  | (keymaps, errors, s), mode =>
    match layers.get? mode with
    | none => (keymaps, errors, s)
    | some config =>
      match s.load config with
      | .ok (km, s) => (keymaps ++ [(mode, km)], errors, s)
      | .error error => (keymaps, errors ++ [⟨layer, mode, error⟩], s)

theorem compile_eq_foldl (layers : KeymapLayers) (layer : String) (s : Store (Action σ)) :
    layers.compile layer s = modes.foldl (layers.loadNext layer) ([], [], s) := rfl

theorem loads_of_foldl {layers : KeymapLayers} {layer : String} {rest : List Mode}
    {keymaps keymaps' : List (Mode × KeymapId)} {errors : List LayerError}
    {s s' : Store (Action σ)}
    (h : rest.foldl (layers.loadNext layer) (keymaps, errors, s) = (keymaps', [], s')) :
    errors = [] ∧ ∃ new, keymaps' = keymaps ++ new ∧ Loads layers rest s new s' := by
  induction rest generalizing keymaps errors s with
  | nil =>
      cases h
      exact ⟨rfl, [], (List.append_nil _).symm, .nil⟩
  | cons mode rest ih =>
      rw [List.foldl_cons, loadNext] at h
      cases hc : layers.get? mode with
      | none =>
          rw [hc] at h
          obtain ⟨none, new, heq, loads⟩ := ih h
          exact ⟨none, new, heq, .skip hc loads⟩
      | some config =>
          rw [hc] at h
          dsimp only at h
          split at h
          · next km s₁ hl =>
              obtain ⟨⟨root, s₂⟩, compiled, hl⟩ := Config.bind_eq_ok hl
              cases hl
              obtain ⟨none, new, heq, loads⟩ := ih h
              refine ⟨none, (mode, km) :: new, ?_, .load hc compiled loads⟩
              rw [heq, List.append_assoc]
              rfl
          · have := (ih h).1
            simp at this

/-- If a layer compiles without errors, each of its configurations has been loaded. -/
theorem loads_of_compile {layers : KeymapLayers} {layer : String} {s s' : Store (Action σ)}
    {keymaps : List (Mode × KeymapId)} (h : layers.compile layer s = (keymaps, [], s')) :
    Loads layers modes s keymaps s' := by
  obtain ⟨-, new, rfl, loads⟩ := loads_of_foldl (layers.compile_eq_foldl layer s ▸ h)
  exact loads

variable {layers : KeymapLayers} {rest : List Mode} {s s' : Store (Action σ)}
  {keymaps : List (Mode × KeymapId)}

theorem Loads.extends (h : Loads layers rest s keymaps s') :
    s.next ≤ s'.next ∧ ∀ id : Nat, id < s.next → s'.keymap? id = s.keymap? id := by
  induction h with
  | nil => exact ⟨Nat.le_refl _, fun _ _ => rfl⟩
  | skip _ _ ih => exact ih
  | load _ compiled _ ih =>
      have ext := Store.extends_of_compile compiled
      exact ⟨Nat.le_trans ext.next ih.1, fun id lt =>
        (ih.2 id (Nat.lt_of_lt_of_le lt ext.next)).trans (ext.keymap? id lt)⟩

theorem Loads.fst_mem (h : Loads layers rest s keymaps s') {p : Mode × KeymapId}
    (hp : p ∈ keymaps) : p.1 ∈ rest ∧ (layers.get? p.1).isSome := by
  induction h with
  | nil => cases hp
  | skip _ _ ih => exact (ih hp).imp_left (List.mem_cons_of_mem _)
  | load hc _ _ ih =>
      rcases List.mem_cons.1 hp with rfl | hp
      · exact ⟨List.mem_cons_self, Option.isSome_of_eq_some hc⟩
      · exact (ih hp).imp_left (List.mem_cons_of_mem _)

/-- The configuration for a mode is loaded between those for other modes. -/
theorem Loads.split (h : Loads layers rest s keymaps s') (nodup : rest.Nodup) {mode : Mode}
    (hm : mode ∈ rest) {config : Json} (hc : layers.get? mode = some config) :
    ∃ before after km, keymaps = before ++ (mode, km) :: after ∧ s.Gained s' config km ∧
      ∀ p ∈ before ++ after, p.1 ≠ mode := by
  induction h with
  | nil => cases hm
  | @skip other _ _ _ _ hc' _ ih =>
      rw [List.nodup_cons] at nodup
      have hne : mode ≠ other := by
        rintro rfl
        cases hc.symm.trans hc'
      exact ih nodup.2 ((List.mem_cons.1 hm).resolve_left hne)
  | @load other _ s₀ s₁ _ _ km after hc' compiled loads ih =>
      rw [List.nodup_cons] at nodup
      rcases List.mem_cons.1 hm with rfl | hm
      · cases hc.symm.trans hc'
        refine ⟨[], after, km, rfl, ⟨s₀, s₁, Nat.le_refl _, compiled, loads.extends.2⟩, ?_⟩
        rintro p hp rfl
        exact nodup.1 (loads.fst_mem hp).1
      · obtain ⟨before, after, km', rfl, ⟨s₂, s₃, le, gained⟩, others⟩ := ih nodup.2 hm
        refine ⟨(other, km) :: before, after, km', rfl, ⟨s₂, s₃, ?_, gained⟩, ?_⟩
        · exact Nat.le_trans (Store.extends_of_compile compiled).next le
        · refine List.forall_mem_cons.2 ⟨?_, others⟩
          rintro rfl
          exact nodup.1 hm

end KeymapLayers

namespace Editor

open KeyTree

/-! ## Small steps -/

theorem held_modal_subset (e : Editor σ) (mode : Mode) : (e.modal mode).held ⊆ e.held := by
  intro id hid
  exact List.mem_flatMap.2 ⟨mode, by cases mode <;> decide, hid⟩

theorem keymap?_release {e : Editor σ} {roots : List KeymapId} {L : KeymapId → Prop}
    (hL : e.store.Supported roots L) (sub : roots ⊆ e.store.handles ++ e.held) {id : KeymapId}
    (hid : L id) : e.release.store.keymap? id = e.store.keymap? id :=
  (hL.mono sub).keymap?_release hid

/-- Merges a loaded keymap into the root keymap of its mode, and gives up the handle. -/
def take (e : Editor σ) (p : Mode × KeymapId) : Editor σ := (e.updateKeymap p.1 p.2).drop p.2

theorem mergeLayer_eq (e : Editor σ) (name : String) (layers : KeymapLayers) :
    e.mergeLayer name layers =
      ((layers.compile name e.store).1.foldl take
        { e with store := (layers.compile name e.store).2.2 }, (layers.compile name e.store).2.1) :=
  rfl

/-- Before anything is released. -/
def merged (e : Editor σ) (mode : Mode) (root km : KeymapId) : Editor σ :=
  { e with store := e.store.merge (km :: (e.modal mode).held ++ e.held) root km }.modify mode
    fun modal => modal.mapMatcher fun matcher => { matcher with layers := km :: matcher.layers }

theorem updateKeymap_eq {e : Editor σ} {mode : Mode} {root : KeymapId}
    (h : (e.modal mode).root? = some root) (km : KeymapId) :
    e.updateKeymap mode km = (e.merged mode root km).release := by
  rw [updateKeymap, Modal.updateKeymap, h, merged]
  cases mode <;> rfl

/-- A mode that has no keymaps takes in none. -/
theorem updateKeymap_of_none {e : Editor σ} {mode : Mode} (h : (e.modal mode).root? = none)
    (km : KeymapId) : e.updateKeymap mode km = e.release := by
  rw [updateKeymap, Modal.updateKeymap, h]
  cases mode <;> rfl

@[simp] theorem store_merged (e : Editor σ) (mode : Mode) (root km : KeymapId) :
    (e.merged mode root km).store =
      e.store.merge (km :: (e.modal mode).held ++ e.held) root km := by
  cases mode <;> rfl

theorem modal_merged (e : Editor σ) (mode : Mode) (root km : KeymapId) (other : Mode) :
    (e.merged mode root km).modal other =
      if other = mode then
        (e.modal other).mapMatcher fun matcher => { matcher with layers := km :: matcher.layers }
      else e.modal other := by
  cases mode <;> cases other <;> rfl

/-! ## Regions of modes -/

/-- A keymap has been loaded for a mode, and is in the region `K` if that is the region of its mode. -/
structure Loaded (e : Editor σ) (mode : Mode) (K : KeymapId → Prop) (p : Mode × KeymapId) : Prop where
  mem : p.1 ∈ KeymapLayers.modes
  inside : K p.2 ↔ p.1 = mode
  held : p.2 ∈ e.store.handles
  lt : (p.2 : Nat) < e.store.next

/-- The keymaps of a mode are a region, and some keymaps have been loaded for the modes. -/
structure Divided (e : Editor σ) (mode : Mode) (K : KeymapId → Prop)
    (pending : List (Mode × KeymapId)) : Prop where
  region : e.store.Region K
  lt : ∀ id : Nat, K id → id < e.store.next
  root : ∀ other ∈ KeymapLayers.modes, ∃ root, (e.modal other).root? = some root ∧
    (root : Nat) < e.store.next ∧ (K root ↔ other = mode)
  loaded : ∀ p ∈ pending, e.Loaded mode K p
  nodup : (pending.map (·.2)).Nodup

/-- What a mode holds is not changed, as far as it is in the region of the mode. -/
structure Passes (mode : Mode) (K : KeymapId → Prop) (handles : List KeymapId) (e e' : Editor σ) :
    Prop where
  modal : e'.modal mode = e.modal mode
  keymap? : ∀ L : KeymapId → Prop, e.store.Supported ((e.modal mode).held ++ handles) L →
    (∀ id, L id → K id) → ∀ id, L id → e'.store.keymap? id = e.store.keymap? id

variable {e e' e₁ e₂ : Editor σ} {mode other : Mode} {K : KeymapId → Prop}
  {handles : List KeymapId} {pending rest : List (Mode × KeymapId)} {km : KeymapId}

theorem Passes.refl (mode : Mode) (K : KeymapId → Prop) (handles : List KeymapId) (e : Editor σ) :
    Passes mode K handles e e := ⟨rfl, fun _ _ _ _ _ => rfl⟩

theorem Passes.mono {more : List KeymapId} (sub : handles ⊆ more) (h : Passes mode K more e e') :
    Passes mode K handles e e' where
  modal := h.modal
  keymap? L hL := h.keymap? L (hL.mono fun _ hx =>
    List.mem_append.2 ((List.mem_append.1 hx).imp_right fun hx => sub hx))

theorem Passes.trans (h₁ : Passes mode K handles e e₁) (h₂ : Passes mode K handles e₁ e₂) :
    Passes mode K handles e e₂ where
  modal := h₂.modal.trans h₁.modal
  keymap? L hL sub id hid := by
    have agree := h₁.keymap? L hL sub
    refine (h₂.keymap? L ?_ sub id hid).trans (agree id hid)
    rw [h₁.modal]
    exact hL.of_agree agree

/-- A configuration is loaded. -/
theorem Divided.load (h : e.Divided mode K pending) (hm : other ∈ KeymapLayers.modes)
    {config : Json} {s : Store (Action σ)} (compiled : e.store.compile config = .ok (km, s)) :
    { e with store := s.hold km }.Divided mode
      (fun id : Nat => K id ∨ other = mode ∧ e.store.next ≤ id ∧ id < s.next)
      (pending ++ [(other, km)]) := by
  have ext := Store.extends_of_compile compiled
  have new : km = e.store.next := Store.eq_next_of_compile compiled
  have below : e.store.next < s.next := by
    have alive := (Store.served_of_compile compiled).encloses.alive km .self
    rw [new] at alive
    exact Store.lt_next_of_alive alive
  have old (id : Nat) (lt : id < e.store.next) :
      (K id ∨ other = mode ∧ e.store.next ≤ id ∧ id < s.next) ↔ K id :=
    or_iff_left fun hn => Nat.not_le_of_lt lt hn.2.1
  have fresh (id : Nat) (ge : e.store.next ≤ id) (lt : id < s.next) :
      (K id ∨ other = mode ∧ e.store.next ≤ id ∧ id < s.next) ↔ other = mode := by
    rw [or_iff_right fun hK => Nat.not_lt_of_le ge (h.lt id hK)]
    exact and_iff_left ⟨ge, lt⟩
  constructor
  · exact (h.region.compile compiled (other = mode) old fresh).of_slots (fun _ _ _ hs => hs) rfl
  · rintro id (hK | hn)
    · exact Nat.lt_of_lt_of_le (h.lt id hK) ext.next
    · exact hn.2.2
  · intro m hm
    obtain ⟨root, hr, lt, hK⟩ := h.root m hm
    exact ⟨root, hr, Nat.lt_of_lt_of_le lt ext.next, (old root lt).trans hK⟩
  · intro p hp
    rcases List.mem_append.1 hp with hp | hp
    · obtain ⟨mem, inside, held, lt⟩ := h.loaded p hp
      refine ⟨mem, (old _ lt).trans inside, List.mem_cons_of_mem _ ?_, Nat.lt_of_lt_of_le lt ext.next⟩
      rw [ext.handles]
      exact held
    · cases List.mem_singleton.1 hp
      refine ⟨hm, ?_, List.mem_cons_self, new ▸ below⟩
      rw [new]
      exact fresh _ (Nat.le_refl _) below
  · rw [List.map_append, List.nodup_append]
    refine ⟨h.nodup, List.nodup_singleton _, ?_⟩
    rintro id hid _ hkm rfl
    obtain ⟨p, hp, rfl⟩ := List.mem_map.1 hid
    have : p.2 = km := by simpa using hkm
    exact Nat.ne_of_lt (h.loaded p hp).lt (this.trans new)

theorem Divided.loads {layers : KeymapLayers} {modes : List Mode} {s s' : Store (Action σ)}
    {keymaps : List (Mode × KeymapId)} (loads : KeymapLayers.Loads layers modes s keymaps s')
    (sub : modes ⊆ KeymapLayers.modes) (hs : e.store = s) (h : e.Divided mode K pending) :
    ∃ K' : KeymapId → Prop, (∀ id : Nat, id < s.next → (K' id ↔ K id)) ∧
      { e with store := s' }.Divided mode K' (pending ++ keymaps) := by
  induction loads generalizing e K pending with
  | nil =>
      subst hs
      exact ⟨K, fun _ _ => Iff.rfl, by rwa [List.append_nil]⟩
  | skip _ _ ih => exact ih (List.subset_of_cons_subset sub) hs h
  | @load other rest s s₁ s' config km keymaps _ compiled _ ih =>
      subst hs
      obtain ⟨K', old, divided⟩ := ih (List.subset_of_cons_subset sub) (e := { e with store := s₁.hold km })
        rfl (h.load (sub List.mem_cons_self) compiled)
      rw [List.append_assoc] at divided
      refine ⟨K', fun id lt => ?_, divided⟩
      rw [old id (Nat.lt_of_lt_of_le lt (Store.extends_of_compile compiled).next)]
      exact or_iff_left fun new => Nat.not_le_of_lt lt new.2.1

/-! ## Merging what has been loaded -/

theorem take_eq {root : KeymapId} (h : (e.modal other).root? = some root) (km : KeymapId) :
    e.take (other, km) = (e.merged other root km).release.drop km := by
  rw [take, updateKeymap_eq h]

theorem modal_take {root : KeymapId} (h : (e.modal other).root? = some root) (km : KeymapId)
    (mode : Mode) : (e.take (other, km)).modal mode = (e.merged other root km).modal mode := by
  rw [take_eq h]
  cases mode <;> rfl

theorem root?_take {root r : KeymapId} (h : (e.modal other).root? = some root)
    (hr : (e.modal mode).root? = some r) (km : KeymapId) :
    ((e.take (other, km)).modal mode).root? = some r := by
  rw [modal_take h, modal_merged]
  split
  · exact Modal.root?_mapMatcher hr fun _ => rfl
  · exact hr

/-- The handles to the other keymaps are still there. -/
theorem Divided.mem_erase (h : e.Divided mode K ((other, km) :: rest)) {p : Mode × KeymapId}
    (hp : p ∈ rest) : p.2 ∈ e.store.handles.erase km := by
  refine (List.mem_erase_of_ne ?_).2 (h.loaded p (List.mem_cons_of_mem _ hp)).held
  rintro rfl
  exact (List.nodup_cons.1 h.nodup).1 (List.mem_map.2 ⟨p, hp, rfl⟩)

theorem handles_take (e : Editor σ) (other : Mode) (km : KeymapId) :
    (e.take (other, km)).store.handles = e.store.handles.erase km := by
  have updated : (e.updateKeymap other km).store.handles = e.store.handles := by
    cases hr : (e.modal other).root? with
    | none =>
        rw [updateKeymap_of_none hr]
        exact Store.handles_release _ _
    | some root =>
        rw [updateKeymap_eq hr]
        refine (Store.handles_release _ _).trans ?_
        rw [store_merged, Store.handles_merge]
  exact (Store.handles_release _ _).trans (congrArg (List.erase · km) updated)

theorem next_take {root : KeymapId} (h : (e.modal other).root? = some root) (km : KeymapId) :
    (e.take (other, km)).store.next = e.store.next := by
  rw [take_eq h]
  refine (Store.next_release _ _).trans ((Store.next_release _ _).trans ?_)
  rw [store_merged, Store.next_merge]

/-- Merging a loaded keymap keeps to the region that it is in. -/
theorem Divided.take (h : e.Divided mode K ((other, km) :: rest)) :
    (e.take (other, km)).Divided mode K rest := by
  have loaded := h.loaded _ List.mem_cons_self
  obtain ⟨root, hr, -, hroot⟩ := h.root other loaded.mem
  have region := (h.region.merge (hroot.trans loaded.inside.symm)
    (km :: (e.modal other).held ++ e.held)).1
  have handles := e.handles_take other km
  have next := next_take hr km
  refine ⟨?_, ?_, ?_, ?_, (List.nodup_cons.1 h.nodup).2⟩
  · rw [take_eq hr]
    refine Store.Region.release (s := (e.merged other root km).release.store.drop km) ?_ _
    rw [← store_merged] at region
    exact (region.release _).of_slots (fun _ _ _ hs => hs) rfl
  · rw [next]
    exact h.lt
  · intro m hm
    obtain ⟨r, hr', lt, hK⟩ := h.root m hm
    exact ⟨r, root?_take hr hr' km, next ▸ lt, hK⟩
  · intro p hp
    have loaded := h.loaded p (List.mem_cons_of_mem _ hp)
    exact ⟨loaded.mem, loaded.inside, handles ▸ h.mem_erase hp, next ▸ loaded.lt⟩

/-- What the modals hold, or a handle that has not been given up, outlasts the merge. -/
theorem keymap?_take {root : KeymapId} (h : (e.modal other).root? = some root) {roots : List KeymapId}
    {L : KeymapId → Prop} (hL : (e.merged other root km).store.Supported roots L)
    (sub : roots ⊆ e.store.handles.erase km ++ (e.merged other root km).held) (id : KeymapId)
    (hid : L id) :
    (e.take (other, km)).store.keymap? id = (e.merged other root km).store.keymap? id := by
  have handles : (e.merged other root km).store.handles = e.store.handles := by
    rw [store_merged, Store.handles_merge]
  have first (id : KeymapId) (hid : L id) := by
    refine keymap?_release hL (List.Subset.trans sub ?_) hid
    rw [handles]
    intro x hx
    exact List.mem_append.2 ((List.mem_append.1 hx).imp_left List.mem_of_mem_erase)
  rw [take_eq h]
  refine Eq.trans ?_ (first id hid)
  refine keymap?_release (e := { (e.merged other root km).release with
    store := (e.merged other root km).release.store.drop km }) (hL.of_agree first)
    (List.Subset.trans sub ?_) hid
  rw [← handles, ← Store.handles_release]
  exact List.Subset.refl _

/-- What is merged into another mode changes nothing that the mode holds. -/
theorem Divided.passes_take (h : e.Divided mode K ((other, km) :: rest)) (hne : other ≠ mode) :
    Passes mode K (rest.map (·.2)) e (e.take (other, km)) := by
  have loaded := h.loaded _ List.mem_cons_self
  obtain ⟨root, hr, -, hroot⟩ := h.root other loaded.mem
  have same : (e.merged other root km).modal mode = e.modal mode := by
    rw [modal_merged, if_neg hne.symm]
  have pending : rest.map (·.2) ⊆ e.store.handles.erase km := by
    rintro _ hid
    obtain ⟨p, hp, rfl⟩ := List.mem_map.1 hid
    exact h.mem_erase hp
  refine ⟨(modal_take hr km mode).trans same, fun L hL inside => ?_⟩
  have agree : ∀ id, L id → (e.merged other root km).store.keymap? id = e.store.keymap? id := by
    rw [store_merged]
    refine (h.region.merge (hroot.trans loaded.inside.symm) _).2 L (hL.mono ?_) fun id hid => ?_
    · intro id hid
      rcases List.mem_append.1 hid with hid | hid
      · exact List.mem_append_right _ (List.mem_append_right _ (e.held_modal_subset mode hid))
      · exact List.mem_append_left _ (List.mem_of_mem_erase (pending hid))
    · exact iff_of_true (inside id hid) fun hK => hne (hroot.1 hK)
  intro id hid
  refine (keymap?_take hr (hL.of_agree agree) ?_ id hid).trans (agree id hid)
  intro x hx
  rcases List.mem_append.1 hx with hx | hx
  · exact List.mem_append_right _ (held_modal_subset _ mode (same ▸ hx))
  · exact List.mem_append_left _ (pending hx)

/-- The keymaps of other modes are merged one after the other. -/
theorem Divided.foldl_take {others : List (Mode × KeymapId)}
    (h : e.Divided mode K (others ++ rest)) (hne : ∀ p ∈ others, p.1 ≠ mode) :
    (others.foldl Editor.take e).Divided mode K rest ∧
      Passes mode K (rest.map (·.2)) e (others.foldl Editor.take e) := by
  induction others generalizing e with
  | nil => exact ⟨h, .refl _ _ _ _⟩
  | cons p others ih =>
      obtain ⟨ne, hne⟩ := List.forall_mem_cons.1 hne
      obtain ⟨divided, passes⟩ := ih h.take hne
      refine ⟨divided, (Passes.mono ?_ (h.passes_take ne)).trans passes⟩
      exact List.map_subset _ (List.subset_append_right others rest)

/-! ## What a mode serves -/

/-- The keys of a mode come to what `f` says, by way of keymaps that the mode holds. -/
structure Serves (e : Editor σ) (mode : Mode) (K : KeymapId → Prop) (root : KeymapId)
    (J : KeymapId → Prop) (f : List Char → Option (Outcome σ)) : Prop where
  root? : (e.modal mode).root? = some root
  served : e.store.Served root J f
  inside : ∀ id, J id → K id
  supported : e.store.Supported (e.modal mode).held J

/-- The keys of a mode come to what `f` says, down a tree. -/
structure Grows (e : Editor σ) (mode : Mode) (K : KeymapId → Prop) (root : KeymapId)
    (t : KeyTree (Action σ)) (f : List Char → Option (Outcome σ)) : Prop where
  root? : (e.modal mode).root? = some root
  grown : e.store.Grown root t f
  inside : ∀ id, t.Mem id → K id

variable {root : KeymapId} {J D : KeymapId → Prop} {t u : KeyTree (Action σ)}
  {f g : List Char → Option (Outcome σ)} {K' : KeymapId → Prop}

theorem Grows.supported (h : e.Grows mode K root t f) :
    e.store.Supported (e.modal mode).held t.Mem :=
  h.grown.supported (Modal.root_mem_held h.root?)

theorem Grows.serves (h : e.Grows mode K root t f) : e.Serves mode K root t.Mem f :=
  ⟨h.root?, h.grown.served, h.inside, h.supported⟩

theorem Serves.of_passes (h : e.Serves mode K root J f) (passes : Passes mode K handles e e')
    (more : ∀ id, K id → K' id) : e'.Serves mode K' root J f := by
  have agree := passes.keymap? J (h.supported.mono (List.subset_append_left _ _)) h.inside
  refine ⟨passes.modal ▸ h.root?, h.served.of_agree agree, fun id hid => more id (h.inside id hid), ?_⟩
  rw [passes.modal]
  exact h.supported.of_agree agree

theorem Grows.of_passes (h : e.Grows mode K root t f) (passes : Passes mode K handles e e')
    (more : ∀ id, K id → K' id) : e'.Grows mode K' root t f := by
  have agree := passes.keymap? _ (h.supported.mono (List.subset_append_left _ _)) h.inside
  exact ⟨passes.modal ▸ h.root?, h.grown.of_agree agree, fun id hid => more id (h.inside id hid)⟩

section Take

theorem held_modal_merged (h : (e.modal mode).root? = some root) (km : KeymapId) :
    [root, km] ⊆ ((e.merged mode root km).modal mode).held := by
  obtain ⟨matcher, hm, rfl⟩ := Option.map_eq_some_iff.1 h
  rw [modal_merged, if_pos rfl, Modal.held, Modal.matcher?_mapMatcher, hm]
  intro x hx
  rcases List.mem_pair.1 hx with rfl | rfl
  · exact List.mem_cons_self
  · exact List.mem_append_right _ List.mem_cons_self

/-- What the root of a mode leads to is held after the merge. -/
theorem keymap?_take_of_held {L : KeymapId → Prop} (km : KeymapId)
    (h : (e.modal mode).root? = some root)
    (hL : (e.merged mode root km).store.Supported [root, km] L) (id : KeymapId) (hid : L id) :
    (e.take (mode, km)).store.keymap? id =
      (e.store.merge (km :: (e.modal mode).held ++ e.held) root km).keymap? id := by
  rw [← store_merged]
  refine keymap?_take h hL ?_ id hid
  intro x hx
  exact List.mem_append_right _ (held_modal_subset _ mode (held_modal_merged h km hx))

/-- The mode takes in a keymap of its own. -/
theorem Grows.serves_take (hg : e.Grows mode K root t g) (hf : e.store.Served km D f)
    (hD : e.store.Supported [km] D) (apart : ∀ id, t.Mem id → ¬D id)
    (inside : ∀ id, D id → K id) :
    (e.take (mode, km)).Serves mode K root (fun id => (overlay e.store km t).Mem id ∨ D id)
      (Outcome.above f g) := by
  have supp : e.store.Supported (e.store.handles ++ (km :: (e.modal mode).held ++ e.held)) D :=
    hD.mono (by simp)
  have served := hg.grown.served_merge hf supp apart
  have supported : (e.store.merge (km :: (e.modal mode).held ++ e.held) root km).Supported [root, km]
      fun id => (overlay e.store km t).Mem id ∨ D id :=
    hg.grown.supported_merge hf supp apart List.mem_cons_self (hD.mono (by simp))
  have agree := keymap?_take_of_held km hg.root? (by rwa [store_merged])
  refine ⟨root?_take hg.root? hg.root? km, served.of_agree agree, ?_, ?_⟩
  · rintro id (hid | hid)
    · exact hg.inside id (mem_of_mem_overlay hid)
    · exact inside id hid
  · rw [modal_take hg.root?]
    exact (supported.of_agree agree).mono (held_modal_merged hg.root? km)

/-- The keymap is the topmost one of a tree. -/
theorem Grows.take (hg : e.Grows mode K root t g) (hu : e.store.Grown km u f)
    (hD : e.store.Supported [km] u.Mem) (apart : ∀ id, t.Mem id → ¬u.Mem id)
    (inside : ∀ id, u.Mem id → K id) :
    (e.take (mode, km)).Grows mode K root (t.merge u) (Outcome.above f g) := by
  have supp : e.store.Supported (e.store.handles ++ (km :: (e.modal mode).held ++ e.held)) u.Mem :=
    hD.mono (by simp)
  have grown := hg.grown.merge hu supp apart
  have supported : (e.store.merge (km :: (e.modal mode).held ++ e.held) root km).Supported [root, km]
      (t.merge u).Mem := grown.supported List.mem_cons_self
  have agree := keymap?_take_of_held km hg.root? (by rwa [store_merged])
  refine ⟨root?_take hg.root? hg.root? km, grown.of_agree agree, fun id hid => ?_⟩
  rcases mem_merge hid with hid | hid
  · exact hg.inside id hid
  · exact inside id hid

end Take

/-! ## Whole layers -/

/-- A layer is compiled. Nothing that was there before is changed. -/
theorem Divided.exists_loads (h : e.Divided mode K []) {name : String} {layers : KeymapLayers}
    (ok : (e.mergeLayer name layers).2 = []) :
    ∃ (keymaps : List (Mode × KeymapId)) (s : Store (Action σ)) (K' : KeymapId → Prop),
      (e.mergeLayer name layers).1 = keymaps.foldl Editor.take { e with store := s } ∧
      KeymapLayers.Loads layers KeymapLayers.modes e.store keymaps s ∧
      (∀ id : Nat, id < e.store.next → (K' id ↔ K id)) ∧
      { e with store := s }.Divided mode K' keymaps ∧
      Passes mode K [] e { e with store := s } := by
  rw [mergeLayer_eq] at ok ⊢
  generalize hc : layers.compile name e.store = compiled at ok ⊢
  obtain ⟨keymaps, errors, s⟩ := compiled
  cases ok
  have loads := KeymapLayers.loads_of_compile hc
  obtain ⟨K', old, divided⟩ := h.loads loads (List.Subset.refl _) rfl
  refine ⟨keymaps, s, K', rfl, loads, old, divided, rfl, fun L _ inside id hid => ?_⟩
  exact loads.extends.2 id (h.lt id (inside id hid))

/-- A layer without a configuration for the mode. -/
theorem Divided.passes_mergeLayer (h : e.Divided mode K []) {name : String} {layers : KeymapLayers}
    (ok : (e.mergeLayer name layers).2 = []) (none : layers.get? mode = none) :
    ∃ K' : KeymapId → Prop, (∀ id, K id → K' id) ∧
      (e.mergeLayer name layers).1.Divided mode K' [] ∧
      Passes mode K [] e (e.mergeLayer name layers).1 := by
  obtain ⟨keymaps, s, K', heq, loads, old, divided, passes⟩ := h.exists_loads ok
  have more (id : KeymapId) (hid : K id) : K' id := (old id (h.lt id hid)).2 hid
  rw [heq]
  rw [← List.append_nil keymaps] at divided
  obtain ⟨divided, passes'⟩ := divided.foldl_take fun p hp hm => by
    have := (loads.fst_mem hp).2
    rw [hm, none] at this
    cases this
  refine ⟨K', more, divided, passes.trans ⟨passes'.modal, fun L hL inside => ?_⟩⟩
  exact passes'.keymap? L hL fun id hid => more id (inside id hid)

/-- A layer with a configuration for the mode, which is laid over what the mode serves. -/
theorem Grows.mergeLayer (hg : e.Grows mode K root t g) (h : e.Divided mode K [])
    (hm : mode ∈ KeymapLayers.modes) {name : String} {layers : KeymapLayers} {config : Json}
    (ok : (e.mergeLayer name layers).2 = []) (hc : layers.get? mode = some config) :
    ∃ K' : KeymapId → Prop, (e.mergeLayer name layers).1.Divided mode K' [] ∧
      (∃ J, (e.mergeLayer name layers).1.Serves mode K' root J
        (Outcome.above (Config.outcome config) g)) ∧
      ∀ members, config = .object members → Config.Plain members →
        ∃ t', (e.mergeLayer name layers).1.Grows mode K' root t'
          (Outcome.above (Config.outcome config) g) := by
  obtain ⟨keymaps, s, K', heq, loads, old, divided, passes⟩ := h.exists_loads ok
  have more (id : KeymapId) (hid : K id) : K' id := (old id (h.lt id hid)).2 hid
  rw [heq]
  obtain ⟨before, after, km, rfl, gained, others⟩ := loads.split (by decide) hm hc
  rw [List.foldl_append, List.foldl_cons]
  obtain ⟨D, served, supported, new, owns, plain⟩ := gained.exists_served
  obtain ⟨others, others'⟩ := List.forall_mem_append.1 others
  have loaded := divided.loaded _ (List.mem_append_right before List.mem_cons_self)
  have inside (id : KeymapId) (hid : D id) : K' id :=
    divided.region.of_owns (loaded.inside.2 rfl) (owns id hid)
  have apart (id : KeymapId) (hid : t.Mem id) (hid' : D id) : False :=
    Nat.not_lt_of_le (new id hid') (h.lt id (hg.inside id hid))
  -- the keymaps of other modes are merged before and after the one of the mode
  obtain ⟨divided₁, passes₁⟩ := divided.foldl_take others
  have agree := passes₁.keymap? D
    (supported.mono (by simp)) inside
  have hg₁ := (hg.of_passes passes more).of_passes passes₁ fun _ hid => hid
  generalize before.foldl Editor.take _ = e₁ at divided₁ agree hg₁
  have divided₂ := divided₁.take
  rw [← List.append_nil after] at divided₂
  obtain ⟨divided₃, passes₃⟩ := divided₂.foldl_take others'
  have serves := hg₁.serves_take (served.of_agree agree) (supported.of_agree agree) apart inside
  refine ⟨K', divided₃, ⟨_, serves.of_passes passes₃ fun _ hid => hid⟩, ?_⟩
  intro members hobj hplain
  obtain ⟨u, hu, sub⟩ := plain members hobj hplain
  replace hu := hu.of_agree fun id hid => agree id (sub id hid)
  have grows := hg₁.take hu (hu.supported List.mem_cons_self)
    (fun id hid hid' => apart id hid (sub id hid')) fun id hid => inside id (sub id hid)
  exact ⟨_, grows.of_passes passes₃ fun _ hid => hid⟩

theorem mergeLayers_cons (e : Editor σ) (name : String) (layers : KeymapLayers)
    (rest : List (String × KeymapLayers)) : e.mergeLayers ((name, layers) :: rest) =
      (((e.mergeLayer name layers).1.mergeLayers rest).1,
        (e.mergeLayer name layers).2 ++ ((e.mergeLayer name layers).1.mergeLayers rest).2) := rfl

theorem mergeLayers_append (e : Editor σ) (first rest : List (String × KeymapLayers)) :
    e.mergeLayers (first ++ rest) = (((e.mergeLayers first).1.mergeLayers rest).1,
      (e.mergeLayers first).2 ++ ((e.mergeLayers first).1.mergeLayers rest).2) := by
  induction first generalizing e with
  | nil => rfl
  | cons layer first ih =>
      rw [List.cons_append, mergeLayers_cons, ih, mergeLayers_cons, List.append_assoc]

/-- Layers without a configuration for the mode. -/
theorem Serves.mergeLayers {layers : List (String × KeymapLayers)}
    (hs : e.Serves mode K root J f) (h : e.Divided mode K []) (ok : (e.mergeLayers layers).2 = [])
    (none : KeymapLayers.configs mode layers = []) :
    ∃ K' : KeymapId → Prop, (e.mergeLayers layers).1.Serves mode K' root J f := by
  induction layers generalizing e K with
  | nil => exact ⟨K, hs⟩
  | cons layer rest ih =>
      obtain ⟨name, layers⟩ := layer
      rw [mergeLayers_cons] at ok ⊢
      obtain ⟨ok, ok'⟩ := List.append_eq_nil_iff.1 ok
      cases hc : layers.get? mode with
      | none =>
          rw [KeymapLayers.configs_cons_of_none hc] at none
          obtain ⟨K', more, divided, passes⟩ := h.passes_mergeLayer ok hc
          exact ih (hs.of_passes passes more) divided ok' none
      | some config =>
          rw [KeymapLayers.configs_cons_of_some hc] at none
          cases none

/-- All layers, if those before the last one that has a configuration for the mode are plain. -/
theorem Grows.mergeLayers {layers : List (String × KeymapLayers)} (hg : e.Grows mode K root t g)
    (h : e.Divided mode K []) (hm : mode ∈ KeymapLayers.modes) (ok : (e.mergeLayers layers).2 = [])
    (plain : ∀ config ∈ (KeymapLayers.configs mode layers).dropLast,
      ∃ members, config = .object members ∧ Config.Plain members) :
    ∃ (K' J : KeymapId → Prop), (e.mergeLayers layers).1.Serves mode K' root J
      ((KeymapLayers.configs mode layers).foldl
        (fun ours config => Outcome.above (Config.outcome config) ours) g) := by
  induction layers generalizing e K t g with
  | nil => exact ⟨K, _, hg.serves⟩
  | cons layer rest ih =>
      obtain ⟨name, layers⟩ := layer
      rw [mergeLayers_cons] at ok ⊢
      obtain ⟨ok, ok'⟩ := List.append_eq_nil_iff.1 ok
      cases hc : layers.get? mode with
      | none =>
          rw [KeymapLayers.configs_cons_of_none hc] at plain ⊢
          obtain ⟨K', more, divided, passes⟩ := h.passes_mergeLayer ok hc
          exact ih (hg.of_passes passes more) divided ok' plain
      | some config =>
          rw [KeymapLayers.configs_cons_of_some hc] at plain ⊢
          obtain ⟨K', divided, ⟨J, serves⟩, grows⟩ := hg.mergeLayer h hm ok hc
          by_cases last : KeymapLayers.configs mode rest = []
          · obtain ⟨K'', serves⟩ := serves.mergeLayers divided ok' last
            rw [last]
            exact ⟨K'', J, serves⟩
          · rw [List.dropLast_cons_of_ne_nil last] at plain
            obtain ⟨⟨members, hobj, hplain⟩, plain⟩ := List.forall_mem_cons.1 plain
            obtain ⟨t', hg'⟩ := grows members hobj hplain
            exact ih hg' divided ok' plain

end Editor

end ModalKeys
