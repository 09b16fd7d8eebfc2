import ModalKeys.Proofs.Editor.History
import ModalKeys.Proofs.Keymap.MergingAlike

/-!
# Editors that are alike

Two editors are alike if their modals hold keymaps that are alike. Layers are compiled and merged in the
same way by both, with the same errors.
-/

namespace ModalKeys

variable {σ : Type} {ρ : Nat → Nat}

namespace KeymapLayers

/-- A layer compiles to keymaps that are alike, and to the same errors. -/
theorem alike_foldl_loadNext (layers : KeymapLayers) (name : String) (rest : List Mode)
    (keymaps : List (Mode × KeymapId)) (errors : List LayerError) {s t : Store (Action σ)}
    (h : s.Alike ρ t) : ∃ keymaps' errors' s' t',
      rest.foldl (layers.loadNext name) (keymaps, errors, s) = (keymaps', errors', s') ∧
      rest.foldl (layers.loadNext name) (keymaps.map fun p => (p.1, ρ p.2), errors, t) =
        (keymaps'.map fun p => (p.1, ρ p.2), errors', t') ∧ s'.Alike ρ t' := by
  induction rest generalizing keymaps errors s t with
  | nil => exact ⟨_, _, _, _, rfl, rfl, h⟩
  | cons mode rest ih =>
      rw [List.foldl_cons, List.foldl_cons]
      cases hc : layers.get? mode with
      | none =>
          rw [loadNext_of_none hc, loadNext_of_none hc]
          exact ih keymaps errors h
      | some config =>
          have accord := h.compile config
          generalize hs : s.compile config = x at accord
          generalize ht : t.compile config = y at accord
          cases accord with
          | error error =>
              rw [loadNext_of_error hc hs, loadNext_of_error hc ht]
              exact ih keymaps _ h
          | @ok r r' both =>
              obtain ⟨km, s₁⟩ := r
              obtain ⟨_, t₁⟩ := r'
              obtain ⟨alike, rfl⟩ := both
              rw [loadNext_of_ok hc hs, loadNext_of_ok hc ht]
              have := ih (keymaps ++ [(mode, km)]) errors (alike.hold km)
              rwa [List.map_append] at this

end KeymapLayers

namespace Editor

/-- The modals of both editors start at the same keymaps and hold the same ones, up to their numbers. -/
structure Alike (ρ : Nat → Nat) (e e' : Editor σ) : Prop where
  store : e.store.Alike ρ e'.store
  root? : ∀ mode, (e'.modal mode).root? = (e.modal mode).root?.map ρ
  held : ∀ mode id, ρ id ∈ (e'.modal mode).held ↔ id ∈ (e.modal mode).held

namespace Alike

variable {e e' : Editor σ}

theorem mem_held_iff (h : e.Alike ρ e') (id : Nat) : ρ id ∈ e'.held ↔ id ∈ e.held := by
  rw [Editor.held, Editor.held, List.mem_flatMap, List.mem_flatMap]
  exact exists_congr fun mode => and_congr_right fun _ => h.held mode id

theorem withStore (h : e.Alike ρ e') {s t : Store (Action σ)} (alike : s.Alike ρ t) :
    { e with store := s }.Alike ρ { e' with store := t } where
  store := alike
  root? mode := by
    rw [modal_withStore, modal_withStore]
    exact h.root? mode
  held mode := by
    rw [modal_withStore, modal_withStore]
    exact h.held mode

theorem release (h : e.Alike ρ e') : e.release.Alike ρ e'.release :=
  h.withStore (h.store.release h.mem_held_iff)

theorem drop (h : e.Alike ρ e') (km : Nat) : (e.drop km).Alike ρ (e'.drop (ρ km)) :=
  release (h.withStore (h.store.drop km))

theorem merged (h : e.Alike ρ e') {mode : Mode} {root : Nat}
    (hr : (e.modal mode).root? = some root) (km : Nat) :
    (e.merged mode root km).Alike ρ (e'.merged mode (ρ root) (ρ km)) := by
  have hr' : (e'.modal mode).root? = some (ρ root) := by rw [h.root?, hr, Option.map_some]
  refine ⟨?_, fun other => ?_, fun other id => ?_⟩
  · rw [store_merged, store_merged]
    refine h.store.merge (fun id => ?_) root km
    rw [List.mem_append, List.mem_cons, List.mem_append, List.mem_cons, h.held, h.mem_held_iff,
      h.store.eq_iff]
  · rw [modal_merged, modal_merged]
    split
    · next here =>
        subst here
        have left := Modal.root?_mapMatcher hr
          (f := fun matcher => { matcher with layers := km :: matcher.layers }) fun _ => rfl
        have right := Modal.root?_mapMatcher hr'
          (f := fun matcher => { matcher with layers := ρ km :: matcher.layers }) fun _ => rfl
        rw [left, right, Option.map_some]
    · exact h.root? other
  · rw [modal_merged, modal_merged]
    split
    · next here =>
        subst here
        rw [Modal.mem_held_cons_layer hr, Modal.mem_held_cons_layer hr', h.held, h.store.eq_iff]
    · exact h.held other id

theorem updateKeymap (h : e.Alike ρ e') (mode : Mode) (km : Nat) :
    (e.updateKeymap mode km).Alike ρ (e'.updateKeymap mode (ρ km)) := by
  cases hr : (e.modal mode).root? with
  | none =>
      have hr' : (e'.modal mode).root? = none := by rw [h.root?, hr, Option.map_none]
      rw [updateKeymap_of_none hr, updateKeymap_of_none hr']
      exact h.release
  | some root =>
      have hr' : (e'.modal mode).root? = some (ρ root) := by rw [h.root?, hr, Option.map_some]
      rw [updateKeymap_eq hr, updateKeymap_eq hr']
      exact (h.merged hr km).release

theorem foldl_take (h : e.Alike ρ e') (keymaps : List (Mode × KeymapId)) :
    (keymaps.foldl Editor.take e).Alike ρ
      ((keymaps.map fun p => (p.1, ρ p.2)).foldl Editor.take e') := by
  induction keymaps generalizing e e' with
  | nil => exact h
  | cons p rest ih => exact ih ((h.updateKeymap p.1 p.2).drop p.2)

theorem mergeLayer (h : e.Alike ρ e') (name : String) (layers : KeymapLayers) :
    (e.mergeLayer name layers).1.Alike ρ (e'.mergeLayer name layers).1 ∧
      (e'.mergeLayer name layers).2 = (e.mergeLayer name layers).2 := by
  obtain ⟨keymaps, errors, s, t, left, right, alike⟩ :=
    layers.alike_foldl_loadNext name KeymapLayers.modes [] [] h.store
  rw [mergeLayer_eq, mergeLayer_eq, layers.compile_eq_foldl, layers.compile_eq_foldl, left]
  rw [List.map_nil] at right
  rw [right]
  exact ⟨(h.withStore alike).foldl_take keymaps, rfl⟩

/-- Layers come to the same in both editors. -/
theorem mergeLayers (h : e.Alike ρ e') (layers : List (String × KeymapLayers)) :
    (e.mergeLayers layers).1.Alike ρ (e'.mergeLayers layers).1 ∧
      (e'.mergeLayers layers).2 = (e.mergeLayers layers).2 := by
  induction layers generalizing e e' with
  | nil => exact ⟨h, rfl⟩
  | cons layer rest ih =>
      obtain ⟨alike, errors⟩ := h.mergeLayer layer.1 layer.2
      obtain ⟨alike', errors'⟩ := ih alike
      rw [mergeLayers_cons, mergeLayers_cons, errors, errors']
      exact ⟨alike', rfl⟩

end Alike

end Editor

end ModalKeys
