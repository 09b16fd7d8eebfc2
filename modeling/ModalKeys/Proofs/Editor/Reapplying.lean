import ModalKeys.Proofs.Editor.Alike

/-!
# Settings do not depend on what came before

An editor that shares no keymaps keeps the root keymaps that it started with, and no key ever leads to one
of them. Once they are cleared, no key leads to anything that was there before, so the editor is like a new
one but for the numbers that its next keymaps will have. Settings that are applied to it therefore come to
what they come to in a new editor.
-/

namespace ModalKeys

variable {σ : Type}

/-! ## Places -/

/-- What can be seen of the place that keys lead to. -/
inductive Place (α : Type) where
  | action (act : α)
  | keymap (id help : Option String) (keys : List Char)

def Store.place {α : Type} (s : Store α) : Binding α → Place α
  | .action _ act => .action act
  | .keymap id => .keymap ((s.keymap? id).bind (·.id)) ((s.keymap? id).bind (·.help)) (s.keys id)

theorem Store.Alike.place {α : Type} {ρ : Nat → Nat} {s t : Store α} (h : s.Alike ρ t)
    (binding : Binding α) : t.place (binding.rename ρ) = s.place binding := by
  cases binding with
  | action tag act => rfl
  | keymap id =>
      have rel := h.keymap? id
      rw [Binding.rename, Store.place, Store.place, h.keys]
      generalize s.keymap? id = km at rel ⊢
      generalize t.keymap? (ρ id) = km' at rel ⊢
      cases rel with
      | none => rfl
      | some renamed => rw [Option.bind_some, Option.bind_some, Option.bind_some, Option.bind_some,
          renamed.id, renamed.help]

/-! ## Modals -/

/-- Numbers that have not been given out name no keymap. -/
theorem Store.keymap?_eq_none_of_le {α : Type} {s : Store α} {id : Nat} (h : s.next ≤ id) :
    s.keymap? id = none := by
  rw [Option.eq_none_iff_forall_ne_some]
  exact fun km hk => Nat.not_lt_of_le h (lt_next_of_alive (alive_of_keymap? hk))

namespace Modal

variable (m : Modal σ) (s : Store (Action σ))

theorem matcher?_clearKeymap :
    (m.clearKeymap s).1.matcher? = m.matcher?.map fun matcher => { matcher.reset with layers := [] } := by
  rw [clearKeymap]
  cases hr : m.root? with
  | none =>
      have none := Option.map_eq_none_iff.1 hr
      rw [matcher?_reset, none]
      rfl
  | some root =>
      rw [matcher?_mapMatcher, matcher?_reset, Option.map_map]
      rfl

theorem held_eq_nil {m : Modal σ} (h : m.root? = none) : m.held = [] := by
  rw [held, Option.map_eq_none_iff.1 h]
  rfl

theorem idle_clearKeymap : (m.clearKeymap s).1.Idle := by
  unfold clearKeymap
  split
  · exact m.idle_reset
  · exact (Keeps.mapMatcher m.reset (f := fun matcher => { matcher with layers := [] })
      (fun _ => rfl) fun _ => rfl).idle m.idle_reset

theorem wait_clearKeymap : (m.clearKeymap s).1.wait = m.wait := by
  unfold clearKeymap
  split <;> rfl

theorem wait_updateKeymap (roots : List KeymapId) (layer : KeymapId) :
    (m.updateKeymap s roots layer).1.wait = m.wait := by
  unfold updateKeymap
  split <;> rfl

theorem next_clearKeymap : (m.clearKeymap s).2.next = s.next := by
  unfold clearKeymap
  split <;> rfl

end Modal

namespace Editor

variable {e e' : Editor σ} {mode : Mode}

/-! ## Root keymaps -/

/-- The root keymap that a mode starts with. -/
def startRoot? : Mode → Option Nat
  | .normal => some 0
  | .insert => some 1
  | .visual => some 2
  | .search => none

theorem startRoot?_eq_some {root : Nat} (h : startRoot? mode = some root) :
    root < 3 ∧ mode ∈ KeymapLayers.modes := by
  cases mode <;> cases h <;> decide

theorem exists_startRoot? {id : Nat} (h : id < 3) :
    ∃ mode ∈ KeymapLayers.modes, startRoot? mode = some id := by
  obtain rfl | rfl | rfl : id = 0 ∨ id = 1 ∨ id = 2 := by omega
  · exact ⟨.normal, by decide, rfl⟩
  · exact ⟨.insert, by decide, rfl⟩
  · exact ⟨.visual, by decide, rfl⟩

/-- The modes have the root keymaps that they started with, and keys lead to newer ones. -/
structure Rooted (e : Editor σ) : Prop where
  root? : ∀ mode, (e.modal mode).root? = startRoot? mode
  next : 3 ≤ e.store.next
  root : ∀ id : Nat, id < 3 → ∃ km, e.store.keymap? id = some km ∧ km.id = none ∧ km.help = none
  target : ∀ (id : KeymapId) key slot (next : Nat), e.store.slot? id key = some slot →
    slot.binding.keymap? = some next → 3 ≤ next ∧ next < e.store.next

theorem rooted_create (host : Host σ) (state : σ) : (create host state).Rooted where
  root? mode := by cases mode <;> rfl
  next := Nat.le_refl 3
  root id hid := by
    obtain rfl | rfl | rfl : id = 0 ∨ id = 1 ∨ id = 2 := by omega
    all_goals exact ⟨_, rfl, rfl, rfl⟩
  target id key slot next hs := by
    rw [(bare_create host state).slots] at hs
    cases hs

namespace Rooted

theorem mem_held (h : e.Rooted) {id : Nat} (hid : id < 3) : id ∈ e.held := by
  obtain ⟨mode, -, hm⟩ := exists_startRoot? hid
  exact e.held_modal_subset mode (Modal.root_mem_held ((h.root? mode).trans hm))

/-- Slots may be copied, as long as the root keymaps stay. -/
theorem withStore (h : e.Rooted) {s : Store (Action σ)} (copied : e.store.Rearranged s)
    (alive : ∀ id : Nat, id < 3 → s.alive id) : { e with store := s }.Rooted where
  root? mode := by
    rw [modal_withStore]
    exact h.root? mode
  next := h.next.trans_eq copied.next.symm
  root id hid := by
    obtain ⟨km, hk⟩ := Store.alive_iff.1 (alive id hid)
    obtain ⟨km', hk', name, help⟩ := copied.text id km hk
    obtain ⟨_, hk'', name', help'⟩ := h.root id hid
    cases hk'.symm.trans hk''
    exact ⟨km, hk, name.trans name', help.trans help'⟩
  target id key slot next hs hn := by
    obtain ⟨id', key', hs⟩ := copied.slot id key slot hs
    show 3 ≤ next ∧ next < s.next
    rw [copied.next]
    exact h.target id' key' slot next hs hn

theorem alive (h : e.Rooted) {id : Nat} (hid : id < 3) : e.store.alive id := by
  obtain ⟨km, hk, -⟩ := h.root id hid
  exact Store.alive_of_keymap? hk

/-- Keys lead away from the root keymaps. -/
theorem le_of_walk (h : e.Rooted) {id target : KeymapId} {keys : List Char} (hne : keys ≠ [])
    (hw : e.store.walk id keys = some (.keymap target)) : 3 ≤ (target : Nat) := by
  induction keys generalizing id with
  | nil => exact absurd rfl hne
  | cons key keys ih =>
      rw [Store.walk] at hw
      split at hw
      · next next hl =>
          cases keys with
          | cons key' keys => exact ih (List.cons_ne_nil _ _) hw
          | nil =>
              rw [Store.walk] at hw
              split at hw
              · cases hw
                obtain ⟨slot, hs, hb⟩ := Option.bind_eq_some_iff.1 hl
                exact (h.target id key slot _ hs
                  (congrArg Binding.keymap? (Store.binding_of_resolve hb))).1
              · cases hw
      · split at hw <;> cases hw
      · cases hw

theorem release (h : e.Rooted) : e.release.Rooted :=
  h.withStore (.release _ _) fun _ hid =>
    (Store.alive_of_agree (Store.keymap?_release_of_mem (h.mem_held hid))).trans (h.alive hid)

theorem drop (h : e.Rooted) (km : KeymapId) : (e.drop km).Rooted :=
  release (h.withStore (s := e.store.drop km) (.of_within (fun _ _ hk => hk) rfl) fun _ => h.alive)

theorem compile (h : e.Rooted) {config : Json} {km : KeymapId} {s : Store (Action σ)}
    (compiled : e.store.compile config = .ok (km, s)) : { e with store := s.hold km }.Rooted := by
  have ext := Store.extends_of_compile compiled
  refine ⟨fun mode => ?_, h.next.trans ext.next, fun id hid => ?_, fun id key slot next hs hn => ?_⟩
  · rw [modal_withStore]
    exact h.root? mode
  · show ∃ km, s.keymap? id = some km ∧ km.id = none ∧ km.help = none
    rw [ext.keymap? id (Nat.lt_of_lt_of_le hid h.next)]
    exact h.root id hid
  · have hs : s.slot? id key = some slot := hs
    show 3 ≤ next ∧ next < s.next
    by_cases old : (id : Nat) < e.store.next
    · rw [Store.slot?_of_agree (ext.keymap? id old)] at hs
      exact (h.target id key slot next hs hn).imp_right (Nat.lt_of_lt_of_le · ext.next)
    · exact (ext.inside id key slot next (Nat.le_of_not_lt old) hs hn).imp_left h.next.trans

theorem loads (h : e.Rooted) {layers : KeymapLayers} {modes : List Mode} {s s' : Store (Action σ)}
    {keymaps : List (Mode × KeymapId)} (loads : KeymapLayers.Loads layers modes s keymaps s')
    (hs : e.store = s) : { e with store := s' }.Rooted := by
  induction loads generalizing e with
  | nil =>
      subst hs
      exact h
  | skip _ _ ih => exact ih h hs
  | @load _ _ s s₁ _ _ km _ _ compiled _ ih =>
      subst hs
      exact ih (e := { e with store := s₁.hold km }) (h.compile compiled) rfl

theorem updateKeymap (h : e.Rooted) (mode : Mode) (km : KeymapId) :
    (e.updateKeymap mode km).Rooted := by
  cases hr : (e.modal mode).root? with
  | none =>
      rw [updateKeymap_of_none hr]
      exact h.release
  | some root =>
      rw [updateKeymap_eq hr]
      refine release ⟨fun other => ?_, ?_, ?_, ?_⟩
      · rw [modal_merged, ← h.root?]
        split
        · next here =>
            subst here
            refine (Modal.root?_mapMatcher hr ?_).trans hr.symm
            exact fun _ => rfl
        · rfl
      all_goals
        rw [store_merged]
        have merged := h.withStore (.merge e.store (km :: (e.modal mode).held ++ e.held) root km)
          fun _ hid => Store.alive_merge_of_mem
            (List.mem_append_right _ (h.mem_held hid)) (h.alive hid) root km
      · exact merged.next
      · exact merged.root
      · exact merged.target

theorem mergeLayer (h : e.Rooted) (name : String) (layers : KeymapLayers) :
    (e.mergeLayer name layers).1.Rooted := by
  obtain ⟨same, -⟩ := layers.compile_repaired name e.store
  have loads := KeymapLayers.loads_of_compile same
  rw [mergeLayer_eq]
  generalize (layers.compile name e.store).1 = keymaps at loads ⊢
  have loaded := h.loads loads rfl
  generalize ({ e with store := _ } : Editor σ) = x at loaded ⊢
  clear loads
  induction keymaps generalizing x with
  | nil => exact loaded
  | cons p rest ih => exact ih _ ((loaded.updateKeymap p.1 p.2).drop p.2)

end Rooted

theorem Moves.rooted (moves : Moves e e') (h : e.Rooted) : e'.Rooted := by
  cases moves with
  | follow store modals =>
      refine ⟨fun mode => (modals mode).root?.trans (h.root? mode), ?_, ?_, ?_⟩
      all_goals rw [store]
      · exact h.next
      · exact h.root
      · exact h.target
  | release => exact h.release
  | clear =>
      exact h.withStore (.clear _ _) fun _ hid => (Store.alive_modify ..).trans (h.alive hid)
  | layer name layers => exact h.mergeLayer name layers

/-! ## Cleared keymaps -/

theorem modal_clearKeymap (e : Editor σ) (mode other : Mode) : (e.clearKeymap mode).modal other =
    if other = mode then ((e.modal mode).clearKeymap e.store).1 else e.modal other := by
  cases mode <;> cases other <;> rfl

theorem store_clearKeymap (e : Editor σ) (mode : Mode) : ∃ roots,
    (e.clearKeymap mode).store = ((e.modal mode).clearKeymap e.store).2.release roots := by
  refine ⟨_, congrArg (Store.release · _) ?_⟩
  cases mode <;> rfl

theorem next_clearKeymap (e : Editor σ) (mode : Mode) :
    (e.clearKeymap mode).store.next = e.store.next := by
  obtain ⟨roots, hs⟩ := e.store_clearKeymap mode
  rw [hs, Store.next_release, Modal.next_clearKeymap]

/-- Clearing takes slots away, and all those of the root keymap. -/
theorem slot?_clearKeymap {id : KeymapId} {key : Char} {slot : Slot (Action σ)}
    (h : (e.clearKeymap mode).store.slot? id key = some slot) :
    e.store.slot? id key = some slot ∧ (e.modal mode).root? ≠ some id := by
  obtain ⟨roots, hs⟩ := e.store_clearKeymap mode
  rw [hs] at h
  replace h := (Store.within_release _ roots).slot? h
  rw [Modal.clearKeymap] at h
  cases hr : (e.modal mode).root? with
  | none =>
      rw [hr] at h
      exact ⟨h, Option.some_ne_none _ |>.symm⟩
  | some root =>
      rw [hr, Store.slot?_clear] at h
      split at h
      · cases h
      · next other => exact ⟨h, fun same => other (Option.some.inj same).symm⟩

/-- The root keymap of a mode has no keys, the mode holds nothing else, and nothing has been typed. -/
structure Cleared (e : Editor σ) (mode : Mode) : Prop where
  idle : (e.modal mode).Idle
  held : ∀ id, id ∈ (e.modal mode).held ↔ (e.modal mode).root? = some id
  slots : ∀ root key, (e.modal mode).root? = some root → e.store.slot? root key = none

theorem cleared_clearKeymap (e : Editor σ) (mode : Mode) : (e.clearKeymap mode).Cleared mode := by
  have modal : (e.clearKeymap mode).modal mode = ((e.modal mode).clearKeymap e.store).1 := by
    rw [modal_clearKeymap, if_pos rfl]
  have matcher := (e.modal mode).matcher?_clearKeymap e.store
  rw [← modal] at matcher
  refine ⟨modal ▸ Modal.idle_clearKeymap _ _, fun id => ?_, fun root key hr => ?_⟩
  · rw [Modal.held, Modal.root?, matcher]
    cases (e.modal mode).matcher? with
    | none => exact iff_of_false List.not_mem_nil (Option.some_ne_none _).symm
    | some matcher => exact List.mem_singleton.trans (eq_comm.trans (Option.some_inj (α := Nat)).symm)
  · rw [Option.eq_none_iff_forall_ne_some]
    intro slot hs
    refine (slot?_clearKeymap hs).2 ?_
    rw [Modal.root?, matcher, Option.map_map] at hr
    exact hr

theorem Cleared.clearKeymap (h : e.Cleared mode) (other : Mode) :
    (e.clearKeymap other).Cleared mode := by
  by_cases same : mode = other
  · subst same
    exact e.cleared_clearKeymap mode
  · have modal : (e.clearKeymap other).modal mode = e.modal mode := by
      rw [modal_clearKeymap, if_neg same]
    refine ⟨modal ▸ h.idle, modal ▸ h.held, fun root key hr => ?_⟩
    rw [Option.eq_none_iff_forall_ne_some]
    intro slot hs
    rw [modal] at hr
    cases (h.slots root key hr).symm.trans (slot?_clearKeymap hs).1

theorem cleared_clearKeymaps (e : Editor σ) (hm : mode ∈ KeymapLayers.modes) :
    e.clearKeymaps.Cleared mode := by
  have steps : e.clearKeymaps = ((e.clearKeymap .normal).clearKeymap .insert).clearKeymap .visual := rfl
  rw [steps]
  cases mode with
  | normal => exact ((e.cleared_clearKeymap .normal).clearKeymap .insert).clearKeymap .visual
  | insert => exact ((e.clearKeymap .normal).cleared_clearKeymap .insert).clearKeymap .visual
  | visual => exact cleared_clearKeymap _ .visual
  | search => exact absurd hm (by decide)

/-! ## Comparison with a new editor -/

/-- The root keymaps keep their numbers, and those after them are counted from `next` on. -/
def renumber (next id : Nat) : Nat := if id < 3 then id else next + (id - 3)

theorem renumber_of_lt {id : Nat} (h : id < 3) (next : Nat) : renumber next id = id := if_pos h

theorem renumber_of_le {id : Nat} (h : 3 ≤ id) (next : Nat) : renumber next id = next + (id - 3) :=
  if_neg (Nat.not_lt_of_le h)

namespace Rooted

/-- The root keymaps of cleared editors have no keys. -/
theorem exists_keyless (h : e.Rooted) (cleared : ∀ mode ∈ KeymapLayers.modes, e.Cleared mode) {id : Nat}
    (lt : id < 3) : ∃ km, e.store.keymap? id = some km ∧ km.id = none ∧ km.help = none ∧
      ∀ key, km.slots.get? key = none := by
  obtain ⟨km, hk, name, help⟩ := h.root id lt
  obtain ⟨mode, hm, start⟩ := exists_startRoot? lt
  refine ⟨km, hk, name, help, fun key => ?_⟩
  rw [← Store.slot?_eq hk]
  exact (cleared mode hm).slots id key ((h.root? mode).trans start)

/-- The stores of cleared editors are alike, if the first one is as good as new. -/
theorem alike_store (h : e.Rooted) (h' : e'.Rooted)
    (cleared : ∀ mode ∈ KeymapLayers.modes, e.Cleared mode)
    (cleared' : ∀ mode ∈ KeymapLayers.modes, e'.Cleared mode) (new : e.store.next = 3)
    (handles : e.store.handles = []) (handles' : e'.store.handles = []) :
    e.store.Alike (renumber e'.store.next) e'.store := by
  have next := h'.next
  refine ⟨fun a b hab => ?_, fun n => ?_, fun id => ?_, fun owner id hp => ?_, fun id => ?_⟩
  · unfold renumber at hab
    split at hab <;> split at hab <;> omega
  · rw [new, renumber_of_le (Nat.le_add_right 3 n), Nat.add_sub_cancel_left]
  · rcases Nat.lt_or_ge id 3 with lt | ge
    · obtain ⟨km, hk, name, help, slots⟩ := h.exists_keyless cleared lt
      obtain ⟨km', hk', name', help', slots'⟩ := h'.exists_keyless cleared' lt
      rw [renumber_of_lt lt, hk, hk']
      refine .some ⟨name'.trans name.symm, help'.trans help.symm, fun key => ?_⟩
      rw [slots, slots']
      rfl
    · rw [renumber_of_le ge, Store.keymap?_eq_none_of_le (new ▸ ge),
        Store.keymap?_eq_none_of_le (Nat.le_add_right _ _)]
      exact .none
  · obtain ⟨key, slot, hs, hn⟩ := hp.exists_slot?
    obtain ⟨ge, lt⟩ := h'.target owner key slot _ hs hn
    rcases Nat.lt_or_ge id 3 with old | young
    · rw [renumber_of_lt old] at ge
      omega
    · rw [renumber_of_le young] at lt
      omega
  · rw [handles, handles']
    rfl

/-- Cleared editors are alike, if the first one is as good as new. -/
theorem alike (h : e.Rooted) (h' : e'.Rooted) (cleared : ∀ mode ∈ KeymapLayers.modes, e.Cleared mode)
    (cleared' : ∀ mode ∈ KeymapLayers.modes, e'.Cleared mode) (new : e.store.next = 3)
    (handles : e.store.handles = []) (handles' : e'.store.handles = []) :
    e.Alike (renumber e'.store.next) e' := by
  have next := h'.next
  refine ⟨h.alike_store h' cleared cleared' new handles handles', fun mode => ?_, fun mode id => ?_⟩
  · rw [h.root?, h'.root?]
    cases mode <;> rfl
  · cases start : startRoot? mode with
    | none =>
        rw [Modal.held_eq_nil ((h.root? mode).trans start),
          Modal.held_eq_nil ((h'.root? mode).trans start)]
        exact iff_of_false List.not_mem_nil List.not_mem_nil
    | some root =>
        obtain ⟨lt, hm⟩ := startRoot?_eq_some start
        rw [(cleared mode hm).held, (cleared' mode hm).held, h.root?, h'.root?, start, Option.some_inj,
          Option.some_inj]
        rcases Nat.lt_or_ge id 3 with old | young
        · rw [renumber_of_lt old]
        · rw [renumber_of_le young]
          omega

end Rooted

theorem alike_clearKeymaps (h : e.Rooted) (h' : e'.Rooted) (new : e.clearKeymaps.store.next = 3)
    (handles : e.clearKeymaps.store.handles = []) (handles' : e'.clearKeymaps.store.handles = []) :
    e.clearKeymaps.Alike (renumber e'.clearKeymaps.store.next) e'.clearKeymaps :=
  Rooted.alike (Moves.clearKeymaps (fun _ _ => Moves.rooted) h)
    (Moves.clearKeymaps (fun _ _ => Moves.rooted) h') (fun _ => cleared_clearKeymaps e)
    (fun _ => cleared_clearKeymaps e') new handles handles'

/-- Whatever an editor has been through, settings do to it what they do to a new one. -/
theorem alike_updateFromSettings_create (host host' : Host σ) (state state' : σ)
    {ops : List (Operation σ)} (internal : ∀ op ∈ ops, op.Internal) (settings : Settings) :
    let e := (create host state).run ops
    (∃ ρ, ((create host' state').updateFromSettings settings).1.Alike ρ
      (e.updateFromSettings settings).1) ∧
    (e.updateFromSettings settings).2 = ((create host' state').updateFromSettings settings).2 := by
  intro e
  have rooted : e.Rooted := Moves.run (fun _ _ => Moves.rooted) (rooted_create host state) internal
  have handles : e.store.handles = [] :=
    Moves.run (P := fun x => x.store.handles = []) (fun _ _ => Moves.handles) rfl internal
  have prepared (x : Editor σ) (hx : x.Rooted) (none : x.store.handles = []) :
      (x.setTimeout .insert settings.insertTimeoutMillis).Rooted ∧
        (x.setTimeout .insert settings.insertTimeoutMillis).clearKeymaps.store.handles = [] := by
    refine ⟨Moves.update (fun _ _ => Moves.rooted) hx .insert (Modal.follows_of_matcher? rfl), ?_⟩
    exact Moves.clearKeymaps (P := fun x => x.store.handles = []) (fun _ _ => Moves.handles)
      (Moves.update (P := fun x => x.store.handles = []) (fun _ _ => Moves.handles) none .insert
        (Modal.follows_of_matcher? rfl))
  obtain ⟨rooted, handles⟩ := prepared e rooted handles
  obtain ⟨rooted', handles'⟩ := prepared (create host' state') (rooted_create host' state') rfl
  have new : ((create host' state').setTimeout .insert
      settings.insertTimeoutMillis).clearKeymaps.store.next = 3 := by
    unfold clearKeymaps KeymapLayers.modes
    rw [List.foldl_cons, List.foldl_cons, List.foldl_cons, List.foldl_nil, next_clearKeymap,
      next_clearKeymap, next_clearKeymap]
    exact Store.next_release _ _
  have alike := (alike_clearKeymaps rooted' rooted new handles' handles).mergeLayers settings.layers
  exact ⟨⟨_, alike.1⟩, alike.2⟩

/-! ## What can be seen -/

/-- The place that keys lead to in a mode. -/
def place (e : Editor σ) (mode : Mode) (keys : List Char) : Option (Place (Action σ)) :=
  ((e.modal mode).root?.bind fun root => e.store.walk root keys).map e.store.place

theorem Alike.place {ρ : Nat → Nat} (h : e.Alike ρ e') (mode : Mode) (keys : List Char) :
    e'.place mode keys = e.place mode keys := by
  rw [Editor.place, h.root?, Editor.place]
  cases (e.modal mode).root? with
  | none => rfl
  | some root =>
      show (e'.store.walk (ρ root) keys).map _ = (e.store.walk root keys).map _
      rw [h.store.walk, Option.map_map]
      congr 1
      funext binding
      exact h.store.place binding

theorem Rooted.isSome_place (h : e.Rooted) (hm : mode ∈ KeymapLayers.modes) :
    (e.place mode []).isSome := by
  have start : (startRoot? mode).isSome := by
    revert mode
    decide
  obtain ⟨root, start⟩ := Option.isSome_iff_exists.1 start
  rw [place, h.root?, start, Option.bind_some, Store.walk, if_pos (h.alive (startRoot?_eq_some start).1)]
  rfl

/-- Two editors have been set up in the same way, with the same errors. -/
structure SameSetup (r r' : Editor σ × List LayerError) : Prop where
  errors : r'.2 = r.2
  wait : r'.1.insert.wait = r.1.insert.wait
  idle : ∀ mode ∈ KeymapLayers.modes, (r.1.modal mode).Idle ∧ (r'.1.modal mode).Idle
  root : ∀ mode ∈ KeymapLayers.modes, (r.1.place mode []).isSome
  place : ∀ mode ∈ KeymapLayers.modes, ∀ keys, r'.1.place mode keys = r.1.place mode keys

/-- Keymaps are merged without regard to what is typed or to timeouts. -/
theorem idle_updateFromSettings (e : Editor σ) (settings : Settings)
    (hm : mode ∈ KeymapLayers.modes) : ((e.updateFromSettings settings).1.modal mode).Idle := by
  refine mergeLayers_preserves (P := fun x => (x.modal mode).Idle) (fun x s hx => ?_)
    (fun x other km hx => ?_) _ (cleared_clearKeymaps _ hm).idle
  · rw [modal_withStore]
    exact hx
  · have keeps := Modal.keeps_updateKeymap (x.modal other) x.store x.held km
    rw [updateKeymap, modal_release, modal_modify, modal_withStore]
    split
    · next here =>
        subst here
        exact keeps.idle hx
    · exact hx

theorem wait_updateFromSettings (e : Editor σ) (settings : Settings) :
    (e.updateFromSettings settings).1.insert.wait =
      settings.insertTimeoutMillis.map (afterMillis 0) := by
  let wait := settings.insertTimeoutMillis.map (afterMillis 0)
  refine mergeLayers_preserves (P := fun x => x.insert.wait = wait)
    (fun x s hx => hx) (fun x other km hx => ?_) _
    (clearKeymaps_preserves (P := fun x => x.insert.wait = wait)
      (fun x other hx => ?_) ?_)
  · show ((x.updateKeymap other km).modal .insert).wait = _
    rw [updateKeymap, modal_release, modal_modify, modal_withStore]
    split
    · next here =>
        subst here
        exact ((x.modal .insert).wait_updateKeymap x.store x.held km).trans hx
    · exact hx
  · show ((x.clearKeymap other).modal .insert).wait = _
    rw [modal_clearKeymap]
    split
    · next here =>
        subst here
        exact ((x.modal .insert).wait_clearKeymap x.store).trans hx
    · exact hx
  · rfl

theorem sameSetup_of_runs (host host' : Host σ) (state state' : σ) {ops ops' : List (Operation σ)}
    (internal : ∀ op ∈ ops, op.Internal) (internal' : ∀ op ∈ ops', op.Internal)
    (settings : Settings) : SameSetup (((create host state).run ops).updateFromSettings settings)
      (((create host' state').run ops').updateFromSettings settings) := by
  obtain ⟨⟨ρ, alike⟩, errors⟩ :=
    alike_updateFromSettings_create host host state state internal settings
  obtain ⟨⟨ρ', alike'⟩, errors'⟩ :=
    alike_updateFromSettings_create host' host state' state internal' settings
  constructor
  · exact errors'.trans errors.symm
  · rw [wait_updateFromSettings, wait_updateFromSettings]
  · exact fun mode hm => ⟨idle_updateFromSettings _ settings hm, idle_updateFromSettings _ settings hm⟩
  · exact fun mode hm => Rooted.isSome_place (e := Editor.apply _ (.updateFromSettings settings))
      (Moves.apply (fun _ _ => Moves.rooted)
        (Moves.run (fun _ _ => Moves.rooted) (rooted_create host state) internal) trivial) hm
  · exact fun mode _ keys => (alike'.place mode keys).trans (alike.place mode keys).symm

/-- Settings come to the same in all editors that have been set up by configurations alone, whatever they
have been through: the errors are the same, the same keys lead to the same places, the Insert timeout is
the one of the settings, and nothing that was typed is left. Applying them again changes none of this. -/
theorem settings_independent_of_history (host host' : Host σ) (state state' : σ)
    {ops ops' : List (Operation σ)} (internal : ∀ op ∈ ops, op.Internal)
    (internal' : ∀ op ∈ ops', op.Internal) (settings : Settings) :
    let e := (create host state).run ops
    let e' := (create host' state').run ops'
    SameSetup (e.updateFromSettings settings) (e'.updateFromSettings settings) ∧
    SameSetup (e.updateFromSettings settings)
      ((e.updateFromSettings settings).1.updateFromSettings settings) := by
  intro e e'
  refine ⟨sameSetup_of_runs host host' state state' internal internal' settings, ?_⟩
  have again : (e.updateFromSettings settings).1 =
      (create host state).run (ops ++ [.updateFromSettings settings]) := by
    rw [run, List.foldl_append]
    rfl
  rw [again]
  refine sameSetup_of_runs host host state state internal (fun op hop => ?_) settings
  rcases List.mem_append.1 hop with hop | hop
  · exact internal op hop
  · cases List.mem_singleton.1 hop
    trivial

/-- An editor in the middle of a sequence, with layers of its own and some that failed, against one that
has been used for something else. -/
theorem settings_independent_of_history_while_pending :
    let layers : KeymapLayers := {
      normal := some (.object [("x,y", .object [("z", .string "zap")])])
      insert := some (.object [("j", .null)]) }
    let ops : List (Operation Record) := [.applyPreset .simple, .updateKeymaps layers,
      .setWait .normal (some 300), .inputKey 'x' 0, .checkTimeout 5, .inputKey 'z' 7, .inputKey 'd' 9]
    let ops' : List (Operation Record) := [.enterModeNamed "visual" {}, .updateFromSettings {}, .resetAll]
    let settings : Settings := {
      preset := .simple, insertTimeout := Binary64.ofRatio 250 1, customKeymaps := some layers }
    (∀ op ∈ ops, op.Internal) ∧ (∀ op ∈ ops', op.Internal) ∧ settings.failures.length = 1 ∧
      let e := (create Host.commandRecorder []).run ops
      let e' := (create (Host.recorder [] []) []).run ops'
      SameSetup (e.updateFromSettings settings) (e'.updateFromSettings settings) ∧
      SameSetup (e.updateFromSettings settings)
        ((e.updateFromSettings settings).1.updateFromSettings settings) := by
  intro layers ops ops' settings
  have internal : ∀ op ∈ ops, op.Internal := by simp [ops, Operation.Internal]
  have internal' : ∀ op ∈ ops', op.Internal := by simp [ops', Operation.Internal]
  have failed : settings.failures.length = 1 := by decide +kernel
  exact ⟨internal, internal', failed,
    settings_independent_of_history Host.commandRecorder (Host.recorder [] []) [] [] internal internal'
      settings⟩

end Editor

end ModalKeys
