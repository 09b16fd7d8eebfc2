import ModalKeys.Proofs.Editor.History

/-!
# Configurations that fail are left out

A configuration that does not compile is reported and has no other effect. For a layer of keymaps this
means that the mode whose configuration fails keeps its keymap. That needs modes which share no keymaps:
the keymaps of each mode are a region of the store that all moves of an editor keep to.
-/

namespace ModalKeys

variable {σ : Type}

namespace Editor

variable {e e' : Editor σ} {mode other : Mode} {K : KeymapId → Prop}
  {pending rest : List (Mode × KeymapId)} {km : KeymapId}

/-! ## Modes that share nothing -/

/-- What the modals hold is in the region of the mode exactly for the modal of that mode. -/
structure Confined (e : Editor σ) (mode : Mode) (K : KeymapId → Prop)
    (pending : List (Mode × KeymapId)) : Prop where
  divided : e.Divided mode K pending
  held : ∀ other, ∀ id ∈ (e.modal other).held, (K id ↔ other = mode)
  lt : ∀ other, ∀ id ∈ (e.modal other).held, (id : Nat) < e.store.next

namespace Confined

theorem of_follows (h : e.Confined mode K []) (store : e'.store = e.store)
    (modals : ∀ other, (e.modal other).Follows e.store (e'.modal other)) :
    e'.Confined mode K [] := by
  refine ⟨⟨?_, ?_, ?_, nofun, .nil⟩, ?_, ?_⟩
  · rw [store]
    exact h.divided.region
  · rw [store]
    exact h.divided.lt
  · intro other ho
    rw [store, (modals other).root?]
    exact h.divided.root other ho
  · intro other id hid
    rcases (modals other).held id hid with hid | ⟨owner, howner, key, hl⟩
    · exact h.held other id hid
    · -- what is typed leads on inside of the region
      obtain ⟨slot, hs, hr⟩ := Option.bind_eq_some_iff.1 hl
      have hx := congrArg Binding.keymap? (Store.binding_of_resolve hr)
      exact (h.divided.region.iff owner key slot id hs hx).trans (h.held other owner howner)
  · intro other id hid
    rw [store]
    rcases (modals other).held id hid with hid | ⟨owner, -, key, hl⟩
    · exact h.lt other id hid
    · exact Store.lt_next_of_alive (Store.alive_of_lookup hl)

/-- Fewer keymaps and slots are no harm. -/
theorem withStore (h : e.Confined mode K []) {s : Store (Action σ)}
    (slots : ∀ id key slot, s.slot? id key = some slot → e.store.slot? id key = some slot)
    (next : s.next = e.store.next) : { e with store := s }.Confined mode K [] := by
  refine ⟨⟨h.divided.region.of_slots slots next, ?_, ?_, nofun, .nil⟩, ?_, ?_⟩
  · intro id hid
    rw [next]
    exact h.divided.lt id hid
  · intro other ho
    rw [modal_withStore, next]
    exact h.divided.root other ho
  · intro other
    rw [modal_withStore]
    exact h.held other
  · intro other
    rw [modal_withStore, next]
    exact h.lt other

theorem release (h : e.Confined mode K []) : e.release.Confined mode K [] :=
  h.withStore (fun _ _ _ => (e.store.within_release _).slot?) (e.store.next_release _)

theorem clear (h : e.Confined mode K []) (root : KeymapId) :
    { e with store := e.store.clear root }.Confined mode K [] := by
  refine h.withStore (fun id key slot hs => ?_) rfl
  rw [Store.slot?_clear] at hs
  split at hs
  · cases hs
  · exact hs

/-- A loaded keymap is merged. -/
theorem take (h : e.Confined mode K ((other, km) :: rest)) :
    (e.take (other, km)).Confined mode K rest := by
  have loaded := h.divided.loaded _ List.mem_cons_self
  obtain ⟨root, hr, -, -⟩ := h.divided.root other loaded.mem
  have gains (m : Mode) (id : KeymapId) (hid : id ∈ ((e.take (other, km)).modal m).held) :
      id ∈ (e.modal m).held ∨ m = other ∧ id = km := by
    rw [modal_take hr, modal_merged] at hid
    split at hid
    · next here =>
        subst here
        exact ((Modal.mem_held_cons_layer hr km id).1 hid).symm.imp_right fun new => ⟨rfl, new⟩
    · exact Or.inl hid
  refine ⟨h.divided.take, fun m id hid => ?_, fun m id hid => ?_⟩
  · rcases gains m id hid with hid | ⟨rfl, rfl⟩
    · exact h.held m id hid
    · exact loaded.inside
  · rw [next_take hr]
    rcases gains m id hid with hid | ⟨rfl, rfl⟩
    · exact h.lt m id hid
    · exact loaded.lt

theorem mergeLayer (h : e.Confined mode K []) (name : String) (layers : KeymapLayers) :
    ∃ K' : KeymapId → Prop, (e.mergeLayer name layers).1.Confined mode K' [] := by
  obtain ⟨same, -⟩ := e.mergeLayer_repaired name layers
  obtain ⟨keymaps, s, K', heq, loads, old, divided, -⟩ :=
    h.divided.exists_loads (congrArg Prod.snd same)
  rw [same] at heq
  have merge (keymaps : List (Mode × KeymapId)) (x : Editor σ) (hx : x.Confined mode K' keymaps) :
      (keymaps.foldl Editor.take x).Confined mode K' [] := by
    induction keymaps generalizing x with
    | nil => exact hx
    | cons p rest ih => exact ih _ hx.take
  refine ⟨K', heq ▸ merge keymaps _ ⟨divided, fun other id hid => ?_, fun other id hid => ?_⟩⟩
  · rw [modal_withStore] at hid
    exact (old id (h.lt other id hid)).trans (h.held other id hid)
  · rw [modal_withStore] at hid
    exact Nat.lt_of_lt_of_le (h.lt other id hid) loads.extends.1

end Confined

theorem exists_confined_of_moves (h : ∃ K, e.Confined mode K []) (moves : Moves e e') :
    ∃ K, e'.Confined mode K [] := by
  obtain ⟨K, h⟩ := h
  cases moves with
  | follow store modals => exact ⟨K, h.of_follows store modals⟩
  | release => exact ⟨K, h.release⟩
  | clear => exact ⟨K, h.clear _⟩
  | layer name layers => exact h.mergeLayer name layers

/-! ## Nothing is left over -/

/-- Every keymap that is there is held. -/
def Collected (e : Editor σ) : Prop :=
  ∀ id, e.store.alive id → id ∈ e.store.held (e.store.handles ++ e.held)

theorem collected_release (e : Editor σ) : e.release.Collected := by
  intro id alive
  show id ∈ (e.store.release e.held).held ((e.store.release e.held).handles ++ e.held)
  rw [Store.handles_release]
  exact Store.mem_held_of_alive_collect alive

theorem collected_create (host : Host σ) (state : σ) : (create host state).Collected := by
  intro id alive
  refine Store.mem_held.2 (Or.inl ?_)
  -- the keymaps are the three that the modals start with
  have held : (create host state).store.handles ++ (create host state).held = [0, 1, 2] := rfl
  have below : ∀ n : Nat, n < 3 → n ∈ [0, 1, 2] := by decide
  rw [held]
  exact below id (Store.lt_next_of_alive alive)

theorem loads_nil {layers : KeymapLayers} {modes : List Mode} {s s' : Store (Action σ)}
    (h : KeymapLayers.Loads layers modes s [] s') : s' = s := by
  generalize hk : ([] : List (Mode × KeymapId)) = keymaps at h
  induction h with
  | nil => rfl
  | skip _ _ ih => exact ih hk
  | load => cases hk

theorem Collected.mergeLayer (h : e.Collected) (name : String) (layers : KeymapLayers) :
    (e.mergeLayer name layers).1.Collected := by
  obtain ⟨same, -⟩ := layers.compile_repaired name e.store
  have loads := KeymapLayers.loads_of_compile same
  rw [mergeLayer_eq]
  rcases List.eq_nil_or_concat (layers.compile name e.store).1 with none | ⟨first, last, some⟩
  · rw [none] at loads ⊢
    rw [loads_nil loads]
    exact h
  · rw [some, List.concat_eq_append, List.foldl_append]
    exact collected_release _

theorem Collected.apply (h : e.Collected) {op : Operation σ} (hop : op.Internal) :
    (e.apply op).Collected := by
  have layers (layers : List (String × KeymapLayers)) (e : Editor σ) (h : e.Collected) :
      (e.mergeLayers layers).1.Collected := by
    induction layers generalizing e with
    | nil => exact h
    | cons layer rest ih => exact ih _ (h.mergeLayer layer.1 layer.2)
  cases op with
  | inputKey key now => exact collected_release _
  | checkTimeout now =>
      rw [show Operation.checkTimeout now = (TimedInput.check now).operation from rfl, apply_input]
      rcases e.taken (.check now) with ⟨e', _ | r⟩
      · exact h
      · exact collected_release _
  | enterMode mode options => exact collected_release _
  | enterModeNamed name options =>
      show (e.enterModeNamed name options).1.Collected
      unfold enterModeNamed
      cases Mode.ofName? name with
      | none => exact h
      | some mode => exact collected_release _
  | resetCurrent => exact collected_release _
  | resetAll => exact collected_release _
  | clearKeymaps => exact collected_release _
  | updateKeymaps l => exact h.mergeLayer "keymaps" l
  | applyPreset preset => exact layers _ e h
  | updateFromSettings settings => exact layers _ _ (collected_release _)
  | clearKeymap mode => exact collected_release _
  | setWait mode wait => exact collected_release _
  | setDefaultHandler mode action => exact collected_release _
  | setTimeoutHandler mode action => exact collected_release _
  | changeState change => exact h
  | subscribe => exact h
  | unsubscribe ticket => exact h
  | receive ticket => exact h
  | setKeymap mode root => exact hop.elim
  | updateKeymap mode layer => exact hop.elim
  | changeModal mode change => exact hop.elim
  | changeStore change => exact hop.elim

/-! ## Keymaps that stay -/

/-- A mode has the same modal, and what that holds leads to the same keymaps. -/
structure KeepsKeymap (mode : Mode) (e e' : Editor σ) : Prop where
  modal : e'.modal mode = e.modal mode
  walk : ∀ id ∈ (e.modal mode).held, ∀ keys, e'.store.walk id keys = e.store.walk id keys
  keymap? : ∀ id ∈ (e.modal mode).held, ∀ keys target,
    e.store.walk id keys = some (.keymap target) → e'.store.keymap? target = e.store.keymap? target

theorem resolve_of_alive {s t : Store (Action σ)} {slot : Slot (Action σ)}
    (h : ∀ next, slot.binding.keymap? = some next → t.alive next = s.alive next) :
    t.resolve slot = s.resolve slot := by
  rcases slot with (next | ⟨tag, act⟩) | next
  · rw [Store.resolve, Store.resolve, h next rfl]
  · rfl
  · rw [Store.resolve, Store.resolve, h next rfl]

/-- Keys lead to the same places if the keymaps of a region stay as they are. -/
theorem walk_of_region {s t : Store (Action σ)} (region : s.Region K)
    (agree : ∀ id, K id → t.keymap? id = s.keymap? id) {id : KeymapId} (hid : K id)
    (keys : List Char) : t.walk id keys = s.walk id keys ∧
      ∀ target, s.walk id keys = some (.keymap target) → K target := by
  induction keys generalizing id with
  | nil =>
      rw [Store.walk, Store.walk, Store.alive_of_agree (agree id hid)]
      refine ⟨rfl, fun target ht => ?_⟩
      split at ht
      · cases ht
        exact hid
      · cases ht
  | cons key keys ih =>
      have same : t.lookup id key = s.lookup id key := by
        rw [Store.lookup, Store.lookup, Store.slot?_of_agree (agree id hid) key]
        refine Option.bind_congr fun slot hs => resolve_of_alive fun next hn => ?_
        exact Store.alive_of_agree (agree next ((region.iff id key slot next hs hn).2 hid))
      rw [Store.walk, Store.walk, same]
      cases hl : s.lookup id key with
      | none => exact ⟨rfl, fun target ht => by cases ht⟩
      | some binding =>
          cases binding with
          | action tag act =>
              refine ⟨rfl, fun target ht => ?_⟩
              dsimp only at ht
              split at ht <;> cases ht
          | keymap next =>
              obtain ⟨slot, hs, hr⟩ := Option.bind_eq_some_iff.1 hl
              have hn := congrArg Binding.keymap? (Store.binding_of_resolve hr)
              exact ih ((region.iff id key slot next hs hn).2 hid)

/-- Merging does not bring back what has been released. -/
theorem Divided.alive_of_foldl_take {keymaps : List (Mode × KeymapId)}
    (h : e.Divided mode K keymaps) {id : KeymapId}
    (alive : (keymaps.foldl Editor.take e).store.alive id) : e.store.alive id := by
  induction keymaps generalizing e with
  | nil => exact alive
  | cons p rest ih =>
      obtain ⟨other, km⟩ := p
      obtain ⟨root, hr, -⟩ := h.root other (h.loaded _ List.mem_cons_self).mem
      have taken := ih h.take alive
      rw [take_eq hr] at taken
      have dropped := (Store.within_release _ _).alive taken
      have merged : (e.merged other root km).store.alive id := (Store.within_release _ _).alive dropped
      rw [store_merged] at merged
      exact (Store.Rearranged.merge _ _ _ _).alive merged

/-- A mode keeps its keymap when a layer is merged that has nothing for it, apart from what fails. -/
theorem Confined.keepsKeymap_mergeLayer (h : e.Confined mode K []) (collected : e.Collected)
    (handles : e.store.handles = []) {name : String} {layers : KeymapLayers}
    (none : (layers.repaired).get? mode = none) :
    KeepsKeymap mode e (e.mergeLayer name layers).1 := by
  obtain ⟨same, -⟩ := e.mergeLayer_repaired name layers
  have ok := congrArg Prod.snd same
  obtain ⟨K', -, -, passes⟩ := h.divided.passes_mergeLayer ok none
  obtain ⟨keymaps, s, K'', heq, loads, -, divided, -⟩ := h.divided.exists_loads ok
  rw [same] at passes heq
  -- all that is there of the region of the mode is held by its modal
  have supported : e.store.Supported ((e.modal mode).held ++ []) fun id => K id ∧ e.store.alive id := by
    rintro id ⟨hid, alive⟩
    rcases Store.mem_held.1 (collected id alive) with held | ⟨owner, km, key, hkm, hk⟩
    · rw [handles, List.nil_append] at held
      obtain ⟨other, -, held⟩ := List.mem_flatMap.1 held
      have here : other = mode := (h.held other id held).1 hid
      subst here
      exact Or.inl (List.mem_append_left _ held)
    · obtain ⟨slot, hs, ho⟩ := Option.bind_eq_some_iff.1 hk
      have inside := h.divided.region.iff owner key slot id ((Store.slot?_eq hkm key).trans hs)
        (Slot.keymap?_of_owned? ho)
      exact Or.inr ⟨owner, km, key, ⟨inside.1 hid, Store.alive_of_keymap? hkm⟩, hkm, hk⟩
  have agree (id : KeymapId) (hid : K id) :
      (e.mergeLayer name layers).1.store.keymap? id = e.store.keymap? id := by
    cases hk : e.store.keymap? id with
    | some km =>
        rw [← hk]
        exact passes.keymap? _ supported (fun id hid => hid.1) id ⟨hid, Store.alive_of_keymap? hk⟩
    | none =>
        rw [Option.eq_none_iff_forall_ne_some]
        intro km hk'
        have alive := Store.alive_of_keymap? hk'
        rw [heq] at alive
        obtain ⟨km', hk''⟩ := Store.alive_iff.1 (divided.alive_of_foldl_take alive)
        rw [loads.extends.2 id (h.divided.lt id hid), hk] at hk''
        cases hk''
  have inside (id : KeymapId) (hid : id ∈ (e.modal mode).held) : K id := (h.held mode id hid).2 rfl
  refine ⟨passes.modal, fun id hid keys => ?_, fun id hid keys target ht => ?_⟩
  · exact (walk_of_region h.divided.region agree (inside id hid) keys).1
  · exact agree target ((walk_of_region h.divided.region agree (inside id hid) keys).2 target ht)

theorem exists_confined_create (host : Host σ) (state : σ) (hm : mode ∈ KeymapLayers.modes) :
    ∃ K, (create host state).Confined mode K [] := by
  obtain ⟨root, divided, grows⟩ := (bare_create host state).exists_root hm
  have exists_root (other : Mode) (id : KeymapId) (hid : id ∈ ((create host state).modal other).held) :
      ((create host state).modal other).root? = some id ∧ other ∈ KeymapLayers.modes := by
    cases other with
    | search => cases hid
    | normal => exact ⟨congrArg some (List.mem_singleton.1 hid).symm, by decide⟩
    | insert => exact ⟨congrArg some (List.mem_singleton.1 hid).symm, by decide⟩
    | visual => exact ⟨congrArg some (List.mem_singleton.1 hid).symm, by decide⟩
  refine ⟨_, divided, fun other id hid => ?_, fun other id hid => ?_⟩
  all_goals
    obtain ⟨hr, ho⟩ := exists_root other id hid
    obtain ⟨root', hr', lt, hK⟩ := divided.root other ho
    cases hr.symm.trans hr'
  · exact hK
  · exact lt

/-- A configuration that does not compile is reported and has no other effect. Settings do what they
do without the configurations of theirs that fail, and so does a layer, whose failing configurations
leave the modes that they are for with the keymaps that they had. -/
theorem failures_isolated (host : Host σ) (state : σ) {ops : List (Operation σ)}
    (internal : ∀ op ∈ ops, op.Internal) :
    let e := (create host state).run ops
    (∀ settings : Settings, (e.updateFromSettings settings).2 = settings.failures ∧
      e.updateFromSettings settings.repaired = ((e.updateFromSettings settings).1, [])) ∧
    ∀ layers : KeymapLayers, (e.updateKeymaps layers).2 = layers.failures "keymaps" ∧
      e.updateKeymaps layers.repaired = ((e.updateKeymaps layers).1, []) ∧
      ∀ mode ∈ KeymapLayers.modes, layers.failure? "keymaps" mode ≠ none →
        KeepsKeymap mode e (e.updateKeymaps layers).1 := by
  intro e
  have collected : e.Collected := by
    have each (ops : List (Operation σ)) (x : Editor σ) (hx : x.Collected)
        (internal : ∀ op ∈ ops, op.Internal) : (x.run ops).Collected := by
      induction ops generalizing x with
      | nil => exact hx
      | cons op rest ih =>
          obtain ⟨first, internal⟩ := List.forall_mem_cons.1 internal
          exact ih _ (hx.apply first) internal
    exact each ops _ (collected_create host state) internal
  have handles : e.store.handles = [] :=
    Moves.run (P := fun x => x.store.handles = []) (fun _ _ => Moves.handles) rfl internal
  refine ⟨fun settings => (e.updateFromSettings_repaired settings).symm, fun layers => ?_⟩
  obtain ⟨same, errors⟩ := e.mergeLayer_repaired "keymaps" layers
  refine ⟨errors, same, fun mode hm failed => ?_⟩
  obtain ⟨K, confined⟩ := Moves.run (P := fun x => ∃ K, x.Confined mode K [])
    (fun _ _ moves h => exists_confined_of_moves h moves) (exists_confined_create host state hm) internal
  refine confined.keepsKeymap_mergeLayer collected handles ?_
  rw [KeymapLayers.get?_repaired]
  rw [KeymapLayers.failure?] at failed
  cases hc : layers.get? mode with
  | none => rfl
  | some config =>
      rw [hc, Option.bind_some, ne_eq, Option.map_eq_none_iff] at failed
      rw [Option.filter_some, if_neg]
      exact mt Option.isNone_iff_eq_none.1 failed

/-- Normal mode keeps the keymap of a preset, and what has been typed, when a layer fails for it. -/
theorem failures_isolated_while_pending :
    let ops : List (Operation Record) := [.applyPreset .simple, .inputKey 'd' 0]
    let e := (create Host.commandRecorder []).run ops
    let layers : KeymapLayers := {
      normal := some (.object [("d", .object [("x", .string "cut")]), ("e", .null)])
      visual := some (.object [("x", .string "cut")]) }
    (∀ op ∈ ops, op.Internal) ∧ (e.updateKeymaps layers).2.length = 1 ∧
      KeepsKeymap .normal e (e.updateKeymaps layers).1 := by
  intro ops e layers
  have internal : ∀ op ∈ ops, op.Internal := by simp [ops, Operation.Internal]
  obtain ⟨-, isolated⟩ := failures_isolated Host.commandRecorder [] internal
  obtain ⟨errors, -, keeps⟩ := isolated layers
  have failed : (layers.failures "keymaps").length = 1 := by decide +kernel
  have normal : (layers.failure? "keymaps" .normal).isSome := by decide +kernel
  refine ⟨internal, errors ▸ failed, keeps .normal (by decide) ?_⟩
  exact Option.isSome_iff_ne_none.1 normal

end Editor

end ModalKeys
