import ModalKeys.Proofs.Keymap.References
import ModalKeys.Proofs.Modal.Freeing

/-!
# Back references of a modal

A modal holds on to the layers that have been merged into it, so that back references to a layer as a
whole go on leading there. A back reference to a nested keymap of a layer is only good in the first
layer, which is copied as it is. In a later layer that keymap may be merged into one of an earlier layer
and then be overwritten by way of an alias.
-/

namespace ModalKeys

variable {σ : Type}

theorem Store.Guarded.of_mem {α : Type} {s : Store α} {Around : KeymapId → KeymapId → Prop}
    {layers layers' : List KeymapId} (h : s.Guarded Around layers)
    (mem : ∀ id, id ∈ layers' ↔ id ∈ layers) : s.Guarded Around layers' where
  back id key target hs := (h.back id key target hs).imp_left (mem target).2
  inner := h.inner
  nested := h.nested
  outer x layer hl := h.outer x layer ((mem layer).1 hl)

/-- A key leaves the root and the layers alone, and leads to a keymap that is there. -/
theorem Matcher.onKey_keeps (m : Matcher σ) (s : Store (Action σ)) (key : Char)
    (deadline : Option Nat) : (m.onKey s key deadline).1.root = m.root ∧
      (m.onKey s key deadline).1.layers = m.layers ∧
      ∀ id, (m.onKey s key deadline).1.current = some id → s.alive id := by
  unfold onKey
  split
  · next next hl =>
      refine ⟨rfl, rfl, ?_⟩
      rintro _ ⟨⟩
      exact Store.alive_of_lookup hl
  · exact ⟨rfl, rfl, nofun⟩
  · exact ⟨rfl, rfl, nofun⟩

namespace Standalone

/-- What a modal holds is there, and so is what back references lead to: a layer, or a keymap around the
one with the back reference. The keymaps in `extra` are layers that have not been merged yet. -/
structure Anchored (m : Standalone σ) (matcher : Matcher σ) (extra : List KeymapId)
    (Around : KeymapId → KeymapId → Prop) : Prop where
  matcher? : m.modal.matcher? = some matcher
  sound : m.store.Sound
  handles : ∀ id ∈ extra, id ∈ m.store.handles
  alive : ∀ id ∈ extra ++ matcher.held, m.store.alive id
  guarded : m.store.Guarded Around (extra ++ matcher.root :: matcher.layers)
  lt : ∀ x y : Nat, Around x y → x < m.store.next ∧ y < m.store.next

namespace Anchored

variable {m m' : Standalone σ} {matcher matcher' : Matcher σ} {extra : List KeymapId}
  {Around : KeymapId → KeymapId → Prop}

theorem root? (h : m.Anchored matcher extra Around) : m.modal.root? = some matcher.root := by
  rw [Modal.root?, h.matcher?]
  rfl

theorem held (h : m.Anchored matcher extra Around) : m.modal.held = matcher.held := by
  rw [Modal.held, h.matcher?]
  rfl

theorem alive_root (h : m.Anchored matcher extra Around) : m.store.alive matcher.root :=
  h.alive _ (List.mem_append_right _ List.mem_cons_self)

theorem alive_layer (h : m.Anchored matcher extra Around) {id : KeymapId}
    (hid : id ∈ extra ++ matcher.root :: matcher.layers) : m.store.alive id := by
  apply h.alive
  simp only [Matcher.held, List.mem_append, List.mem_cons, List.cons_append] at hid ⊢
  tauto

/-- Every key of a keymap that can be reached leads somewhere. -/
theorem isSome_lookup (h : m.Anchored matcher extra Around) {keys : List Char} {id : KeymapId}
    (hw : m.store.walk matcher.root keys = some (.keymap id)) {key : Char}
    (hk : key ∈ m.store.keys id) : (m.store.lookup id key).isSome :=
  h.guarded.isSome_lookup h.sound (fun _ => h.alive_layer)
    (List.mem_append_right _ List.mem_cons_self) hw hk

theorem release (h : m.Anchored matcher extra Around) :
    m.release.Anchored matcher extra Around where
  matcher? := h.matcher?
  sound := h.sound.release _
  handles id hid := by
    show id ∈ (m.store.release m.modal.held).handles
    rw [Store.handles_release]
    exact h.handles id hid
  alive id hid := by
    have kept : (m.store.release m.modal.held).keymap? id = m.store.keymap? id := by
      refine Store.retains_release ?_ id .self
      rw [h.held]
      simp only [List.mem_append] at hid ⊢
      exact hid.imp_left (h.handles id)
    exact (Store.alive_of_agree kept).trans (h.alive id hid)
  guarded := h.guarded.release _
  lt x y hx := by
    show x < (m.store.release m.modal.held).next ∧ y < (m.store.release m.modal.held).next
    rw [Store.next_release]
    exact h.lt x y hx

/-- Another state of the matcher, with the same root and layers. -/
theorem of_matcher (h : m.Anchored matcher extra Around) {modal : Modal σ}
    (hm : modal.matcher? = some matcher') (root : matcher'.root = matcher.root)
    (layers : matcher'.layers = matcher.layers)
    (current : ∀ id, matcher'.current = some id → m.store.alive id) :
    Standalone.Anchored ⟨m.store, modal⟩ matcher' extra Around where
  matcher? := hm
  sound := h.sound
  handles := h.handles
  alive id hid := by
    by_cases hc : matcher'.current = some id
    · exact current id hc
    · apply h.alive_layer
      simp only [Matcher.held, root, layers, List.cons_append, List.mem_cons, List.mem_append,
        Option.mem_toList] at hid ⊢
      tauto
  guarded := by
    rw [root, layers]
    exact h.guarded
  lt := h.lt

/-! ## Layers -/

/-- Loading a configuration. New keymaps lead to new ones only, and unless the configuration is `deep`
nothing lies around them. -/
theorem load (h : m.Anchored matcher [] Around) {config : Json} {layer : KeymapId}
    (hl : m.load config = .ok (layer, m')) (deep : Bool)
    (outermost : Config.everyBack (fun depth n => deep || n + 1 == depth) config) :
    ∃ Around', m'.Anchored matcher [layer] Around' ∧ layer = m.store.next ∧
      (∀ (id : Nat) key slot (x : Nat), m.store.next ≤ id → m'.store.slot? id key = some slot →
        slot.binding.keymap? = some x → m.store.next ≤ x) ∧
      (deep = false → ∀ x id : Nat, m.store.next ≤ id → ¬Around' x id) := by
  obtain ⟨s, hc, rfl⟩ := load_eq_ok hl
  have new := Store.extends_of_compile hc
  have old (id : Nat) (hid : id ∈ matcher.held) : id < m.store.next :=
    Store.lt_next_of_alive (h.alive id hid)
  obtain ⟨sound, alive⟩ := h.sound.compile hc
  obtain ⟨Around', guarded, lt, shallow⟩ := h.guarded.exists_compile h.sound
    (fun id hid => Store.lt_next_of_alive (h.alive_layer hid)) h.lt deep outermost hc
  have anchored : Standalone.Anchored ⟨s.hold layer, m.modal⟩ matcher [layer] Around' :=
    { matcher? := h.matcher?
      sound := sound
      handles := by simp [Store.hold]
      alive := by
        refine List.forall_mem_cons.2 ⟨alive, fun id hid => ?_⟩
        have kept := new.keymap? id (old id hid)
        exact (Store.alive_of_agree kept).trans (h.alive id hid)
      guarded := guarded.of_slots fun _ _ _ hs => hs
      lt := lt }
  refine ⟨Around', anchored.release, Store.eq_next_of_compile hc, ?_, shallow⟩
  intro id key slot x hid hs hx
  exact (new.inside id key slot x hid
    (((s.hold layer).within_release m.modal.held).slot? hs) hx).1

/-- Merging a layer that leaves the back references guarded. -/
theorem updateKeymap {layer : KeymapId} (h : m.Anchored matcher [layer] Around)
    (guarded : (m.store.merge (layer :: m.modal.held) matcher.root layer).Guarded Around
      (layer :: matcher.root :: matcher.layers)) :
    (m.updateKeymap layer).Anchored { matcher with layers := layer :: matcher.layers } [] Around := by
  have held : ∀ id ∈ layer :: m.modal.held, m.store.alive id := by
    rw [h.held]
    exact h.alive
  obtain ⟨sound, alive⟩ := h.sound.merge h.alive_root (h.alive layer List.mem_cons_self) held
  rw [updateKeymap_eq h.root?]
  refine Anchored.release ⟨?_, sound, nofun, ?_, ?_, ?_⟩
  · show (m.modal.mapMatcher _).matcher? = _
    rw [Modal.matcher?_mapMatcher, h.matcher?]
    rfl
  · intro id hid
    refine alive id ?_
    rw [h.held]
    simp only [Matcher.held, List.nil_append, List.cons_append, List.mem_cons,
      List.mem_append] at hid ⊢
    tauto
  · refine guarded.of_mem fun id => ?_
    simp only [List.nil_append, List.mem_cons]
    tauto
  · intro x y hx
    show x < (m.store.merge _ _ _).next ∧ y < (m.store.merge _ _ _).next
    rw [Store.next_merge]
    exact h.lt x y hx

theorem drop (h : m.Anchored matcher [] Around) (layer : KeymapId) :
    (m.drop layer).Anchored matcher [] Around :=
  Anchored.release (m := ⟨m.store.drop layer, m.modal⟩)
    ⟨h.matcher?, h.sound, nofun, h.alive, h.guarded.of_slots fun _ _ _ hs => hs, h.lt⟩

/-- A further layer, with back references to itself as a whole only or into a root without keys. -/
theorem addLayer (h : m.Anchored matcher [] Around) {config : Json} (deep : Bool)
    (keyless : deep → ∀ key, m.store.slot? matcher.root key = none)
    (outermost : Config.everyBack (fun depth n => deep || n + 1 == depth) config) :
    ∃ matcher' Around', (m.addLayer config).Anchored matcher' [] Around' ∧
      matcher'.root = matcher.root := by
  rw [Standalone.addLayer]
  cases hl : m.load config with
  | error e => exact ⟨matcher, Around, h, rfl⟩
  | ok r =>
      obtain ⟨layer, m'⟩ := r
      obtain ⟨Around', h', rfl, inside, shallow⟩ := h.load hl deep outermost
      refine ⟨_, Around', (h'.updateKeymap ?_).drop m.store.next, rfl⟩
      cases deep with
      | true =>
          refine h'.guarded.merge_keyless _ (fun key => ?_) List.mem_cons_self
          rw [Store.slot?_of_agree (keymap?_root_load hl h.root? h.alive_root)]
          exact keyless rfl key
      | false =>
          exact h'.guarded.merge_new _ inside (fun x id => shallow rfl x id) (Nat.le_refl _)

theorem feed (h : m.Anchored matcher [] Around) {input : Input}
    (outermost : ∀ config, input = .layer config →
      Config.everyBack (fun depth n => n + 1 == depth) config) :
    ∃ matcher' Around', (m.feed input).Anchored matcher' [] Around' ∧
      matcher'.root = matcher.root := by
  have reset (modal : Modal σ) (hm : modal.matcher? = m.modal.matcher?.map Matcher.reset) :
      (Standalone.release ⟨m.store, modal⟩).Anchored matcher.reset [] Around := by
    have hm : modal.matcher? = some matcher.reset := by
      rw [hm, h.matcher?]
      rfl
    exact (h.of_matcher hm rfl rfl nofun).release
  cases input with
  | layer config => exact h.addLayer false nofun (outermost config rfl)
  | key key now =>
      have hm := (Modal.onKey_of_matcher? h.matcher? m.store key now).2.1
      obtain ⟨root, layers, current⟩ :=
        matcher.onKey_keeps m.store key (m.modal.wait.map (now + ·))
      exact ⟨_, Around, (h.of_matcher hm root layers current).release, root⟩
  | timeout now =>
      have step : m.feed (.timeout now) =
          Standalone.release ⟨m.store, (m.modal.onTimeout now).1⟩ := rfl
      rcases m.modal.onTimeout_cases now with ht | ⟨_, _, ht⟩
      · rw [step, ht]
        exact ⟨matcher, Around, h.release, rfl⟩
      · rw [step, ht]
        exact ⟨matcher.reset, Around, reset _ (Modal.matcher?_mapMatcher _ _), rfl⟩
  | reset => exact ⟨matcher.reset, Around, reset _ m.modal.matcher?_reset, rfl⟩

theorem foldl_feed (h : m.Anchored matcher [] Around) {inputs : List Input}
    (outermost : ∀ config, .layer config ∈ inputs →
      Config.everyBack (fun depth n => n + 1 == depth) config) :
    ∃ matcher' Around', (inputs.foldl Standalone.feed m).Anchored matcher' [] Around' ∧
      matcher'.root = matcher.root := by
  induction inputs generalizing m matcher Around with
  | nil => exact ⟨matcher, Around, h, rfl⟩
  | cons input inputs ih =>
      have first : ∀ config, input = .layer config →
          Config.everyBack (fun depth n => n + 1 == depth) config := by
        rintro config rfl
        exact outermost config List.mem_cons_self
      obtain ⟨matcher₁, Around₁, h₁, root₁⟩ := h.feed first
      obtain ⟨matcher₂, Around₂, h₂, root₂⟩ :=
        ih h₁ fun config hc => outermost config (List.mem_cons_of_mem _ hc)
      exact ⟨matcher₂, Around₂, h₂, root₂.trans root₁⟩

/-- A modal as it is created. -/
theorem create (name : String) (timeout : Option Nat) {kind : KeymapId → ModalKind σ}
    (hm : (Standalone.create name timeout kind).modal.matcher? = some { root := 0 }) :
    (∀ id key, (Standalone.create name timeout kind).store.slot? id key = none) ∧
      (Standalone.create name timeout kind).Anchored { root := 0 } [] fun _ _ => False := by
  have keyless (id : KeymapId) (key : Char) :
      (Standalone.create name timeout kind).store.slot? id key = none := by
    show ((default : Store (Action σ)).create none none).2.slot? id key = none
    rw [Store.slot?_create]
    split
    · rfl
    · rfl
  have absent {id : KeymapId} {key : Char} {slot : Slot (Action σ)} :
      (Standalone.create name timeout kind).store.slot? id key ≠ some slot := by
    rw [keyless]
    exact nofun
  refine ⟨keyless, hm, fun _ _ _ _ hs => absurd hs absent, nofun, ?_, ?_, nofun⟩
  · intro id hid
    obtain rfl : id = 0 := by simpa [Matcher.held] using hid
    exact Store.alive_of_keymap? (Store.keymap?_create_self default none none)
  · exact ⟨fun _ _ _ hs => absurd hs absent, fun _ _ _ _ _ hs => absurd hs absent, nofun, nofun⟩

end Anchored

/-- Configurations are merged into a new modal, the first one with any back references, the others with
back references to themselves as a whole only. However many there are, and whatever keys are typed in
between, each key of each keymap that can be reached leads somewhere. -/
theorem isSome_lookup_of_walk (name : String) (timeout : Option Nat) (first : Json)
    (rest : List Input) (m₀ : Standalone σ) (h₀ : m₀ = keymap name timeout ∨ m₀ = visual name timeout)
    (outermost : ∀ config, .layer config ∈ rest →
      Config.everyBack (fun depth n => n + 1 == depth) config) :
    let m := (Input.layer first :: rest).foldl feed m₀
    ∃ root, m.modal.root? = some root ∧ ∀ keys id, m.store.walk root keys = some (.keymap id) →
      ∀ key ∈ m.store.keys id, (m.store.lookup id key).isSome := by
  intro m
  have start : (∀ id key, m₀.store.slot? id key = none) ∧
      m₀.Anchored { root := 0 } [] fun _ _ => False := by
    rcases h₀ with rfl | rfl
    · exact Anchored.create name timeout rfl
    · exact Anchored.create name timeout rfl
  obtain ⟨matcher₁, Around₁, h₁, -⟩ := start.2.addLayer true
    (fun _ => start.1 0) (Config.everyBack_true first)
  obtain ⟨matcher, Around, h, -⟩ := h₁.foldl_feed outermost
  exact ⟨matcher.root, h.root?, fun keys id hw key hk => h.isSome_lookup hw hk⟩

/-- The first layer refers back to a nested keymap of its own, and the second one, merged into the same
keys, to itself as a whole. -/
theorem isSome_lookup_of_walk_two_layers :
    ∃ (first : Json) (rest : List Input) (m₀ : Standalone Unit), m₀ = keymap "Normal" none ∧
      (∀ config, .layer config ∈ rest → Config.everyBack (fun depth n => n + 1 == depth) config) ∧
      ∃ root, ((Input.layer first :: rest).foldl feed m₀).modal.root? = some root ∧ ∀ keys id,
        ((Input.layer first :: rest).foldl feed m₀).store.walk root keys = some (.keymap id) →
        ∀ key ∈ ((Input.layer first :: rest).foldl feed m₀).store.keys id,
          (((Input.layer first :: rest).foldl feed m₀).store.lookup id key).isSome := by
  let first : Json := .object [("x", .object [("y", .object [("b", .number (.integer (-1)))])])]
  let second : Json := .object [
    ("x", .object [("y", .object [("r", .number (.integer (-2)))])]),
    ("l", .number (.integer 0))]
  let rest : List Input := [.key 'x' 0, .layer second]
  have outermost : ∀ config, .layer config ∈ rest →
      Config.everyBack (fun depth n => n + 1 == depth) config := by
    intro config hc
    simp only [rest, List.mem_cons, Input.layer.injEq, reduceCtorEq, List.not_mem_nil, or_false,
      false_or] at hc
    subst hc
    decide +kernel
  exact ⟨first, rest, _, rfl, outermost,
    isSome_lookup_of_walk "Normal" none first rest _ (Or.inl rfl) outermost⟩

/-! ## A back reference that leads nowhere -/

/-- The modal when a configuration has been merged and nothing has been released since, with as many
steps for the merge as are given, and the new layer. -/
def mergedWithin (n : Nat) (m : Standalone σ) (config : Json) : Option (KeymapId × Standalone σ) :=
  match m.load config with
  | .ok (layer, m) => m.modal.root?.map fun root => (layer, {
      store := (m.store.mergeWithin n (layer :: m.modal.held) root layer).store
      modal := m.modal.mapMatcher fun matcher =>
        { matcher with layers := layer :: matcher.layers } })
  | .error _ => none

theorem addLayer_eq_drop_release {n : Nat} {m merged : Standalone σ} {config : Json}
    {layer : KeymapId} (fits : m.mergesWithin n config)
    (h : m.mergedWithin n config = some (layer, merged)) :
    m.addLayer config = merged.release.drop layer := by
  rw [mergedWithin] at h
  split at h
  · next layer' m' hl =>
      obtain ⟨root, hroot, h⟩ := Option.map_eq_some_iff.1 h
      cases h
      rw [addLayer_eq_addLayerWithin fits, addLayerWithin, hl]
      dsimp only
      rw [hroot]
  · cases h

/-- The third configuration is merged into the second one by way of an alias, and overwrites a nested
keymap there that a back reference leads to. The keymap with the back reference is part of the first
configuration by then, and can still be reached. -/
theorem lookup_eq_none_of_overwritten :
    ∃ first second third : Json, ∃ (keys : List Char) (id : KeymapId) (key : Char),
      let m₀ : Standalone Unit := keymap "Normal" none
      let m := [Input.layer first, .layer second, .layer third].foldl feed m₀
      (∃ r, m₀.load first = .ok r) ∧ (∃ r, (m₀.addLayer first).load second = .ok r) ∧
      (∃ r, ((m₀.addLayer first).addLayer second).load third = .ok r) ∧
      m.modal.root? = some 0 ∧ m.store.walk 0 keys = some (.keymap id) ∧ key ∈ m.store.keys id ∧
      m.store.lookup id key = none := by
  let first : Json := .object [("x", .object [])]
  let second : Json := .object [
    ("x", .object [("y", .object [("b", .number (.integer (-1)))])]),
    ("l", .number (.integer 0))]
  let third : Json := .object [("l", .object [("x", .string "cmd")])]
  let m₀ : Standalone Unit := keymap "Normal" none
  have fits₁ : m₀.mergesWithin 40 first := by decide +kernel
  have fits₂ : (m₀.addLayerWithin 40 first).mergesWithin 40 second := by decide +kernel
  have fits₃ : ((m₀.addLayerWithin 40 first).addLayerWithin 40 second).mergesWithin 40 third := by
    decide +kernel
  -- keymap 2 is at x, keymap 5 at xy, and keymap 4, which was at x in the second layer, has no owner
  have check : (((m₀.addLayerWithin 40 first).addLayerWithin 40 second).mergedWithin 40 third).any
      fun r => r.2.modal.root? == some 0 && (r.2.store.slot? 0 'x').bind Slot.owned? == some 2 &&
        (r.2.store.slot? 2 'y').bind Slot.owned? == some 5 &&
        (r.2.store.slot? 5 'b').bind Slot.alias? == some 4 &&
        !(r.2.store.held (r.2.store.handles ++ r.2.modal.held)).contains 4 := by
    decide +kernel
  rw [← addLayer_eq_addLayerWithin fits₁] at fits₂ fits₃ check
  rw [← addLayer_eq_addLayerWithin fits₂] at fits₃ check
  obtain ⟨⟨layer, merged⟩, hmerged, check⟩ := (Option.any_eq_true _ _).1 check
  simp only [Bool.and_eq_true, beq_iff_eq, Bool.not_eq_true'] at check
  obtain ⟨⟨⟨⟨hroot, hx⟩, hy⟩, hb⟩, free⟩ := check
  let m : Standalone Unit := [Input.layer first, .layer second, .layer third].foldl feed m₀
  have final : m = merged.release.drop layer := addLayer_eq_drop_release fits₃ hmerged
  have held : 0 ∈ merged.modal.held := Modal.root_mem_held hroot
  -- all that the root owns has stayed
  have retained : merged.store.Retains 0 m.store := by
    rw [final]
    have dropped : (merged.store.release merged.modal.held).Retains 0
        ((merged.store.release merged.modal.held).drop layer) := fun _ _ => rfl
    exact ((Store.retains_release (List.mem_append_right _ held)).trans dropped).trans
      (Store.retains_release (List.mem_append_right _ held))
  have owns₂ : merged.store.Owns 0 2 := Store.Owns.self.of_slot? hx
  have owns₅ : merged.store.Owns 0 5 := owns₂.of_slot? hy
  rw [← Store.slot?_of_agree (retained 0 .self)] at hx
  rw [← Store.slot?_of_agree (retained 2 owns₂)] at hy
  rw [← Store.slot?_of_agree (retained 5 owns₅)] at hb
  have gone : ¬m.store.alive 4 := by
    have within : (merged.release.drop layer).store.Within merged.release.store :=
      Store.within_release _ _
    rw [final]
    exact fun alive => Store.not_alive_release free (within.alive alive)
  refine ⟨first, second, third, ['x', 'y'], 5, 'b', exists_load_of_mergesWithin fits₁,
    exists_load_of_mergesWithin fits₂, exists_load_of_mergesWithin fits₃, ?_, ?_, ?_, ?_⟩
  · exact root?_foldl_feed rfl _
  · have alive₂ : m.store.alive 2 := Store.alive_of_slot? hy
    have alive₅ : m.store.alive 5 := Store.alive_of_slot? hb
    rw [Store.walk, Store.lookup_of_owned? hx alive₂]
    exact Store.walk_singleton (Store.lookup_of_owned? hy alive₅)
  · obtain ⟨slot, hs, -⟩ := Option.bind_eq_some_iff.1 hb
    exact Store.mem_keys.2 (Option.isSome_of_eq_some hs)
  · obtain ⟨slot, hs, ha⟩ := Option.bind_eq_some_iff.1 hb
    show (m.store.slot? 5 'b').bind m.store.resolve = none
    rw [hs, Option.bind_some]
    rcases slot with binding | target
    · cases ha
    · cases ha
      exact if_neg gone

end Standalone

end ModalKeys
