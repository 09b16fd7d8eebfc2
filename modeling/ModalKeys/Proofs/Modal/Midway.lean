import ModalKeys.Proofs.Keymap.Copying
import ModalKeys.Proofs.Modal.Layers
import ModalKeys.Proofs.Modal.Segmentation

/-!
# Merging a layer while keys are awaited

A modal that waits for a further key stands on one of the keymaps below its root, and a layer that is
merged in the meantime changes these keymaps in place. The nodes of the root's tree that are merged with a
node of the layer stay the same keymaps. So the modal stands where its keys lead, unless the layer has
taken one of them for an action, and the next key goes on in the merged tree.
-/

namespace ModalKeys

variable {α σ : Type}

namespace KeyTree

/-- A node outlasts a merge where it stands, unless the incoming tree has a leaf there or on the way. -/
theorem at?_merge_node_iff {t u : KeyTree α} {keys : List Char} {id : KeymapId}
    {child : Char → Option (KeyTree α)} (h : t.at? keys = some (node id child)) :
    (∃ child', (merge t u).at? keys = some (node id child')) ↔
      ∀ shorter, shorter <+: keys → ∀ slot, u.at? shorter ≠ some (leaf slot) := by
  induction keys generalizing t u with
  | nil =>
      cases h
      cases u with
      | leaf slot =>
          constructor
          · rintro ⟨child', h'⟩
            cases h'
          · exact fun free => (free [] List.nil_prefix slot rfl).elim
      | node b theirs =>
          refine ⟨fun _ shorter le slot => ?_, fun _ => ⟨_, rfl⟩⟩
          rw [List.prefix_nil.1 le]
          exact nofun
  | cons key keys ih =>
      cases t with
      | leaf slot => cases h
      | node a ours =>
          obtain ⟨t', ht, h⟩ := Option.bind_eq_some_iff.1 h
          cases u with
          | leaf slot =>
              constructor
              · rintro ⟨child', h'⟩
                cases h'
              · exact fun free => (free [] List.nil_prefix slot rfl).elim
          | node b theirs =>
              rw [merge_node, at?_node_cons, show ours key = some t' from ht]
              cases hu : theirs key with
              | none =>
                  -- the incoming tree leaves this branch alone
                  refine ⟨fun _ shorter le slot => ?_, fun _ => ⟨child, h⟩⟩
                  rcases List.prefix_cons_iff.1 le with rfl | ⟨rest, rfl, _⟩
                  · exact nofun
                  · rw [at?_node_cons, hu]
                    exact nofun
              | some u' =>
                  show (∃ child', (merge t' u').at? keys = some (node id child')) ↔ _
                  rw [ih h]
                  constructor
                  · intro free shorter le slot
                    rcases List.prefix_cons_iff.1 le with rfl | ⟨rest, rfl, le_rest⟩
                    · exact nofun
                    · rw [at?_of_child hu]
                      exact free rest le_rest slot
                  · intro free shorter le slot
                    have there := free (key :: shorter) ((List.prefix_cons_inj key).2 le) slot
                    rwa [at?_of_child hu] at there

section EndsInActions

variable {t : KeyTree α} {keys : List Char}

theorem binding_at?_eq_keymap_iff (ends : t.EndsInActions) {id : KeymapId} :
    (t.at? keys).map binding = some (.keymap id) ↔ ∃ child, t.at? keys = some (node id child) := by
  constructor
  · intro h
    obtain ⟨v, hv, hb⟩ := Option.map_eq_some_iff.1 h
    cases v with
    | leaf slot =>
        obtain ⟨tag, act, rfl⟩ := ends keys slot hv
        cases hb
    | node x child =>
        cases hb
        exact ⟨child, hv⟩
  · rintro ⟨child, h⟩
    rw [h]
    rfl

theorem exists_leaf_iff (ends : t.EndsInActions) :
    (∃ slot, t.at? keys = some (leaf slot)) ↔
      ∃ tag act, (t.at? keys).map binding = some (.action tag act) := by
  constructor
  · rintro ⟨slot, h⟩
    obtain ⟨tag, act, rfl⟩ := ends keys slot h
    exact ⟨tag, act, by rw [h]; rfl⟩
  · rintro ⟨tag, act, h⟩
    obtain ⟨v, hv, hb⟩ := Option.map_eq_some_iff.1 h
    cases v with
    | leaf slot => exact ⟨slot, hv⟩
    | node x child => cases hb

end EndsInActions

end KeyTree

/-! ## The next key -/

namespace Matcher

/-- What a matcher does about a key by what it leads to, if it leads to anything. -/
def answer (m : Matcher σ) : Option (Binding (Action σ)) → Resolution σ
  | some (.keymap _) => .pending
  | some (.action _ action) => .run action
  | none => m.unmatched

theorem onKey_eq (m : Matcher σ) (s : Store (Action σ)) (key : Char) (deadline : Option Nat) :
    (m.onKey s key deadline).2 = m.answer (s.lookup (m.current.getD m.root) key) ∧
    (m.onKey s key deadline).1.current =
      (s.lookup (m.current.getD m.root) key).bind Binding.keymap? := by
  unfold onKey
  cases s.lookup (m.current.getD m.root) key with
  | none => exact ⟨rfl, rfl⟩
  | some binding => cases binding <;> exact ⟨rfl, rfl⟩

end Matcher

namespace Standalone

open KeyTree

/-- A modal that stands where its keys lead looks up the next key from there. -/
theorem onKey_of_place {m : Standalone σ} {matcher : Matcher σ} {current : KeymapId}
    (hm : m.modal.matcher? = some matcher) (place : m.place? = some current)
    (reached : m.store.walk matcher.root m.modal.keySeq = some (.keymap current)) (key : Char)
    (now : Nat) :
    (m.onKey key now).2 =
      matcher.answer (m.store.walk matcher.root (m.modal.keySeq ++ [key])) ∧
    (m.onKey key now).1.place? =
      (m.store.walk matcher.root (m.modal.keySeq ++ [key])).bind Binding.keymap? := by
  have here : matcher.current.getD matcher.root = current := by
    rw [place?, hm] at place
    rw [show matcher.current = some current from place]
    rfl
  obtain ⟨_, hm', hr⟩ := Modal.onKey_of_matcher? hm m.store key now
  obtain ⟨resolution, moved⟩ :=
    matcher.onKey_eq m.store key (m.modal.wait.map (now + ·))
  rw [here] at resolution moved
  rw [Store.walk_concat reached]
  refine ⟨hr.trans resolution, ?_⟩
  show (m.modal.onKey m.store key now).1.matcher?.bind (·.current) = _
  rw [hm']
  exact moved

/-- The modal stands where it stood, with the same keys and the same time left. -/
theorem place?_updateKeymap {m : Standalone σ} {matcher : Matcher σ}
    (hm : m.modal.matcher? = some matcher) (layer : KeymapId) :
    (m.updateKeymap layer).modal.matcher? =
        some { matcher with layers := layer :: matcher.layers } ∧
      (m.updateKeymap layer).modal.keySeq = m.modal.keySeq ∧
      (m.updateKeymap layer).modal.deadline = m.modal.deadline ∧
      (m.updateKeymap layer).place? = m.place? := by
  have hroot : m.modal.root? = some matcher.root := by
    rw [Modal.root?, hm]
    rfl
  have hm' : (m.updateKeymap layer).modal.matcher? =
      some { matcher with layers := layer :: matcher.layers } := by
    rw [updateKeymap_eq hroot]
    show (m.modal.mapMatcher _).matcher? = _
    rw [Modal.matcher?_mapMatcher, hm]
    rfl
  refine ⟨hm', ?_, ?_, ?_⟩
  · rw [updateKeymap_eq hroot]
    rfl
  · rw [Modal.deadline, hm', Modal.deadline, hm]
    rfl
  · rw [place?, hm', place?, hm]
    rfl

theorem alive_place_updateKeymap {m : Standalone σ} {matcher : Matcher σ} {current : KeymapId}
    (hm : m.modal.matcher? = some matcher) (place : m.place? = some current)
    (alive : m.store.alive current) (layer : KeymapId) :
    (m.updateKeymap layer).store.alive current := by
  have hroot : m.modal.root? = some matcher.root := by
    rw [Modal.root?, hm]
    rfl
  have held : ∀ {modal : Modal σ} {x : Matcher σ}, modal.matcher? = some x →
      x.current = some current → current ∈ modal.held := by
    intro modal x hx hc
    rw [Modal.held, hx, Option.map_some, Option.getD_some, Matcher.held, hc]
    simp
  have here : matcher.current = some current := by
    rw [place?, hm] at place
    exact place
  have merged := Store.alive_merge_of_mem
    (List.mem_cons_of_mem layer (held hm here)) alive matcher.root layer
  rw [updateKeymap_eq hroot]
  refine (Store.alive_of_agree (Store.keymap?_release_of_mem ?_)).trans merged
  refine held (x := { matcher with layers := layer :: matcher.layers }) ?_ here
  rw [Modal.matcher?_mapMatcher, hm]
  rfl

/-- Merging a layer while a modal waits for a further key, where the layer and the root keymap are trees
that share nothing. The modal stands where it stood, with the same keys and the same time left. Its keys
lead to the same keymap from the root, except when the layer binds some of them, from the first one on, to an
action. If they do, the next key comes to what the merged tree says for all of the keys. -/
theorem onKey_updateKeymap (m : Standalone σ) (matcher : Matcher σ) (layer current : KeymapId)
    (hm : m.modal.matcher? = some matcher) (place : m.place? = some current)
    (reached : m.store.walk matcher.root m.modal.keySeq = some (.keymap current))
    (held : layer ∈ m.store.handles) (treelike_root : m.store.Treelike matcher.root)
    (treelike_layer : m.store.Treelike layer)
    (apart : ∀ id, m.store.Owns matcher.root id → ¬m.store.Owns layer id) :
    let merged := m.updateKeymap layer
    let keySeq := m.modal.keySeq
    (merged.modal.keySeq = keySeq ∧ merged.modal.deadline = m.modal.deadline ∧
      merged.place? = some current ∧ merged.store.alive current) ∧
    (merged.store.walk matcher.root keySeq = some (.keymap current) ↔
      ∀ keys, keys ≠ [] → keys <+: keySeq → ∀ tag action,
        m.store.walk layer keys ≠ some (.action tag action)) ∧
    ∃ t u : KeyTree (Action σ),
      ((∃ child, t = node matcher.root child) ∧ m.store.Spans t ∧ t.EndsInActions) ∧
      ((∃ child, u = node layer child) ∧ m.store.Spans u ∧ u.EndsInActions) ∧
      (merged.store.walk matcher.root keySeq = some (.keymap current) → ∀ key now,
        (merged.onKey key now).2 =
          matcher.answer (((t.merge u).at? (keySeq ++ [key])).map binding) ∧
        (merged.onKey key now).1.place? =
          (((t.merge u).at? (keySeq ++ [key])).map binding).bind Binding.keymap?) := by
  intro merged keySeq
  obtain ⟨ours, spans, ends, unshared⟩ := treelike_root.exists_spans
  obtain ⟨theirs, spans', ends', unshared'⟩ := treelike_layer.exists_spans
  let t : KeyTree (Action σ) := node matcher.root ours
  let u : KeyTree (Action σ) := node layer theirs
  have root : m.RootSpans matcher.root t :=
    ⟨by rw [Modal.root?, hm]; rfl, ⟨_, rfl⟩, spans, ends, unshared⟩
  have incoming : Layer m.store layer u := ⟨held, ⟨_, rfl⟩, spans', ends', unshared'⟩
  obtain ⟨after, -, -⟩ := root.updateKeymap incoming fun id hid hid' =>
    apart id ((spans.mem_iff_owns ends).1 hid) (incoming.mem_iff_owns.1 hid')
  have walks : ∀ keys, merged.store.walk matcher.root keys =
      ((t.merge u).at? keys).map binding := after.spans.walk_eq after.ends
  obtain ⟨hm', same_keys, same_deadline, same_place⟩ := place?_updateKeymap hm layer
  -- the node on which the modal stands, in the tree of the root
  obtain ⟨below, standing⟩ : ∃ child, t.at? keySeq = some (node current child) := by
    rw [spans.walk_eq ends] at reached
    exact (binding_at?_eq_keymap_iff ends).1 reached
  have alive : m.store.alive current := (spans keySeq current below standing).1
  refine ⟨⟨same_keys, same_deadline, same_place.trans place,
    alive_place_updateKeymap hm place alive layer⟩, ?_, t, u, ⟨⟨_, rfl⟩, spans, ends⟩,
    ⟨⟨_, rfl⟩, spans', ends'⟩, ?_⟩
  · rw [walks, binding_at?_eq_keymap_iff after.ends, at?_merge_node_iff standing]
    constructor
    · intro free keys _ le tag action there
      rw [spans'.walk_eq ends'] at there
      obtain ⟨slot, leaf⟩ := (exists_leaf_iff ends').2 ⟨tag, action, there⟩
      exact free keys le slot leaf
    · intro free keys le slot leaf
      obtain ⟨tag, action, there⟩ := (exists_leaf_iff ends').1 ⟨slot, leaf⟩
      rw [← spans'.walk_eq ends'] at there
      refine free keys ?_ le tag action there
      rintro rfl
      have top : some (node layer theirs) = some (KeyTree.leaf slot) := leaf
      cases top
  · intro still key now
    have next := onKey_of_place hm' (same_place.trans place)
      (by rw [same_keys]; exact still) key now
    rw [same_keys] at next
    rw [← walks]
    exact next

/-- One key of two has been typed when a layer is merged that binds another key to follow it. -/
theorem onKey_updateKeymap_nested_layer :
    ∃ (m : Standalone Unit) (matcher : Matcher Unit) (layer current : KeymapId),
      m.modal.keySeq = ['g'] ∧ m.modal.matcher? = some matcher ∧ m.place? = some current ∧
      m.store.walk matcher.root m.modal.keySeq = some (.keymap current) ∧
      layer ∈ m.store.handles ∧ m.store.Treelike matcher.root ∧ m.store.Treelike layer ∧
      (∀ id, m.store.Owns matcher.root id → ¬m.store.Owns layer id) ∧
      (m.updateKeymap layer).store.walk matcher.root ['g'] = some (.keymap current) ∧
      ∃ t u : KeyTree (Action Unit), ∀ key now, ((m.updateKeymap layer).onKey key now).2 =
        matcher.answer (((t.merge u).at? ['g', key]).map binding) := by
  let first := [("g", Json.object [("g", .string "top"), ("x", .string "cut")])]
  let second := [("g", Json.object [("e", .string "end")])]
  let loaded (m : Standalone Unit) (config : Json) : KeymapId × Standalone Unit :=
    match m.load config with
    | .ok r => r
    | .error _ => (0, m)
  let r₁ := loaded (keymap "Normal" (some 100)) (.object first)
  let m₁ := ((r₁.2.map (Modal.setKeymap · r₁.1)).onKey 'g' 0).1
  let r₂ := loaded m₁ (.object second)
  have h₁ : (keymap "Normal" (some 100)).load (.object first) = .ok (r₁.1, r₁.2) := rfl
  have h₂ : m₁.load (.object second) = .ok (r₂.1, r₂.2) := rfl
  obtain ⟨t₁, layer₁, -⟩ := exists_layer_load (Config.plain_of_check (by decide +kernel)) h₁
  obtain ⟨t₂, layer₂, new₂⟩ := exists_layer_load (Config.plain_of_check (by decide +kernel)) h₂
  have before : Layer m₁.store r₁.1 t₁ := (layer₁.release _).release _
  have root : Layer r₂.2.store r₁.1 t₁ := before.load h₂
  have follows : r₂.2.modal.matcher?.isSome := by decide +kernel
  obtain ⟨matcher, hm⟩ := Option.isSome_iff_exists.1 follows
  have same_root : matcher.root = r₁.1 := by
    have there : r₂.2.modal.root? = some r₁.1 := by decide +kernel
    rw [Modal.root?, hm] at there
    exact Option.some.inj there
  have place : r₂.2.place? = some 2 := by decide +kernel
  have leads : r₂.2.store.walk r₁.1 r₂.2.modal.keySeq = some (.keymap 2) := by
    have there : (r₂.2.store.walk r₁.1 r₂.2.modal.keySeq).bind Binding.keymap? = some 2 := by
      decide +kernel
    obtain ⟨binding, hw, hb⟩ := Option.bind_eq_some_iff.1 there
    cases binding with
    | keymap id =>
        cases hb
        exact hw
    | action tag act => cases hb
  have reached : r₂.2.store.walk matcher.root r₂.2.modal.keySeq = some (.keymap 2) := by
    rw [same_root]
    exact leads
  have apart : ∀ id, r₂.2.store.Owns r₁.1 id → ¬r₂.2.store.Owns r₂.1 id := by
    intro id ho ho'
    have old := Store.lt_next_of_alive (before.encloses.alive id (root.mem_iff_owns.2 ho))
    exact absurd (new₂ id (layer₂.mem_iff_owns.2 ho')) (Nat.not_le_of_lt old)
  rw [← same_root] at root apart
  obtain ⟨-, reaches, t, u, -, -, next⟩ := onKey_updateKeymap r₂.2 matcher r₂.1 2 hm place reached
    layer₂.held root.treelike layer₂.treelike apart
  have still := reaches.2 (by
    intro keys some le tag action there
    have all : keys = ['g'] := by
      rcases List.prefix_cons_iff.1 le with rfl | ⟨rest, rfl, le_rest⟩
      · exact (some rfl).elim
      · rw [List.prefix_nil.1 le_rest]
    subst all
    have leads_on : r₂.2.store.LeadsOn r₂.1 ['g'] := by decide +kernel
    obtain ⟨id, hid⟩ := leads_on
    rw [there] at hid
    cases hid)
  exact ⟨r₂.2, matcher, r₂.1, 2, rfl, hm, place, reached, layer₂.held, root.treelike,
    layer₂.treelike, apart, still, t, u, fun key now => (next still key now).1⟩

end Standalone

end ModalKeys
