import ModalKeys.Proofs.Keymap.Tree

/-!
# Keymaps that are trees

A keymap is like a tree if no alias is below it and no keymap below it is at the end of two key
sequences. There is then a tree that the store spans, and the other way round: whatever a tree spans is
like a tree.
-/

namespace ModalKeys

variable {α : Type}

namespace Store

/-- There are no aliases below a keymap, all the keymaps below it are there, and each of them is at the
end of one key sequence only. -/
structure Treelike (s : Store α) (root : KeymapId) : Prop where
  alive : ∀ id, s.Owns root id → s.alive id
  bound : ∀ id key slot, s.Owns root id → s.slot? id key = some slot → slot.alias? = none
  unshared : ∀ keys keys' id, s.walk root keys = some (.keymap id) →
    s.walk root keys' = some (.keymap id) → keys = keys'

/-! ## Walking -/

theorem walk_append {s : Store α} {root id : KeymapId} {keys : List Char}
    (h : s.walk root keys = some (.keymap id)) (more : List Char) :
    s.walk root (keys ++ more) = s.walk id more := by
  induction keys generalizing root with
  | nil =>
      rw [walk] at h
      split at h
      · cases h
        rfl
      · cases h
  | cons key keys ih =>
      rw [List.cons_append, walk]
      rw [walk] at h
      split at h
      · exact ih h
      · split at h
        · cases h
        · cases h
      · cases h

theorem walk_singleton {s : Store α} {id next : KeymapId} {key : Char}
    (h : s.lookup id key = some (.keymap next)) : s.walk id [key] = some (.keymap next) := by
  rw [walk, h]
  dsimp only
  rw [walk, if_pos (alive_of_lookup h)]

theorem lookup_of_ownedAt? {s : Store α} {id next : KeymapId} {km : Keymap α} {key : Char}
    (hkm : s.keymap? id = some km) (hk : km.slots.ownedAt? key = some next) (ha : s.alive next) :
    s.lookup id key = some (.keymap next) := by
  obtain ⟨slot, hs, ho⟩ := Option.bind_eq_some_iff.1 hk
  rw [lookup, slot?_eq hkm, hs]
  unfold Slot.owned? at ho
  split at ho
  · cases ho
    exact if_pos ha
  · cases ho

namespace Treelike

variable {s : Store α} {root : KeymapId}

/-- What is owned is at the end of some keys. -/
theorem exists_walk (h : s.Treelike root) {a b : KeymapId} (ha : s.Owns root a) (hb : s.Owns a b) :
    ∃ keys, s.walk a keys = some (.keymap b) := by
  induction hb with
  | self => exact ⟨[], by rw [walk, if_pos (h.alive a ha)]⟩
  | @step c d km key hc hkm hk ih =>
      obtain ⟨keys, hw⟩ := ih
      have alive := h.alive d ((ha.trans hc).step hkm hk)
      exact ⟨keys ++ [key], (walk_append hw [key]).trans
        (walk_singleton (lookup_of_ownedAt? hkm hk alive))⟩

/-- No keymap owns itself: it would be at the end of its own key sequence and of a longer one. -/
theorem not_ownsInside_self (h : s.Treelike root) {id : KeymapId} (ho : s.Owns root id) :
    ¬s.OwnsInside id id := by
  rintro ⟨km, key, next, hkm, hk, hn⟩
  have below := ho.step hkm hk
  obtain ⟨keys, hw⟩ := h.exists_walk .self ho
  obtain ⟨more, hm⟩ := h.exists_walk below hn
  have round : s.walk id (key :: more) = some (.keymap id) :=
    (walk_append (walk_singleton (lookup_of_ownedAt? hkm hk (h.alive next below))) more).trans hm
  have longer := (walk_append hw (key :: more)).trans round
  have same := congrArg List.length (h.unshared keys (keys ++ key :: more) id hw longer)
  rw [List.length_append, List.length_cons] at same
  omega

end Treelike

end Store

namespace KeyTree

theorem endsInActions_node {id : KeymapId} {child : Char → Option (KeyTree α)}
    (h : ∀ key t, child key = some t → t.EndsInActions) : (node id child).EndsInActions := by
  rintro (_ | ⟨key, keys⟩) slot hs
  · cases hs
  · obtain ⟨t, hc, hs⟩ := Option.bind_eq_some_iff.1 hs
    exact h key t hc keys slot hs

theorem endsInActions_leaf (tag : Nat) (act : α) :
    (leaf (.bound (.action tag act))).EndsInActions := by
  rintro (_ | ⟨key, keys⟩) slot hs
  · cases hs
    exact ⟨tag, act, rfl⟩
  · cases hs

end KeyTree

namespace Store

open KeyTree

variable {s : Store α} {root : KeymapId}

theorem Spans.walk_of_at? {child grand : Char → Option (KeyTree α)} {keys : List Char}
    {id : KeymapId} (h : s.Spans (node root child)) (ends : (node root child).EndsInActions)
    (hx : (node root child).at? keys = some (node id grand)) :
    s.walk root keys = some (.keymap id) := by
  rw [h.walk_eq ends, hx]
  rfl

/-- A keymap that is like a tree is one. -/
theorem Treelike.exists_spans (h : s.Treelike root) : ∃ child, s.Spans (node root child) ∧
    (node root child).EndsInActions ∧ (node root child).Unshared := by
  let Below := { id : KeymapId // s.Owns root id }
  have : Finite Below := by
    refine Finite.of_injective
      (fun c : Below => (⟨c.1, lt_next_of_alive (h.alive c.1 c.2)⟩ : Fin s.next)) ?_
    intro c d hcd
    exact Subtype.ext (Fin.mk.inj hcd)
  let inside (c d : Below) : Prop := s.OwnsInside d.1 c.1
  have : IsTrans Below inside := ⟨fun _ _ _ hab hbc => hbc.trans_owns hab.owns⟩
  have : Std.Irrefl inside := ⟨fun c => h.not_ownsInside_self c.2⟩
  -- by induction from the innermost keymaps outwards
  have build (c : Below) : ∃ child, s.Spans (node c.1 child) ∧
      (node c.1 child).EndsInActions := by
    induction c using (Finite.wellFounded_of_trans_of_irrefl inside).induction with
    | _ c ih =>
      obtain ⟨km, hkm⟩ := alive_iff.1 (h.alive c.1 c.2)
      have at_key (key : Char) : ∃ o : Option (KeyTree α), s.slot? c.1 key = o.map slot ∧
          ∀ t, o = some t → s.Spans t ∧ t.EndsInActions := by
        cases hs : s.slot? c.1 key with
        | none =>
            refine ⟨none, rfl, ?_⟩
            intro t ht
            cases ht
        | some slot =>
            cases slot with
            | aliasOf target => cases h.bound c.1 key _ c.2 hs
            | bound binding =>
                cases binding with
                | action tag act =>
                    refine ⟨some (leaf (.bound (.action tag act))), rfl, ?_⟩
                    intro t ht
                    cases ht
                    exact ⟨spans_leaf _ _, endsInActions_leaf tag act⟩
                | keymap next =>
                    have hk : km.slots.ownedAt? key = some next := by
                      rw [slot?_eq hkm] at hs
                      rw [Slots.ownedAt?, hs]
                      rfl
                    obtain ⟨grand, spans, ends⟩ := ih ⟨next, c.2.step hkm hk⟩
                      ⟨km, key, next, hkm, hk, .self⟩
                    refine ⟨some (node next grand), rfl, ?_⟩
                    intro t ht
                    cases ht
                    exact ⟨spans, ends⟩
      choose child hslot hbelow using at_key
      refine ⟨child, spans_node.2 ⟨⟨h.alive c.1 c.2, hslot⟩, ?_⟩, endsInActions_node ?_⟩
      · exact fun key t ht => (hbelow key t ht).1
      · exact fun key t ht => (hbelow key t ht).2
  obtain ⟨child, spans, ends⟩ := build ⟨root, .self⟩
  refine ⟨child, spans, ends, ?_⟩
  intro keys keys' id grand grand' hx hx'
  exact h.unshared keys keys' id (spans.walk_of_at? ends hx) (spans.walk_of_at? ends hx')

/-- A tree in a store is like a tree. -/
theorem Spans.treelike {child : Char → Option (KeyTree α)} (h : s.Spans (node root child))
    (ends : (node root child).EndsInActions) (unshared : (node root child).Unshared) :
    s.Treelike root where
  alive id ho := by
    obtain ⟨keys, grand, hx⟩ := h.mem_of_owns ends ho
    exact (h keys id grand hx).1
  bound id key slot ho hs := by
    obtain ⟨keys, grand, hx⟩ := h.mem_of_owns ends ho
    rw [(h keys id grand hx).2] at hs
    obtain ⟨t, ht, rfl⟩ := Option.map_eq_some_iff.1 hs
    cases t with
    | node next below => rfl
    | leaf slot =>
        have hleaf : (node root child).at? (keys ++ [key]) = some (leaf slot) := by
          rw [at?_append, hx, Option.bind_some, at?_node_cons, ht]
          rfl
        obtain ⟨tag, act, rfl⟩ := ends _ slot hleaf
        rfl
  unshared keys keys' id hw hw' := by
    have place {keys : List Char} (hw : s.walk root keys = some (.keymap id)) :
        ∃ grand, (node root child).at? keys = some (node id grand) := by
      rw [h.walk_eq ends] at hw
      obtain ⟨t, ht, hb⟩ := Option.map_eq_some_iff.1 hw
      cases t with
      | node next below =>
          cases hb
          exact ⟨below, ht⟩
      | leaf slot =>
          obtain ⟨tag, act, rfl⟩ := ends _ slot ht
          cases hb
    obtain ⟨grand, hx⟩ := place hw
    obtain ⟨grand', hx'⟩ := place hw'
    exact unshared keys keys' id grand grand' hx hx'

end Store

end ModalKeys
