import ModalKeys.Proofs.Keymap.Merging
import ModalKeys.Proofs.Keymap.Tree

/-!
# Slots are copied

Releasing keymaps and merging them makes no slot of its own. Every slot afterwards is one that there was
before, possibly in another place, and the keymaps that are left carry the texts that they had.
-/

namespace ModalKeys

variable {α : Type}

namespace Store

/-- The second store has keymaps of the first one only, with slots from anywhere in it. -/
structure Rearranged (s t : Store α) : Prop where
  next : t.next = s.next
  slot : ∀ id key slot, t.slot? id key = some slot → ∃ id' key', s.slot? id' key' = some slot
  text : ∀ id km, t.keymap? id = some km →
    ∃ km', s.keymap? id = some km' ∧ km.id = km'.id ∧ km.help = km'.help

namespace Rearranged

variable {s t u : Store α}

theorem of_within (h : t.Within s) (next : t.next = s.next) : s.Rearranged t where
  next := next
  slot id key _ hs := ⟨id, key, h.slot? hs⟩
  text id km hk := ⟨km, h id km hk, rfl, rfl⟩

theorem refl (s : Store α) : s.Rearranged s := of_within (.refl s) rfl

theorem trans (h₁ : s.Rearranged t) (h₂ : t.Rearranged u) : s.Rearranged u where
  next := h₂.next.trans h₁.next
  slot id key slot hs := by
    obtain ⟨id', key', hs⟩ := h₂.slot id key slot hs
    exact h₁.slot id' key' slot hs
  text id km hk := by
    obtain ⟨km', hk', id', help'⟩ := h₂.text id km hk
    obtain ⟨km'', hk'', id'', help''⟩ := h₁.text id km' hk'
    exact ⟨km'', hk'', id'.trans id'', help'.trans help''⟩

theorem release (s : Store α) (roots : List KeymapId) : s.Rearranged (s.release roots) :=
  of_within (s.within_release roots) (s.next_release roots)

/-- Nothing that was released before comes back. -/
theorem alive (h : s.Rearranged t) {id : KeymapId} (alive : t.alive id) : s.alive id := by
  obtain ⟨km, hk⟩ := alive_iff.1 alive
  obtain ⟨km', hk', -⟩ := h.text id km hk
  exact alive_of_keymap? hk'

theorem put (h : s.Rearranged t) (a : KeymapId) (key : Char) {slot : Slot α}
    (hs : ∃ id key, s.slot? id key = some slot) : s.Rearranged (t.put a key slot) where
  next := h.next
  slot id k found hf := by
    rw [slot?_put] at hf
    split at hf
    · cases hf
      exact hs
    · exact h.slot id k found hf
  text id km hk := by
    rw [keymap?_put] at hk
    split at hk
    · obtain ⟨km', hk', rfl⟩ := Option.map_eq_some_iff.1 hk
      exact h.text id km' hk'
    · exact h.text id km hk

theorem clear (s : Store α) (a : KeymapId) : s.Rearranged (s.clear a) where
  next := rfl
  slot id key slot hs := by
    rw [slot?_clear] at hs
    split at hs
    · cases hs
    · exact ⟨id, key, hs⟩
  text id km hk := by
    rw [Store.clear, keymap?_modify] at hk
    split at hk
    · obtain ⟨km', hk', rfl⟩ := Option.map_eq_some_iff.1 hk
      exact ⟨km', hk', rfl, rfl⟩
    · exact ⟨km, hk, rfl, rfl⟩

/-- Merging copies slots. -/
theorem merge (s : Store α) (roots : List KeymapId) (a b : KeymapId) :
    s.Rearranged (s.merge roots a b) := by
  have rule : MergeRule roots (fun t => s.Rearranged t) (fun _ _ => True)
      (fun _ slot => ∃ id key, s.slot? id key = some slot) :=
    { release := fun t more h => h.trans (release t _)
      put := fun t c d key slot h _ hs => h.put c key hs
      slots := fun t c d key slot h _ hs => h.slot d key slot hs
      descend := fun _ _ _ _ _ _ _ _ _ _ _ _ => trivial }
  exact rule.merge (refl s) trivial

end Rearranged

/-- What is held from outside outlasts a merge. -/
theorem alive_merge_of_mem {s : Store α} {roots : List KeymapId} {id : KeymapId} (hid : id ∈ roots)
    (alive : s.alive id) (a b : KeymapId) : (s.merge roots a b).alive id := by
  have rule : MergeRule roots (fun t : Store α => t.alive id) (fun _ _ => True)
      (fun _ _ => True) :=
    { release := fun t more h =>
        (alive_of_agree (keymap?_release_of_mem (List.mem_append_left more hid))).trans h
      put := fun t c d key slot h _ _ => (alive_put ..).trans h
      slots := fun _ _ _ _ _ _ _ _ => trivial
      descend := fun _ _ _ _ _ _ _ _ _ _ _ _ => trivial }
  exact rule.merge alive trivial

end Store

end ModalKeys
