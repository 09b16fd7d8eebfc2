import ModalKeys.Proofs.Keymap.Compiling
import ModalKeys.Proofs.Keymap.Overlay

/-!
# Regions of a store

A region is a set of keymaps that no slot leads into or out of. Merging stays in the region of the
keymaps that it is about, and the keymaps that a configuration adds can be counted in or out.
-/

namespace ModalKeys

variable {α σ : Type}

theorem Slot.keymap?_of_owned? {slot : Slot α} {id : KeymapId} (h : slot.owned? = some id) :
    slot.binding.keymap? = some id := by
  cases slot with
  | aliasOf target => cases h
  | bound binding =>
      cases binding with
      | keymap next => exact h
      | action tag act => cases h

namespace Store

/-- The keymaps of a new configuration are new. -/
theorem le_of_owns {s s' : Store (Action σ)} {config : Json} {root id : KeymapId}
    (compiled : s.compile config = .ok (root, s')) (ho : s'.Owns root id) :
    s.next ≤ (id : Nat) := by
  induction ho with
  | self => exact Nat.le_of_eq (eq_next_of_compile compiled).symm
  | @step x next owner key _ hkm hk ih =>
      obtain ⟨slot, hs, ho⟩ := Option.bind_eq_some_iff.1 hk
      exact ((extends_of_compile compiled).inside x key slot next ih ((slot?_eq hkm key).trans hs)
        (Slot.keymap?_of_owned? ho)).1

/-- No slot leads into a set of keymaps or out of it. None leads to a keymap that is yet to come. -/
structure Region (s : Store α) (K : KeymapId → Prop) : Prop where
  iff : ∀ id key slot next, s.slot? id key = some slot → slot.binding.keymap? = some next →
    (K next ↔ K id)
  lt : ∀ id key slot next, s.slot? id key = some slot → slot.binding.keymap? = some next →
    next < s.next

namespace Region

variable {s t : Store α} {K : KeymapId → Prop}

theorem of_slots (h : s.Region K)
    (slots : ∀ id key slot, t.slot? id key = some slot → s.slot? id key = some slot)
    (next : t.next = s.next) : t.Region K where
  iff id key slot x hs := h.iff id key slot x (slots id key slot hs)
  lt id key slot x hs hx := by
    rw [next]
    exact h.lt id key slot x (slots id key slot hs) hx

theorem release (h : s.Region K) (roots : List KeymapId) : (s.release roots).Region K :=
  h.of_slots (fun _ _ _ => (s.within_release roots).slot?) (s.next_release roots)

theorem of_owns (h : s.Region K) {root id : KeymapId} (hroot : K root) (ho : s.Owns root id) :
    K id := by
  induction ho with
  | self => exact hroot
  | @step x next owner key _ hkm hk ih =>
      obtain ⟨slot, hs, ho⟩ := Option.bind_eq_some_iff.1 hk
      exact (h.iff x key slot next ((slot?_eq hkm key).trans hs) (Slot.keymap?_of_owned? ho)).2 ih

/-- A slot is put into a region that it does not lead out of. -/
theorem put (h : s.Region K) {a : KeymapId} {slot : Slot α} (key : Char)
    (target : ∀ next, slot.binding.keymap? = some next → (K next ↔ K a) ∧ next < s.next) :
    (s.put a key slot).Region K := by
  constructor
  · intro id k found next hs hn
    rw [slot?_put] at hs
    split at hs
    · next here =>
        cases hs
        rw [here.1]
        exact (target next hn).1
    · exact h.iff id k found next hs hn
  · intro id k found next hs hn
    rw [next_put]
    rw [slot?_put] at hs
    split at hs
    · cases hs
      exact (target next hn).2
    · exact h.lt id k found next hs hn

/-- Two keymaps on the same side of a border are merged: the border stays, and so does everything that is
held on the other side. -/
theorem merge (h : s.Region K) {a b : KeymapId} (hab : K a ↔ K b) (roots : List KeymapId) :
    (s.merge roots a b).Region K ∧
      ∀ L : KeymapId → Prop, s.Supported (s.handles ++ roots) L → (∀ id, L id → (K id ↔ ¬K a)) →
        ∀ id, L id → (s.merge roots a b).keymap? id = s.keymap? id := by
  let Stays (t : Store α) : Prop := ∀ L : KeymapId → Prop, s.Supported (s.handles ++ roots) L →
    (∀ id, L id → (K id ↔ ¬K a)) → ∀ id, L id → t.keymap? id = s.keymap? id
  have rule : MergeRule roots
      (fun t => t.Region K ∧ (t.handles = s.handles ∧ t.next = s.next) ∧ Stays t)
      (fun c d => (K c ↔ K a) ∧ (K d ↔ K a))
      (fun _ slot => ∀ next, slot.binding.keymap? = some next → (K next ↔ K a) ∧ next < s.next) := by
    refine ⟨?_, ?_, ?_, ?_⟩
    · rintro t more ⟨region, ⟨handles, next⟩, stays⟩
      refine ⟨region.release _, ⟨(t.handles_release _).trans handles, (t.next_release _).trans next⟩,
        fun L hL out id hid => ?_⟩
      have agree := stays L hL out
      refine Eq.trans ?_ (agree id hid)
      refine ((hL.of_agree agree).mono ?_).keymap?_release hid
      rw [handles, ← List.append_assoc]
      exact List.subset_append_left _ _
    · rintro t c d key slot ⟨region, ⟨handles, next⟩, stays⟩ ⟨hc, hd⟩ target
      refine ⟨region.put key fun x hx => ?_, ⟨handles, next⟩, fun L hL out id hid => ?_⟩
      · rw [hc, next]
        exact target x hx
      · have hne : id ≠ c := by
          rintro rfl
          exact iff_not_self (hc.symm.trans (out id hid))
        rw [keymap?_put, if_neg hne]
        exact stays L hL out id hid
    · rintro t c d key slot ⟨region, ⟨-, next⟩, -⟩ ⟨-, hd⟩ hs x hx
      rw [← next]
      exact ⟨(region.iff d key slot x hs hx).trans hd, region.lt d key slot x hs hx⟩
    · rintro t c d key slot x y ⟨region, -⟩ ⟨hc, -⟩ target hx hy
      obtain ⟨found, hs, hr⟩ := Option.bind_eq_some_iff.1 hx
      have hx := region.iff c key found x hs (congrArg Binding.keymap? (binding_of_resolve hr))
      exact ⟨hx.trans hc, (target y (congrArg Binding.keymap? (binding_of_resolve hy))).1⟩
  obtain ⟨region, -, stays⟩ := rule.merge
    ⟨h, ⟨rfl, rfl⟩, fun _ _ _ _ _ => rfl⟩ ⟨Iff.rfl, hab.symm⟩
  exact ⟨region, stays⟩

/-- The keymaps of a new configuration are all counted in, or all counted out. -/
theorem compile {s s' : Store (Action σ)} {K K' : KeymapId → Prop} {config : Json}
    {root : KeymapId} (h : s.Region K) (compiled : s.compile config = .ok (root, s')) (new : Prop)
    (old : ∀ id : Nat, id < s.next → (K' id ↔ K id))
    (fresh : ∀ id : Nat, s.next ≤ id → id < s'.next → (K' id ↔ new)) : s'.Region K' := by
  have ext := extends_of_compile compiled
  have before {id : Nat} {key : Char} {slot : Slot (Action σ)} (lt : id < s.next)
      (hs : s'.slot? id key = some slot) : s.slot? id key = some slot :=
    (slot?_of_agree (ext.keymap? id lt) key).symm.trans hs
  constructor
  · intro id key slot next hs hn
    by_cases lt : (id : Nat) < s.next
    · rw [old id lt, old next (h.lt id key slot next (before lt hs) hn)]
      exact h.iff id key slot next (before lt hs) hn
    · have ge : s.next ≤ (id : Nat) := Nat.le_of_not_lt lt
      obtain ⟨km, hkm, -⟩ := slot?_eq_some_iff.1 hs
      have inside := ext.inside id key slot next ge hs hn
      rw [fresh next inside.1 inside.2, fresh id ge (lt_next_of_alive (alive_of_keymap? hkm))]
  · intro id key slot next hs hn
    by_cases lt : (id : Nat) < s.next
    · exact Nat.lt_of_lt_of_le (h.lt id key slot next (before lt hs) hn) ext.next
    · exact (ext.inside id key slot next (Nat.le_of_not_lt lt) hs hn).2

end Region

end Store

end ModalKeys
