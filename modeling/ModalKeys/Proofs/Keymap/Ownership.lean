import ModalKeys.Keymap.Lifetime

/-!
# Which keymaps stay

What the operations of a store do to a single keymap, and which keymaps are there to stay. A keymap
owns those that its keys are bound to, and they own further ones. As long as a keymap is held nothing
that it owns in this way is released.
-/

namespace ModalKeys

variable {α : Type}

namespace Slots

theorem get?_empty (key : Char) : (empty : Slots α).get? key = none := by
  simp [get?, empty]

/-- Several keys bound to the same slot. -/
theorem get?_foldl_put (s : Slots α) (keys : List Char) (slot : Slot α) (key : Char) :
    (keys.foldl (·.put · slot) s).get? key = if key ∈ keys then some slot else s.get? key := by
  induction keys generalizing s with
  | nil => rfl
  | cons first rest ih =>
      rw [List.foldl_cons, ih, get?_put]
      by_cases hr : key ∈ rest
      · simp [hr]
      · by_cases hf : first = key
        · simp [hf]
        · simp [hr, hf, Ne.symm hf]

end Slots

namespace Store

/-! ## Single keymaps -/

theorem keymap?_create (s : Store α) (id help : Option String) (k : KeymapId) :
    (s.create id help).2.keymap? k =
      if k = s.next then some ⟨id, help, .empty⟩ else s.keymap? k := by
  unfold create keymap?
  rw [Std.TreeMap.getElem?_insert]
  by_cases h : k = s.next
  · simp [h]
  · simp [h, Ne.symm h]

theorem keymap?_create_self (s : Store α) (id help : Option String) :
    (s.create id help).2.keymap? s.next = some ⟨id, help, .empty⟩ := by
  rw [keymap?_create, if_pos rfl]

theorem keymap?_modify (s : Store α) (id : KeymapId) (f : Keymap α → Keymap α) (k : KeymapId) :
    (s.modify id f).keymap? k = if k = id then (s.keymap? k).map f else s.keymap? k := by
  unfold modify keymap?
  simp only [Std.TreeMap.getElem?_modify, Std.compare_eq_iff_eq]
  by_cases h : k = id
  · subst h
    simp
  · simp [h, Ne.symm h]

theorem alive_of_keymap? {s : Store α} {id : KeymapId} {km : Keymap α}
    (h : s.keymap? id = some km) : s.alive id := by
  unfold alive
  rw [Std.TreeMap.contains_eq_isSome_getElem?]
  exact Option.isSome_iff_exists.2 ⟨km, h⟩

/-! ## What is held -/

theorem mem_foldl_insert (ids : List KeymapId) (set : Std.TreeSet KeymapId) (id : KeymapId) :
    id ∈ ids.foldl (·.insert ·) set ↔ id ∈ set ∨ id ∈ ids := by
  induction ids generalizing set with
  | nil => simp
  | cons first rest ih =>
      rw [List.foldl_cons, ih, Std.TreeSet.mem_insert, Std.compare_eq_iff_eq, List.mem_cons]
      simp only [or_assoc, or_left_comm, eq_comm]

theorem mem_foldl_owned (entries : List (KeymapId × Keymap α)) (set : Std.TreeSet KeymapId)
    (id : KeymapId) :
    id ∈ entries.foldl (fun set entry => entry.2.slots.ownedIds.foldl (·.insert ·) set) set ↔
      id ∈ set ∨ ∃ entry ∈ entries, id ∈ entry.2.slots.ownedIds := by
  induction entries generalizing set with
  | nil => simp
  | cons first rest ih =>
      rw [List.foldl_cons, ih, mem_foldl_insert]
      simp only [List.mem_cons, exists_eq_or_imp, or_assoc]

/-- Held are the roots and whatever a keymap of the store owns. -/
theorem mem_held {s : Store α} {roots : List KeymapId} {id : KeymapId} :
    id ∈ s.held roots ↔ id ∈ roots ∨
      ∃ owner km key, s.keymap? owner = some km ∧ km.slots.ownedAt? key = some id := by
  unfold held
  rw [Std.TreeMap.foldl_eq_foldl_toList, mem_foldl_owned, Std.TreeSet.mem_ofList,
    List.contains_iff_mem]
  apply or_congr Iff.rfl
  constructor
  · rintro ⟨⟨owner, km⟩, hm, ho⟩
    obtain ⟨key, hk⟩ := Slots.mem_ownedIds.1 ho
    exact ⟨owner, km, key, Std.TreeMap.mem_toList_iff_getElem?_eq_some.1 hm, hk⟩
  · rintro ⟨owner, km, key, hm, hk⟩
    exact ⟨(owner, km), Std.TreeMap.mem_toList_iff_getElem?_eq_some.2 hm,
      Slots.mem_ownedIds.2 ⟨key, hk⟩⟩

theorem keymap?_sweep {s : Store α} {roots : List KeymapId} {id : KeymapId}
    (h : id ∈ s.held roots) : (s.sweep roots).keymap? id = s.keymap? id := by
  unfold sweep keymap?
  rw [Std.TreeMap.getElem?_filter']
  cases s.keymaps[id]? with
  | none => rfl
  | some km =>
      rw [Option.filter_some, if_pos]
      exact Std.TreeSet.mem_iff_contains.1 h

/-! ## Owned keymaps -/

/-- A keymap owns itself, and whatever the keys of a keymap that it owns are bound to. -/
inductive Owns (s : Store α) (root : KeymapId) : KeymapId → Prop
  | self : Owns s root root
  | step {id next : KeymapId} {km : Keymap α} {key : Char} : Owns s root id →
      s.keymap? id = some km → km.slots.ownedAt? key = some next → Owns s root next

/-- What a keymap owns in the first store is all there and unchanged in the second one. -/
def Retains (s : Store α) (root : KeymapId) (t : Store α) : Prop :=
  ∀ id, s.Owns root id → t.keymap? id = s.keymap? id

theorem Retains.refl (s : Store α) (root : KeymapId) : s.Retains root s := fun _ _ => rfl

theorem Retains.owns {s t : Store α} {root id : KeymapId} (h : s.Retains root t)
    (ho : s.Owns root id) : t.Owns root id := by
  induction ho with
  | self => exact .self
  | step howns hkm hkey ih => exact .step ih ((h _ howns).trans hkm) hkey

theorem Retains.trans {s t u : Store α} {root : KeymapId} (h₁ : s.Retains root t)
    (h₂ : t.Retains root u) : s.Retains root u :=
  fun id ho => (h₂ id (h₁.owns ho)).trans (h₁ id ho)

theorem retains_hold (s : Store α) (root id : KeymapId) : s.Retains root (s.hold id) :=
  fun _ _ => rfl

theorem retains_sweep {s : Store α} {roots : List KeymapId} {root : KeymapId}
    (h : root ∈ roots) : s.Retains root (s.sweep roots) := by
  intro id ho
  apply keymap?_sweep
  -- one sweep looks at direct owners only, and that is enough, since these are kept as well
  cases ho with
  | self => exact mem_held.2 (Or.inl h)
  | step _ hkm hkey => exact mem_held.2 (Or.inr ⟨_, _, _, hkm, hkey⟩)

theorem retains_collect {s : Store α} {roots : List KeymapId} {root : KeymapId}
    (h : root ∈ roots) : s.Retains root (s.collect roots) := by
  fun_induction collect s roots with
  | case1 s swept _ ih => exact (retains_sweep h).trans ih
  | case2 s swept _ => exact .refl s root

/-- A keymap that is held, by a handle or otherwise, keeps all that it owns. -/
theorem retains_release {s : Store α} {roots : List KeymapId} {root : KeymapId}
    (h : root ∈ s.handles ++ roots) : s.Retains root (s.release roots) :=
  retains_collect h

theorem retains_release_hold (s : Store α) (root : KeymapId) (roots : List KeymapId) :
    s.Retains root ((s.hold root).release roots) :=
  (s.retains_hold root root).trans
    (retains_release (List.mem_append_left _ List.mem_cons_self))

end Store

end ModalKeys
