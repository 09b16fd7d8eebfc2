import ModalKeys.Proofs.Keymap.Copying
import ModalKeys.Proofs.Keymap.Overlay
import ModalKeys.Proofs.Keymap.Termination
import ModalKeys.Proofs.Keymap.Treelike

/-!
# What a merge keeps

The keymaps that a merge walks may be shared and may lead back to each other, and they change on the way,
those of the incoming side as well. Still none of them loses a key, and the receiver ends up with the keys
of both. Every slot is one that some keymap had under the same key, so what was an alias stays one. And what
neither keymap leads to is not touched.
-/

namespace ModalKeys

variable {α : Type}

namespace Store

variable {s t u : Store α} {roots : List KeymapId} {a b id : KeymapId}

/-! ## Keys are kept -/

/-- The keymaps of the second store have all the keys that they have in the first one. -/
def KeepsKeys (s t : Store α) : Prop := ∀ id, t.alive id → s.keys id ⊆ t.keys id

theorem keys_of_agree (h : t.keymap? id = s.keymap? id) : t.keys id = s.keys id := by
  unfold keys slots
  rw [h]

theorem keys_subset_put (s : Store α) (r : KeymapId) (key : Char) (slot : Slot α) (id : KeymapId) :
    s.keys id ⊆ (s.put r key slot).keys id := by
  intro k hk
  rw [mem_keys] at hk ⊢
  rw [slot?_put]
  split
  · rfl
  · exact hk

theorem mem_keys_put {r : KeymapId} (alive : s.alive r) (key : Char) (slot : Slot α) :
    key ∈ (s.put r key slot).keys r := by
  rw [mem_keys, slot?_put, if_pos ⟨rfl, rfl, alive⟩]
  rfl

theorem mem_keys_of_lookup {key : Char} {binding : Binding α}
    (h : s.lookup id key = some binding) : key ∈ s.keys id := by
  obtain ⟨slot, hs, -⟩ := Option.bind_eq_some_iff.1 h
  exact mem_keys.2 (Option.isSome_of_mem hs)

namespace KeepsKeys

theorem refl (s : Store α) : s.KeepsKeys s := fun _ _ => List.Subset.refl _

theorem within (h : s.KeepsKeys t) (less : u.Within t) : s.KeepsKeys u := by
  intro id alive
  obtain ⟨km, hk⟩ := alive_iff.1 alive
  rw [keys_of_agree (hk.trans (less id km hk).symm)]
  exact h id (less.alive alive)

theorem put (h : s.KeepsKeys t) (r : KeymapId) (key : Char) (slot : Slot α) :
    s.KeepsKeys (t.put r key slot) := by
  intro id alive
  rw [alive_put] at alive
  exact List.Subset.trans (h id alive) (t.keys_subset_put r key slot id)

theorem merge (s : Store α) (roots : List KeymapId) (a b : KeymapId) :
    s.KeepsKeys (s.merge roots a b) := by
  have rule : MergeRule roots (fun t => s.KeepsKeys t) (fun _ _ => True) (fun _ _ => True) :=
    { release := fun t _ h => h.within (t.within_release _)
      put := fun _ c _ key slot h _ _ => h.put c key slot
      slots := fun _ _ _ _ _ _ _ _ => trivial
      descend := fun _ _ _ _ _ _ _ _ _ _ _ _ => trivial }
  exact rule.merge (refl s) trivial

end KeepsKeys

/-! ## What is not led to -/

/-- Keys lead from one keymap to another one. -/
def Reaches (s : Store α) (root id : KeymapId) : Prop :=
  ∃ keys, s.walk root keys = some (.keymap id)

theorem Reaches.self (alive : s.alive id) : s.Reaches id id := ⟨[], if_pos alive⟩

theorem Reaches.step {root next : KeymapId} {key : Char} (h : s.Reaches root id)
    (hl : s.lookup id key = some (.keymap next)) : s.Reaches root next := by
  obtain ⟨keys, hw⟩ := h
  exact ⟨keys ++ [key], (walk_append hw [key]).trans (walk_singleton hl)⟩

theorem lookup_of_slot? {next : KeymapId} {key : Char} {slot : Slot α}
    (hs : s.slot? id key = some slot) (hn : slot.binding.keymap? = some next)
    (alive : s.alive next) : s.lookup id key = some (.keymap next) := by
  rw [lookup, hs]
  cases slot with
  | aliasOf target =>
      cases hn
      exact if_pos alive
  | bound binding =>
      cases binding with
      | action tag act => cases hn
      | keymap target =>
          cases hn
          exact if_pos alive

/-- A set of keymaps that no key leads out of. -/
def Closed (s : Store α) (R : KeymapId → Prop) : Prop :=
  ∀ id key next, R id → s.lookup id key = some (.keymap next) → R next

theorem closed_reaches (s : Store α) (a b : KeymapId) :
    s.Closed fun id => s.Reaches a id ∨ s.Reaches b id :=
  fun _ _ _ hid hl => hid.imp (·.step hl) (·.step hl)

/-- The slot leads to a keymap of the set, if to any. -/
def LeadsInto (s : Store α) (R : KeymapId → Prop) (slot : Slot α) : Prop :=
  ∀ next, slot.binding.keymap? = some next → s.alive next → R next

/-- The second store is the first one, rearranged inside a set of keymaps. -/
structure RearrangedIn (R : KeymapId → Prop) (s t : Store α) : Prop extends Rearranged s t where
  handles : t.handles = s.handles
  outside : ∀ id, s.alive id → ¬R id → t.keymap? id = s.keymap? id
  inside : ∀ id key slot, R id → t.slot? id key = some slot → s.LeadsInto R slot

namespace RearrangedIn

variable {R : KeymapId → Prop}

theorem refl (closed : s.Closed R) : s.RearrangedIn R s where
  toRearranged := .refl s
  handles := rfl
  outside _ _ _ := rfl
  inside id key _ hid hs next hn alive := closed id key next hid (lookup_of_slot? hs hn alive)

theorem lookup (h : s.RearrangedIn R t) {next : KeymapId} {key : Char} (hid : R id)
    (hl : t.lookup id key = some (.keymap next)) : R next := by
  obtain ⟨slot, hs, hr⟩ := Option.bind_eq_some_iff.1 hl
  exact h.inside id key slot hid hs next (congrArg Binding.keymap? (binding_of_resolve hr))
    (h.alive (alive_of_resolve hr))

theorem put (h : s.RearrangedIn R t) {r : KeymapId} (hr : R r) (key : Char) {slot : Slot α}
    (was : ∃ id key, s.slot? id key = some slot) (leads : s.LeadsInto R slot) :
    s.RearrangedIn R (t.put r key slot) where
  toRearranged := h.toRearranged.put r key was
  handles := h.handles
  outside id alive out := by
    have hne : id ≠ r := by
      rintro rfl
      exact out hr
    rw [keymap?_put, if_neg hne]
    exact h.outside id alive out
  inside id k found hid hf := by
    rw [slot?_put] at hf
    split at hf
    · cases hf
      exact leads
    · exact h.inside id k found hid hf

/-- What is outside the set is held by handles, by roots, and by what else is outside. -/
theorem supported (settled : s.Settled (s.handles ++ roots)) (closed : s.Closed R) :
    s.Supported (s.handles ++ roots) fun id => s.alive id ∧ ¬R id := by
  rintro id ⟨alive, out⟩
  refine (mem_held.1 (settled id alive)).imp_right ?_
  rintro ⟨owner, km, key, hkm, hk⟩
  refine ⟨owner, km, key, ⟨alive_of_keymap? hkm, fun ho => out ?_⟩, hkm, hk⟩
  exact closed owner key id ho (lookup_of_ownedAt? hkm hk alive)

theorem release (h : s.RearrangedIn R t) (settled : s.Settled (s.handles ++ roots))
    (closed : s.Closed R) (more : List KeymapId) :
    s.RearrangedIn R (t.release (roots ++ more)) where
  toRearranged := h.toRearranged.trans (.release t _)
  handles := (t.handles_release _).trans h.handles
  outside id alive out := by
    refine Eq.trans ?_ (h.outside id alive out)
    refine (((supported settled closed).of_agree fun id hid => h.outside id hid.1 hid.2).mono
      ?_).keymap?_release ⟨alive, out⟩
    rw [h.handles, ← List.append_assoc]
    exact List.subset_append_left _ _
  inside id key slot hid hs := h.inside id key slot hid ((t.within_release _).slot? hs)

/-- What was not there before does not come up outside the set either. -/
theorem keymap?_eq (h : s.RearrangedIn R t) (out : ¬R id) : t.keymap? id = s.keymap? id := by
  by_cases alive : s.alive id
  · exact h.outside id alive out
  · have absent {u : Store α} (dead : ¬u.alive id) : u.keymap? id = none :=
      Option.eq_none_iff_forall_ne_some.2 fun km hk => dead (alive_of_keymap? hk)
    rw [absent alive, absent fun ht => alive (h.alive ht)]

/-- Two keymaps of a set that no key leads out of are merged inside the set. -/
theorem merge (settled : s.Settled (s.handles ++ roots)) (closed : s.Closed R) (ha : R a)
    (hb : R b) : s.RearrangedIn R (s.merge roots a b) := by
  have rule : MergeRule roots (fun t => s.RearrangedIn R t) (fun c d => R c ∧ R d)
      (fun _ slot => (∃ id key, s.slot? id key = some slot) ∧ s.LeadsInto R slot) :=
    { release := fun t more h => h.release settled closed more
      put := fun t c d key slot h hcd hs => h.put hcd.1 key hs.1 hs.2
      slots := fun t c d key slot h hcd hs =>
        ⟨h.slot d key slot hs, h.inside d key slot hcd.2 hs⟩
      descend := fun t c d key slot x y h hcd hs hx hy =>
        ⟨h.lookup hcd.1 hx, hs.2 y (congrArg Binding.keymap? (binding_of_resolve hy))
          (h.alive (alive_of_resolve hy))⟩ }
  exact rule.merge (refl closed) ⟨ha, hb⟩

end RearrangedIn

end Store

/-! ## Slots stay under their keys -/

namespace MergeTask

/-- A key of the receiver is still to be dealt with. -/
def Waits (tasks : List (MergeTask α)) (receiver : KeymapId) (key : Char) : Prop :=
  ∃ task ∈ tasks, task.receiver = receiver ∧ ∃ slot, (key, slot) ∈ task.pending

theorem waits_cons {task : MergeTask α} {tasks : List (MergeTask α)} {a : KeymapId} {key : Char} :
    Waits (task :: tasks) a key ↔
      (task.receiver = a ∧ ∃ slot, (key, slot) ∈ task.pending) ∨ Waits tasks a key := by
  simp [Waits]

end MergeTask

namespace Merging

open Store MergeTask

variable {s t t' : Store α} {roots : List KeymapId} {a b r d : KeymapId} {key : Char}
  {theirs : Slot α} {pending : List (Char × Slot α)} {tasks : List (MergeTask α)}

/-- What holds throughout a merge of `b` into `a`: every slot, copied or to be copied, was somewhere under
its key, and the keys of `b` are bound in `a` or wait for it. -/
structure Conserving (s : Store α) (roots : List KeymapId) (a b : KeymapId) (t : Store α)
    (tasks : List (MergeTask α)) : Prop where
  held : a ∈ t.handles ++ roots
  alive : t.alive a
  slot : ∀ id key slot, t.slot? id key = some slot → ∃ id', s.slot? id' key = some slot
  pending : ∀ task ∈ tasks, ∀ p ∈ task.pending, ∃ id, s.slot? id p.1 = some p.2
  covers : ∀ key ∈ s.keys b, key ∈ t.keys a ∨ Waits tasks a key

theorem Settles.keymap?_of_held (settles : Settles roots tasks t t') (held : a ∈ t.handles ++ roots) :
    t'.keymap? a = t.keymap? a := by
  refine settles.keymap?_eq (supported_owns ?_) .self
  rw [← List.append_assoc]
  exact List.mem_append_left _ held

namespace Conserving

theorem settle (h : Conserving s roots a b t tasks) (settles : Settles roots tasks t t') :
    Conserving s roots a b t' tasks where
  held := by
    rcases settles with rfl | rfl
    · exact h.held
    · rw [handles_release]
      exact h.held
  alive := (alive_of_agree (settles.keymap?_of_held h.held)).trans h.alive
  slot id key slot hs := h.slot id key slot (settles.within.slot? hs)
  pending := h.pending
  covers key hk := by
    rw [keys_of_agree (settles.keymap?_of_held h.held)]
    exact h.covers key hk

/-- A slot is dealt with as soon as the receiver has its key, which matters for `a` only. -/
theorem next (h : Conserving s roots a b t (⟨r, d, (key, theirs) :: pending⟩ :: tasks))
    (bound : r = a → key ∈ t.keys a) : Conserving s roots a b t (⟨r, d, pending⟩ :: tasks) where
  held := h.held
  alive := h.alive
  slot := h.slot
  pending := by
    obtain ⟨first, rest⟩ := List.forall_mem_cons.1 h.pending
    exact List.forall_mem_cons.2 ⟨(List.forall_mem_cons.1 first).2, rest⟩
  covers k hk := by
    rcases h.covers k hk with hk | hk
    · exact Or.inl hk
    · rw [waits_cons] at hk ⊢
      rcases hk with ⟨rfl, slot, hm⟩ | hk
      · rcases List.mem_cons.1 hm with heq | hm
        · cases heq
          exact Or.inl (bound rfl)
        · exact Or.inr (Or.inl ⟨rfl, slot, hm⟩)
      · exact Or.inr (Or.inr hk)

theorem push (h : Conserving s roots a b t tasks) (c d : KeymapId) :
    Conserving s roots a b t (⟨c, d, t.slots d⟩ :: tasks) where
  held := h.held
  alive := h.alive
  slot := h.slot
  pending := List.forall_mem_cons.2 ⟨fun p hp => h.slot d p.1 p.2 (mem_slots.1 hp), h.pending⟩
  covers k hk := (h.covers k hk).imp_right fun hw => waits_cons.2 (Or.inr hw)

theorem put (h : Conserving s roots a b t tasks) (r : KeymapId)
    (was : ∃ id, s.slot? id key = some theirs) :
    Conserving s roots a b (t.put r key theirs) tasks where
  held := h.held
  alive := (alive_put ..).trans h.alive
  slot id k found hf := by
    rw [slot?_put] at hf
    split at hf
    · next here =>
        cases hf
        rw [here.2.1]
        exact was
    · exact h.slot id k found hf
  pending := h.pending
  covers k hk := (h.covers k hk).imp_left fun hk => t.keys_subset_put r key theirs a hk

theorem step {m m' : Merging α} (step : Step roots m m')
    (h : Conserving s roots a b m.store m.tasks) : Conserving s roots a b m'.store m'.tasks := by
  cases step with
  | finish =>
      refine ⟨h.held, h.alive, h.slot, (List.forall_mem_cons.1 h.pending).2, fun k hk => ?_⟩
      refine (h.covers k hk).imp_right fun hw => (waits_cons.1 hw).resolve_left ?_
      rintro ⟨-, slot, hm⟩
      exact List.not_mem_nil hm
  | skip settles hc hd =>
      exact (h.settle settles).next fun same => same ▸ mem_keys_of_lookup hc
  | descend settles hc hd =>
      exact ((h.settle settles).next fun same => same ▸ mem_keys_of_lookup hc).push _ _
  | put settles =>
      have h := h.settle settles
      have was := (List.forall_mem_cons.1 (List.forall_mem_cons.1 h.pending).1).1
      refine (h.put _ was).next ?_
      rintro rfl
      exact mem_keys_put h.alive _ _

end Conserving

end Merging

namespace Store

variable {s : Store α} {roots : List KeymapId} {a b : KeymapId}

open Merging

theorem conserving_startMerge (held : a ∈ s.handles ++ roots) (alive : s.alive a) :
    Conserving s roots a b (s.startMerge a b).store (s.startMerge a b).tasks := by
  rw [startMerge]
  split
  · next same =>
      refine ⟨held, alive, fun id key slot hs => ⟨id, hs⟩, fun task ht => ?_, fun key hk => Or.inl ?_⟩
      · exact absurd ht List.not_mem_nil
      · rw [same]
        exact hk
  · refine ⟨held, alive, fun id key slot hs => ⟨id, hs⟩, ?_, fun key hk => Or.inr ?_⟩
    · rintro task ht p hp
      cases List.mem_singleton.1 ht
      exact ⟨b, mem_slots.1 hp⟩
    · obtain ⟨⟨k, slot⟩, hm, rfl⟩ := List.mem_map.1 hk
      exact ⟨_, List.mem_singleton_self _, rfl, slot, hm⟩

theorem conserving_merge (held : a ∈ s.handles ++ roots) (alive : s.alive a) (b : KeymapId) :
    Conserving s roots a b (s.merge roots a b) [] := by
  obtain ⟨m, done, conserving, result⟩ := Merging.preserves
    (P := fun m => Conserving s roots a b m.store m.tasks) (fun m m' step h => h.step step)
    (s.startMerge a b) (conserving_startMerge held alive)
  rw [merge, ← result_startMerge, result]
  rw [done] at conserving
  exact conserving

/-! ## What a merge leaves -/

/-- What the keymaps `s` have become in `t`, when `b` has been merged into `a` and what nothing holds any
more has been released. -/
structure Conserved (s t : Store α) (a b : KeymapId) : Prop where
  /-- What is left has the keys that it had. -/
  keys : ∀ id, t.alive id → s.alive id ∧ s.keys id ⊆ t.keys id
  /-- The receiver is left, with the keys of both. -/
  receiver : t.alive a ∧ s.keys a ⊆ t.keys a ∧ s.keys b ⊆ t.keys a
  /-- Each slot is one that some keymap had under the same key. -/
  slot : ∀ id key slot, t.slot? id key = some slot → ∃ id', s.slot? id' key = some slot
  text : ∀ id km, t.keymap? id = some km →
    ∃ km', s.keymap? id = some km' ∧ km.id = km'.id ∧ km.help = km'.help
  /-- What neither keymap leads to is as it was. -/
  unreached : ∀ id, ¬s.Reaches a id → ¬s.Reaches b id → t.keymap? id = s.keymap? id

/-- Whatever the keymaps are, a merge loses no key, makes up no slot, changes no text, and leaves alone what
neither of the two keymaps leads to. -/
theorem conserved_merge (settled : s.Settled (s.handles ++ roots)) (held : a ∈ s.handles ++ roots)
    (ha : s.alive a) (hb : s.alive b) : Conserved s ((s.merge roots a b).release roots) a b := by
  have conserving := conserving_merge held ha b
  have less := (s.merge roots a b).within_release roots
  have inside : s.RearrangedIn (fun id => s.Reaches a id ∨ s.Reaches b id)
      ((s.merge roots a b).release roots) := by
    have closed := s.closed_reaches a b
    have merged := RearrangedIn.merge settled closed (Or.inl (.self ha)) (Or.inr (.self hb))
    have released := merged.release settled closed []
    rwa [List.append_nil] at released
  have keys : s.KeepsKeys ((s.merge roots a b).release roots) :=
    (KeepsKeys.merge s roots a b).within less
  have kept : ((s.merge roots a b).release roots).keymap? a = (s.merge roots a b).keymap? a :=
    retains_release conserving.held a .self
  have alive : ((s.merge roots a b).release roots).alive a :=
    (alive_of_agree kept).trans conserving.alive
  exact {
    keys := fun id hid => ⟨inside.alive hid, keys id hid⟩
    receiver := by
      refine ⟨alive, keys a alive, fun key hk => ?_⟩
      rw [keys_of_agree kept]
      exact (conserving.covers key hk).resolve_right fun ⟨_, hm, _⟩ => List.not_mem_nil hm
    slot := fun id key slot hs => conserving.slot id key slot (less.slot? hs)
    text := inside.text
    unreached := fun id ra rb => inside.keymap?_eq fun h => h.elim ra rb }

/-- Both keymaps have a keymap at `x`. The one that is merged in also has it at `y`, and leads back to the
receiver and to itself. Another keymap, which owns the receiver's, is not touched. -/
theorem conserved_merge_circle :
    let empty : Store Nat := (fun s => (s.create none none).2)^[5] default
    let bindings : List (KeymapId × Char × Slot Nat) :=
      [(0, 'x', .bound (.keymap 2)), (1, 'x', .bound (.keymap 3)), (1, 'y', .bound (.keymap 3)),
        (1, 'a', .aliasOf 0), (3, 'b', .aliasOf 1), (4, 'x', .bound (.keymap 2))]
    let s : Store Nat :=
      { bindings.foldl (fun s (id, key, slot) => s.put id key slot) empty with handles := [0, 1, 4] }
    s.Settled (s.handles ++ []) ∧ (0 ∈ s.handles ++ [] ∧ s.alive 0 ∧ s.alive 1) ∧
      Conserved s ((s.merge [] 0 1).release []) 0 1 := by
  intro empty bindings s
  have held : ∀ id : Nat, id < s.next → id ∈ s.held (s.handles ++ []) := by decide +kernel
  have settled : s.Settled (s.handles ++ []) := fun id alive => held id (lt_next_of_alive alive)
  have there : 0 ∈ s.handles ++ [] ∧ s.alive 0 ∧ s.alive 1 := by decide +kernel
  exact ⟨settled, there, conserved_merge settled there.1 there.2.1 there.2.2⟩

end Store

end ModalKeys
