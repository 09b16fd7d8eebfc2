import ModalKeys.Proofs.Keymap.Parentage
import ModalKeys.Proofs.Keymap.SideBySide

/-!
# Renaming keymaps

The numbers of keymaps stand for nothing but themselves. Two stores are alike if the keymaps of the one
are found in the other with other numbers, and nothing else there owns one of them. Then whatever is done
to both comes to the same: keymaps are released from both or from none, and a configuration compiles to
keymaps that are alike.

What the numbers are turned into is settled beforehand, also for keymaps that are yet to come.
-/

namespace ModalKeys

variable {α : Type}

def Binding.rename (ρ : Nat → Nat) : Binding α → Binding α
  | keymap id => keymap (ρ id)
  | action tag act => action (ρ tag) act

def Slot.rename (ρ : Nat → Nat) : Slot α → Slot α
  | bound binding => bound (binding.rename ρ)
  | aliasOf target => aliasOf (ρ target)

variable {ρ : Nat → Nat}

theorem Slot.owned?_rename (slot : Slot α) : (slot.rename ρ).owned? = slot.owned?.map ρ := by
  rcases slot with (id | ⟨tag, act⟩) | target <;> rfl

theorem Slot.alias?_rename (slot : Slot α) : (slot.rename ρ).alias? = slot.alias?.map ρ := by
  rcases slot with binding | target <;> rfl

/-- The second keymap has the keys and texts of the first one, with other numbers. -/
structure Keymap.Renamed (ρ : Nat → Nat) (km km' : Keymap α) : Prop where
  id : km'.id = km.id
  help : km'.help = km.help
  slots : ∀ key, km'.slots.get? key = (km.slots.get? key).map (Slot.rename ρ)

theorem Keymap.Renamed.toList {km km' : Keymap α} (h : km.Renamed ρ km') :
    km'.slots.toList = km.slots.toList.map fun p => (p.1, p.2.rename ρ) := by
  have same : km'.slots.entries.Equiv (km.slots.entries.map fun _ slot => slot.rename ρ) := by
    refine .of_forall_constGet?_eq fun key => ?_
    rw [Std.TreeMap.getElem?_map]
    exact h.slots key
  exact same.toList_eq.trans Std.TreeMap.toList_map

namespace Store

/-- What is left is the largest set of keymaps that hold each other up. -/
theorem alive_release_iff {s : Store α} {roots : List KeymapId} {id : KeymapId} :
    (s.release roots).alive id ↔
      ∃ K, s.Supported (s.handles ++ roots) K ∧ (∀ x, K x → s.alive x) ∧ K id := by
  have within := s.within_release roots
  constructor
  · intro alive
    refine ⟨fun x => (s.release roots).alive x, fun x hx => ?_, fun x hx => within.alive hx, alive⟩
    refine (mem_held.1 (mem_held_of_alive_collect hx)).imp_right ?_
    rintro ⟨owner, km, key, hkm, hk⟩
    exact ⟨owner, km, key, alive_of_keymap? hkm, within owner km hkm, hk⟩
  · rintro ⟨K, supported, alive, hid⟩
    exact (alive_of_agree (supported.keymap?_release hid)).trans (alive id hid)

theorem keymap?_release_eq (s : Store α) (roots : List KeymapId) (id : KeymapId) :
    (s.release roots).keymap? id = if (s.release roots).alive id then s.keymap? id else none := by
  split
  · next alive =>
      obtain ⟨km, hkm⟩ := alive_iff.1 alive
      rw [hkm, s.within_release roots id km hkm]
  · next dead =>
      rw [Option.eq_none_iff_forall_ne_some]
      exact fun km hkm => dead (alive_of_keymap? hkm)

/-- The second store has the keymaps of the first one, renamed, and is to have all those that are yet to
come. None of them is owned by what else there is. -/
structure Alike (ρ : Nat → Nat) (s t : Store α) : Prop where
  inj : Function.Injective ρ
  next : ∀ n, ρ (s.next + n) = t.next + n
  keymap? : ∀ id, Option.Rel (Keymap.Renamed ρ) (s.keymap? id) (t.keymap? (ρ id))
  above : ∀ owner id, t.Parent owner (ρ id) → ∃ x, ρ x = owner
  handles : ∀ id, t.handles.count (ρ id) = s.handles.count id

namespace Alike

variable {s t : Store α}

theorem eq_iff (h : s.Alike ρ t) {a b : Nat} : ρ a = ρ b ↔ a = b := h.inj.eq_iff

theorem self (h : s.Alike ρ t) : ρ s.next = t.next := h.next 0

/-! ## What keys lead to -/

theorem alive (h : s.Alike ρ t) (id : Nat) : t.alive (ρ id) = s.alive id := by
  have rel := h.keymap? id
  rw [Bool.eq_iff_iff, alive_iff, alive_iff]
  generalize s.keymap? id = km at rel ⊢
  generalize t.keymap? (ρ id) = km' at rel ⊢
  cases rel <;> simp

theorem slot? (h : s.Alike ρ t) (id : Nat) (key : Char) :
    t.slot? (ρ id) key = (s.slot? id key).map (Slot.rename ρ) := by
  have rel := h.keymap? id
  rw [Store.slot?, Store.slot?]
  generalize s.keymap? id = km at rel ⊢
  generalize t.keymap? (ρ id) = km' at rel ⊢
  cases rel with
  | none => rfl
  | some renamed => exact renamed.slots key

theorem slots (h : s.Alike ρ t) (id : Nat) :
    t.slots (ρ id) = (s.slots id).map fun p => (p.1, p.2.rename ρ) := by
  have rel := h.keymap? id
  rw [Store.slots, Store.slots]
  generalize s.keymap? id = km at rel ⊢
  generalize t.keymap? (ρ id) = km' at rel ⊢
  cases rel with
  | none => rfl
  | some renamed => exact renamed.toList

theorem keys (h : s.Alike ρ t) (id : Nat) : t.keys (ρ id) = s.keys id := by
  rw [Store.keys, h.slots, List.map_map, Store.keys]
  rfl

theorem resolve (h : s.Alike ρ t) (slot : Slot α) :
    t.resolve (slot.rename ρ) = (s.resolve slot).map (Binding.rename ρ) := by
  rcases slot with (id | ⟨tag, act⟩) | target
  · rw [Slot.rename, Binding.rename, Store.resolve, Store.resolve, h.alive]
    split <;> rfl
  · rfl
  · rw [Slot.rename, Store.resolve, Store.resolve, h.alive]
    split <;> rfl

theorem bind_resolve (h : s.Alike ρ t) (slot : Option (Slot α)) :
    (slot.map (Slot.rename ρ)).bind t.resolve = (slot.bind s.resolve).map (Binding.rename ρ) := by
  cases slot with
  | none => rfl
  | some slot => exact h.resolve slot

theorem lookup (h : s.Alike ρ t) (id : Nat) (key : Char) :
    t.lookup (ρ id) key = (s.lookup id key).map (Binding.rename ρ) := by
  rw [Store.lookup, h.slot?]
  exact h.bind_resolve _

/-- The same keys lead to the same place. -/
theorem walk (h : s.Alike ρ t) (id : Nat) (keys : List Char) :
    t.walk (ρ id) keys = (s.walk id keys).map (Binding.rename ρ) := by
  induction keys generalizing id with
  | nil =>
      rw [Store.walk, Store.walk, h.alive]
      split <;> rfl
  | cons key keys ih =>
      rw [Store.walk, Store.walk, h.lookup]
      rcases s.lookup id key with _ | (next | ⟨tag, act⟩)
      · rfl
      · exact ih next
      · cases keys <;> rfl

/-! ## Handles -/

theorem mem_handles_iff (h : s.Alike ρ t) {id : Nat} : ρ id ∈ t.handles ↔ id ∈ s.handles := by
  rw [← List.count_pos_iff, ← List.count_pos_iff, h.handles id]

theorem hold (h : s.Alike ρ t) (km : Nat) : (s.hold km).Alike ρ (t.hold (ρ km)) :=
  { h with
    handles := fun id => by
      show List.count (ρ id) (ρ km :: t.handles) = List.count id (km :: s.handles)
      rw [List.count_cons, List.count_cons, h.handles id]
      simp only [beq_iff_eq, h.eq_iff] }

theorem drop (h : s.Alike ρ t) (km : Nat) : (s.drop km).Alike ρ (t.drop (ρ km)) :=
  { h with
    handles := fun id => by
      show List.count (ρ id) (t.handles.erase (ρ km)) = List.count id (s.handles.erase km)
      rw [List.count_erase, List.count_erase, h.handles id]
      simp only [beq_iff_eq, h.eq_iff] }

/-! ## New keymaps and slots -/

theorem freshTag (h : s.Alike ρ t) : s.freshTag.2.Alike ρ t.freshTag.2 :=
  { h with
    next := fun n => by
      have := h.next (n + 1)
      rwa [Nat.add_comm n 1, ← Nat.add_assoc, ← Nat.add_assoc] at this }

theorem create (h : s.Alike ρ t) (name help : Option String) :
    (s.create name help).2.Alike ρ (t.create name help).2 where
  inj := h.inj
  next := h.freshTag.next
  keymap? id := by
    rw [keymap?_create, keymap?_create, ← h.self]
    simp only [h.eq_iff]
    split
    · exact .some ⟨rfl, rfl, fun key => by rw [Slots.get?_empty]; rfl⟩
    · exact h.keymap? id
  above owner id hp := h.above owner id hp.of_create
  handles := h.handles

theorem putAll (h : s.Alike ρ t) (km : Nat) (keys : List Char) (slot : Slot α) :
    (s.putAll km keys slot).Alike ρ (t.putAll (ρ km) keys (slot.rename ρ)) :=
  { h with
    keymap? := fun id => by
      rw [Store.putAll, keymap?_modify, Store.putAll, keymap?_modify]
      simp only [h.eq_iff]
      have rel := h.keymap? id
      split
      · generalize s.keymap? id = node at rel ⊢
        generalize t.keymap? (ρ id) = node' at rel ⊢
        cases rel with
        | none => exact .none
        | some renamed =>
            refine .some ⟨renamed.id, renamed.help, fun key => ?_⟩
            rw [Slots.get?_foldl_put, Slots.get?_foldl_put, renamed.slots]
            split <;> rfl
      · exact rel
    above := fun owner id hp => by
      rcases hp.of_putAll with hp | ⟨rfl, -⟩
      · exact h.above owner id hp
      · exact ⟨km, rfl⟩ }

theorem put (h : s.Alike ρ t) (km : Nat) (key : Char) (slot : Slot α) :
    (s.put km key slot).Alike ρ (t.put (ρ km) key (slot.rename ρ)) :=
  h.putAll km [key] slot

/-! ## Releasing keymaps -/

theorem bind_owned? (slot : Option (Slot α)) :
    (slot.map (Slot.rename ρ)).bind Slot.owned? = (slot.bind Slot.owned?).map ρ := by
  cases slot with
  | none => rfl
  | some slot => exact slot.owned?_rename

theorem parent_iff (h : s.Alike ρ t) {owner id : Nat} :
    t.Parent (ρ owner) (ρ id) ↔ s.Parent owner id := by
  refine exists_congr fun key => ?_
  rw [h.slot?, bind_owned?, Option.map_eq_some_iff]
  constructor
  · rintro ⟨x, hx, same⟩
    exact h.inj same ▸ hx
  · exact fun hid => ⟨id, hid, rfl⟩

/-- What holds a set of keymaps up holds it up in the other store as well. -/
theorem alive_release (h : s.Alike ρ t) {roots roots' : List KeymapId}
    (hr : ∀ id, ρ id ∈ roots' ↔ id ∈ roots) (id : Nat) :
    (t.release roots').alive (ρ id) = (s.release roots).alive id := by
  have held (x : Nat) : ρ x ∈ t.handles ++ roots' ↔ x ∈ s.handles ++ roots := by
    rw [List.mem_append, List.mem_append, h.mem_handles_iff, hr x]
  rw [Bool.eq_iff_iff, alive_release_iff, alive_release_iff]
  constructor
  · rintro ⟨K, supported, there, hid⟩
    refine ⟨fun x => K (ρ x), fun x hx => ?_, fun x hx => h.alive x ▸ there _ hx, hid⟩
    refine (supported _ hx).imp (held x).1 ?_
    rintro ⟨owner, km, key, ho, hkm, hk⟩
    have parent := parent_of_keymap? hkm hk
    obtain ⟨owner, rfl⟩ := h.above owner x parent
    obtain ⟨km, key, hkm, hk⟩ := (h.parent_iff.1 parent).exists_keymap?
    exact ⟨owner, km, key, ho, hkm, hk⟩
  · rintro ⟨K, supported, there, hid⟩
    refine ⟨fun y => ∃ x, K x ∧ ρ x = y, ?_, ?_, id, hid, rfl⟩
    · rintro _ ⟨x, hx, rfl⟩
      refine (supported x hx).imp (held x).2 ?_
      rintro ⟨owner, km, key, ho, hkm, hk⟩
      have parent := h.parent_iff.2 (parent_of_keymap? hkm hk)
      obtain ⟨km, key, hkm, hk⟩ := parent.exists_keymap?
      exact ⟨ρ owner, km, key, ⟨owner, ho, rfl⟩, hkm, hk⟩
    · rintro _ ⟨x, hx, rfl⟩
      exact (h.alive x).trans (there x hx)

theorem release (h : s.Alike ρ t) {roots roots' : List KeymapId}
    (hr : ∀ id, ρ id ∈ roots' ↔ id ∈ roots) : (s.release roots).Alike ρ (t.release roots') where
  inj := h.inj
  next n := by
    rw [next_release, next_release]
    exact h.next n
  keymap? id := by
    rw [keymap?_release_eq, keymap?_release_eq, h.alive_release hr]
    split
    · exact h.keymap? id
    · exact .none
  above owner id hp := h.above owner id (hp.of_within (t.within_release roots'))
  handles id := by
    rw [handles_release, handles_release]
    exact h.handles id

end Alike

end Store

/-! ## Compiling -/

namespace Config

variable {σ : Type}

/-- Compilations in stores that are alike fill keymaps that are alike. -/
structure FillAlike (ρ : Nat → Nat) (enclosing : List KeymapId) (s : Store (Action σ))
    (enclosing' : List KeymapId) (t : Store (Action σ)) : Prop where
  stores : s.Alike ρ t
  renamed : enclosing' = enclosing.map ρ

theorem coupled_fillAlike (ρ : Nat → Nat) : Coupled (FillAlike (σ := σ) ρ) where
  length enclosing s enclosing' t h := by rw [h.renamed, List.length_map]
  create enclosing s enclosing' t name help h := by
    refine ⟨h.stores.create name help, ?_⟩
    rw [h.renamed, ← h.stores.self, List.map_cons]
  put km enclosing km' enclosing' keys slot s slot' t h := by
    cases h with
    | @action s t v act act' h left right =>
        cases left.symm.trans right
        obtain ⟨stores, renamed⟩ := h
        obtain ⟨rfl, -⟩ := List.cons.inj renamed
        have fill := stores.freshTag.putAll km keys (.bound (.action s.next act))
        rw [Slot.rename, Binding.rename, stores.self] at fill
        exact ⟨fill, renamed⟩
    | @back s t n target target' h ht ht' =>
        obtain ⟨stores, renamed⟩ := h
        rw [renamed, List.getElem?_map, ht] at ht'
        cases ht'
        obtain ⟨rfl, -⟩ := List.cons.inj renamed
        exact ⟨stores.putAll km keys (.aliasOf target), renamed⟩
    | @keymap s t inner inner' h =>
        obtain ⟨stores, renamed⟩ := h
        obtain ⟨rfl, outer⟩ := List.cons.inj renamed
        obtain ⟨rfl, -⟩ := List.cons.inj outer
        exact ⟨stores.putAll km keys (.bound (.keymap inner)), outer⟩

end Config

/-- A configuration compiles to keymaps that are alike, or fails in the same way. -/
theorem Store.Alike.compile {σ : Type} {s t : Store (Action σ)} (h : s.Alike ρ t) (config : Json) :
    Config.Accord (fun r r' => r.2.Alike ρ r'.2 ∧ r'.1 = ρ r.1) (s.compile config)
      (t.compile config) := by
  have accord := (Config.coupled_fillAlike ρ).accord_compile ⟨h, rfl⟩ config
  generalize s.compile config = x at accord ⊢
  generalize t.compile config = y at accord ⊢
  cases accord with
  | error e => exact .error e
  | ok both => exact .ok ⟨both.stores, (List.cons.inj both.renamed).1⟩

end ModalKeys
