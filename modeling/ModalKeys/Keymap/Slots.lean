import Std.Data.TreeMap

/-!
# Bindings and slots

A key is bound to a keymap in one of two ways. A bound keymap is *owned* by the keymap that binds it
and lives as long as an owner does. An alias leads to a keymap without owning it, and to nothing once
that keymap is gone.

Besides how each key is bound, `Slots` counts for each keymap the keys that own it. What is owned can
thus be listed without a look at every key, and `mem_ownedIds` says that the list is right.

The type of actions is a parameter here, since keymaps only store them.
-/

namespace ModalKeys

/-- The identity of a keymap. -/
abbrev KeymapId := Nat

/-- What a key leads to. An action carries a tag that tells separately created actions apart, also
when they are equal. -/
inductive Binding (α : Type) where
  | keymap (id : KeymapId)
  | action (tag : Nat) (act : α)
  deriving Repr

namespace Binding

def keymap? : Binding α → Option KeymapId
  | keymap id => some id
  | action .. => none

def action? : Binding α → Option α
  | keymap _ => none
  | action _ act => some act

def isAction : Binding α → Bool
  | keymap _ => false
  | action .. => true

/-- Whether two bindings are the same keymap or the same action. -/
def same : Binding α → Binding α → Bool
  | keymap a, keymap b => a == b
  | action a _, action b _ => a == b
  | _, _ => false

end Binding

inductive Slot (α : Type) where
  | bound (binding : Binding α)
  | aliasOf (target : KeymapId)
  deriving Repr

/-- The keymap that a slot owns. -/
def Slot.owned? : Slot α → Option KeymapId
  | bound (.keymap id) => some id
  | _ => none

/-- The keymap that a slot is an alias of. -/
def Slot.alias? : Slot α → Option KeymapId
  | aliasOf id => some id
  | bound _ => none

namespace Slots

/-- How many keys own a keymap. -/
def ownersIn (entries : Std.TreeMap Char (Slot α)) (id : KeymapId) : Nat :=
  entries.toList.countP fun entry => entry.2.owned? == some id

/-- Counts of zero are left out of a tally. -/
def positive? (n : Nat) : Option Nat := if n = 0 then none else some n

/-- Changes the count of a keymap. -/
def recount (f : Nat → Nat) (tally : Std.TreeMap KeymapId Nat) :
    Option KeymapId → Std.TreeMap KeymapId Nat
  | none => tally
  | some id => tally.alter id fun n => positive? (f (n.getD 0))

/-- Another slot for a key: the counts change by what the old slot and the new one own. -/
theorem ownersIn_insert (entries : Std.TreeMap Char (Slot α)) (key : Char) (slot : Slot α)
    (id : KeymapId) :
    ownersIn (entries.insert key slot) id +
        (if entries[key]?.bind Slot.owned? = some id then 1 else 0) =
      ownersIn entries id + (if slot.owned? = some id then 1 else 0) := by
  have others (new : Slot α) : ownersIn (entries.insert key new) id =
      (entries.toList.filter (¬key == ·.1)).countP (fun entry => entry.2.owned? == some id) +
        (if new.owned? = some id then 1 else 0) := by
    rw [ownersIn, Std.TreeMap.toList_insert_perm.countP_eq, List.countP_cons]
    simp
  rw [others slot]
  cases hk : entries[key]? with
  | none =>
    have : entries.toList.filter (¬key == ·.1) = entries.toList := by
      rw [List.filter_eq_self]
      intro entry he
      have := Std.TreeMap.mem_toList_iff_getElem?_eq_some.1 he
      simp only [beq_iff_eq, decide_eq_true_eq]
      rintro rfl
      simp_all
    rw [this]
    simp [ownersIn]
  | some old =>
    have same : ownersIn (entries.insert key old) id = ownersIn entries id := by
      refine (Std.TreeMap.equiv_iff_toList_perm.1 ?_).countP_eq _
      refine Std.TreeMap.Equiv.of_forall_constGet?_eq fun k => ?_
      rw [Std.TreeMap.getElem?_insert]
      split
      · next h => rw [← hk, Std.compare_eq_iff_eq.1 h]
      · rfl
    rw [others old] at same
    simp only [Option.bind_some]
    omega

theorem ownersIn_pos_iff {entries : Std.TreeMap Char (Slot α)} {id : KeymapId} :
    0 < ownersIn entries id ↔ ∃ key : Char, entries[key]?.bind Slot.owned? = some id := by
  rw [ownersIn, List.countP_pos_iff]
  constructor
  · rintro ⟨⟨key, slot⟩, he, ho⟩
    exact ⟨key, by simp [Std.TreeMap.mem_toList_iff_getElem?_eq_some.1 he, beq_iff_eq.1 ho]⟩
  · rintro ⟨key, h⟩
    obtain ⟨slot, hs, ho⟩ := Option.bind_eq_some_iff.1 h
    exact ⟨(key, slot), Std.TreeMap.mem_toList_iff_getElem?_eq_some.2 hs, by simp [ho]⟩

theorem recount_eq {tally : Std.TreeMap KeymapId Nat} {count : KeymapId → Nat}
    (h : ∀ id, tally[id]? = positive? (count id)) (f : Nat → Nat) (owned : Option KeymapId)
    (id : KeymapId) : (recount f tally owned)[id]? =
      positive? (if owned = some id then f (count id) else count id) := by
  cases owned with
  | none => simp [recount, h]
  | some other =>
    rw [recount, Std.TreeMap.getElem?_alter]
    by_cases ho : other = id
    · subst ho
      have : (positive? (count other)).getD 0 = count other := by
        unfold positive?; split <;> simp [*]
      simp [h, this]
    · simp [h, ho]

end Slots

/-- How the keys of a keymap are bound, and how many of them own each keymap. -/
structure Slots (α : Type) where
  tally : Std.TreeMap KeymapId Nat
  entries : Std.TreeMap Char (Slot α)
  tally_eq : ∀ id, tally[id]? = Slots.positive? (Slots.ownersIn entries id)

namespace Slots

theorem positive?_ownersIn_empty (id : KeymapId) :
    (∅ : Std.TreeMap KeymapId Nat)[id]? =
      positive? (ownersIn (∅ : Std.TreeMap Char (Slot α)) id) := by
  simp [ownersIn, positive?]

def empty : Slots α := ⟨∅, ∅, positive?_ownersIn_empty⟩

def get? (s : Slots α) (key : Char) : Option (Slot α) := s.entries[key]?

/-- The keymap that a key owns. -/
def ownedAt? (s : Slots α) (key : Char) : Option KeymapId := (s.get? key).bind Slot.owned?

/-- The counts after a key is bound to another slot. -/
def retally (tally : Std.TreeMap KeymapId Nat) (lost gained : Option KeymapId) :
    Std.TreeMap KeymapId Nat :=
  recount (· + 1) (recount (· - 1) tally lost) gained

theorem retally_eq (s : Slots α) (key : Char) (slot : Slot α) (id : KeymapId) :
    (retally s.tally (s.entries[key]?.bind Slot.owned?) slot.owned?)[id]? =
      positive? (ownersIn (s.entries.insert key slot) id) := by
  rw [retally, recount_eq (recount_eq s.tally_eq (· - 1) _) (· + 1)]
  have := ownersIn_insert s.entries key slot id
  have hpos (h : s.entries[key]?.bind Slot.owned? = some id) : 0 < ownersIn s.entries id :=
    ownersIn_pos_iff.2 ⟨key, h⟩
  congr 1
  by_cases ho : s.entries[key]?.bind Slot.owned? = some id
  · have := hpos ho
    split <;> simp_all <;> omega
  · split <;> simp_all

/-- Binds a key, in place of what it was bound to. -/
def put (s : Slots α) (key : Char) (slot : Slot α) : Slots α :=
  match s with
  | ⟨tally, entries, h⟩ => {
      tally := retally tally (entries[key]?.bind Slot.owned?) slot.owned?
      entries := entries.insert key slot
      tally_eq := retally_eq ⟨tally, entries, h⟩ key slot }

def toList (s : Slots α) : List (Char × Slot α) := s.entries.toList

def keys (s : Slots α) : List Char := s.entries.keys

def size (s : Slots α) : Nat := s.entries.size

/-- The keymaps that are owned, each once. -/
def ownedIds (s : Slots α) : List KeymapId := s.tally.keys

theorem get?_put (s : Slots α) (key other : Char) (slot : Slot α) :
    (s.put key slot).get? other = if key = other then some slot else s.get? other := by
  simp [get?, put, Std.TreeMap.getElem?_insert]

theorem mem_toList {s : Slots α} {key : Char} {slot : Slot α} :
    (key, slot) ∈ s.toList ↔ s.get? key = some slot :=
  Std.TreeMap.mem_toList_iff_getElem?_eq_some

/-- What is listed as owned is what the slots own. -/
theorem mem_ownedIds {s : Slots α} {id : KeymapId} :
    id ∈ s.ownedIds ↔ ∃ key, s.ownedAt? key = some id := by
  rw [ownedIds, Std.TreeMap.mem_keys, Std.TreeMap.mem_iff_isSome_getElem?, s.tally_eq]
  have : (positive? (ownersIn s.entries id)).isSome ↔ 0 < ownersIn s.entries id := by
    unfold positive?; split <;> simp <;> omega
  rw [this, ownersIn_pos_iff]
  rfl

end Slots

end ModalKeys
