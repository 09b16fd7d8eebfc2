import Mathlib.Data.Finset.Prod
import Mathlib.Data.Finset.Union
import ModalKeys.Proofs.Keymap.Overlay

/-!
# How long a merge takes

A merge walks keymaps while it changes them, and they may lead in circles, to one another and from one side
of the merge to the other. It comes to an end all the same: it makes no new keymaps and no new keys, and it
begins with no pair of keymaps twice. So at most one merge of two keymaps is begun for each pair of them,
with as many slots at most as there are keys.
-/

namespace ModalKeys

variable {α : Type}

namespace Store

/-- The keymaps of a store. -/
def ids (s : Store α) : Finset KeymapId := s.keymaps.keys.toFinset

/-- The keys that are bound in some keymap of a store. -/
def boundKeys (s : Store α) : Finset Char := s.ids.biUnion fun id => (s.keys id).toFinset

theorem mem_ids {s : Store α} {id : KeymapId} : id ∈ s.ids ↔ s.alive id := by
  rw [ids, List.mem_toFinset, Std.TreeMap.mem_keys]
  exact Std.TreeMap.mem_iff_contains

theorem mem_boundKeys {s : Store α} {id : KeymapId} {key : Char} {slot : Slot α}
    (h : s.slot? id key = some slot) : key ∈ s.boundKeys := by
  obtain ⟨km, hkm, -⟩ := slot?_eq_some_iff.1 h
  refine Finset.mem_biUnion.2 ⟨id, mem_ids.2 (alive_of_keymap? hkm), List.mem_toFinset.2 ?_⟩
  rw [mem_keys, h]
  rfl

/-- A keymap has no more slots than there are keys. -/
theorem length_slots_le {s : Store α} {keys : Finset Char}
    (h : ∀ id key slot, s.slot? id key = some slot → key ∈ keys) (id : KeymapId) :
    (s.slots id).length ≤ keys.card := by
  rw [← List.length_map (·.1), ← List.toFinset_card_of_nodup (s.nodup_keys_slots id)]
  refine Finset.card_le_card fun key hk => ?_
  obtain ⟨⟨key, slot⟩, hs, rfl⟩ := List.mem_map.1 (List.mem_toFinset.1 hk)
  exact h id key slot (mem_slots.1 hs)

end Store

/-- The keymaps that a task merges. -/
def MergeTask.pair (task : MergeTask α) : KeymapId × KeymapId := (task.receiver, task.incoming)

namespace Merging

/-! ## What is begun -/

/-- The pair of keymaps whose merge has been begun from one state to the next: that of a task that has been
put on the stack. -/
def begun? (m m' : Merging α) : Option (KeymapId × KeymapId) :=
  if m.tasks.length < m'.tasks.length then m'.tasks.head?.map MergeTask.pair else none

/-- The pairs of keymaps whose merges are begun in a number of steps, one after another. -/
def begunWithin (roots : List KeymapId) : Nat → Merging α → List (KeymapId × KeymapId)
  | 0, _ => []
  | n + 1, m => (m.begun? (m.step roots)).toList ++ begunWithin roots n (m.step roots)

variable {roots : List KeymapId} {m m' : Merging α}

theorem step_of_tasks_eq_nil (h : m.tasks = []) : m.step roots = m := by
  obtain ⟨s, upkeep, seen, _ | ⟨task, tasks⟩⟩ := m
  · rfl
  · cases h

/-- The log of pairs lists what has been begun. -/
theorem Step.pairs_eq (h : Step roots m m') :
    m'.seen.pairs = (m.begun? m').toList ++ m.seen.pairs := by
  cases h with
  | finish => simp [begun?]
  | skip => simp [begun?]
  | descend => simp [begun?, MergeTask.pair]
  | put => simp [begun?]

theorem pairs_step (roots : List KeymapId) (m : Merging α) :
    (m.step roots).seen.pairs = (m.begun? (m.step roots)).toList ++ m.seen.pairs := by
  by_cases h : m.tasks = []
  · rw [step_of_tasks_eq_nil h, begun?, if_neg (Nat.lt_irrefl _)]
    rfl
  · exact (step_cases h).pairs_eq

theorem pairs_iterate (roots : List KeymapId) (n : Nat) (m : Merging α) :
    ((step roots)^[n] m).seen.pairs = (begunWithin roots n m).reverse ++ m.seen.pairs := by
  induction n generalizing m with
  | zero => rfl
  | succ n ih =>
      have single (pair : Option (KeymapId × KeymapId)) : pair.toList.reverse = pair.toList := by
        cases pair <;> rfl
      rw [Function.iterate_succ_apply, ih, pairs_step, begunWithin, List.reverse_append, single,
        List.append_assoc]

/-! ## Bounds -/

/-- A merge that was started with some keymaps and keys: none has come up since, no merge of two keymaps
has been begun twice, and all but the first one were begun for keymaps that were there. -/
structure Bounded (ids : Finset KeymapId) (keys : Finset Char) (first : KeymapId × KeymapId)
    (m : Merging α) : Prop where
  alive : ∀ id, m.store.alive id → id ∈ ids
  slots : ∀ id key slot, m.store.slot? id key = some slot → key ∈ keys
  pending : ∀ task ∈ m.tasks, ∀ entry ∈ task.pending, entry.1 ∈ keys
  once : m.seen.pairs.Nodup
  seen : ∀ pair ∈ m.seen.pairs, pair = first ∨ pair.1 ∈ ids ∧ pair.2 ∈ ids

variable {ids : Finset KeymapId} {keys : Finset Char} {first : KeymapId × KeymapId}

theorem Bounded.of_step (h : m.Bounded ids keys first) (hs : Step roots m m') :
    m'.Bounded ids keys first := by
  obtain ⟨alive, slots, pending, once, seen⟩ := h
  cases hs with
  | finish =>
      exact ⟨alive, slots, fun task ht => pending task (List.mem_cons_of_mem _ ht), once, seen⟩
  | skip settles =>
      obtain ⟨top, rest⟩ := List.forall_mem_cons.1 pending
      refine ⟨fun id hid => alive id (settles.within.alive hid),
        fun id key slot hs => slots id key slot (settles.within.slot? hs), ?_, once, seen⟩
      exact List.forall_mem_cons.2 ⟨fun entry he => top entry (List.mem_cons_of_mem _ he), rest⟩
  | descend settles hc hd ne new =>
      obtain ⟨top, rest⟩ := List.forall_mem_cons.1 pending
      have slots' (id : KeymapId) (key : Char) (slot : Slot α) (hs : _) :=
        slots id key slot (settles.within.slot? hs)
      have alive' (id : KeymapId) (hid : _) := alive id (settles.within.alive hid)
      refine ⟨alive', slots', ?_, List.nodup_cons.2 ⟨new, once⟩,
        List.forall_mem_cons.2 ⟨?_, seen⟩⟩
      · refine List.forall_mem_cons.2 ⟨fun entry he => slots' _ _ _ (Store.mem_slots.1 he), ?_⟩
        exact List.forall_mem_cons.2 ⟨fun entry he => top entry (List.mem_cons_of_mem _ he), rest⟩
      · exact Or.inr ⟨alive' _ (Store.alive_of_lookup hc), alive' _ (Store.alive_of_resolve hd)⟩
  | put settles =>
      obtain ⟨top, rest⟩ := List.forall_mem_cons.1 pending
      refine ⟨fun id hid => ?_, fun id key slot hs => ?_, ?_, once, seen⟩
      · rw [Store.alive_put] at hid
        exact alive id (settles.within.alive hid)
      · rw [Store.slot?_put] at hs
        split at hs
        · next here =>
            rw [here.2.1]
            exact top _ List.mem_cons_self
        · exact slots id key slot (settles.within.slot? hs)
      · exact List.forall_mem_cons.2 ⟨fun entry he => top entry (List.mem_cons_of_mem _ he), rest⟩

/-- The pairs of keymaps whose merges can still be begun. -/
def unbegun (ids : Finset KeymapId) (seen : List (KeymapId × KeymapId)) :
    Finset (KeymapId × KeymapId) :=
  (ids ×ˢ ids).filter (· ∉ seen)

/-- How many steps are left at most. Each merge that can still be begun takes a step for each key and one
more to come to its end. -/
def stepsLeft (ids : Finset KeymapId) (keys : Finset Char) (m : Merging α) : Nat :=
  (unbegun ids m.seen.pairs).card * (keys.card + 1) + MergeTask.size m.tasks

theorem card_unbegun_lt {seen : List (KeymapId × KeymapId)} {pair : KeymapId × KeymapId}
    (new : pair ∉ seen) (there : pair.1 ∈ ids ∧ pair.2 ∈ ids) :
    (unbegun ids (pair :: seen)).card < (unbegun ids seen).card := by
  refine Finset.card_lt_card ((Finset.ssubset_iff_of_subset fun x hx => ?_).2 ⟨pair, ?_, ?_⟩)
  · rw [unbegun, Finset.mem_filter, List.mem_cons, not_or] at hx
    exact Finset.mem_filter.2 ⟨hx.1, hx.2.2⟩
  · exact Finset.mem_filter.2 ⟨Finset.mem_product.2 there, new⟩
  · exact fun hx => (Finset.mem_filter.1 hx).2 List.mem_cons_self

theorem Bounded.stepsLeft_lt (h : m.Bounded ids keys first) (hs : Step roots m m') :
    m'.stepsLeft ids keys < m.stepsLeft ids keys := by
  have h' := h.of_step hs
  cases hs with
  | finish => exact Nat.add_lt_add_left (MergeTask.size_lt_cons ..) _
  | skip => exact Nat.add_lt_add_left (MergeTask.size_lt_pending ..) _
  | put => exact Nat.add_lt_add_left (MergeTask.size_lt_pending ..) _
  | @descend s s' _ _ seen _ _ c d _ _ _ _ _ hc hd _ new =>
      -- the new task has no more slots than there are steps for each pair
      have few : (s'.slots d).length ≤ keys.card := Store.length_slots_le h'.slots d
      have there : c ∈ ids ∧ d ∈ ids :=
        ⟨h'.alive c (Store.alive_of_lookup hc), h'.alive d (Store.alive_of_resolve hd)⟩
      have fewer := Nat.mul_le_mul_right (keys.card + 1) (card_unbegun_lt new there)
      rw [Nat.succ_mul] at fewer
      simp only [stepsLeft, MergeTask.size, List.length_cons, PairLog.pairs_add]
      omega

/-- As many steps as are left at most lead to the end. -/
theorem Bounded.tasks_iterate (h : m.Bounded ids keys first) {n : Nat}
    (enough : m.stepsLeft ids keys ≤ n) : ((step roots)^[n] m).tasks = [] := by
  induction n generalizing m with
  | zero =>
      rw [Nat.le_zero, stepsLeft, Nat.add_eq_zero_iff] at enough
      show m.tasks = []
      cases ht : m.tasks with
      | nil => rfl
      | cons task tasks =>
          rw [ht] at enough
          exact absurd enough.2 (Nat.ne_zero_of_lt (MergeTask.size_lt_cons task tasks))
  | succ n ih =>
      by_cases done : m.tasks = []
      · rw [Function.iterate_fixed (step_of_tasks_eq_nil done)]
        exact done
      · have next : Step roots m (m.step roots) := step_cases done
        refine ih (h.of_step next) ?_
        have := h.stepsLeft_lt next
        omega

theorem Bounded.iterate (h : m.Bounded ids keys first) (n : Nat) :
    ((step roots)^[n] m).Bounded ids keys first := by
  refine Function.Iterate.rec (Bounded ids keys first) h (fun m h => ?_) n
  by_cases done : m.tasks = []
  · rw [step_of_tasks_eq_nil done]
    exact h
  · exact h.of_step (step_cases done)

end Merging

namespace Store

/-- A merge that has just been started. Nothing is to be done for a keymap that is merged into itself. -/
def startMerge (s : Store α) (a b : KeymapId) : Merging α :=
  if a = b then ⟨s, .none, default, []⟩
  else ⟨s, .none, PairLog.add default a b, [⟨a, b, s.slots b⟩]⟩

theorem result_startMerge (s : Store α) (roots : List KeymapId) (a b : KeymapId) :
    (s.startMerge a b).result roots = s.merging roots a b := by
  rw [merging, startMerge]
  split
  · rw [Merging.result, mergeTasks]
    rfl
  · rfl

theorem bounded_startMerge (s : Store α) (a b : KeymapId) :
    (s.startMerge a b).Bounded s.ids s.boundKeys (a, b) := by
  rw [startMerge]
  split
  · exact ⟨fun _ => mem_ids.2, fun _ _ _ => mem_boundKeys, nofun, List.nodup_nil, nofun⟩
  · refine ⟨fun _ => mem_ids.2, fun _ _ _ => mem_boundKeys, ?_, List.nodup_singleton _, ?_⟩
    · rintro task ht ⟨key, slot⟩ he
      cases List.mem_singleton.1 ht
      exact mem_boundKeys (mem_slots.1 he)
    · exact fun pair hp => Or.inl (List.mem_singleton.1 hp)

theorem pairs_startMerge (s : Store α) (a b : KeymapId) : (s.startMerge a b).seen.pairs =
    ((s.startMerge a b).tasks.map MergeTask.pair).reverse := by
  rw [startMerge]
  split
  · rfl
  · rfl

/-- The first merge may be one of keymaps that are not there, hence the one beside the pairs. -/
theorem stepsLeft_startMerge_le (s : Store α) (a b : KeymapId) :
    (s.startMerge a b).stepsLeft s.ids s.boundKeys ≤
      (s.ids.card * s.ids.card + 1) * (s.boundKeys.card + 1) := by
  have pairs : (Merging.unbegun s.ids (s.startMerge a b).seen.pairs).card ≤ s.ids.card * s.ids.card :=
    (Finset.card_filter_le ..).trans (Finset.card_product ..).le
  have tasks : MergeTask.size (s.startMerge a b).tasks ≤ s.boundKeys.card + 1 := by
    rw [startMerge]
    split
    · exact Nat.zero_le _
    · exact Nat.succ_le_succ (length_slots_le (fun _ _ _ => mem_boundKeys) b)
  exact (Nat.add_le_add (Nat.mul_le_mul_right _ pairs) tasks).trans_eq (Nat.succ_mul ..).symm

/-- The pairs of keymaps whose merges are begun, in so many steps, when a keymap is merged into another,
from that one on. -/
def mergesBegun (n : Nat) (s : Store α) (roots : List KeymapId) (a b : KeymapId) :
    List (KeymapId × KeymapId) :=
  (s.startMerge a b).tasks.map MergeTask.pair ++ Merging.begunWithin roots n (s.startMerge a b)

/-- Whatever the keymaps are, a merge comes to its end, and no merge of the same two keymaps is begun
twice. The number of steps is bounded by the numbers of keymaps and of keys. -/
theorem merging_within (s : Store α) (roots : List KeymapId) (a b : KeymapId) :
    let n := (s.ids.card * s.ids.card + 1) * (s.boundKeys.card + 1)
    let m := (Merging.step roots)^[n] (s.startMerge a b)
    let begun := s.mergesBegun n roots a b
    m.tasks = [] ∧ s.merging roots a b = ⟨m.store, begun.reverse⟩ ∧ begun.Nodup ∧
      ∀ pair ∈ begun, pair = (a, b) ∨ s.alive pair.1 ∧ s.alive pair.2 := by
  intro n m begun
  have start := s.bounded_startMerge a b
  have after : m.Bounded s.ids s.boundKeys (a, b) := start.iterate n
  have done : m.tasks = [] := start.tasks_iterate (s.stepsLeft_startMerge_le a b)
  have log : m.seen.pairs = begun.reverse := by
    rw [Merging.pairs_iterate, pairs_startMerge, ← List.reverse_append]
    rfl
  refine ⟨done, ?_, ?_, fun pair hp => ?_⟩
  · rw [← result_startMerge, ← Merging.result_iterate roots n, Merging.result, done, mergeTasks, log]
  · rw [← List.nodup_reverse, ← log]
    exact after.once
  · have := after.seen pair (by rwa [log, List.mem_reverse])
    rwa [mem_ids, mem_ids] at this

end Store

end ModalKeys
