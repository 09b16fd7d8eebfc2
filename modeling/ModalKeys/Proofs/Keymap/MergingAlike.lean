import ModalKeys.Proofs.Keymap.Renaming

/-!
# Merging keymaps that are alike

A merge asks what keys lead to, whether keymaps are held, and which pairs have been taken up. All of this
is the same in stores that are alike, so that merges of keymaps that are alike take the same steps and
release the same keymaps on the way.
-/

namespace ModalKeys

variable {α : Type} {ρ : Nat → Nat}

/-! ## Tasks -/

namespace MergeTask

def rename (ρ : Nat → Nat) (task : MergeTask α) : MergeTask α :=
  ⟨ρ task.receiver, ρ task.incoming, task.pending.map fun p => (p.1, p.2.rename ρ)⟩

theorem held_map_rename (tasks : List (MergeTask α)) :
    held (tasks.map (rename ρ)) = (held tasks).map ρ := by
  induction tasks with
  | nil => rfl
  | cons task tasks ih =>
      have owned : (task.pending.map fun p => (p.1, p.2.rename ρ)).filterMap (·.2.owned?) =
          (task.pending.filterMap (·.2.owned?)).map ρ := by
        rw [List.filterMap_map, List.map_filterMap]
        exact List.filterMap_congr fun p _ => p.2.owned?_rename
      unfold held at ih ⊢
      rw [List.map_cons, List.flatMap_cons, List.flatMap_cons, ih, List.map_append]
      exact congrArg (fun ids => ρ task.receiver :: ρ task.incoming :: ids ++ _) owned

end MergeTask

namespace Store.Alike

variable {s t : Store α} {roots roots' : List KeymapId}

/-! ## What a step asks -/

theorem any_tasks (h : s.Alike ρ t) (tasks : List (MergeTask α)) (id : Nat) :
    ((tasks.map (MergeTask.rename ρ)).any fun task => task.receiver == ρ id || task.incoming == ρ id) =
      tasks.any fun task => task.receiver == id || task.incoming == id := by
  have same (a b : Nat) : (ρ a == ρ b) = (a == b) := by
    rw [Bool.eq_iff_iff, beq_iff_eq, beq_iff_eq, h.eq_iff]
  rw [List.any_map]
  congr 1
  funext task
  show (ρ task.receiver == ρ id || ρ task.incoming == ρ id) = _
  rw [same, same]

theorem givesUp (h : s.Alike ρ t) (incoming : Nat) (key : Char) (theirs : Slot α) :
    t.givesUp (ρ incoming) key (theirs.rename ρ) = s.givesUp incoming key theirs := by
  have same (x y : Option Nat) : x.map ρ = y.map ρ ↔ x = y := (Option.map_injective h.inj).eq_iff
  rw [Store.givesUp, theirs.owned?_rename, h.slot?, bind_owned?, Option.isSome_map, Store.givesUp]
  congr 1
  rw [Bool.eq_iff_iff, bne_iff_ne, bne_iff_ne, ne_eq, ne_eq, same]

section Roots

variable (hr : ∀ id, ρ id ∈ roots' ↔ id ∈ roots)

include hr

theorem isDoubtful (h : s.Alike ρ t) (tasks : List (MergeTask α)) (slot : Slot α) :
    t.isDoubtful roots' (tasks.map (MergeTask.rename ρ)) (slot.rename ρ) =
      s.isDoubtful roots tasks slot := by
  have handles (id : Nat) : t.handles.contains (ρ id) = s.handles.contains id := by
    rw [Bool.eq_iff_iff, List.contains_iff_mem, List.contains_iff_mem, h.mem_handles_iff]
  have roots (id : Nat) : roots'.contains (ρ id) = roots.contains id := by
    rw [Bool.eq_iff_iff, List.contains_iff_mem, List.contains_iff_mem, hr]
  rw [Store.isDoubtful, slot.alias?_rename, Store.isDoubtful]
  cases slot.alias? with
  | none => rfl
  | some id =>
      rw [Option.map_some, Option.any_some, Option.any_some, h.alive, handles, roots, h.any_tasks]

theorem mustSettle (h : s.Alike ρ t) (upkeep : Upkeep) (ours : Option (Slot α)) (theirs : Slot α)
    (tasks : List (MergeTask α)) :
    t.mustSettle roots' upkeep (ours.map (Slot.rename ρ)) (theirs.rename ρ)
        (tasks.map (MergeTask.rename ρ)) = s.mustSettle roots upkeep ours theirs tasks := by
  rw [Store.mustSettle, Store.mustSettle, h.isDoubtful hr]
  cases ours with
  | none => rfl
  | some slot => rw [Option.map_some, Option.any_some, Option.any_some, h.isDoubtful hr]

theorem settle (h : s.Alike ρ t) (tasks : List (MergeTask α)) (must : Bool) :
    (s.settle roots tasks must).Alike ρ
      (t.settle roots' (tasks.map (MergeTask.rename ρ)) must) := by
  unfold Store.settle
  cases must with
  | false => exact h
  | true =>
      refine h.release fun id => ?_
      rw [MergeTask.held_map_rename, List.mem_append, List.mem_append, hr, List.mem_map_of_injective h.inj]

end Roots

end Store.Alike

/-! ## Steps -/

namespace Merging

/-- Two merges that are at the same point. -/
structure Beside (ρ : Nat → Nat) (m m' : Merging α) : Prop where
  store : m.store.Alike ρ m'.store
  upkeep : m'.upkeep = m.upkeep
  seen : ∀ a b, m'.seen.contains (ρ a) (ρ b) = m.seen.contains a b
  tasks : m'.tasks = m.tasks.map (MergeTask.rename ρ)

variable {m m' : Merging α} {roots roots' : List KeymapId}

theorem contains_add (log : PairLog) (a b c d : Nat) :
    (log.add a b).contains c d = (decide (c = a ∧ d = b) || log.contains c d) := by
  rw [Bool.eq_iff_iff]
  simp

/-- A step is the same in both merges. -/
theorem Beside.step (h : Beside ρ m m') (hr : ∀ id, ρ id ∈ roots' ↔ id ∈ roots) :
    Beside ρ (m.step roots) (m'.step roots') := by
  obtain ⟨s, _, seen, tasks⟩ := m
  obtain ⟨t, upkeep, seen', tasks'⟩ := m'
  obtain ⟨store, upkeeps, pairs, renamed⟩ := h
  dsimp only at store upkeeps pairs renamed
  subst upkeeps renamed
  rcases tasks with _ | ⟨⟨receiver, incoming, _ | ⟨⟨key, theirs⟩, pending⟩⟩, tasks⟩
  · exact ⟨store, rfl, pairs, rfl⟩
  · exact ⟨store, rfl, pairs, rfl⟩
  · have must := store.mustSettle hr upkeep (s.slot? receiver key) theirs
      (⟨receiver, incoming, (key, theirs) :: pending⟩ :: tasks)
    have settled := store.settle hr (⟨receiver, incoming, (key, theirs) :: pending⟩ :: tasks)
      (s.mustSettle roots upkeep (s.slot? receiver key) theirs
        (⟨receiver, incoming, (key, theirs) :: pending⟩ :: tasks))
    rw [List.map_cons, MergeTask.rename, List.map_cons] at must settled ⊢
    rw [Merging.step, Merging.step]
    dsimp only at must settled ⊢
    rw [store.slot?, must]
    generalize s.slot? receiver key = ours at *
    generalize s.mustSettle roots upkeep ours theirs _ = must at settled ⊢
    generalize s.settle roots _ must = s₁ at settled ⊢
    generalize t.settle roots' _ must = t₁ at settled ⊢
    rw [settled.bind_resolve, settled.resolve, Store.Alike.bind_owned?, Option.isSome_map]
    have put : Beside ρ
        ⟨s₁.put receiver key theirs, if (ours.bind Slot.owned?).isSome then .due
          else if must then .done else upkeep, seen, ⟨receiver, incoming, pending⟩ :: tasks⟩
        ⟨t₁.put (ρ receiver) key (theirs.rename ρ), if (ours.bind Slot.owned?).isSome then .due
          else if must then .done else upkeep, seen',
          ⟨ρ receiver, ρ incoming, pending.map fun p => (p.1, p.2.rename ρ)⟩ ::
            tasks.map (MergeTask.rename ρ)⟩ :=
      ⟨settled.put receiver key theirs, rfl, pairs, rfl⟩
    rcases ours.bind s₁.resolve with _ | (a | ⟨tag, act⟩)
    · exact put
    · rcases s₁.resolve theirs with _ | (b | ⟨tag, act⟩)
      · exact put
      · simp only [Option.map_some, Binding.rename, settled.givesUp, pairs, store.eq_iff]
        split
        · exact ⟨settled, rfl, pairs, rfl⟩
        · refine ⟨settled, rfl, fun x y => ?_, ?_⟩
          · simp only [contains_add, pairs, store.eq_iff]
          · rw [settled.slots]
            rfl
      · exact put
    · exact put

theorem Beside.iterate (h : Beside ρ m m') (hr : ∀ id, ρ id ∈ roots' ↔ id ∈ roots) (n : Nat) :
    Beside ρ ((Merging.step roots)^[n] m) ((Merging.step roots')^[n] m') := by
  induction n generalizing m m' with
  | zero => exact h
  | succ n ih =>
      rw [Function.iterate_succ_apply, Function.iterate_succ_apply]
      exact ih (h.step hr)

/-- The one merge is through when the other one is. -/
theorem Beside.result (h : Beside ρ m m') (hr : ∀ id, ρ id ∈ roots' ↔ id ∈ roots) :
    (m.result roots).store.Alike ρ (m'.result roots').store := by
  obtain ⟨n, done⟩ := exists_tasks_eq_nil roots m
  have last := h.iterate hr n
  have done' := last.tasks
  rw [done, List.map_nil] at done'
  rw [← result_iterate roots n m, ← result_iterate roots' n m', Merging.result, Merging.result, done,
    done', Store.mergeTasks, Store.mergeTasks]
  exact last.store

end Merging

/-- Keymaps that are alike come out of a merge alike. -/
theorem Store.Alike.merge {s t : Store α} (h : s.Alike ρ t) {roots roots' : List KeymapId}
    (hr : ∀ id, ρ id ∈ roots' ↔ id ∈ roots) (a b : Nat) :
    (s.merge roots a b).Alike ρ (t.merge roots' (ρ a) (ρ b)) := by
  rw [Store.merge, merging, Store.merge, merging]
  simp only [h.eq_iff]
  split
  · exact h
  · have none (x y : Nat) : (default : PairLog).contains x y = false := by
      rw [Bool.eq_false_iff, ne_eq, PairLog.contains_iff]
      exact List.not_mem_nil
    have start : Merging.Beside ρ ⟨s, .none, PairLog.add default a b, [⟨a, b, s.slots b⟩]⟩
        ⟨t, .none, PairLog.add default (ρ a) (ρ b), [⟨ρ a, ρ b, t.slots (ρ b)⟩]⟩ := by
      refine ⟨h, rfl, fun x y => ?_, ?_⟩
      · simp only [Merging.contains_add, none, h.eq_iff]
      · rw [h.slots]
        rfl
    exact start.result hr

end ModalKeys
