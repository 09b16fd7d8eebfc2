import Mathlib.Logic.Function.Iterate
import ModalKeys.Keymap.Merge
import ModalKeys.Proofs.Keymap.Release

/-!
# Merging step by step

A merge works off a stack of tasks, and what happens next depends on the first slot of the first task
only. One step is given here as a function, beside all that it can come to. What every step keeps is
kept by the whole merge.
-/

namespace ModalKeys

variable {α : Type}

/-- A merge that is under way. -/
structure Merging (α : Type) where
  store : Store α
  upkeep : Upkeep
  seen : PairLog
  tasks : List (MergeTask α)

namespace Merging

/-- What a merge comes to in the end. -/
def result (roots : List KeymapId) (m : Merging α) : Merged α :=
  m.store.mergeTasks roots m.upkeep m.seen m.tasks

/-- Deals with one slot, or with a task that has none left. -/
def step (roots : List KeymapId) : Merging α → Merging α
  | ⟨s, upkeep, seen, []⟩ => ⟨s, upkeep, seen, []⟩
  | ⟨s, upkeep, seen, ⟨_, _, []⟩ :: tasks⟩ => ⟨s, upkeep.givenUp, seen, tasks⟩
  | ⟨s, upkeep, seen, ⟨receiver, incoming, (key, theirs) :: pending⟩ :: tasks⟩ =>
    let ours := s.slot? receiver key
    let all := ⟨receiver, incoming, (key, theirs) :: pending⟩ :: tasks
    let must := s.mustSettle roots upkeep ours theirs all
    let s' := s.settle roots all must
    let upkeep := if must then .done else upkeep
    match ours.bind s'.resolve, s'.resolve theirs with
    | some (.keymap a), some (.keymap b) =>
      let upkeep := if s'.givesUp incoming key theirs then upkeep.givenUp else upkeep
      if a = b ∨ seen.contains a b then
        ⟨s', upkeep, seen, ⟨receiver, incoming, pending⟩ :: tasks⟩
      else
        ⟨s', upkeep, seen.add a b, ⟨a, b, s'.slots b⟩ :: ⟨receiver, incoming, pending⟩ :: tasks⟩
    | _, _ =>
      ⟨s'.put receiver key theirs, if (ours.bind Slot.owned?).isSome then .due else upkeep, seen,
        ⟨receiver, incoming, pending⟩ :: tasks⟩

theorem result_step (roots : List KeymapId) (m : Merging α) :
    (m.step roots).result roots = m.result roots := by
  obtain ⟨s, upkeep, seen, _ | ⟨⟨receiver, incoming, _ | ⟨⟨key, theirs⟩, pending⟩⟩, tasks⟩⟩ := m
  · rfl
  · rw [step, result, result, Store.mergeTasks]
  · rw [result.eq_def roots ⟨s, _, _, _ :: _⟩, Store.mergeTasks]
    dsimp only
    split
    · next a b ho ht =>
      rw [step]
      simp only [ho, ht]
      split
      · rfl
      · rfl
    · next hno =>
      rw [step]
      dsimp only
      split
      · next a b ho ht => exact absurd ht (hno a b ho)
      · rfl

theorem result_iterate (roots : List KeymapId) (n : Nat) (m : Merging α) :
    ((step roots)^[n] m).result roots = m.result roots := by
  induction n generalizing m with
  | zero => rfl
  | succ n ih => rw [Function.iterate_succ_apply, ih, result_step]

/-- A merge comes to an end. -/
theorem exists_tasks_eq_nil (roots : List KeymapId) (m : Merging α) :
    ∃ n, ((step roots)^[n] m).tasks = [] := by
  obtain ⟨s, upkeep, seen, tasks⟩ := m
  have next (m m' : Merging α) (hm : m.step roots = m')
      (h : ∃ n, ((step roots)^[n] m').tasks = []) : ∃ n, ((step roots)^[n] m).tasks = [] := by
    obtain ⟨n, h⟩ := h
    exact ⟨n + 1, by rw [Function.iterate_succ_apply, hm, h]⟩
  -- by induction along the recursion of the merge, whose calls are the steps
  fun_induction Store.mergeTasks roots s upkeep seen tasks with
  | case1 => exact ⟨0, rfl⟩
  | case2 s upkeep seen a b tasks ih => exact next _ _ rfl ih
  | case3 s upkeep seen receiver incoming key theirs pending tasks ours all must s' upkeep' a b ho ht upkeep'' h ih =>
    refine next _ _ ?_ ih
    rw [step]
    simp only [ours, must, s', all] at ho ht
    simp only [ho, ht, if_pos h]
    rfl
  | case4 s upkeep seen receiver incoming key theirs pending tasks ours all must s' upkeep' a b ho ht upkeep'' h ih =>
    refine next _ _ ?_ ih
    rw [step]
    simp only [ours, must, s', all] at ho ht
    simp only [ho, ht, if_neg h]
    rfl
  | case5 s upkeep seen receiver incoming key theirs pending tasks ours all must s' upkeep' hno ih =>
    refine next _ _ ?_ ih
    rw [step]
    dsimp only
    split
    · next a b ho ht => exact absurd ht (hno a b ho)
    · rfl

end Merging

namespace Store

/-! ## What a step finds -/

theorem keymap?_put (s : Store α) (id : KeymapId) (key : Char) (slot : Slot α) (k : KeymapId) :
    (s.put id key slot).keymap? k =
      if k = id then (s.keymap? k).map fun km => { km with slots := km.slots.put key slot }
      else s.keymap? k :=
  keymap?_modify ..

theorem alive_modify (s : Store α) (id : KeymapId) (f : Keymap α → Keymap α) (k : KeymapId) :
    (s.modify id f).alive k = s.alive k := by
  rw [Bool.eq_iff_iff, alive_iff, alive_iff, keymap?_modify]
  split
  · simp
  · rfl

theorem alive_put (s : Store α) (id : KeymapId) (key : Char) (slot : Slot α) (k : KeymapId) :
    (s.put id key slot).alive k = s.alive k :=
  alive_modify ..

theorem alive_putAll (s : Store α) (id : KeymapId) (keys : List Char) (slot : Slot α)
    (k : KeymapId) : (s.putAll id keys slot).alive k = s.alive k :=
  alive_modify ..

theorem alive_create {s : Store α} (name help : Option String) {id : KeymapId} (h : s.alive id) :
    (s.create name help).2.alive id := by
  rw [alive_iff, keymap?_create]
  split
  · exact ⟨_, rfl⟩
  · exact alive_iff.1 h

theorem slot?_eq {s : Store α} {id : KeymapId} {km : Keymap α} (h : s.keymap? id = some km)
    (key : Char) : s.slot? id key = km.slots.get? key := by
  rw [slot?, h]
  rfl

theorem slot?_eq_some_iff {s : Store α} {id : KeymapId} {key : Char} {slot : Slot α} :
    s.slot? id key = some slot ↔ ∃ km, s.keymap? id = some km ∧ km.slots.get? key = some slot :=
  Option.bind_eq_some_iff

theorem Within.slot? {s t : Store α} (h : t.Within s) {id : KeymapId} {key : Char} {slot : Slot α}
    (hs : t.slot? id key = some slot) : s.slot? id key = some slot := by
  obtain ⟨km, hkm, hk⟩ := slot?_eq_some_iff.1 hs
  exact slot?_eq_some_iff.2 ⟨km, h id km hkm, hk⟩

theorem slot?_create (s : Store α) (name help : Option String) (id : KeymapId) (key : Char) :
    (s.create name help).2.slot? id key = if id = s.next then none else s.slot? id key := by
  rw [slot?, keymap?_create, slot?]
  split
  · exact Slots.get?_empty key
  · rfl

theorem slot?_putAll (s : Store α) (id : KeymapId) (keys : List Char) (slot : Slot α)
    (x : KeymapId) (k : Char) : (s.putAll id keys slot).slot? x k =
      if x = id ∧ k ∈ keys ∧ s.alive id then some slot else s.slot? x k := by
  rw [slot?, putAll, keymap?_modify, slot?]
  by_cases hx : x = id
  · subst hx
    cases hk : s.keymap? x with
    | none =>
        have dead : ¬s.alive x := by
          rw [alive_iff, hk]
          simp
        simp [dead]
    | some km =>
        have alive := alive_of_keymap? hk
        simp [Slots.get?_foldl_put, alive]
  · simp [hx]

theorem slot?_put (s : Store α) (id : KeymapId) (key : Char) (slot : Slot α) (x : KeymapId)
    (k : Char) : (s.put id key slot).slot? x k =
      if x = id ∧ k = key ∧ s.alive id then some slot else s.slot? x k := by
  have h := s.slot?_putAll id [key] slot x k
  simp only [List.mem_singleton] at h
  exact h

theorem slot?_clear (s : Store α) (root id : KeymapId) (key : Char) :
    (s.clear root).slot? id key = if id = root then none else s.slot? id key := by
  rw [slot?, clear, keymap?_modify, slot?]
  split
  · cases s.keymap? id with
    | none => rfl
    | some km => exact Slots.get?_empty key
  · rfl

theorem mem_slots {s : Store α} {id : KeymapId} {key : Char} {slot : Slot α} :
    (key, slot) ∈ s.slots id ↔ s.slot? id key = some slot := by
  rw [slots, slot?]
  cases s.keymap? id with
  | none => simp
  | some km => exact Slots.mem_toList

theorem mem_keys {s : Store α} {id : KeymapId} {key : Char} :
    key ∈ s.keys id ↔ (s.slot? id key).isSome := by
  rw [keys, List.mem_map, Option.isSome_iff_exists]
  constructor
  · rintro ⟨⟨k, slot⟩, hm, rfl⟩
    exact ⟨slot, mem_slots.1 hm⟩
  · rintro ⟨slot, hs⟩
    exact ⟨(key, slot), mem_slots.2 hs, rfl⟩

theorem keymap?_release_of_mem {s : Store α} {roots : List KeymapId} {id : KeymapId}
    (h : id ∈ roots) : (s.release roots).keymap? id = s.keymap? id :=
  retains_release (List.mem_append_right _ h) id .self

end Store

namespace Merging

/-- The keymaps as they were, or without those that are not held. -/
def Settles (roots : List KeymapId) (tasks : List (MergeTask α)) (s s' : Store α) : Prop :=
  s' = s ∨ s' = s.release (roots ++ MergeTask.held tasks)

theorem settles_settle (roots : List KeymapId) (tasks : List (MergeTask α)) (s : Store α)
    (must : Bool) : Settles roots tasks s (s.settle roots tasks must) := by
  unfold Store.settle
  split
  · exact Or.inr rfl
  · exact Or.inl rfl

theorem Settles.within {roots : List KeymapId} {tasks : List (MergeTask α)} {s s' : Store α}
    (h : Settles roots tasks s s') : s'.Within s := by
  rcases h with rfl | rfl
  · exact .refl _
  · exact s.within_release _

theorem Settles.keymap?_eq {roots : List KeymapId} {tasks : List (MergeTask α)} {s s' : Store α}
    (h : Settles roots tasks s s') {K : KeymapId → Prop}
    (hK : s.Supported (s.handles ++ (roots ++ MergeTask.held tasks)) K) {id : KeymapId}
    (hid : K id) : s'.keymap? id = s.keymap? id := by
  rcases h with rfl | rfl
  · rfl
  · exact hK.keymap?_release hid

theorem Settles.slot?_receiver {roots : List KeymapId} {task : MergeTask α}
    {tasks : List (MergeTask α)} {s s' : Store α} (h : Settles roots (task :: tasks) s s')
    (key : Char) : s'.slot? task.receiver key = s.slot? task.receiver key := by
  have kept : s'.keymap? task.receiver = s.keymap? task.receiver := by
    rcases h with rfl | rfl
    · rfl
    · exact Store.keymap?_release_of_mem
        (List.mem_append_right _ (List.mem_flatMap.2 ⟨task, List.mem_cons_self, List.mem_cons_self⟩))
  rw [Store.slot?, Store.slot?, kept]

/-- All that a step can come to. How much has to be released later on is left open. -/
inductive Step (roots : List KeymapId) : Merging α → Merging α → Prop
  | finish {s : Store α} {upkeep upkeep' : Upkeep} {seen : PairLog} {a b : KeymapId}
      {tasks : List (MergeTask α)} :
      Step roots ⟨s, upkeep, seen, ⟨a, b, []⟩ :: tasks⟩ ⟨s, upkeep', seen, tasks⟩
  | skip {s s' : Store α} {upkeep upkeep' : Upkeep} {seen : PairLog} {a b c d : KeymapId}
      {key : Char} {theirs : Slot α} {pending : List (Char × Slot α)} {tasks : List (MergeTask α)} :
      Settles roots (⟨a, b, (key, theirs) :: pending⟩ :: tasks) s s' →
      s'.lookup a key = some (.keymap c) → s'.resolve theirs = some (.keymap d) →
      (c = d ∨ (c, d) ∈ seen.pairs) →
      Step roots ⟨s, upkeep, seen, ⟨a, b, (key, theirs) :: pending⟩ :: tasks⟩
        ⟨s', upkeep', seen, ⟨a, b, pending⟩ :: tasks⟩
  | descend {s s' : Store α} {upkeep upkeep' : Upkeep} {seen : PairLog} {a b c d : KeymapId}
      {key : Char} {theirs : Slot α} {pending : List (Char × Slot α)} {tasks : List (MergeTask α)} :
      Settles roots (⟨a, b, (key, theirs) :: pending⟩ :: tasks) s s' →
      s'.lookup a key = some (.keymap c) → s'.resolve theirs = some (.keymap d) →
      c ≠ d → (c, d) ∉ seen.pairs →
      Step roots ⟨s, upkeep, seen, ⟨a, b, (key, theirs) :: pending⟩ :: tasks⟩
        ⟨s', upkeep', seen.add c d, ⟨c, d, s'.slots d⟩ :: ⟨a, b, pending⟩ :: tasks⟩
  | put {s s' : Store α} {upkeep upkeep' : Upkeep} {seen : PairLog} {a b : KeymapId} {key : Char}
      {theirs : Slot α} {pending : List (Char × Slot α)} {tasks : List (MergeTask α)} :
      Settles roots (⟨a, b, (key, theirs) :: pending⟩ :: tasks) s s' →
      (∀ c d, s'.lookup a key = some (.keymap c) → s'.resolve theirs ≠ some (.keymap d)) →
      Step roots ⟨s, upkeep, seen, ⟨a, b, (key, theirs) :: pending⟩ :: tasks⟩
        ⟨s'.put a key theirs, upkeep', seen, ⟨a, b, pending⟩ :: tasks⟩

theorem step_cases {roots : List KeymapId} {m : Merging α} (h : m.tasks ≠ []) :
    Step roots m (m.step roots) := by
  obtain ⟨s, upkeep, seen, _ | ⟨⟨a, b, _ | ⟨⟨key, theirs⟩, pending⟩⟩, tasks⟩⟩ := m
  · exact absurd rfl h
  · exact .finish
  · rw [step]
    dsimp only
    generalize s.mustSettle .. = must
    have settles := settles_settle roots (⟨a, b, (key, theirs) :: pending⟩ :: tasks) s must
    generalize s.settle .. = s' at settles
    -- the receiver's slot is read before anything is released, which does not touch it
    have lookup : s'.lookup a key = (s.slot? a key).bind s'.resolve := by
      rw [← settles.slot?_receiver key]
      rfl
    split
    · next c d ho ht =>
      split
      · next hs => exact .skip settles (lookup.trans ho) ht (hs.imp_right PairLog.contains_iff.1)
      · next hs =>
        rw [not_or, PairLog.contains_iff] at hs
        exact .descend settles (lookup.trans ho) ht hs.1 hs.2
    · next hno =>
      exact .put settles fun c d ho ht => hno c d (lookup.symm.trans ho) ht

/-- What is kept by every step holds in the end. -/
theorem exists_finished {roots : List KeymapId} {P : Merging α → Prop}
    (keeps : ∀ m, P m → P (m.step roots)) {m : Merging α} (h : P m) :
    ∃ m', m'.tasks = [] ∧ P m' ∧ m.result roots = ⟨m'.store, m'.seen.pairs⟩ := by
  obtain ⟨n, hn⟩ := exists_tasks_eq_nil roots m
  refine ⟨(step roots)^[n] m, hn, Function.Iterate.rec P h keeps n, ?_⟩
  rw [← result_iterate roots n m, result, hn, Store.mergeTasks]

/-- It is enough that all that a step can come to keeps it. -/
theorem preserves {roots : List KeymapId} {P : Merging α → Prop}
    (keeps : ∀ m m', Step roots m m' → P m → P m') (m : Merging α) (h : P m) :
    ∃ m', m'.tasks = [] ∧ P m' ∧ m.result roots = ⟨m'.store, m'.seen.pairs⟩ := by
  refine exists_finished (fun m hm => ?_) h
  obtain ⟨s, upkeep, seen, _ | ⟨task, tasks⟩⟩ := m
  · exact hm
  · exact keeps _ _ (step_cases (List.cons_ne_nil _ _)) hm

end Merging

namespace Store

/-- What the steps keep holds when a keymap has been merged. -/
theorem merge_preserves {s : Store α} {roots : List KeymapId} {a b : KeymapId}
    {P : Merging α → Prop} (keeps : ∀ m m', Merging.Step roots m m' → P m → P m')
    (start : P ⟨s, .none, PairLog.add default a b, [⟨a, b, s.slots b⟩]⟩) :
    ∃ m', P m' ∧ s.merge roots a b = m'.store := by
  rw [merge, merging]
  split
  · exact ⟨_, start, rfl⟩
  · obtain ⟨m', -, hm', hr⟩ := Merging.preserves keeps _ start
    exact ⟨m', hm', congrArg Merged.store hr⟩

/-- What holds of the store throughout a merge, of the pairs of keymaps that are merged, and of the
slots that are copied, which are known by the keymap that they are taken from. The keymaps in `roots` are
held throughout. -/
structure MergeRule (roots : List KeymapId) (I : Store α → Prop) (T : KeymapId → KeymapId → Prop)
    (S : KeymapId → Slot α → Prop) : Prop where
  release : ∀ s more, I s → I (s.release (roots ++ more))
  put : ∀ s a b key slot, I s → T a b → S b slot → I (s.put a key slot)
  slots : ∀ s a b key slot, I s → T a b → s.slot? b key = some slot → S b slot
  descend : ∀ s a b key slot c d, I s → T a b → S b slot → s.lookup a key = some (.keymap c) →
    s.resolve slot = some (.keymap d) → T c d

theorem MergeRule.merge {roots : List KeymapId} {I : Store α → Prop}
    {T : KeymapId → KeymapId → Prop} {S : KeymapId → Slot α → Prop} (rule : MergeRule roots I T S)
    {s : Store α} {a b : KeymapId} (hs : I s) (hab : T a b) : I (s.merge roots a b) := by
  let Fits (task : MergeTask α) : Prop :=
    T task.receiver task.incoming ∧ ∀ p ∈ task.pending, S task.incoming p.2
  have settled {tasks : List (MergeTask α)} {s s' : Store α}
      (settles : Merging.Settles roots tasks s s') (hs : I s) : I s' := by
    rcases settles with rfl | rfl
    · exact hs
    · exact rule.release s _ hs
  have keeps (m m' : Merging α) (step : Merging.Step roots m m')
      (h : I m.store ∧ ∀ task ∈ m.tasks, Fits task) :
      I m'.store ∧ ∀ task ∈ m'.tasks, Fits task := by
    obtain ⟨hs, tasks⟩ := h
    cases step with
    | finish => exact ⟨hs, fun task ht => tasks task (List.mem_cons_of_mem _ ht)⟩
    | skip settles =>
        obtain ⟨⟨hab, pending⟩, rest⟩ := List.forall_mem_cons.1 tasks
        exact ⟨settled settles hs, List.forall_mem_cons.2
          ⟨⟨hab, fun p hp => pending p (List.mem_cons_of_mem _ hp)⟩, rest⟩⟩
    | descend settles hc hd =>
        obtain ⟨⟨hab, pending⟩, rest⟩ := List.forall_mem_cons.1 tasks
        have hs := settled settles hs
        have hcd := rule.descend _ _ _ _ _ _ _ hs hab (pending _ List.mem_cons_self) hc hd
        exact ⟨hs, List.forall_mem_cons.2
          ⟨⟨hcd, fun p hp => rule.slots _ _ _ p.1 p.2 hs hcd (mem_slots.1 hp)⟩,
            List.forall_mem_cons.2
              ⟨⟨hab, fun p hp => pending p (List.mem_cons_of_mem _ hp)⟩, rest⟩⟩⟩
    | put settles =>
        obtain ⟨⟨hab, pending⟩, rest⟩ := List.forall_mem_cons.1 tasks
        exact ⟨rule.put _ _ _ _ _ (settled settles hs) hab (pending _ List.mem_cons_self),
          List.forall_mem_cons.2
            ⟨⟨hab, fun p hp => pending p (List.mem_cons_of_mem _ hp)⟩, rest⟩⟩
  have start : I s ∧ ∀ task ∈ [(⟨a, b, s.slots b⟩ : MergeTask α)], Fits task := by
    refine ⟨hs, fun task ht => ?_⟩
    cases List.mem_singleton.1 ht
    exact ⟨hab, fun p hp => rule.slots s a b p.1 p.2 hs hab (mem_slots.1 hp)⟩
  obtain ⟨m', hm', heq⟩ := merge_preserves keeps start
  rw [heq]
  exact hm'.1

/-- Merging neither takes nor gives up a handle, and makes no new keymaps. -/
theorem handles_next_merge (s : Store α) (roots : List KeymapId) (a b : KeymapId) :
    (s.merge roots a b).handles = s.handles ∧ (s.merge roots a b).next = s.next := by
  have rule : MergeRule roots (fun t : Store α => t.handles = s.handles ∧ t.next = s.next)
      (fun _ _ => True) (fun _ _ => True) :=
    { release := fun t more h =>
        ⟨(t.handles_release _).trans h.1, (t.next_release _).trans h.2⟩
      put := fun _ _ _ _ _ h _ _ => h
      slots := fun _ _ _ _ _ _ _ _ => trivial
      descend := fun _ _ _ _ _ _ _ _ _ _ _ _ => trivial }
  exact rule.merge ⟨rfl, rfl⟩ trivial

theorem handles_merge (s : Store α) (roots : List KeymapId) (a b : KeymapId) :
    (s.merge roots a b).handles = s.handles :=
  (s.handles_next_merge roots a b).1

theorem next_merge (s : Store α) (roots : List KeymapId) (a b : KeymapId) :
    (s.merge roots a b).next = s.next :=
  (s.handles_next_merge roots a b).2

/-- A merge as far as it gets in a number of steps. -/
def mergeWithin (n : Nat) (s : Store α) (roots : List KeymapId) (a b : KeymapId) : Merging α :=
  (Merging.step roots)^[n] ⟨s, .none, PairLog.add default a b, [⟨a, b, s.slots b⟩]⟩

/-- If that leaves nothing to do, it is the whole merge. -/
theorem merge_eq_mergeWithin (n : Nat) {s : Store α} {roots : List KeymapId} {a b : KeymapId}
    (hne : a ≠ b) (done : (s.mergeWithin n roots a b).tasks = []) :
    s.merge roots a b = (s.mergeWithin n roots a b).store := by
  have result : (s.mergeWithin n roots a b).result roots = _ := Merging.result_iterate roots n _
  rw [merge, merging, if_neg hne]
  refine (congrArg Merged.store result).symm.trans ?_
  rw [Merging.result, done, mergeTasks]

end Store

end ModalKeys
