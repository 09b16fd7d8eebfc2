import ModalKeys.Keymap.Lifetime
import ModalKeys.Keymap.PairLog

/-!
# Merging keymaps

Merging a keymap into another, its *receiver*, rebinds the receiver's keys in place. Where both bind
a key to a keymap, the two are merged in turn; everywhere else the incoming slot replaces the
receiver's. Aliases are copied as aliases.

The keymaps are a graph that changes while it is walked, so no pair of a receiver and an incoming
keymap is taken up twice. The merge keeps a stack of tasks; each holds on to its two keymaps and to
those among the slots it has yet to copy. A keymap that loses its last holder on the way is gone for
the rest of the merge, and aliases to it lead nowhere. Only aliases can tell, so keymaps are released
no sooner than an alias is met.
-/

namespace ModalKeys

/-- A pair of keymaps being merged, with the incoming slots that are still to be copied. -/
structure MergeTask (α : Type) where
  receiver : KeymapId
  incoming : KeymapId
  pending : List (Char × Slot α)

def MergeTask.held (tasks : List (MergeTask α)) : List KeymapId :=
  tasks.flatMap fun t => t.receiver :: t.incoming :: t.pending.filterMap (·.2.owned?)

/-- How many keys some tasks have left, counting one more for each task. -/
def MergeTask.size : List (MergeTask α) → Nat
  | [] => 0
  | task :: tasks => task.pending.length + 1 + size tasks

theorem MergeTask.size_lt_cons (task : MergeTask α) (tasks : List (MergeTask α)) :
    size tasks < size (task :: tasks) := by
  simp [size]

theorem MergeTask.size_lt_pending (a b : KeymapId) (slot : Char × Slot α)
    (pending : List (Char × Slot α)) (tasks : List (MergeTask α)) :
    size (⟨a, b, pending⟩ :: tasks) < size (⟨a, b, slot :: pending⟩ :: tasks) := by
  simp [size]

/-- How many pairs of identifiers below `n` have not been taken up. -/
def unseenPairs (n : Nat) (seen : List (KeymapId × KeymapId)) : Nat :=
  (List.range (n * n)).countP fun i => !seen.contains (i / n, i % n)

theorem unseenPairs_le_of_next_eq {m n : Nat} {seen : List (KeymapId × KeymapId)} (h : m = n) :
    unseenPairs m seen ≤ unseenPairs n seen := h ▸ Nat.le_refl _

theorem countP_lt_of_imp {p q : β → Bool} {xs : List β} (h : ∀ x, p x → q x) {x : β} (hx : x ∈ xs)
    (hq : q x) (hp : p x = false) : xs.countP p < xs.countP q := by
  induction xs with
  | nil => cases hx
  | cons y ys ih =>
    have hle : ys.countP p ≤ ys.countP q := List.countP_mono_left fun x _ => h x
    rcases List.mem_cons.1 hx with rfl | hx
    · simp [hq, hp]; omega
    · have := ih hx
      by_cases hy : p y
      · simp [hy, h y hy]; omega
      · by_cases hq : q y <;> simp [hy, hq] <;> omega

theorem unseenPairs_cons_lt {n a b : Nat} {seen : List (KeymapId × KeymapId)} (ha : a < n)
    (hb : b < n) (h : (a, b) ∉ seen) : unseenPairs n ((a, b) :: seen) < unseenPairs n seen := by
  have hn : 0 < n := by omega
  have hdiv : (a * n + b) / n = a := by
    rw [Nat.mul_comm, Nat.mul_add_div hn, Nat.div_eq_of_lt hb, Nat.add_zero]
  have hmod : (a * n + b) % n = b := by
    rw [Nat.mul_comm, Nat.mul_add_mod, Nat.mod_eq_of_lt hb]
  have hlt : a * n + b < n * n :=
    calc a * n + b < a * n + n := by omega
      _ = (a + 1) * n := by rw [Nat.succ_mul]
      _ ≤ n * n := Nat.mul_le_mul_right n ha
  refine countP_lt_of_imp (x := a * n + b) ?_ (List.mem_range.2 hlt) ?_ ?_
  · intro i hi; simp at *; exact hi.2
  · simp [hdiv, hmod, h]
  · simp [hdiv, hmod]

/-- What a merge comes to: the keymaps, and the pairs of them that were taken up, the last one
first. -/
structure Merged (α : Type) where
  store : Store α
  pairs : List (KeymapId × KeymapId)

/-- Whether keymaps have to be released before it is asked what an alias leads to. -/
inductive Upkeep where
  /-- No keymap has lost an owner since the merge began, so there is nothing to release. -/
  | none
  /-- What could be released has been. -/
  | done
  /-- A keymap may have lost its last holder. -/
  | due
  deriving DecidableEq, Repr

/-- After a task has given up one of its keymaps. Keymaps that have never lost an owner do not depend
on the task. -/
def Upkeep.givenUp : Upkeep → Upkeep
  | none => none
  | _ => due

namespace Store

/-- Whether a slot is an alias of a keymap that is there but not held at any rate. -/
def isDoubtful (s : Store α) (roots : List KeymapId) (tasks : List (MergeTask α))
    (slot : Slot α) : Bool :=
  slot.alias?.any fun target => s.alive target && !s.handles.contains target &&
    !roots.contains target && !tasks.any fun t => t.receiver == target || t.incoming == target

/-- Whether something has to be released before `ours` and `theirs` are followed. What is held at any
rate need not wait for it. -/
def mustSettle (s : Store α) (roots : List KeymapId) (upkeep : Upkeep) (ours : Option (Slot α))
    (theirs : Slot α) (tasks : List (MergeTask α)) : Bool :=
  upkeep == .due && (s.isDoubtful roots tasks theirs || ours.any (s.isDoubtful roots tasks))

/-- Releases what neither `roots` nor the tasks hold, if that has to be done. -/
def settle (s : Store α) (roots : List KeymapId) (tasks : List (MergeTask α)) (must : Bool) :
    Store α :=
  if must then s.release (roots ++ MergeTask.held tasks) else s

@[simp] theorem next_settle (s : Store α) (roots : List KeymapId) (tasks : List (MergeTask α))
    (must : Bool) : (s.settle roots tasks must).next = s.next := by
  unfold settle; split <;> simp

theorem next_put_settle (s : Store α) (roots : List KeymapId) (tasks : List (MergeTask α))
    (must : Bool) (receiver : KeymapId) (key : Char) (theirs : Slot α) :
    ((s.settle roots tasks must).put receiver key theirs).next = s.next := by
  rw [next_put, next_settle]

theorem unseenPairs_lt_of_settle {s : Store α} {roots : List KeymapId} {tasks : List (MergeTask α)}
    {must : Bool} {ours : Option (Slot α)} {theirs : Slot α}
    {seen : List (KeymapId × KeymapId)} {a b : KeymapId}
    (ho : ours.bind (s.settle roots tasks must).resolve = some (.keymap a))
    (ht : (s.settle roots tasks must).resolve theirs = some (.keymap b))
    (h : (a, b) ∉ seen) :
    unseenPairs (s.settle roots tasks must).next ((a, b) :: seen) < unseenPairs s.next seen := by
  have hn := next_settle s roots tasks must
  obtain ⟨_, _, ho⟩ := Option.bind_eq_some_iff.1 ho
  rw [hn]
  exact unseenPairs_cons_lt (hn ▸ lt_next_of_alive (alive_of_resolve ho))
    (hn ▸ lt_next_of_alive (alive_of_resolve ht)) h

/-- Whether a task that is done with a slot no longer holds the keymap that the slot owns: the keymap
that the slot was taken from does not own it any more. -/
def givesUp (s : Store α) (incoming : KeymapId) (key : Char) (theirs : Slot α) : Bool :=
  theirs.owned?.isSome && (s.slot? incoming key).bind Slot.owned? != theirs.owned?

/-- Works off a stack of merge tasks. -/
def mergeTasks (roots : List KeymapId) (s : Store α) (upkeep : Upkeep) (seen : PairLog) :
    List (MergeTask α) → Merged α
  | [] => ⟨s, seen.pairs⟩
  | ⟨_, _, []⟩ :: tasks => mergeTasks roots s upkeep.givenUp seen tasks
  | ⟨receiver, incoming, (key, theirs) :: pending⟩ :: tasks =>
    let ours := s.slot? receiver key
    let all := ⟨receiver, incoming, (key, theirs) :: pending⟩ :: tasks
    let must := s.mustSettle roots upkeep ours theirs all
    let s' := s.settle roots all must
    let upkeep := if must then .done else upkeep
    match _ho : ours.bind s'.resolve, _ht : s'.resolve theirs with
    | some (.keymap a), some (.keymap b) =>
      let upkeep := if s'.givesUp incoming key theirs then upkeep.givenUp else upkeep
      if a = b ∨ seen.contains a b then
        mergeTasks roots s' upkeep seen (⟨receiver, incoming, pending⟩ :: tasks)
      else
        -- the slots of `b` are taken down now, since `a` may own `b` and change it on the way
        mergeTasks roots s' upkeep (seen.add a b)
          (⟨a, b, s'.slots b⟩ :: ⟨receiver, incoming, pending⟩ :: tasks)
    | _, _ =>
      -- an alias is copied as an alias; what was under the key loses an owner
      mergeTasks roots (s'.put receiver key theirs)
        (if (ours.bind Slot.owned?).isSome then .due else upkeep) seen
        (⟨receiver, incoming, pending⟩ :: tasks)
termination_by tasks => (unseenPairs s.next seen.pairs, MergeTask.size tasks)
decreasing_by
  · exact Prod.Lex.right _ (MergeTask.size_lt_cons ..)
  · exact Prod.Lex.right' _ (unseenPairs_le_of_next_eq (next_settle ..))
      (MergeTask.size_lt_pending ..)
  · rename_i h
    exact Prod.Lex.left _ _
      (unseenPairs_lt_of_settle _ho _ht fun hs => h (.inr (PairLog.contains_iff.2 hs)))
  · exact Prod.Lex.right' _ (unseenPairs_le_of_next_eq (next_put_settle ..))
      (MergeTask.size_lt_pending ..)

/-- Merges the keymap `b` into the keymap `a`. The keymaps in `roots` are held throughout. -/
def merging (s : Store α) (roots : List KeymapId) (a b : KeymapId) : Merged α :=
  if a = b then ⟨s, []⟩
  else s.mergeTasks roots .none (PairLog.add default a b) [⟨a, b, s.slots b⟩]

def merge (s : Store α) (roots : List KeymapId) (a b : KeymapId) : Store α :=
  (s.merging roots a b).store

end Store

end ModalKeys
