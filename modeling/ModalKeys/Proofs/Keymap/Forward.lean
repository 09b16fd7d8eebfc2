import ModalKeys.Proofs.Keymap.Copying
import ModalKeys.Proofs.Keymap.Regions
import ModalKeys.Proofs.Keymap.Soundness

/-!
# Keymaps without aliases

Configurations without back references are compiled to keymaps without aliases. Merging such keymaps makes
no aliases, and since only aliases can tell whether a keymap is still held, nothing is released on the way.
-/

namespace ModalKeys

variable {α σ : Type}

namespace Store

/-! ## Keymaps that own all that they lead to -/

/-- The keymap that a slot leads to, if any, is owned by the slot, and is there. -/
def Carries (s : Store α) (slot : Slot α) : Prop :=
  ∀ next, slot.binding.keymap? = some next → slot.owned? = some next ∧ s.alive next

/-- Every slot owns the keymap that it leads to. -/
def Forward (s : Store α) : Prop := ∀ id key slot, s.slot? id key = some slot → s.Carries slot

variable {s t : Store α}

theorem Carries.alias?_eq_none {slot : Slot α} (h : s.Carries slot) : slot.alias? = none := by
  cases slot with
  | bound binding => rfl
  | aliasOf target => exact absurd (h target rfl).1 nofun

theorem Carries.resolve {slot : Slot α} (h : s.Carries slot) : s.resolve slot = some slot.binding :=
  resolve_eq_binding fun next hn => (h next hn).2

theorem Carries.mono {slot : Slot α} (h : s.Carries slot) (alive : ∀ id, s.alive id → t.alive id) :
    t.Carries slot :=
  fun next hn => (h next hn).imp_right (alive next)

namespace Forward

theorem lookup (h : s.Forward) (id : KeymapId) (key : Char) :
    s.lookup id key = (s.slot? id key).map Slot.binding := by
  rw [Store.lookup]
  cases hs : s.slot? id key with
  | none => rfl
  | some slot => exact (h id key slot hs).resolve

theorem release (h : s.Forward) (roots : List KeymapId) : (s.release roots).Forward := by
  have sound : s.Sound :=
    fun id key slot next hs ho => (h id key slot hs next (Slot.keymap?_of_owned? ho)).2
  intro id key slot hs next hn
  have owned := (h id key slot ((s.within_release roots).slot? hs) next hn).1
  exact ⟨owned, sound.release roots id key slot next hs owned⟩

theorem put (h : s.Forward) (id : KeymapId) (key : Char) {slot : Slot α} (hs : s.Carries slot) :
    (s.put id key slot).Forward := by
  have alive (x : KeymapId) (hx : s.alive x) : (s.put id key slot).alive x :=
    (alive_put ..).trans hx
  intro x k found hf
  rw [slot?_put] at hf
  split at hf
  · cases hf
    exact hs.mono alive
  · exact (h x k found hf).mono alive

/-- The keymaps that a keymap owns lead to each other only. -/
theorem encloses (h : s.Forward) {root : KeymapId} (alive : s.alive root) :
    s.Encloses (s.Owns root) where
  alive id ho := by
    cases ho with
    | self => exact alive
    | step _ hkm hk =>
        obtain ⟨slot, hs, ho⟩ := Option.bind_eq_some_iff.1 hk
        exact (h _ _ slot ((slot?_eq hkm _).trans hs) id (Slot.keymap?_of_owned? ho)).2
  target id key slot next ho hs hn := by
    have owned := (h id key slot hs next hn).1
    exact ho.of_slot? (by rw [hs]; exact owned)

/-- Configurations without back references are compiled to keymaps that own all that they lead to. -/
theorem kept : Config.Kept (fun _ _ => false) fun enclosing (s : Store (Action σ)) =>
    s.Forward ∧ ∀ id ∈ enclosing, s.alive id where
  create enclosing s id help h := by
    refine ⟨fun x key slot hs => ?_, List.forall_mem_cons.2 ⟨?_, fun x hx => ?_⟩⟩
    · rw [slot?_create] at hs
      split at hs
      · cases hs
      · exact (h.1 x key slot hs).mono fun _ => alive_create id help
    · exact alive_of_keymap? (keymap?_create_self s id help)
    · exact alive_create id help (h.2 x hx)
  tag km enclosing s h := h
  put km enclosing s keys slot h := by
    have before : s.Forward ∧ (∀ id ∈ km :: enclosing, s.alive id) ∧ s.Carries slot := by
      cases h with
      | action h => exact ⟨h.1, h.2, nofun⟩
      | back _ hp _ => cases hp
      | keymap h =>
          obtain ⟨inner, outer⟩ := List.forall_mem_cons.1 h.2
          refine ⟨h.1, outer, fun next hn => ?_⟩
          cases hn
          exact ⟨rfl, inner⟩
    obtain ⟨forward, alive, carries⟩ := before
    have same (id : KeymapId) (hid : s.alive id) : (s.putAll km keys slot).alive id :=
      (alive_putAll ..).trans hid
    refine ⟨fun x key found hs => ?_, fun id hid => same id (alive id hid)⟩
    rw [slot?_putAll] at hs
    split at hs
    · cases hs
      exact carries.mono same
    · exact (forward x key found hs).mono same

theorem compile {s s' : Store (Action σ)} {config : Json} {root : KeymapId} (h : s.Forward)
    (forward : Config.everyBack (fun _ _ => false) config)
    (compiled : s.compile config = .ok (root, s')) : s'.Forward :=
  (kept.compile ⟨h, nofun⟩ forward compiled).1

end Forward

end Store

namespace Merging

open Store

variable {s t : Store α} {upkeep : Upkeep} {seen : PairLog} {r d : KeymapId}
  {key : Char} {theirs : Slot α} {pending : List (Char × Slot α)} {tasks : List (MergeTask α)}
  {m : Merging α}

/-! ## Steps without aliases -/

theorem mustSettle_eq_false {roots : List KeymapId} {ours : Option (Slot α)}
    (hours : ∀ slot ∈ ours, slot.alias? = none) (htheirs : theirs.alias? = none) :
    t.mustSettle roots upkeep ours theirs tasks = false := by
  have doubt {slot : Slot α} (h : slot.alias? = none) : t.isDoubtful roots tasks slot = false := by
    rw [isDoubtful, h]
    rfl
  rw [mustSettle, doubt htheirs, Bool.false_or, Bool.and_eq_false_iff]
  right
  cases ours with
  | none => rfl
  | some slot => exact doubt (hours slot rfl)

/-- All that a step can come to if no slot is an alias: nothing is released. -/
theorem step_cases_of_bound (hours : ∀ slot ∈ t.slot? r key, slot.alias? = none)
    (htheirs : theirs.alias? = none) (roots : List KeymapId) (upkeep : Upkeep) (seen : PairLog)
    (d : KeymapId) (pending : List (Char × Slot α)) (tasks : List (MergeTask α)) :
    ∃ m', step roots ⟨t, upkeep, seen, ⟨r, d, (key, theirs) :: pending⟩ :: tasks⟩ = m' ∧
      ((∃ upkeep' c d', t.lookup r key = some (.keymap c) ∧ t.resolve theirs = some (.keymap d') ∧
        (c = d' ∨ (c, d') ∈ seen.pairs) ∧ m' = ⟨t, upkeep', seen, ⟨r, d, pending⟩ :: tasks⟩) ∨
      (∃ upkeep' c d', t.lookup r key = some (.keymap c) ∧ t.resolve theirs = some (.keymap d') ∧
        c ≠ d' ∧ (c, d') ∉ seen.pairs ∧
        m' = ⟨t, upkeep', seen.add c d', ⟨c, d', t.slots d'⟩ :: ⟨r, d, pending⟩ :: tasks⟩) ∨
      ∃ upkeep', (∀ c d', t.lookup r key = some (.keymap c) → t.resolve theirs ≠ some (.keymap d')) ∧
        m' = ⟨t.put r key theirs, upkeep', seen, ⟨r, d, pending⟩ :: tasks⟩) := by
  refine ⟨_, rfl, ?_⟩
  rw [step]
  dsimp only
  rw [mustSettle_eq_false hours htheirs, settle, if_neg Bool.false_ne_true]
  split
  · next c d' ho ht =>
      split
      · next hs => exact .inl ⟨_, c, d', ho, ht, hs.imp_right PairLog.contains_iff.1, rfl⟩
      · next hs =>
          rw [not_or, PairLog.contains_iff] at hs
          exact .inr (.inl ⟨_, c, d', ho, ht, hs.1, hs.2, rfl⟩)
  · next hno => exact .inr (.inr ⟨_, fun c d' ho ht => hno c d' ho ht, rfl⟩)

/-- A merge that has met no aliases. Every keymap is still there. -/
structure Direct (s : Store α) (m : Merging α) : Prop where
  alive : ∀ id, m.store.alive id = s.alive id
  forward : m.store.Forward
  pending : ∀ task ∈ m.tasks, ∀ p ∈ task.pending, m.store.Carries p.2

theorem Direct.step (h : Direct s m) (roots : List KeymapId) : Direct s (m.step roots) := by
  obtain ⟨t, upkeep, seen, _ | ⟨⟨r, d, _ | ⟨⟨key, theirs⟩, pending⟩⟩, tasks⟩⟩ := m
  · exact h
  · exact ⟨h.alive, h.forward, (List.forall_mem_cons.1 h.pending).2⟩
  · obtain ⟨alive, forward, carries⟩ := h
    dsimp only at alive forward carries
    obtain ⟨first, rest⟩ := List.forall_mem_cons.1 carries
    obtain ⟨hp, first⟩ := List.forall_mem_cons.1 first
    have carries : ∀ task ∈ (⟨r, d, pending⟩ :: tasks : List (MergeTask α)),
        ∀ p ∈ task.pending, t.Carries p.2 := List.forall_mem_cons.2 ⟨first, rest⟩
    obtain ⟨m', hm, ⟨_, c, d', -, -, -, rfl⟩ | ⟨_, c, d', -, -, -, -, rfl⟩ | ⟨_, -, rfl⟩⟩ :=
      step_cases_of_bound (fun slot hs => (forward r key slot hs).alias?_eq_none)
        hp.alias?_eq_none roots upkeep seen d pending tasks
    all_goals rw [hm]
    · exact ⟨alive, forward, carries⟩
    · refine ⟨alive, forward, List.forall_mem_cons.2 ⟨fun p hp => ?_, carries⟩⟩
      exact forward d' p.1 p.2 (mem_slots.1 hp)
    · have same (id : KeymapId) : (t.put r key theirs).alive id = t.alive id := alive_put ..
      refine ⟨fun id => (same id).trans (alive id), forward.put r key hp, fun task ht p hp => ?_⟩
      exact (carries task ht p hp).mono fun id hid => (same id).trans hid

end Merging

namespace Store

variable {s : Store α} {a b : KeymapId}

theorem exists_merged {roots : List KeymapId} {P : Merging α → Prop}
    (keeps : ∀ m, P m → P (m.step roots))
    (start : P ⟨s, .none, PairLog.add default a b, [⟨a, b, s.slots b⟩]⟩) :
    ∃ m', (a ≠ b → m'.tasks = []) ∧ P m' ∧ s.merge roots a b = m'.store := by
  rw [merge, merging]
  split
  · next same => exact ⟨_, (absurd same ·), start, rfl⟩
  · obtain ⟨m', finished, hm', hr⟩ := Merging.exists_finished keeps start
    exact ⟨m', fun _ => finished, hm', congrArg Merged.store hr⟩

theorem Forward.direct (h : s.Forward) (a b : KeymapId) :
    Merging.Direct s ⟨s, .none, PairLog.add default a b, [⟨a, b, s.slots b⟩]⟩ := by
  refine ⟨fun _ => rfl, h, fun task ht p hp => ?_⟩
  cases List.mem_singleton.1 ht
  exact h b p.1 p.2 (mem_slots.1 hp)

/-- Merging adds no aliases and releases nothing if there are no aliases. -/
theorem Forward.merge (h : s.Forward) (roots : List KeymapId) (a b : KeymapId) :
    (s.merge roots a b).Forward ∧ ∀ id, (s.merge roots a b).alive id = s.alive id := by
  obtain ⟨m', -, direct, heq⟩ :=
    exists_merged (P := Merging.Direct s) (fun _ hm => hm.step roots) (h.direct a b)
  rw [heq]
  exact ⟨direct.forward, direct.alive⟩

end Store

end ModalKeys
