import ModalKeys.Proofs.Keymap.Compiling
import ModalKeys.Proofs.Keymap.Overlay
import ModalKeys.Proofs.Keymap.Treelike

/-!
# Owned keymaps are there

A keymap that a key owns exists: releasing keymaps keeps what is owned, compilation fills a keymap
before a key is bound to it, and a merge holds on to what it has yet to copy. Nothing of the kind holds
of aliases.
-/

namespace ModalKeys

variable {α σ : Type}

namespace Store

/-- Whatever keymap owns another one, that one exists. -/
def Sound (s : Store α) : Prop :=
  ∀ id key slot next, s.slot? id key = some slot → slot.owned? = some next → s.alive next

theorem exists_ownedAt? {s : Store α} {id next : KeymapId} {key : Char} {slot : Slot α}
    (hs : s.slot? id key = some slot) (ho : slot.owned? = some next) :
    ∃ km, s.keymap? id = some km ∧ km.slots.ownedAt? key = some next := by
  obtain ⟨km, hkm, hk⟩ := slot?_eq_some_iff.1 hs
  exact ⟨km, hkm, (congrArg (Option.bind · Slot.owned?) hk).trans ho⟩

theorem Owns.of_slot? {s : Store α} {root id next : KeymapId} {key : Char} (ho : s.Owns root id)
    (h : (s.slot? id key).bind Slot.owned? = some next) : s.Owns root next := by
  obtain ⟨slot, hs, hn⟩ := Option.bind_eq_some_iff.1 h
  obtain ⟨km, hkm, hk⟩ := exists_ownedAt? hs hn
  exact .step ho hkm hk

theorem alive_of_slot? {β : Type} {s : Store α} {id : KeymapId} {key : Char} {f : Slot α → Option β}
    {b : β} (h : (s.slot? id key).bind f = some b) : s.alive id := by
  obtain ⟨slot, hs, -⟩ := Option.bind_eq_some_iff.1 h
  obtain ⟨km, hkm, -⟩ := slot?_eq_some_iff.1 hs
  exact alive_of_keymap? hkm

theorem lookup_of_owned? {s : Store α} {id next : KeymapId} {key : Char}
    (h : (s.slot? id key).bind Slot.owned? = some next) (alive : s.alive next) :
    s.lookup id key = some (.keymap next) := by
  obtain ⟨slot, hs, hn⟩ := Option.bind_eq_some_iff.1 h
  obtain ⟨km, hkm, hk⟩ := exists_ownedAt? hs hn
  exact lookup_of_ownedAt? hkm hk alive

namespace Sound

variable {s : Store α}

theorem sweep (h : s.Sound) (roots : List KeymapId) : (s.sweep roots).Sound := by
  intro id key slot next hs ho
  have before := (s.within_sweep roots).slot? hs
  obtain ⟨km, hkm, hk⟩ := exists_ownedAt? before ho
  have held : next ∈ s.held roots := mem_held.2 (Or.inr ⟨id, km, key, hkm, hk⟩)
  exact (alive_of_agree (keymap?_sweep held)).trans (h id key slot next before ho)

theorem collect (h : s.Sound) (roots : List KeymapId) : (s.collect roots).Sound := by
  fun_induction Store.collect s roots with
  | case1 s swept _ ih => exact ih (h.sweep roots)
  | case2 s => exact h

theorem release (h : s.Sound) (roots : List KeymapId) : (s.release roots).Sound :=
  h.collect _

theorem create (h : s.Sound) (id help : Option String) : (s.create id help).2.Sound := by
  intro x key slot next hs ho
  rw [slot?_create] at hs
  split at hs
  · cases hs
  · exact alive_create _ _ (h x key slot next hs ho)

theorem putAll (h : s.Sound) (a : KeymapId) (keys : List Char) {slot : Slot α}
    (alive : ∀ next, slot.owned? = some next → s.alive next) : (s.putAll a keys slot).Sound := by
  intro x k found next hs ho
  rw [alive_putAll]
  rw [slot?_putAll] at hs
  split at hs
  · cases hs
    exact alive next ho
  · exact h x k found next hs ho

/-- A merge keeps the two keymaps that it is about, and all that is held from outside. -/
theorem merge (h : s.Sound) {roots : List KeymapId} {a b : KeymapId} (ha : s.alive a)
    (hb : s.alive b) (hroots : ∀ id ∈ roots, s.alive id) :
    (s.merge roots a b).Sound ∧ ∀ id ∈ roots, (s.merge roots a b).alive id := by
  let Holds (s : Store α) (tasks : List (MergeTask α)) : Prop :=
    s.Sound ∧ ∀ id ∈ roots ++ MergeTask.held tasks, s.alive id
  have settled {tasks : List (MergeTask α)} {s s' : Store α}
      (settles : Merging.Settles roots tasks s s') (hs : Holds s tasks) : Holds s' tasks := by
    rcases settles with rfl | rfl
    · exact hs
    · refine ⟨hs.1.release _, fun id hid => ?_⟩
      rw [alive_of_agree (keymap?_release_of_mem hid)]
      exact hs.2 id hid
  have fewer {tasks tasks' : List (MergeTask α)} {s : Store α} (hs : Holds s tasks)
      (held : MergeTask.held tasks' ⊆ MergeTask.held tasks) : Holds s tasks' := by
    refine ⟨hs.1, fun id hid => hs.2 id ?_⟩
    simp only [List.mem_append] at hid ⊢
    exact hid.imp_right (@held id)
  have keeps (m m' : Merging α) (step : Merging.Step roots m m') (hm : Holds m.store m.tasks) :
      Holds m'.store m'.tasks := by
    cases step with
    | finish => exact fewer hm (Merging.held_tail_subset _ _)
    | skip settles => exact fewer (settled settles hm) (Merging.held_pending_subset _ _ _ _ _)
    | descend settles hc hd =>
        have hs := settled settles hm
        refine ⟨hs.1, fun id hid => ?_⟩
        have rest := (fewer hs (Merging.held_pending_subset _ _ _ _ _)).2
        simp only [MergeTask.held, List.flatMap_cons, List.mem_append, List.mem_cons,
          List.mem_filterMap] at hid rest
        rcases hid with hid | (rfl | rfl | ⟨p, hp, ho⟩) | hid
        · exact rest id (Or.inl hid)
        · exact alive_of_lookup hc
        · exact alive_of_resolve hd
        · exact hs.1 _ p.1 p.2 id (mem_slots.1 hp) ho
        · exact rest id (Or.inr hid)
    | put settles =>
        have hs := settled settles hm
        have less := fewer hs (Merging.held_pending_subset _ _ _ _ _)
        refine ⟨hs.1.putAll _ [_] fun next ho => hs.2 next ?_, fun id hid => ?_⟩
        · simp [MergeTask.held, ho]
        · exact (alive_put ..).trans (less.2 id hid)
  have start : Holds s [⟨a, b, s.slots b⟩] := by
    refine ⟨h, fun id hid => ?_⟩
    simp only [MergeTask.held, List.flatMap_cons, List.flatMap_nil, List.append_nil,
      List.mem_append, List.mem_cons, List.mem_filterMap] at hid
    rcases hid with hid | rfl | rfl | ⟨p, hp, ho⟩
    · exact hroots id hid
    · exact ha
    · exact hb
    · exact h _ p.1 p.2 id (mem_slots.1 hp) ho
  obtain ⟨m', hm', heq⟩ := merge_preserves (P := fun m => Holds m.store m.tasks) keeps start
  rw [heq]
  exact ⟨hm'.1, fun id hid => hm'.2 id (List.mem_append_left _ hid)⟩

/-- Compilation: the keymaps that are being filled are there as well. -/
theorem kept : Config.Kept (fun _ _ => true) fun enclosing (s : Store (Action σ)) =>
    s.Sound ∧ ∀ id ∈ enclosing, s.alive id where
  create enclosing s id help h := by
    refine ⟨h.1.create id help, List.forall_mem_cons.2 ⟨?_, fun x hx => ?_⟩⟩
    · exact alive_of_keymap? (keymap?_create_self s id help)
    · exact alive_create id help (h.2 x hx)
  tag km enclosing s h := h
  put km enclosing s keys slot h := by
    cases h with
    | action h => exact ⟨h.1.putAll km keys nofun, fun id hid => (alive_putAll ..).trans (h.2 id hid)⟩
    | back h _ _ =>
        exact ⟨h.1.putAll km keys nofun, fun id hid => (alive_putAll ..).trans (h.2 id hid)⟩
    | keymap h =>
        obtain ⟨inner, outer⟩ := List.forall_mem_cons.1 h.2
        refine ⟨h.1.putAll km keys ?_, fun id hid => (alive_putAll ..).trans (outer id hid)⟩
        intro next ho
        cases ho
        exact inner

theorem compile {s s' : Store (Action σ)} {config : Json} {root : KeymapId} (h : s.Sound)
    (compiled : s.compile config = .ok (root, s')) : s'.Sound ∧ s'.alive root := by
  have := kept.compile ⟨h, by simp⟩ (Config.everyBack_true config) compiled
  exact ⟨this.1, this.2 root List.mem_cons_self⟩

end Sound

/-! ## A receiver without keys -/

/-- Merging into a keymap without keys copies slots and does nothing else. -/
theorem slot?_merge_of_keyless {s : Store α} {roots : List KeymapId} {a b : KeymapId}
    (keyless : ∀ key, s.slot? a key = none) {id : KeymapId} {key : Char} {slot : Slot α}
    (h : (s.merge roots a b).slot? id key = some slot) :
    s.slot? id key = some slot ∨ id = a ∧ s.slot? b key = some slot := by
  let Copied (t : Store α) : Prop := ∀ id key slot, t.slot? id key = some slot →
    s.slot? id key = some slot ∨ id = a ∧ s.slot? b key = some slot
  -- the receiver has none of the keys that are still to be copied
  let Left (t : Store α) (tasks : List (MergeTask α)) : Prop :=
    tasks = [] ∨ ∃ pending, tasks = [⟨a, b, pending⟩] ∧ (pending.map (·.1)).Nodup ∧
      ∀ p ∈ pending, t.slot? a p.1 = none ∧ s.slot? b p.1 = some p.2
  have keeps (m m' : Merging α) (step : Merging.Step roots m m')
      (hm : Copied m.store ∧ Left m.store m.tasks) : Copied m'.store ∧ Left m'.store m'.tasks := by
    obtain ⟨copied, left⟩ := hm
    have unbound {t : Store α} {c : KeymapId} {key : Char} (within : t.Within m.store)
        (none : m.store.slot? a key = none) : t.lookup a key ≠ some (.keymap c) := by
      intro hc
      obtain ⟨slot, hs, -⟩ := Option.bind_eq_some_iff.1 hc
      cases (within.slot? hs).symm.trans none
    cases step with
    | finish =>
        obtain left | ⟨pending, left, -⟩ := left
        · cases left
        · cases left
          exact ⟨copied, Or.inl rfl⟩
    | skip settles hc =>
        obtain left | ⟨pending, left, -, slots⟩ := left
        · cases left
        · cases left
          exact absurd hc (unbound settles.within (slots _ List.mem_cons_self).1)
    | descend settles hc =>
        obtain left | ⟨pending, left, -, slots⟩ := left
        · cases left
        · cases left
          exact absurd hc (unbound settles.within (slots _ List.mem_cons_self).1)
    | put settles =>
        obtain left | ⟨pending, left, nodup, slots⟩ := left
        · cases left
        · cases left
          obtain ⟨first, rest⟩ := List.forall_mem_cons.1 slots
          obtain ⟨fresh, nodup⟩ := List.nodup_cons.1 nodup
          refine ⟨?_, Or.inr ⟨_, rfl, nodup, fun p hp => ⟨?_, (rest p hp).2⟩⟩⟩
          · intro id key slot hs
            rw [slot?_put] at hs
            split at hs
            · next here =>
                cases hs
                exact Or.inr ⟨here.1, here.2.1 ▸ first.2⟩
            · exact copied id key slot (settles.within.slot? hs)
          · rw [slot?_put, if_neg, settles.slot?_receiver]
            · exact (rest p hp).1
            · rintro ⟨-, rfl, -⟩
              exact fresh (List.mem_map.2 ⟨p, hp, rfl⟩)
  have start : Copied s ∧ Left s [⟨a, b, s.slots b⟩] :=
    ⟨fun _ _ _ => Or.inl, Or.inr ⟨_, rfl, s.nodup_keys_slots b,
      fun p hp => ⟨keyless p.1, mem_slots.1 hp⟩⟩⟩
  obtain ⟨m', hm', heq⟩ :=
    merge_preserves (P := fun m => Copied m.store ∧ Left m.store m.tasks) keeps start
  rw [heq] at h
  exact hm'.1 id key slot h

/-! ## What is released at once -/

/-- A keymap is gone after a release if nothing held it before. -/
theorem not_alive_release {s : Store α} {roots : List KeymapId} {id : KeymapId}
    (h : (s.held (s.handles ++ roots)).contains id = false) : ¬(s.release roots).alive id := by
  intro alive
  have held : id ∈ s.held (s.handles ++ roots) := by
    refine mem_held.2 ((mem_held.1 (mem_held_of_alive_collect alive)).imp_right ?_)
    rintro ⟨owner, km, key, hkm, hk⟩
    exact ⟨owner, km, key, s.within_release roots _ _ hkm, hk⟩
  rw [Std.TreeSet.mem_iff_contains, h] at held
  cases held

end Store

end ModalKeys
