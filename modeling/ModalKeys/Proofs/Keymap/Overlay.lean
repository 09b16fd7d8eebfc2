import ModalKeys.Proofs.Keymap.Tree

/-!
# Merging into a tree

A merge into a tree of keymaps whose leaves are actions goes down the tree, whatever it merges in: each
node meets one incoming keymap, the one that its own keys lead to. What comes out is the tree with new
leaves, which are slots of the incoming keymaps. These are not changed, and neither is any other keymap
that is not in the tree.
-/

namespace ModalKeys

variable {α : Type}

namespace Store

/-! ## Stores -/

theorem binding_of_resolve {s : Store α} {slot : Slot α} {binding : Binding α}
    (h : s.resolve slot = some binding) : slot.binding = binding := by
  unfold resolve at h
  split at h
  · exact Option.some.inj h
  all_goals
    split at h
    · exact Option.some.inj h
    · cases h

theorem resolve_eq_binding {s : Store α} {slot : Slot α}
    (h : ∀ id, slot.binding.keymap? = some id → s.alive id) :
    s.resolve slot = some slot.binding := by
  cases slot with
  | aliasOf id => rw [resolve, if_pos (h id rfl)]; rfl
  | bound binding =>
      cases binding with
      | keymap id => rw [resolve, if_pos (h id rfl)]; rfl
      | action tag act => rfl

/-- The keymaps of a set are there, and no slot leads out of it. -/
structure Encloses (s : Store α) (D : KeymapId → Prop) : Prop where
  alive : ∀ id, D id → s.alive id
  target : ∀ id key slot next, D id → s.slot? id key = some slot →
    slot.binding.keymap? = some next → D next

theorem Encloses.of_agree {s t : Store α} {D : KeymapId → Prop} (h : s.Encloses D)
    (agree : ∀ id, D id → t.keymap? id = s.keymap? id) : t.Encloses D where
  alive id hid := (alive_of_agree (agree id hid)).trans (h.alive id hid)
  target id key slot next hid hs := by
    rw [slot?_of_agree (agree id hid)] at hs
    exact h.target id key slot next hid hs

theorem Encloses.lookup {s : Store α} {D : KeymapId → Prop} (h : s.Encloses D) {id : KeymapId}
    (hid : D id) (key : Char) : s.lookup id key = (s.slot? id key).map Slot.binding := by
  rw [Store.lookup]
  cases hs : s.slot? id key with
  | none => rfl
  | some slot =>
      exact resolve_eq_binding fun next hn => h.alive next (h.target id key slot next hid hs hn)

/-- Keys lead to the same places as long as the keymaps that they can lead to stay as they are. -/
theorem Encloses.walk_of_agree {s t : Store α} {D : KeymapId → Prop} (h : s.Encloses D)
    (agree : ∀ id, D id → t.keymap? id = s.keymap? id) {id : KeymapId} (hid : D id)
    (keys : List Char) : t.walk id keys = s.walk id keys := by
  induction keys generalizing id with
  | nil => rw [walk, walk, alive_of_agree (agree id hid)]
  | cons key keys ih =>
      have same : t.lookup id key = s.lookup id key := by
        rw [(h.of_agree agree).lookup hid, h.lookup hid, slot?_of_agree (agree id hid)]
      rw [walk, walk, same]
      split
      · next next hl =>
          rw [h.lookup hid] at hl
          obtain ⟨slot, hs, hb⟩ := Option.map_eq_some_iff.1 hl
          exact ih (h.target id key slot next hid hs (congrArg Binding.keymap? hb))
      · rfl
      · rfl

/-- Walking does not lead out either. -/
theorem Encloses.of_walk {s : Store α} {D : KeymapId → Prop} (h : s.Encloses D) {id target : KeymapId}
    (hid : D id) {keys : List Char} (hw : s.walk id keys = some (.keymap target)) : D target := by
  induction keys generalizing id with
  | nil =>
      rw [walk, if_pos (h.alive id hid)] at hw
      cases hw
      exact hid
  | cons key keys ih =>
      rw [walk, h.lookup hid] at hw
      split at hw
      · next next hl =>
          obtain ⟨slot, hs, hb⟩ := Option.map_eq_some_iff.1 hl
          exact ih (h.target id key slot next hid hs (congrArg Binding.keymap? hb)) hw
      · split at hw <;> cases hw
      · cases hw

/-- The nodes of a tree that ends in actions lead to each other only. -/
theorem Spans.encloses {s : Store α} {t : KeyTree α} (h : s.Spans t) (ends : t.EndsInActions) :
    s.Encloses t.Mem where
  alive id hid := by
    obtain ⟨keys, grand, hx⟩ := hid
    exact (h keys id grand hx).1
  target id key slot next hid hs hn := by
    obtain ⟨keys, grand, hx⟩ := hid
    rw [(h keys id grand hx).2] at hs
    obtain ⟨u, hu, rfl⟩ := Option.map_eq_some_iff.1 hs
    have hx' : t.at? (keys ++ [key]) = some u := by
      rw [KeyTree.at?_append, hx, Option.bind_some, KeyTree.at?_node_cons, hu]
      rfl
    cases u with
    | node below child =>
        cases hn
        exact ⟨_, child, hx'⟩
    | leaf slot =>
        obtain ⟨tag, act, rfl⟩ := ends _ slot hx'
        cases hn

theorem nodup_keys_slots (s : Store α) (id : KeymapId) : ((s.slots id).map (·.1)).Nodup := by
  rw [slots]
  split
  · next km _ =>
      rw [List.Nodup, List.pairwise_map]
      refine Std.TreeMap.distinct_keys_toList.imp ?_
      intro x y h
      simpa using h
  · exact List.nodup_nil

theorem mem_of_lookup {κ β : Type} [BEq κ] [LawfulBEq κ] {xs : List (κ × β)} {k : κ} {v : β}
    (h : xs.lookup k = some v) : (k, v) ∈ xs := by
  obtain ⟨before, after, rfl, -⟩ := List.lookup_eq_some_iff.1 h
  exact List.mem_append_right _ List.mem_cons_self

theorem lookup_slots (s : Store α) (id : KeymapId) (key : Char) :
    (s.slots id).lookup key = s.slot? id key := by
  cases hl : (s.slots id).lookup key with
  | some slot => exact (mem_slots.1 (mem_of_lookup hl)).symm
  | none =>
      cases hs : s.slot? id key with
      | none => rfl
      | some slot =>
          have := List.lookup_eq_none_iff.1 hl _ (mem_slots.2 hs)
          simp at this

end Store

namespace KeyTree

/-! ## Trees with new leaves -/

mutual

/-- A tree after the keymap `b` has been merged into it. -/
def overlay (s : Store α) (b : KeymapId) : KeyTree α → KeyTree α
  | leaf slot => leaf slot
  | node a child => node a fun key => overlayAt s (s.slot? b key) (child key)
termination_by structural t => t

def overlayAt (s : Store α) (theirs : Option (Slot α)) : Option (KeyTree α) → Option (KeyTree α)
  | none => theirs.map leaf
  | some ours =>
    match theirs with
    | none => some ours
    | some slot =>
      match ours, slot.binding with
      | node a child, .keymap b => some (overlay s b (node a child))
      | _, _ => some (leaf slot)
termination_by structural t => t

end

theorem overlay_node (s : Store α) (a b : KeymapId) (child : Char → Option (KeyTree α)) :
    overlay s b (node a child) = node a fun key => overlayAt s (s.slot? b key) (child key) := rfl

theorem overlayAt_none (s : Store α) (ours : Option (KeyTree α)) : overlayAt s none ours = ours := by
  cases ours <;> rfl

theorem overlayAt_descend {s : Store α} {slot : Slot α} {a b : KeymapId}
    {child : Char → Option (KeyTree α)} (h : slot.binding = .keymap b) :
    overlayAt s (some slot) (some (node a child)) = some (overlay s b (node a child)) := by
  rw [overlayAt]
  simp only [h]

theorem overlayAt_leaf {s : Store α} {slot : Slot α} {ours : Option (KeyTree α)}
    (h : ∀ a b child, ours = some (node a child) → slot.binding ≠ .keymap b) :
    overlayAt s (some slot) ours = some (leaf slot) := by
  cases ours with
  | none => rfl
  | some t =>
      rw [overlayAt]
      intro a child b ht
      exact h a b child (congrArg some ht)

/-- A key that leads to a node of the tree and to an incoming keymap leads on down the tree. -/
theorem overlayAt_cases (s : Store α) (slot : Slot α) (t : KeyTree α) :
    (∃ b, slot.binding = .keymap b ∧ overlayAt s (some slot) (some t) = some (overlay s b t)) ∨
      overlayAt s (some slot) (some t) = some (leaf slot) := by
  cases t with
  | leaf other => exact Or.inr (overlayAt_leaf fun a b child ht => nomatch ht)
  | node a child =>
      cases hb : slot.binding with
      | keymap b => exact Or.inl ⟨b, rfl, overlayAt_descend hb⟩
      | action tag act =>
          exact Or.inr (overlayAt_leaf fun _ b _ _ hk => nomatch hb.symm.trans hk)

/-- A node below a key was there before. -/
theorem at?_overlayAt_node {s : Store α} {theirs : Option (Slot α)} {ours : Option (KeyTree α)}
    {t' : KeyTree α} {keys : List Char} {id : KeymapId} {grand : Char → Option (KeyTree α)}
    (below : ∀ t b, ours = some t → (overlay s b t).at? keys = some (node id grand) →
      ∃ grand', t.at? keys = some (node id grand'))
    (ht' : overlayAt s theirs ours = some t') (h : t'.at? keys = some (node id grand)) :
    ∃ t grand', ours = some t ∧ t.at? keys = some (node id grand') := by
  have not_leaf (slot : Slot α) (hl : (leaf slot).at? keys = some (node id grand)) : False := by
    cases keys <;> cases hl
  cases theirs with
  | none =>
      rw [overlayAt_none] at ht'
      exact ⟨t', grand, ht', h⟩
  | some slot =>
      cases ours with
      | none =>
          cases ht'
          exact (not_leaf slot h).elim
      | some t =>
          rcases overlayAt_cases s slot t with ⟨b, -, he⟩ | he
          · cases he.symm.trans ht'
            obtain ⟨grand', hg⟩ := below t b rfl h
            exact ⟨t, grand', rfl, hg⟩
          · cases he.symm.trans ht'
            exact (not_leaf slot h).elim

/-- The nodes stay where they were. -/
theorem at?_overlay_node {s : Store α} {t : KeyTree α} {b : KeymapId} {keys : List Char}
    {id : KeymapId} {grand : Char → Option (KeyTree α)}
    (h : (overlay s b t).at? keys = some (node id grand)) :
    ∃ grand', t.at? keys = some (node id grand') := by
  induction t using induct generalizing b keys with
  | leaf slot => exact ⟨grand, h⟩
  | node a child ih =>
      cases keys with
      | nil =>
          cases h
          exact ⟨child, rfl⟩
      | cons key keys =>
          obtain ⟨t', ht', h⟩ := Option.bind_eq_some_iff.1 h
          obtain ⟨t, grand', hc, hg⟩ := at?_overlayAt_node (fun t b hc => ih key t hc) ht' h
          exact ⟨grand', (at?_of_child hc keys).trans hg⟩

theorem mem_of_mem_overlay {s : Store α} {t : KeyTree α} {b id : KeymapId}
    (h : (overlay s b t).Mem id) : t.Mem id := by
  obtain ⟨keys, grand, h⟩ := h
  obtain ⟨grand', h⟩ := at?_overlay_node h
  exact ⟨keys, grand', h⟩

/-- One key first, and then the others. -/
theorem overlayAt_lookup_cons {s : Store α} {key : Char} {slot : Slot α}
    {pending : List (Char × Slot α)} (h : key ∉ pending.map (·.1))
    (child : Char → Option (KeyTree α)) (k : Char) :
    overlayAt s (((key, slot) :: pending).lookup k) (child k) = overlayAt s (pending.lookup k)
      (Function.update child key (overlayAt s (some slot) (child key)) k) := by
  by_cases hk : k = key
  · subst hk
    have absent : pending.lookup k = none := by
      rw [List.lookup_eq_none_iff]
      intro p hp
      rw [bne_iff_ne]
      rintro rfl
      exact h (List.mem_map.2 ⟨p, hp, rfl⟩)
    rw [List.lookup_cons_self, Function.update_self, absent, overlayAt_none]
  · rw [List.lookup_cons, Function.update_of_ne hk, beq_false_of_ne hk]

theorem at?_update_overlayAt_node {s : Store α} {theirs : Option (Slot α)} {a id : KeymapId}
    {child grand : Char → Option (KeyTree α)} {key : Char} {keys : List Char}
    (h : (node a (Function.update child key (overlayAt s theirs (child key)))).at? keys =
      some (node id grand)) : ∃ grand', (node a child).at? keys = some (node id grand') := by
  cases keys with
  | nil =>
      cases h
      exact ⟨child, rfl⟩
  | cons k keys =>
      obtain ⟨t', ht', h⟩ := Option.bind_eq_some_iff.1 h
      replace ht' : Function.update child key (overlayAt s theirs (child key)) k = some t' := ht'
      rw [Function.update_apply] at ht'
      split at ht'
      · next hk =>
          obtain ⟨t, grand', hc, hg⟩ := at?_overlayAt_node (fun _ _ _ => at?_overlay_node) ht' h
          exact ⟨grand', (at?_of_child (hk ▸ hc) keys).trans hg⟩
      · exact ⟨grand, (at?_of_child ht' keys).trans h⟩

end KeyTree

namespace Store

open KeyTree

theorem Spans.put {s : Store α} {a : KeymapId} {child : Char → Option (KeyTree α)}
    (h : s.Spans (node a child)) (unshared : (node a child).Unshared) (key : Char) (slot : Slot α) :
    (s.put a key slot).Spans (node a (Function.update child key (some (leaf slot)))) := by
  obtain ⟨⟨alive, keys⟩, below⟩ := spans_node.1 h
  refine spans_node.2 ⟨⟨(alive_put ..).trans alive, ?_⟩, ?_⟩
  · intro k
    rw [slot?_put, Function.update_apply, keys]
    by_cases hk : k = key
    · simp [hk, alive, KeyTree.slot]
    · simp [hk]
  · intro k t hc
    rw [Function.update_apply] at hc
    split at hc
    · cases hc
      exact spans_leaf _ _
    · refine (below k t hc).of_agree ?_
      intro x hx
      have hne : x ≠ a := by
        rintro rfl
        exact unshared.not_mem_child hc hx
      rw [keymap?_put, if_neg hne]

/-- Below one key there is another tree now, with the same topmost keymap. -/
theorem Spans.update {s s' : Store α} {a : KeymapId} {child : Char → Option (KeyTree α)} {key : Char}
    {t u : KeyTree α} (h : s.Spans (node a child)) (hk : child key = some t) (slot : u.slot = t.slot)
    (hu : s'.Spans u)
    (agree : ∀ id, (id = a ∨ ∃ k t, k ≠ key ∧ child k = some t ∧ t.Mem id) →
      s'.keymap? id = s.keymap? id) :
    s'.Spans (node a (Function.update child key (some u))) := by
  obtain ⟨⟨alive, keys⟩, below⟩ := spans_node.1 h
  have self := agree a (Or.inl rfl)
  refine spans_node.2 ⟨⟨(alive_of_agree self).trans alive, ?_⟩, ?_⟩
  · intro k
    rw [slot?_of_agree self, keys, Function.update_apply]
    split
    · next h => rw [h, hk, Option.map_some, Option.map_some, slot]
    · rfl
  · intro k t ht
    rw [Function.update_apply] at ht
    split at ht
    · cases ht
      exact hu
    · next hne =>
        exact (below k t ht).of_agree fun id hid => agree id (Or.inr ⟨k, t, hne, ht, hid⟩)

end Store

namespace Merging

open KeyTree

variable {roots : List KeymapId}

/-! ## Parts of a merge -/

/-- A merge gets on to a state in which `tasks` are left. It changes no keymap but those in `touched`,
as far as they are held in the end, and takes up no others as receivers. -/
structure Advances (roots : List KeymapId) (tasks : List (MergeTask α)) (touched : KeymapId → Prop)
    (m m' : Merging α) : Prop where
  result : m'.result roots = m.result roots
  handles : m'.store.handles = m.store.handles
  kept : ∀ K : KeymapId → Prop,
    m.store.Supported (m.store.handles ++ (roots ++ MergeTask.held tasks)) K →
    (∀ id, K id → ¬touched id) → ∀ id, K id → m'.store.keymap? id = m.store.keymap? id
  seen : ∀ c d, (c, d) ∈ m'.seen.pairs → (c, d) ∈ m.seen.pairs ∨ touched c

variable {tasks tasks' : List (MergeTask α)} {touched touched' : KeymapId → Prop}
  {m m₁ m₂ : Merging α}

theorem held_subset (handles : List KeymapId)
    (held : MergeTask.held tasks' ⊆ MergeTask.held tasks) :
    handles ++ (roots ++ MergeTask.held tasks') ⊆ handles ++ (roots ++ MergeTask.held tasks) := by
  intro id
  simp only [List.mem_append]
  exact Or.imp_right (Or.imp_right (@held id))

theorem Advances.mono (h : Advances roots tasks touched m m₁)
    (held : MergeTask.held tasks' ⊆ MergeTask.held tasks) (sub : ∀ id, touched id → touched' id) :
    Advances roots tasks' touched' m m₁ where
  result := h.result
  handles := h.handles
  kept K hK apart := by
    exact h.kept K (hK.mono (held_subset _ held)) fun id hid ht => apart id hid (sub id ht)
  seen c d hcd := (h.seen c d hcd).imp_right (sub c)

theorem Advances.trans (h : Advances roots tasks touched m m₁)
    (h' : Advances roots tasks touched m₁ m₂) : Advances roots tasks touched m m₂ where
  result := h'.result.trans h.result
  handles := h'.handles.trans h.handles
  kept K hK apart id hid := by
    have agree := h.kept K hK apart
    refine (h'.kept K ?_ apart id hid).trans (agree id hid)
    rw [h.handles]
    exact hK.of_agree agree
  seen c d hcd := by
    rcases h'.seen c d hcd with hcd | hc
    · exact h.seen c d hcd
    · exact Or.inr hc

theorem Settles.handles_eq {s s' : Store α} (h : Settles roots tasks s s') :
    s'.handles = s.handles := by
  rcases h with rfl | rfl
  · rfl
  · exact s.handles_release _

/-- A single step changes the receiver of the first task only. -/
theorem Step.advances {a b : KeymapId} {pending : List (Char × Slot α)} (h : Step roots m m₁)
    (tasks' : List (MergeTask α)) (touched : KeymapId → Prop)
    (hm : m.tasks = ⟨a, b, pending⟩ :: tasks) (ha : touched a)
    (held : MergeTask.held tasks' ⊆ MergeTask.held m.tasks)
    (result : m₁.result roots = m.result roots)
    (seen : ∀ c d, (c, d) ∈ m₁.seen.pairs → (c, d) ∈ m.seen.pairs ∨ touched c) :
    Advances roots tasks' touched m m₁ := by
  have grow {K : KeymapId → Prop}
      (hK : m.store.Supported (m.store.handles ++ (roots ++ MergeTask.held tasks')) K) :
      m.store.Supported (m.store.handles ++ (roots ++ MergeTask.held m.tasks)) K :=
    hK.mono (held_subset _ held)
  cases h with
  | finish => exact ⟨result, rfl, fun _ _ _ _ _ => rfl, seen⟩
  | skip settles =>
      exact ⟨result, settles.handles_eq, fun K hK _ id hid => settles.keymap?_eq (grow hK) hid, seen⟩
  | descend settles =>
      exact ⟨result, settles.handles_eq, fun K hK _ id hid => settles.keymap?_eq (grow hK) hid, seen⟩
  | put settles =>
      cases hm
      refine ⟨result, settles.handles_eq, ?_, seen⟩
      intro K hK apart id hid
      have hne : id ≠ a := by
        rintro rfl
        exact apart id hid ha
      exact (Store.keymap?_put ..).trans ((if_neg hne).trans (settles.keymap?_eq (grow hK) hid))

/-! ## Down a tree -/

/-- A merge has not touched the keymaps of `D` since the store was `s`, and the store still spans a tree
that has nothing to do with them. -/
structure Ready (s : Store α) (D : KeymapId → Prop) (m : Merging α) (t : KeyTree α) : Prop where
  handles : m.store.handles = s.handles
  agree : ∀ id, D id → m.store.keymap? id = s.keymap? id
  spans : m.store.Spans t
  unshared : t.Unshared
  apart : ∀ id, t.Mem id → ¬D id

/-- Whatever a keymap of `D` is merged into a tree, and at whatever point, the tree gets new leaves. -/
def Overlays (roots : List KeymapId) (s : Store α) (D : KeymapId → Prop) (t : KeyTree α) : Prop :=
  ∀ (m : Merging α) (a b : KeymapId) (child : Char → Option (KeyTree α)) (tasks : List (MergeTask α)),
    t = node a child → m.tasks = ⟨a, b, m.store.slots b⟩ :: tasks → D b → Ready s D m t →
    t.EndsInActions → (∀ id d, t.Mem id → id ≠ a → (id, d) ∉ m.seen.pairs) →
    ∃ m', m'.tasks = tasks ∧ m'.store.Spans (overlay s b t) ∧ Advances roots tasks t.Mem m m'

section Descent

variable {s : Store α} {D : KeymapId → Prop} {a b : KeymapId} {child : Char → Option (KeyTree α)}

theorem mem_held_receiver (a b : KeymapId) (pending : List (Char × Slot α))
    (tasks : List (MergeTask α)) : a ∈ MergeTask.held (⟨a, b, pending⟩ :: tasks) :=
  List.mem_flatMap.2 ⟨_, List.mem_cons_self, List.mem_cons_self⟩

theorem held_pending_subset (a b : KeymapId) (slot : Char × Slot α) (pending : List (Char × Slot α))
    (tasks : List (MergeTask α)) : MergeTask.held (⟨a, b, pending⟩ :: tasks) ⊆
      MergeTask.held (⟨a, b, slot :: pending⟩ :: tasks) := by
  intro id h
  simp only [MergeTask.held, List.flatMap_cons, List.mem_append, List.mem_cons,
    List.mem_filterMap] at h ⊢
  rcases h with (rfl | rfl | ⟨p, hp, ho⟩) | h
  · exact Or.inl (Or.inl rfl)
  · exact Or.inl (Or.inr (Or.inl rfl))
  · exact Or.inl (Or.inr (Or.inr ⟨p, Or.inr hp, ho⟩))
  · exact Or.inr h

theorem held_tail_subset (task : MergeTask α) (tasks : List (MergeTask α)) :
    MergeTask.held tasks ⊆ MergeTask.held (task :: tasks) := by
  intro id h
  exact List.mem_append_right _ h

/-- Neither the tree nor the incoming keymaps are affected if something is released. -/
theorem Ready.of_settles {m' : Merging α} {pending : List (Char × Slot α)}
    (supp : s.Supported (s.handles ++ roots) D) (ready : Ready s D m (node a child))
    (settles : Settles roots (⟨a, b, pending⟩ :: tasks) m.store m'.store) :
    Ready s D m' (node a child) where
  handles := settles.handles_eq.trans ready.handles
  agree id hid := by
    refine (settles.keymap?_eq ((supp.of_agree ready.agree).mono ?_) hid).trans (ready.agree id hid)
    rw [← ready.handles, ← List.append_assoc]
    exact List.subset_append_left _ _
  spans := by
    refine ready.spans.of_agree fun id hid => settles.keymap?_eq (ready.spans.supported ?_) hid
    exact List.mem_append_right _ (List.mem_append_right _ (mem_held_receiver ..))
  unshared := ready.unshared
  apart := ready.apart

theorem Ready.resolve {t : KeyTree α} {theirs : Slot α} (encl : s.Encloses D) (ready : Ready s D m t)
    (htheirs : ∀ d, theirs.binding.keymap? = some d → D d) :
    m.store.resolve theirs = some theirs.binding := by
  refine Store.resolve_eq_binding fun d hd => ?_
  rw [Store.alive_of_agree (ready.agree d (htheirs d hd))]
  exact encl.alive d (htheirs d hd)

/-- Where the receiver has a keymap, that is a node of the tree. -/
theorem Ready.lookup_eq_keymap {key : Char} {c : KeymapId} (ready : Ready s D m (node a child))
    (ends : ∀ t, child key = some t → t.EndsInActions) :
    m.store.lookup a key = some (.keymap c) ↔ ∃ grand, child key = some (node c grand) := by
  obtain ⟨⟨-, keys⟩, below⟩ := Store.spans_node.1 ready.spans
  rw [Store.lookup, keys]
  constructor
  · intro hc
    obtain ⟨slot, hs, hr⟩ := Option.bind_eq_some_iff.1 hc
    obtain ⟨t, hk, rfl⟩ := Option.map_eq_some_iff.1 hs
    cases t with
    | leaf slot =>
        obtain ⟨tag, act, rfl⟩ := ends _ hk [] slot rfl
        cases hr
    | node c' grand =>
        cases Store.binding_of_resolve hr
        exact ⟨grand, hk⟩
  · rintro ⟨grand, hk⟩
    rw [hk]
    exact if_pos (Store.spans_node.1 (below key _ hk)).1.1

/-- One key of a node: it leads to the overlaid tree below it, or to the incoming slot. -/
theorem exists_advances_key {key : Char} {theirs : Slot α} {pending : List (Char × Slot α)}
    (encl : s.Encloses D) (supp : s.Supported (s.handles ++ roots) D)
    (hm : m.tasks = ⟨a, b, (key, theirs) :: pending⟩ :: tasks) (ready : Ready s D m (node a child))
    (ends : ∀ t, child key = some t → t.EndsInActions)
    (fresh : ∀ t id d, child key = some t → t.Mem id → (id, d) ∉ m.seen.pairs)
    (htheirs : ∀ d, theirs.binding.keymap? = some d → D d)
    (ih : ∀ t, child key = some t → Overlays roots s D t) :
    ∃ m', m'.tasks = ⟨a, b, pending⟩ :: tasks ∧
      m'.store.Spans
        (node a (Function.update child key (overlayAt s (some theirs) (child key)))) ∧
      Advances roots (⟨a, b, pending⟩ :: tasks)
        (fun id => id = a ∨ ∃ t, child key = some t ∧ t.Mem id) m m' := by
  have step : Step roots m (m.step roots) := step_cases (by simp [hm])
  have result := result_step roots m
  have sub := held_pending_subset a b (key, theirs) pending tasks
  generalize m.step roots = m₁ at step result
  have advances := step.advances (⟨a, b, pending⟩ :: tasks)
    (fun id => id = a ∨ ∃ t, child key = some t ∧ t.Mem id) hm (Or.inl rfl) (hm ▸ sub) result
  obtain ⟨st, upkeep, seen, all⟩ := m
  cases hm
  cases step with
  | @skip _ s' _ upkeep' _ _ _ c d _ _ _ _ settles hc hd known =>
      have settled : Ready s D ⟨s', upkeep', seen, []⟩ (node a child) := ready.of_settles supp settles
      obtain ⟨grand, hk⟩ := (settled.lookup_eq_keymap ends).1 hc
      have hd : theirs.binding = .keymap d :=
        Option.some.inj ((settled.resolve encl htheirs).symm.trans hd)
      exfalso
      rcases known with rfl | known
      · exact ready.apart c (Mem.of_child hk (mem_self c grand)) (htheirs c (by rw [hd]; rfl))
      · exact fresh _ c d hk (mem_self c grand) known
  | @put _ s' _ upkeep' _ _ _ _ _ _ _ settles no =>
      have settled : Ready s D ⟨s', upkeep', seen, []⟩ (node a child) := ready.of_settles supp settles
      refine ⟨_, rfl, ?_, advances fun c d hcd => Or.inl hcd⟩
      have leaf : overlayAt s (some theirs) (child key) = some (leaf theirs) := by
        refine overlayAt_leaf fun c d grand hk hd => no c d ?_ ?_
        · exact (settled.lookup_eq_keymap ends).2 ⟨grand, hk⟩
        · exact (settled.resolve encl htheirs).trans (congrArg some hd)
      rw [leaf]
      exact settled.spans.put ready.unshared key theirs
  | @descend _ s' _ upkeep' _ _ _ c d _ _ _ _ settles hc hd hne unseen =>
      have settled : Ready s D ⟨s', upkeep', seen, []⟩ (node a child) := ready.of_settles supp settles
      obtain ⟨grand, hk⟩ := (settled.lookup_eq_keymap ends).1 hc
      have hd : theirs.binding = .keymap d :=
        Option.some.inj ((settled.resolve encl htheirs).symm.trans hd)
      have below : Ready s D ⟨s', upkeep', seen.add c d,
          ⟨c, d, s'.slots d⟩ :: ⟨a, b, pending⟩ :: tasks⟩ (node c grand) :=
        { handles := settled.handles
          agree := settled.agree
          spans := (Store.spans_node.1 settled.spans).2 key _ hk
          unshared := ready.unshared.of_child hk
          apart := fun id hid => ready.apart id (Mem.of_child hk hid) }
      obtain ⟨m', hm', spans', advances'⟩ := ih _ hk _ c d grand _ rfl rfl
        (htheirs d (by rw [hd]; rfl)) below (ends _ hk) (by
        intro id e hid hne hmem
        rcases List.mem_cons.1 hmem with heq | hmem
        · exact hne (Prod.ext_iff.1 heq).1
        · exact fresh _ id e hk hid hmem)
      have first := advances (by
        intro x y hxy
        rcases List.mem_cons.1 hxy with heq | hxy
        · cases heq
          exact Or.inr (Or.inr ⟨_, hk, mem_self c grand⟩)
        · exact Or.inl hxy)
      refine ⟨m', hm', ?_, first.trans
        (advances'.mono (List.Subset.refl _) fun id hid => Or.inr ⟨_, hk, hid⟩)⟩
      rw [hk, overlayAt_descend hd]
      -- the node itself and what is below its other keys are held by the task that is left
      have holds : a ∈ s'.handles ++ (roots ++ MergeTask.held (⟨a, b, pending⟩ :: tasks)) :=
        List.mem_append_right _ (List.mem_append_right _ (mem_held_receiver ..))
      refine settled.spans.update hk rfl spans'
        (advances'.kept _ (settled.spans.supported_below holds (· ≠ key)) ?_)
      rintro id (rfl | ⟨k, t, hne, ht, hid⟩) hid'
      · exact ready.unshared.not_mem_child hk hid'
      · exact hne (ready.unshared.key_eq ht hk hid hid')

/-- All the keys of a task. -/
theorem exists_advances_pending (encl : s.Encloses D) (supp : s.Supported (s.handles ++ roots) D)
    (pending : List (Char × Slot α)) (hm : m.tasks = ⟨a, b, pending⟩ :: tasks)
    (ready : Ready s D m (node a child)) (nodup : (pending.map (·.1)).Nodup)
    (ends : ∀ key ∈ pending.map (·.1), ∀ t, child key = some t → t.EndsInActions)
    (fresh : ∀ key ∈ pending.map (·.1), ∀ t id d, child key = some t → t.Mem id →
      (id, d) ∉ m.seen.pairs)
    (theirs : ∀ p ∈ pending, ∀ d, p.2.binding.keymap? = some d → D d)
    (ih : ∀ key ∈ pending.map (·.1), ∀ t, child key = some t → Overlays roots s D t) :
    ∃ m', m'.tasks = tasks ∧
      m'.store.Spans (node a fun key => overlayAt s (pending.lookup key) (child key)) ∧
      Advances roots tasks (node a child).Mem m m' := by
  induction pending generalizing m child with
  | nil =>
      have step : Step roots m (m.step roots) := step_cases (by simp [hm])
      have advances := step.advances tasks (node a child).Mem hm (mem_self a child)
        (hm ▸ held_tail_subset _ _) (result_step roots m)
      generalize m.step roots = m' at step advances
      obtain ⟨st, upkeep, seen, all⟩ := m
      cases hm
      cases step with
      | finish =>
          refine ⟨_, rfl, ?_, advances fun c d hcd => Or.inl hcd⟩
          simp only [List.lookup_nil, overlayAt_none]
          exact ready.spans
  | cons p pending rest =>
      obtain ⟨key, slot⟩ := p
      rw [List.map_cons, List.nodup_cons] at nodup
      obtain ⟨m₁, hm₁, spans, first⟩ := exists_advances_key encl supp hm ready
        (ends key List.mem_cons_self) (fresh key List.mem_cons_self)
        (theirs _ List.mem_cons_self) (ih key List.mem_cons_self)
      -- the tree that is left has the nodes of the old one, and the same trees below the keys to come
      have nodes (x : KeymapId) (hx : (node a (Function.update child key
          (overlayAt s (some slot) (child key)))).Mem x) : (node a child).Mem x := by
        obtain ⟨keys, grand, hx⟩ := hx
        obtain ⟨grand', hx⟩ := at?_update_overlayAt_node hx
        exact ⟨keys, grand', hx⟩
      have other {k : Char} (hk : k ∈ pending.map (·.1)) {t : KeyTree α}
          (ht : Function.update child key (overlayAt s (some slot) (child key)) k = some t) :
          child k = some t := by
        have hne : k ≠ key := by
          rintro rfl
          exact nodup.1 hk
        rwa [Function.update_of_ne hne] at ht
      have agree := first.kept D
        (by
          rw [ready.handles, ← List.append_assoc]
          exact (supp.of_agree ready.agree).mono (List.subset_append_left _ _))
        (by
          rintro id hid (rfl | ⟨t, ht, hmem⟩)
          · exact ready.apart id (mem_self id child) hid
          · exact ready.apart id (Mem.of_child ht hmem) hid)
      have ready₁ : Ready s D m₁
          (node a (Function.update child key (overlayAt s (some slot) (child key)))) :=
        { handles := first.handles.trans ready.handles
          agree := fun id hid => (agree id hid).trans (ready.agree id hid)
          spans := spans
          unshared := ready.unshared.of_subset fun _ _ _ => at?_update_overlayAt_node
          apart := fun id hid => ready.apart id (nodes id hid) }
      obtain ⟨m', hm', spans', second⟩ := rest hm₁ ready₁ nodup.2
        (fun k hk t ht => ends k (List.mem_cons_of_mem _ hk) t (other hk ht))
        (by
          intro k hk t id d ht hid hmem
          have hc := other hk ht
          rcases first.seen id d hmem with hmem | rfl | ⟨t', ht', hid'⟩
          · exact fresh k (List.mem_cons_of_mem _ hk) t id d hc hid hmem
          · exact ready.unshared.not_mem_child hc hid
          · have := ready.unshared.key_eq hc ht' hid hid'
            exact nodup.1 (this ▸ hk))
        (fun p hp => theirs p (List.mem_cons_of_mem _ hp))
        (fun k hk t ht => ih k (List.mem_cons_of_mem _ hk) t (other hk ht))
      refine ⟨m', hm', ?_, ?_⟩
      · simp only [overlayAt_lookup_cons nodup.1]
        exact spans'
      · refine (first.mono (held_tail_subset _ _) ?_).trans
          (second.mono (List.Subset.refl _) nodes)
        rintro id (rfl | ⟨t, ht, hid⟩)
        · exact mem_self id child
        · exact Mem.of_child ht hid

theorem overlays (encl : s.Encloses D) (supp : s.Supported (s.handles ++ roots) D)
    (t : KeyTree α) : Overlays roots s D t := by
  -- by induction on the tree: below each key there is a smaller one
  induction t using induct with
  | leaf slot =>
      intro m a b child tasks ht
      cases ht
  | node a child ih =>
      intro m a' b child' tasks ht hm hb ready ends fresh
      cases ht
      have slots (key : Char) : m.store.slot? b key = s.slot? b key :=
        Store.slot?_of_agree (ready.agree b hb) key
      obtain ⟨m', hm', spans, advances⟩ := exists_advances_pending encl supp _ hm ready
        (Store.nodup_keys_slots _ _) (fun key _ t ht => ends.of_child ht)
        (by
          intro key _ t id d ht hid
          refine fresh id d (Mem.of_child ht hid) ?_
          rintro rfl
          exact ready.unshared.not_mem_child ht hid)
        (by
          rintro ⟨key, slot⟩ hp d hd
          exact encl.target b key slot d hb ((slots key).symm.trans (Store.mem_slots.1 hp)) hd)
        (fun key _ t ht => ih key t ht)
      refine ⟨m', hm', ?_, advances⟩
      simp only [Store.lookup_slots, slots] at spans
      exact spans

end Descent

end Merging

namespace Store

open KeyTree

/-- Merging a keymap into a tree gives the tree new leaves. What is held and not in the tree stays as it
was. -/
theorem spans_overlay {s : Store α} {roots : List KeymapId} {D : KeymapId → Prop} {a b : KeymapId}
    {child : Char → Option (KeyTree α)} (spans : s.Spans (node a child))
    (unshared : (node a child).Unshared) (ends : (node a child).EndsInActions)
    (encl : s.Encloses D) (supp : s.Supported (s.handles ++ roots) D) (hb : D b)
    (apart : ∀ id, (node a child).Mem id → ¬D id) :
    (s.merge roots a b).Spans (overlay s b (node a child)) ∧
      (s.merge roots a b).handles = s.handles ∧
      ∀ K : KeymapId → Prop, s.Supported (s.handles ++ roots) K →
        (∀ id, K id → ¬(node a child).Mem id) →
        ∀ id, K id → (s.merge roots a b).keymap? id = s.keymap? id := by
  have hne : a ≠ b := by
    rintro rfl
    exact apart a (mem_self a child) hb
  let m : Merging α := ⟨s, .none, PairLog.add default a b, [⟨a, b, s.slots b⟩]⟩
  have merge : s.merge roots a b = (m.result roots).store := by
    rw [merge, merging, if_neg hne]
    rfl
  obtain ⟨m', hm', spans', advances⟩ := Merging.overlays encl supp _ m a b child []
    rfl rfl hb ⟨rfl, fun _ _ => rfl, spans, unshared, apart⟩ ends (by
      rintro id d - hne hmem
      cases List.mem_singleton.1 hmem
      exact hne rfl)
  have result : (m.result roots).store = m'.store := by
    rw [← advances.result, Merging.result, hm', mergeTasks]
  rw [merge, result]
  refine ⟨spans', advances.handles, fun K hK => advances.kept K ?_⟩
  exact hK.mono fun id hid => by simpa [MergeTask.held] using hid

end Store

namespace KeyTree

/-! ## Merging trees -/

/-- If the incoming keymaps are a tree themselves, then the new leaves lead on to its nodes, and both
trees have been merged. -/
theorem spans_merge {s s' : Store α} {t : KeyTree α} {b : KeymapId}
    {theirs : Char → Option (KeyTree α)} (ht : s'.Spans (overlay s b t))
    (hu : s.Spans (node b theirs)) (hu' : s'.Spans (node b theirs))
    (ends : (node b theirs).EndsInActions) : s'.Spans (t.merge (node b theirs)) := by
  induction t using induct generalizing b theirs with
  | leaf slot => exact hu'
  | node a child ih =>
      obtain ⟨⟨alive, keys⟩, below⟩ := Store.spans_node.1 ht
      obtain ⟨⟨-, keys'⟩, under⟩ := Store.spans_node.1 hu
      obtain ⟨-, under'⟩ := Store.spans_node.1 hu'
      -- key by key, in the order of the cases in the definition of the pure merge
      have at_key (key : Char) :
          (overlayAt s (s.slot? b key) (child key)).map slot =
            (mergeAt (child key) (theirs key)).map slot ∧
          ∀ v, mergeAt (child key) (theirs key) = some v → s'.Spans v := by
        have below := below key
        rw [keys'] at below ⊢
        cases hu : theirs key with
        | none =>
            rw [hu, Option.map_none, overlayAt_none] at below
            rw [Option.map_none, overlayAt_none]
            exact ⟨rfl, below⟩
        | some u =>
            rw [hu] at below
            cases hc : child key with
            | none =>
                exact ⟨rfl, fun v hv => under' key v (hu.trans hv)⟩
            | some t =>
                rw [hc] at below
                cases u with
                | leaf slot =>
                    obtain ⟨tag, act, rfl⟩ := ends.of_child hu [] slot rfl
                    have he : overlayAt s (some (.bound (.action tag act))) (some t) =
                        some (leaf (.bound (.action tag act))) :=
                      overlayAt_leaf fun _ _ _ _ hb => by cases hb
                    refine ⟨?_, fun v hv => ?_⟩
                    · exact congrArg (Option.map slot) he
                    · cases hv
                      exact Store.spans_leaf _ _
                | node d grand =>
                    cases t with
                    | leaf slot =>
                        have he : overlayAt s (some (node d grand).slot) (some (leaf slot)) =
                            some (leaf (node d grand).slot) :=
                          overlayAt_leaf fun _ _ _ ht => by cases ht
                        refine ⟨?_, fun v hv => ?_⟩
                        · exact (congrArg (Option.map KeyTree.slot) he).trans rfl
                        · cases hv
                          exact under' key _ hu
                    | node c ours =>
                        have he : overlayAt s (some (node d grand).slot) (some (node c ours)) =
                            some (overlay s d (node c ours)) := overlayAt_descend rfl
                        refine ⟨?_, fun v hv => ?_⟩
                        · exact (congrArg (Option.map KeyTree.slot) he).trans rfl
                        · cases hv
                          exact ih key _ hc (below _ he) (under key _ hu) (under' key _ hu)
                            (ends.of_child hu)
      exact Store.spans_node.2 ⟨⟨alive, fun key => (keys key).trans (at_key key).1⟩,
        fun key => (at_key key).2⟩

end KeyTree

end ModalKeys
