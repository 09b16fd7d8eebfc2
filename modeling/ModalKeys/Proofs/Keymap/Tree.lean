import ModalKeys.Proofs.Keymap.Merging

/-!
# Key trees

A trie of keymaps as a plain value: a node has the identifier of a keymap, and a key may lead from it
to a further node or to a leaf. A store *spans* a tree if it has the keymaps of the tree, with the
keys that the tree says. A leaf is a slot, and where it is bound to a keymap that keymap is not part of
the tree.

Trees are merged key by key. Whatever happens to a store, it goes on to span a tree as long as none of
the keymaps of the tree is changed.
-/

namespace ModalKeys

variable {α : Type}

/-- What a slot leads to, as long as that is there. -/
def Slot.binding : Slot α → Binding α
  | bound binding => binding
  | aliasOf id => .keymap id

/-- A tree of keymaps. -/
inductive KeyTree (α : Type) where
  | leaf (slot : Slot α)
  | node (id : KeymapId) (child : Char → Option (KeyTree α))

namespace KeyTree

/-- Induction with a hypothesis for what each key leads to. -/
theorem induct {P : KeyTree α → Prop} (leaf : ∀ slot, P (leaf slot))
    (node : ∀ id child, (∀ key t, child key = some t → P t) → P (node id child)) (t : KeyTree α) :
    P t := by
  refine @KeyTree.rec α P (fun o => ∀ t, o = some t → P t) leaf ?_ ?_ ?_ t
  · intro id child ih
    exact node id child ih
  · intro t h
    cases h
  · intro t ht u hu
    cases hu
    exact ht

/-! ## Parts of a tree -/

/-- How a key is bound that leads to a tree. -/
def slot : KeyTree α → Slot α
  | leaf slot => slot
  | node id _ => .bound (.keymap id)

/-- What such a key leads to. -/
def binding (t : KeyTree α) : Binding α := t.slot.binding

/-- What a key leads to in a tree. -/
def child? : KeyTree α → Char → Option (KeyTree α)
  | leaf _, _ => none
  | node _ child, key => child key

/-- What some keys lead to in a tree. -/
def at? (t : KeyTree α) : List Char → Option (KeyTree α)
  | [] => some t
  | key :: keys => (t.child? key).bind fun u => u.at? keys

/-- The keymaps of a tree. -/
def Mem (t : KeyTree α) (id : KeymapId) : Prop := ∃ keys child, t.at? keys = some (node id child)

/-- No keymap stands in two places. -/
def Unshared (t : KeyTree α) : Prop :=
  ∀ keys keys' id child child', t.at? keys = some (node id child) →
    t.at? keys' = some (node id child') → keys = keys'

/-- The leaves are actions. -/
def EndsInActions (t : KeyTree α) : Prop :=
  ∀ keys slot, t.at? keys = some (leaf slot) → ∃ tag act, slot = .bound (.action tag act)

theorem at?_node_cons (id : KeymapId) (child : Char → Option (KeyTree α)) (key : Char)
    (keys : List Char) : (node id child).at? (key :: keys) = (child key).bind (·.at? keys) := rfl

theorem at?_append (t : KeyTree α) (keys more : List Char) :
    t.at? (keys ++ more) = (t.at? keys).bind (·.at? more) := by
  induction keys generalizing t with
  | nil => rfl
  | cons key keys ih =>
      cases h : t.child? key with
      | none => simp [at?, h]
      | some u => simpa [at?, h] using ih u

theorem at?_of_child {id : KeymapId} {child : Char → Option (KeyTree α)} {key : Char}
    {t : KeyTree α} (h : child key = some t) (keys : List Char) :
    (node id child).at? (key :: keys) = t.at? keys := by
  rw [at?_node_cons, h]
  rfl

theorem mem_node {id x : KeymapId} {child : Char → Option (KeyTree α)} :
    (node id child).Mem x ↔ x = id ∨ ∃ key t, child key = some t ∧ t.Mem x := by
  constructor
  · rintro ⟨_ | ⟨key, keys⟩, grand, h⟩
    · cases h
      exact Or.inl rfl
    · obtain ⟨t, ht, h⟩ := Option.bind_eq_some_iff.1 h
      exact Or.inr ⟨key, t, ht, keys, grand, h⟩
  · rintro (rfl | ⟨key, t, ht, keys, grand, h⟩)
    · exact ⟨[], child, rfl⟩
    · exact ⟨key :: keys, grand, (at?_of_child ht keys).trans h⟩

theorem mem_self (id : KeymapId) (child : Char → Option (KeyTree α)) : (node id child).Mem id :=
  ⟨[], child, rfl⟩

theorem Mem.of_child {id x : KeymapId} {child : Char → Option (KeyTree α)} {key : Char}
    {t : KeyTree α} (hc : child key = some t) (h : t.Mem x) : (node id child).Mem x :=
  mem_node.2 (Or.inr ⟨key, t, hc, h⟩)

/-! ## Trees without sharing -/

section Unshared

variable {id : KeymapId} {child : Char → Option (KeyTree α)} {key key' : Char} {t t' : KeyTree α}

theorem Unshared.of_child (h : (node id child).Unshared) (hc : child key = some t) : t.Unshared := by
  intro keys keys' x grand grand' hx hx'
  have := h (key :: keys) (key :: keys') x grand grand' ((at?_of_child hc keys).trans hx)
    ((at?_of_child hc keys').trans hx')
  exact (List.cons.inj this).2

theorem Unshared.not_mem_child (h : (node id child).Unshared) (hc : child key = some t) :
    ¬t.Mem id := by
  rintro ⟨keys, grand, hx⟩
  cases h [] (key :: keys) id child grand rfl ((at?_of_child hc keys).trans hx)

theorem Unshared.key_eq (h : (node id child).Unshared) (hc : child key = some t)
    (hc' : child key' = some t') {x : KeymapId} (hx : t.Mem x) (hx' : t'.Mem x) : key = key' := by
  obtain ⟨keys, grand, hx⟩ := hx
  obtain ⟨keys', grand', hx'⟩ := hx'
  have := h (key :: keys) (key' :: keys') x grand grand' ((at?_of_child hc keys).trans hx)
    ((at?_of_child hc' keys').trans hx')
  exact (List.cons.inj this).1

theorem unshared_empty (id : KeymapId) :
    (node id fun _ => none : KeyTree α).Unshared := by
  rintro (_ | ⟨key, keys⟩) (_ | ⟨key', keys'⟩) x grand grand' hx hx'
  · rfl
  · cases hx'
  · cases hx
  · cases hx

/-- A tree whose keymaps stand where they stand in another one. -/
theorem Unshared.of_subset {t u : KeyTree α} (h : u.Unshared)
    (sub : ∀ keys id child, t.at? keys = some (node id child) →
      ∃ child', u.at? keys = some (node id child')) : t.Unshared := by
  intro keys keys' id child child' hx hx'
  obtain ⟨grand, hx⟩ := sub keys id child hx
  obtain ⟨grand', hx'⟩ := sub keys' id child' hx'
  exact h keys keys' id grand grand' hx hx'

theorem EndsInActions.of_child (h : (node id child).EndsInActions) (hc : child key = some t) :
    t.EndsInActions :=
  fun keys slot hx => h (key :: keys) slot ((at?_of_child hc keys).trans hx)

end Unshared

/-! ## The pure merge -/

mutual

/-- Merges a tree into another one. A key that both bind to a node leads to the merged nodes, and else
the incoming tree goes first. -/
def merge (ours : KeyTree α) : KeyTree α → KeyTree α
  | leaf slot => leaf slot
  | node b theirs =>
    match ours with
    | leaf _ => node b theirs
    | node a child => node a fun key => mergeAt (child key) (theirs key)
termination_by structural t => t

def mergeAt (ours : Option (KeyTree α)) : Option (KeyTree α) → Option (KeyTree α)
  | none => ours
  | some theirs =>
    match ours with
    | none => some theirs
    | some t => some (merge t theirs)
termination_by structural t => t

end

theorem merge_node (a b : KeymapId) (child theirs : Char → Option (KeyTree α)) :
    merge (node a child) (node b theirs) = node a fun key => mergeAt (child key) (theirs key) := rfl

theorem merge_leaf_left (slot : Slot α) (u : KeyTree α) : merge (leaf slot) u = u := by
  cases u <;> rfl

/-- What keys lead to in a merged tree comes from one tree, or from both and is merged itself. -/
theorem at?_merge {t u v : KeyTree α} {keys : List Char} (h : (merge t u).at? keys = some v) :
    t.at? keys = some v ∨ u.at? keys = some v ∨
      ∃ t' u', t.at? keys = some t' ∧ u.at? keys = some u' ∧ v = merge t' u' := by
  induction keys generalizing t u with
  | nil =>
      cases h
      exact Or.inr (Or.inr ⟨t, u, rfl, rfl, rfl⟩)
  | cons key keys ih =>
      cases t with
      | leaf slot =>
          rw [merge_leaf_left] at h
          exact Or.inr (Or.inl h)
      | node a child =>
          cases u with
          | leaf slot => exact Or.inr (Or.inl h)
          | node b theirs =>
              rw [merge_node, at?_node_cons] at h
              rw [at?_node_cons, at?_node_cons]
              cases ht : theirs key with
              | none =>
                  rw [ht] at h
                  exact Or.inl h
              | some u' =>
                  rw [ht] at h
                  cases hc : child key with
                  | none =>
                      rw [hc] at h
                      exact Or.inr (Or.inl h)
                  | some t' =>
                      rw [hc] at h
                      exact ih h

theorem at?_merge_node {t u : KeyTree α} {keys : List Char} {id : KeymapId}
    {child : Char → Option (KeyTree α)} (h : (merge t u).at? keys = some (node id child)) :
    (∃ child', t.at? keys = some (node id child')) ∨
      ∃ child', u.at? keys = some (node id child') := by
  rcases at?_merge h with ht | hu | ⟨t', u', ht, hu, hv⟩
  · exact Or.inl ⟨child, ht⟩
  · exact Or.inr ⟨child, hu⟩
  · cases u' with
    | leaf slot => cases hv
    | node b theirs =>
        cases t' with
        | leaf slot =>
            cases hv
            exact Or.inr ⟨child, hu⟩
        | node a ours =>
            cases hv
            exact Or.inl ⟨ours, ht⟩

theorem mem_merge {t u : KeyTree α} {id : KeymapId} (h : (merge t u).Mem id) :
    t.Mem id ∨ u.Mem id := by
  obtain ⟨keys, child, h⟩ := h
  exact (at?_merge_node h).imp (fun ⟨child', h⟩ => ⟨keys, child', h⟩)
    fun ⟨child', h⟩ => ⟨keys, child', h⟩

theorem unshared_merge {t u : KeyTree α} (ht : t.Unshared) (hu : u.Unshared)
    (apart : ∀ id, t.Mem id → ¬u.Mem id) : (merge t u).Unshared := by
  intro keys keys' id child child' h h'
  rcases at?_merge_node h with ⟨c, hc⟩ | ⟨c, hc⟩
  · rcases at?_merge_node h' with ⟨c', hc'⟩ | ⟨c', hc'⟩
    · exact ht keys keys' id c c' hc hc'
    · exact absurd ⟨keys', c', hc'⟩ (apart id ⟨keys, c, hc⟩)
  · rcases at?_merge_node h' with ⟨c', hc'⟩ | ⟨c', hc'⟩
    · exact absurd ⟨keys, c, hc⟩ (apart id ⟨keys', c', hc'⟩)
    · exact hu keys keys' id c c' hc hc'

theorem endsInActions_merge {t u : KeyTree α} (ht : t.EndsInActions) (hu : u.EndsInActions) :
    (merge t u).EndsInActions := by
  intro keys slot h
  rcases at?_merge h with h | h | ⟨t', u', h, h', hv⟩
  · exact ht keys slot h
  · exact hu keys slot h
  · cases u' with
    | leaf slot =>
        cases hv
        exact hu keys slot h'
    | node b theirs =>
        cases t' with
        | leaf slot => cases hv
        | node a ours => cases hv

end KeyTree

namespace Store

open KeyTree

/-! ## Trees in a store -/

/-- The keymaps of a tree are there and have its keys. -/
def Spans (s : Store α) (t : KeyTree α) : Prop :=
  ∀ keys id child, t.at? keys = some (node id child) →
    s.alive id ∧ ∀ key, s.slot? id key = (child key).map slot

theorem spans_node {s : Store α} {id : KeymapId} {child : Char → Option (KeyTree α)} :
    s.Spans (node id child) ↔ (s.alive id ∧ ∀ key, s.slot? id key = (child key).map slot) ∧
      ∀ key t, child key = some t → s.Spans t := by
  constructor
  · intro h
    refine ⟨h [] id child rfl, ?_⟩
    intro key t hc keys x grand hx
    exact h (key :: keys) x grand ((at?_of_child hc keys).trans hx)
  · rintro ⟨self, below⟩ (_ | ⟨key, keys⟩) x grand hx
    · cases hx
      exact self
    · obtain ⟨t, hc, hx⟩ := Option.bind_eq_some_iff.1 hx
      exact below key t hc keys x grand hx

theorem spans_empty {s : Store α} {id : KeymapId} (alive : s.alive id)
    (keys : ∀ key, s.slot? id key = none) : s.Spans (node id fun _ => none) := by
  refine spans_node.2 ⟨⟨alive, keys⟩, ?_⟩
  intro key t h
  cases h

theorem spans_leaf (s : Store α) (slot : Slot α) : s.Spans (leaf slot) := by
  rintro (_ | ⟨key, keys⟩) id child h
  · cases h
  · cases h

theorem alive_of_agree {s s' : Store α} {id : KeymapId} (h : s'.keymap? id = s.keymap? id) :
    s'.alive id = s.alive id := by
  rw [Bool.eq_iff_iff, alive_iff, alive_iff, h]

theorem slot?_of_agree {s s' : Store α} {id : KeymapId} (h : s'.keymap? id = s.keymap? id)
    (key : Char) : s'.slot? id key = s.slot? id key := by
  rw [slot?, slot?, h]

theorem Spans.of_agree {s s' : Store α} {t : KeyTree α} (h : s.Spans t)
    (agree : ∀ id, t.Mem id → s'.keymap? id = s.keymap? id) : s'.Spans t := by
  intro keys id child hx
  have same := agree id ⟨keys, child, hx⟩
  obtain ⟨alive, keys⟩ := h keys id child hx
  refine ⟨(alive_of_agree same).trans alive, ?_⟩
  intro key
  rw [slot?_of_agree same, keys]

/-- A node owns those that its keys lead to. -/
theorem Spans.ownedAt {s : Store α} {id next : KeymapId} {child grand : Char → Option (KeyTree α)}
    {key : Char} (h : s.Spans (node id child)) (hc : child key = some (node next grand)) :
    ∃ km, s.keymap? id = some km ∧ km.slots.ownedAt? key = some next := by
  have hs := (spans_node.1 h).1.2 key
  rw [hc] at hs
  obtain ⟨km, hkm, hk⟩ := slot?_eq_some_iff.1 hs
  refine ⟨km, hkm, ?_⟩
  rw [Slots.ownedAt?, hk]
  rfl

/-- A node and what is below some of its keys stay as long as the node does. -/
theorem Spans.supported_below {s : Store α} {roots : List KeymapId} {id : KeymapId}
    {child : Char → Option (KeyTree α)} (h : s.Spans (node id child)) (hid : id ∈ roots)
    (P : Char → Prop) :
    s.Supported roots fun x => x = id ∨ ∃ key t, P key ∧ child key = some t ∧ t.Mem x := by
  rintro x (rfl | ⟨key, t, hP, hc, keys, grand, hx⟩)
  · exact Or.inl hid
  · right
    rcases List.eq_nil_or_concat keys with rfl | ⟨init, last, rfl⟩
    · cases hx
      obtain ⟨km, hkm, hk⟩ := h.ownedAt hc
      exact ⟨id, km, key, Or.inl rfl, hkm, hk⟩
    · -- the owner is the node before the last key
      rw [List.concat_eq_append, at?_append] at hx
      obtain ⟨u, hu, hx⟩ := Option.bind_eq_some_iff.1 hx
      cases u with
      | leaf slot => cases hx
      | node owner between =>
          have spans : s.Spans (node owner between) := by
            intro keys x grand hx
            refine (spans_node.1 h).2 key t hc (init ++ keys) x grand ?_
            rw [at?_append, hu]
            exact hx
          obtain ⟨v, hv, hx⟩ := Option.bind_eq_some_iff.1 hx
          cases hx
          obtain ⟨km, hkm, hk⟩ := spans.ownedAt hv
          exact ⟨owner, km, last, Or.inr ⟨key, t, hP, hc, init, between, hu⟩, hkm, hk⟩

theorem Spans.supported {s : Store α} {roots : List KeymapId} {id : KeymapId}
    {child : Char → Option (KeyTree α)} (h : s.Spans (node id child)) (hid : id ∈ roots) :
    s.Supported roots (node id child).Mem := by
  have below := h.supported_below hid fun _ => True
  intro x hx
  have same : ∀ y, (node id child).Mem y ↔
      (y = id ∨ ∃ key t, True ∧ child key = some t ∧ t.Mem y) := by
    intro y
    simp only [mem_node, true_and]
  obtain hr | ⟨owner, km, key, ho, hkm, hk⟩ := below x ((same x).1 hx)
  · exact Or.inl hr
  · exact Or.inr ⟨owner, km, key, (same owner).2 ho, hkm, hk⟩

theorem walk_of_lookup {s : Store α} {id next : KeymapId} {key : Char}
    (h : s.lookup id key = some (.keymap next)) (keys : List Char) :
    s.walk id (key :: keys) = s.walk next keys := by
  rw [walk, h]

/-- Walking a tree in a store. -/
theorem Spans.walk_eq {s : Store α} {id : KeymapId} {child : Char → Option (KeyTree α)}
    (h : s.Spans (node id child)) (actions : (node id child).EndsInActions) (keys : List Char) :
    s.walk id keys = ((node id child).at? keys).map binding := by
  induction keys generalizing id child with
  | nil =>
      rw [walk, if_pos (spans_node.1 h).1.1]
      rfl
  | cons key keys ih =>
      have hs := (spans_node.1 h).1.2 key
      rw [at?_node_cons]
      cases hc : child key with
      | none =>
          rw [walk, lookup, hs, hc]
          rfl
      | some t =>
          rw [hc] at hs
          have spans := (spans_node.1 h).2 key t hc
          have ends := actions.of_child hc
          cases t with
          | leaf slot =>
              obtain ⟨tag, act, rfl⟩ := ends [] slot rfl
              rw [walk, lookup, hs]
              cases keys <;> rfl
          | node next grand =>
              have there : s.lookup id key = some (.keymap next) := by
                rw [lookup, hs]
                exact if_pos (spans_node.1 spans).1.1
              rw [walk_of_lookup there]
              exact ih spans ends

/-- Keymaps of a tree are what the topmost one owns. -/
theorem Spans.mem_of_owns {s : Store α} {id x : KeymapId} {child : Char → Option (KeyTree α)}
    (h : s.Spans (node id child)) (actions : (node id child).EndsInActions) (ho : s.Owns id x) :
    (node id child).Mem x := by
  induction ho with
  | self => exact mem_self id child
  | @step y next km key _ hkm hk ih =>
      obtain ⟨keys, grand, hy⟩ := ih
      have hs := (h keys y grand hy).2 key
      rw [slot?_eq hkm] at hs
      rw [Slots.ownedAt?, hs] at hk
      cases hc : grand key with
      | none =>
          rw [hc] at hk
          cases hk
      | some t =>
          rw [hc] at hk
          have ht : (node id child).at? (keys ++ [key]) = some t := by
            rw [at?_append, hy, Option.bind_some, at?_node_cons, hc]
            rfl
          cases t with
          | leaf slot =>
              obtain ⟨tag, act, rfl⟩ := actions _ slot ht
              cases hk
          | node z grand' =>
              cases hk
              exact ⟨_, grand', ht⟩

theorem Spans.owns_of_at? {s : Store α} {id x : KeymapId} {child grand : Char → Option (KeyTree α)}
    {keys : List Char} (h : s.Spans (node id child))
    (hx : (node id child).at? keys = some (node x grand)) : s.Owns id x := by
  induction keys generalizing id child with
  | nil =>
      cases hx
      exact .self
  | cons key keys ih =>
      obtain ⟨t, hc, hx⟩ := Option.bind_eq_some_iff.1 hx
      cases t with
      | leaf slot => cases keys <;> cases hx
      | node next below =>
          obtain ⟨km, hkm, hk⟩ := h.ownedAt hc
          exact (Owns.step .self hkm hk).trans (ih ((spans_node.1 h).2 key _ hc) hx)

/-- What a tree has is what the topmost keymap owns. -/
theorem Spans.mem_iff_owns {s : Store α} {id x : KeymapId} {child : Char → Option (KeyTree α)}
    (h : s.Spans (node id child)) (actions : (node id child).EndsInActions) :
    (node id child).Mem x ↔ s.Owns id x :=
  ⟨fun ⟨_, _, hx⟩ => h.owns_of_at? hx, h.mem_of_owns actions⟩

end Store

end ModalKeys
