import ModalKeys.Proofs.Keymap.Numbering
import ModalKeys.Proofs.Keymap.Ownership

/-!
# What configurations compile to

A keymap is `Built` for an object if its keys are bound as the last entries for them say, and the
keymaps for the objects among its entries are built in turn. Compilation builds every keymap under
the number of its place, and later steps leave it alone: they only add to the keymaps that enclose
it, and take numbers that are greater.
-/

namespace ModalKeys

variable {σ β γ : Type}

namespace Config

/-! ## Single values -/

theorem bind_eq_ok {ε α β : Type} {x : Except ε α} {f : α → Except ε β} {b : β}
    (h : x >>= f = .ok b) : ∃ a, x = .ok a ∧ f a = .ok b := by
  cases x with
  | error e => cases h
  | ok a => exact ⟨a, rfl, h⟩

theorem mapError_eq_ok {ε ε' α : Type} {f : ε → ε'} {x : Except ε α} {a : α}
    (h : x.mapError f = .ok a) : x = .ok a := by
  cases x with
  | error e => cases h
  | ok b =>
      cases h
      rfl

theorem run_eq_ok {x : Compiler σ β} {f : β → Compiler σ γ} {s s' : Store (Action σ)} {c : γ}
    (h : (x >>= f).result s = .ok (c, s')) :
    ∃ b s₁, x.result s = .ok (b, s₁) ∧ (f b).result s₁ = .ok (c, s') := by
  rw [Compiler.result_bind] at h
  obtain ⟨⟨b, s₁⟩, hx, hf⟩ := bind_eq_ok h
  exact ⟨b, s₁, hx, hf⟩

theorem located_eq_ok {path : List String} {r : Except ConfigFault β} {f : β → Compiler σ γ}
    {s s' : Store (Action σ)} {c : γ} (h : (located path r >>= f).result s = .ok (c, s')) :
    ∃ b, r = .ok b ∧ (f b).result s = .ok (c, s') := by
  cases r with
  | error fault => cases h
  | ok b => exact ⟨b, rfl, h⟩

theorem describe_eq_ok {name : String} {fault : Json → ConfigFault}
    {members : List (String × Json)} {found : Option String}
    (h : describe name fault members = .ok found) : found = text name members := by
  unfold describe at h
  unfold text
  split at h
  · next hm =>
      cases h
      rw [hm]
      rfl
  · next hm =>
      cases h
      rw [hm]
      rfl
  · cases h

theorem reference_eq_ok {enclosing : List KeymapId} {n : JsonNumber} {target : KeymapId}
    (h : reference enclosing n = .ok target) :
    enclosing[(n.toInt64?.getD 0).natAbs]? = some target := by
  unfold reference at h
  split at h
  · cases h
  · next i hi =>
      split at h
      · cases h
      · split at h
        · next found hf =>
            cases h
            rw [hi]
            exact hf
        · cases h

theorem command_eq_ok {members : List (String × Json)} {a : Action σ}
    (h : command members = .ok a) : a = describedCommand members := by
  unfold command at h
  unfold describedCommand text
  split at h
  · next name hn =>
      rw [hn]
      split at h
      · cases h
      · split at h
        · next ha =>
            cases h
            rw [ha]
            rfl
        · next ha =>
            cases h
            rw [ha]
            rfl
        · next ha =>
            cases h
            rw [ha]
            rfl
        · next ha =>
            cases h
            rw [ha]
            rfl
        · cases h
  · cases h

mutual

theorem action_eq_ok : (v : Json) → {a : Action σ} → action v = .ok a → a = described v
  | .string name, a, h => by
      rw [action] at h
      split at h
      · cases h
      · cases h
        rfl
  | .object members, a, h => by
      rw [action] at h
      exact command_eq_ok h
  | .array items, a, h => by
      rw [action] at h
      cases ha : actions items with
      | error fault =>
          rw [ha] at h
          cases h
      | ok as =>
          rw [ha] at h
          cases h
          rw [described, ← actions_eq_ok items ha]
  | .null, a, h => by cases h
  | .bool b, a, h => by cases h
  | .number n, a, h => by cases h
termination_by structural v => v

theorem actions_eq_ok : (vs : List Json) → {as : List (Action σ)} → actions vs = .ok as →
    as = describedItems vs
  | [], as, h => by
      cases h
      rfl
  | v :: vs, as, h => by
      rw [actions] at h
      obtain ⟨a, ha, h⟩ := bind_eq_ok h
      obtain ⟨rest, hr, h⟩ := bind_eq_ok h
      cases h
      rw [describedItems, action_eq_ok v ha, actions_eq_ok vs hr]
termination_by structural vs => vs

end

theorem taggedAction_eq_ok {path : List String} {v : Json} {s s' : Store (Action σ)}
    {slot : Slot (Action σ)} (h : (taggedAction path v).result s = .ok (slot, s')) :
    slot = .bound (.action s.next (described v)) ∧ s' = s.freshTag.2 := by
  obtain ⟨act, ha, h⟩ := located_eq_ok h
  rw [← action_eq_ok v ha]
  cases h
  exact ⟨rfl, rfl⟩

theorem describedKeymap_eq_ok {path : List String} {members : List (String × Json)}
    {s s' : Store (Action σ)} {km : KeymapId}
    (h : (describedKeymap path members).result s = .ok (km, s')) :
    km = s.next ∧ s' = (s.create (text "id" members) (text "help" members)).2 := by
  obtain ⟨id, hid, h⟩ := located_eq_ok h
  obtain ⟨help, hhelp, h⟩ := located_eq_ok h
  rw [← describe_eq_ok hid, ← describe_eq_ok hhelp]
  cases h
  exact ⟨rfl, rfl⟩

/-! ## Built keymaps -/

/-- The slot for a value that uses the numbers from `n` on. -/
def Represents (enclosing : List KeymapId) (n : Nat) (v : Json) (slot : Slot (Action σ)) : Prop :=
  match meaning v with
  | .keymap _ => slot = .bound (.keymap n)
  | .back levels => ∃ target, enclosing[levels]? = some target ∧ slot = .aliasOf target
  | .action => slot = .bound (.action n (described v))

/-- A key is bound by the last of some entries that binds it, where the first entry uses the numbers
from `n` on. A key that none of them binds is bound to `otherwise`. -/
def BoundBy (enclosing : List KeymapId) (n : Nat) (members : List (String × Json)) (key : Char)
    (otherwise found : Option (Slot (Action σ))) : Prop :=
  match lastBinding? key members with
  | none => found = otherwise
  | some (i, v) => ∃ slot, found = some slot ∧
      Represents enclosing (n + weights (members.take i)) v slot

/-- The keymap of that number is the one for an object, and so are the keymaps for what is in it. -/
inductive Built (s : Store (Action σ)) : List KeymapId → Nat → List (String × Json) → Prop
  | mk {enclosing : List KeymapId} {id : Nat} {members : List (String × Json)}
      {km : Keymap (Action σ)} :
      s.keymap? id = some km → km.id = text "id" members → km.help = text "help" members →
      (∀ key, BoundBy (id :: enclosing) (id + 1) members key none (km.slots.get? key)) →
      (∀ i name v inner, members[i]? = some (name, v) → isReserved name = false →
        meaning v = .keymap inner →
        Built s (id :: enclosing) (id + 1 + weights (members.take i)) inner) →
      Built s enclosing id members

/-- A keymap stays as it was built if none of the numbers that it uses is touched. -/
theorem Built.of_agree {s t : Store (Action σ)} {enclosing : List KeymapId} {id : Nat}
    {members : List (String × Json)} (h : Built s enclosing id members)
    (agree : ∀ k : Nat, id ≤ k → k < id + 1 + weights members → t.keymap? k = s.keymap? k) :
    Built t enclosing id members := by
  induction h with
  | @mk enclosing id members km hkm hid hhelp hkeys _ ih =>
      refine .mk ?_ hid hhelp hkeys ?_
      · rw [agree id (Nat.le_refl id) (by omega), hkm]
      · intro i name v inner hm hn hv
        refine ih i name v inner hm hn hv ?_
        intro k hlo hhi
        -- what an entry uses is part of what the object uses
        have succ := weights_take_succ hm hn
        have all := weights_take_le_weights members (i + 1)
        have inside := weight_of_keymap hv
        exact agree k (by omega) (by omega)

/-- What compiling a value does. -/
structure Compiled (enclosing : List KeymapId) (s : Store (Action σ)) (v : Json)
    (slot : Slot (Action σ)) (s' : Store (Action σ)) : Prop where
  next : s'.next = s.next + weight v
  frame : ∀ k : Nat, k < s.next → s'.keymap? k = s.keymap? k
  slot : Represents enclosing s.next v slot
  inner : ∀ members, meaning v = .keymap members → Built s' enclosing s.next members

/-- What compiling some entries of a keymap does. -/
structure Filled (km : Nat) (enclosing : List KeymapId) (s : Store (Action σ))
    (node : Keymap (Action σ)) (members : List (String × Json)) (s' : Store (Action σ)) : Prop where
  next : s'.next = s.next + weights members
  frame : ∀ k : Nat, k < s.next → k ≠ km → s'.keymap? k = s.keymap? k
  node : ∃ node', s'.keymap? km = some node' ∧ node'.id = node.id ∧ node'.help = node.help ∧
    ∀ key, BoundBy (km :: enclosing) s.next members key (node.slots.get? key) (node'.slots.get? key)
  inner : ∀ i name v inner, members[i]? = some (name, v) → isReserved name = false →
    meaning v = .keymap inner →
    Built s' (km :: enclosing) (s.next + weights (members.take i)) inner

theorem compiled_of_tagged {enclosing : List KeymapId} {s s' : Store (Action σ)} {v : Json}
    {slot : Slot (Action σ)} {path : List String} (hv : meaning v = .action)
    (h : (taggedAction path v).result s = .ok (slot, s')) : Compiled enclosing s v slot s' := by
  obtain ⟨rfl, rfl⟩ := taggedAction_eq_ok h
  refine ⟨?_, fun _ _ => rfl, ?_, ?_⟩
  · rw [weight_of_action hv]
    rfl
  · rw [Represents, hv]
  · intro members hm
    cases hv.symm.trans hm

/-! ## Entries -/

theorem binds_of_keys {name : String} {keys : List Char} (hn : isReserved name = false)
    (hk : KeySpec.keys name = .ok keys) (key : Char) (v : Json) :
    binds key (name, v) = keys.contains key := by
  rw [binds, hn, hk]
  rfl

theorem lastBinding?_singleton (key : Char) (m : String × Json) :
    lastBinding? key [m] = if binds key m then some (0, m.2) else none := rfl

theorem filled_of_reserved {km : Nat} {enclosing : List KeymapId} {s : Store (Action σ)}
    {node : Keymap (Action σ)} {name : String} {v : Json} (hkm : s.keymap? km = some node)
    (hn : isReserved name = true) : Filled km enclosing s node [(name, v)] s := by
  refine ⟨?_, fun _ _ _ => rfl, ⟨node, hkm, rfl, rfl, ?_⟩, ?_⟩
  · simp [weights, entryWeight, hn]
  · intro key
    have hb : binds key (name, v) = false := by rw [binds, hn]; rfl
    rw [BoundBy, lastBinding?_singleton, hb]
    rfl
  · intro i name' v' inner hm hn'
    cases i with
    | zero =>
        cases hm
        rw [hn] at hn'
        cases hn'
    | succ i => cases hm

/-- The keys of one entry share the slot for its value. -/
theorem Compiled.filled {km : Nat} {enclosing : List KeymapId} {s s₁ : Store (Action σ)}
    {node : Keymap (Action σ)} {name : String} {v : Json} {keys : List Char}
    {slot : Slot (Action σ)} (h : Compiled (km :: enclosing) s v slot s₁)
    (hkm : s.keymap? km = some node) (lt : km < s.next) (hn : isReserved name = false)
    (hk : KeySpec.keys name = .ok keys) :
    Filled km enclosing s node [(name, v)] (s₁.putAll km keys slot) := by
  have other : ∀ k : Nat, k ≠ km → (s₁.putAll km keys slot).keymap? k = s₁.keymap? k := by
    intro k hne
    rw [Store.putAll, Store.keymap?_modify, if_neg hne]
  refine ⟨?_, ?_, ?_, ?_⟩
  · show s₁.next = _
    rw [h.next]
    simp [weights, entryWeight, hn]
  · intro k hlt hne
    rw [other k hne, h.frame k hlt]
  · refine ⟨{ node with slots := keys.foldl (·.put · slot) node.slots }, ?_, rfl, rfl, ?_⟩
    · rw [Store.putAll, Store.keymap?_modify, if_pos rfl, h.frame km lt, hkm]
      rfl
    · intro key
      rw [BoundBy, lastBinding?_singleton, binds_of_keys hn hk, Slots.get?_foldl_put]
      by_cases hkey : key ∈ keys
      · rw [if_pos (List.contains_iff_mem.2 hkey), if_pos hkey]
        exact ⟨slot, rfl, h.slot⟩
      · rw [if_neg (mt List.contains_iff_mem.1 hkey), if_neg hkey]
  · intro i name' v' inner hm _ hv
    cases i with
    | succ i => cases hm
    | zero =>
        cases hm
        refine (h.inner inner hv).of_agree ?_
        intro k hlo _
        exact other k (by omega)

/-- The first entry and then the others. -/
theorem Filled.cons {km : Nat} {enclosing : List KeymapId} {s s₁ s' : Store (Action σ)}
    {node : Keymap (Action σ)} {m : String × Json} {ms : List (String × Json)}
    (first : Filled km enclosing s node [m] s₁) (lt : km < s.next)
    (rest : ∀ node₁, s₁.keymap? km = some node₁ → Filled km enclosing s₁ node₁ ms s') :
    Filled km enclosing s node (m :: ms) s' := by
  obtain ⟨node₁, hkm₁, hid₁, hhelp₁, hkeys₁⟩ := first.node
  have rest := rest node₁ hkm₁
  obtain ⟨node', hkm', hid', hhelp', hkeys'⟩ := rest.node
  have next : s₁.next = s.next + entryWeight m := by
    rw [first.next]
    rfl
  refine ⟨?_, ?_, ⟨node', hkm', hid'.trans hid₁, hhelp'.trans hhelp₁, ?_⟩, ?_⟩
  · rw [rest.next, next, weights, Nat.add_assoc]
  · intro k hlt hne
    rw [rest.frame k (by omega) hne, first.frame k hlt hne]
  · intro key
    have h₁ := hkeys₁ key
    have h' := hkeys' key
    rw [BoundBy] at h'
    rw [BoundBy, lastBinding?]
    cases hl : lastBinding? key ms with
    | some found =>
        -- a later entry binds the key, so the first one does not matter
        rw [hl] at h'
        obtain ⟨slot, hs, hr⟩ := h'
        refine ⟨slot, hs, ?_⟩
        rw [next, Nat.add_assoc] at hr
        exact hr
    | none =>
        -- the later entries leave the key as the first one has bound it, if it has
        rw [hl] at h'
        rw [BoundBy, lastBinding?_singleton] at h₁
        by_cases hb : binds key m
        · rw [if_pos hb] at h₁ ⊢
          obtain ⟨slot, hs, hr⟩ := h₁
          exact ⟨slot, h'.trans hs, hr⟩
        · rw [if_neg hb] at h₁ ⊢
          exact h'.trans h₁
  · intro i name v inner hm hn hv
    cases i with
    | zero =>
        -- the other entries change the enclosing keymap only, and what they create is newer
        refine (first.inner 0 name v inner hm hn hv).of_agree ?_
        intro k hlo hhi
        have start : weights (List.take 0 [m]) = 0 := rfl
        have uses : entryWeight m = 1 + weights inner := by
          cases hm
          rw [entryWeight, hn, weight_of_keymap hv]
          rfl
        exact rest.frame k (by omega) (by omega)
    | succ i =>
        have h := rest.inner i name v inner hm hn hv
        rw [next, Nat.add_assoc] at h
        exact h

/-- A new keymap that has been filled with the entries of an object is built. -/
theorem Filled.built {enclosing : List KeymapId} {s s' : Store (Action σ)}
    {members : List (String × Json)}
    (h : Filled s.next enclosing (s.create (text "id" members) (text "help" members)).2
      ⟨text "id" members, text "help" members, .empty⟩ members s') :
    Built s' enclosing s.next members := by
  obtain ⟨node, hkm, hid, hhelp, hkeys⟩ := h.node
  refine .mk hkm hid hhelp ?_ h.inner
  intro key
  have hk := hkeys key
  rwa [Slots.get?_empty] at hk

/-! ## Whole configurations -/

mutual

theorem compiled_of_value (v : Json) {enclosing : List KeymapId} {path : List String}
    {s s' : Store (Action σ)} {slot : Slot (Action σ)}
    (h : (value enclosing path v).result s = .ok (slot, s')) : Compiled enclosing s v slot s' := by
  cases v with
  | null => cases h
  | bool b => cases h
  | number n =>
      rw [value] at h
      obtain ⟨target, ht, h⟩ := located_eq_ok h
      cases h
      refine ⟨rfl, fun _ _ => rfl, ⟨target, reference_eq_ok ht, rfl⟩, ?_⟩
      intro members hm
      cases hm
  | string name =>
      rw [value] at h
      exact compiled_of_tagged rfl h
  | array items =>
      rw [value] at h
      exact compiled_of_tagged rfl h
  | object members =>
      rw [value] at h
      split at h
      · next hc => exact compiled_of_tagged (if_pos hc) h
      · next hc =>
          have hv : meaning (.object members) = .keymap members := if_neg hc
          obtain ⟨km, s₁, hd, h⟩ := run_eq_ok h
          obtain ⟨_, s₂, he, h⟩ := run_eq_ok h
          rw [Compiler.result_pure] at h
          cases h
          -- the keymap is created before its entries are compiled, so it has the first number
          obtain ⟨rfl, rfl⟩ := describedKeymap_eq_ok hd
          have filled := filled_of_entries members (Store.keymap?_create_self s _ _)
            (Nat.lt_succ_self s.next) he
          refine ⟨?_, ?_, ?_, ?_⟩
          · rw [filled.next, weight_of_keymap hv, ← Nat.add_assoc]
            rfl
          · intro k hlt
            have hne : k ≠ s.next := Nat.ne_of_lt hlt
            rw [filled.frame k (Nat.lt_succ_of_lt hlt) hne, Store.keymap?_create, if_neg hne]
          · rw [Represents, hv]
          · intro inner hi
            cases hv.symm.trans hi
            exact filled.built
termination_by structural v

theorem filled_of_entries (ms : List (String × Json)) {km : Nat} {enclosing : List KeymapId}
    {path : List String} {s s' : Store (Action σ)} {node : Keymap (Action σ)}
    (hkm : s.keymap? km = some node) (lt : km < s.next)
    (h : (entries km enclosing path ms).result s = .ok ((), s')) :
    Filled km enclosing s node ms s' := by
  cases ms with
  | nil =>
      cases h
      refine ⟨rfl, fun _ _ _ => rfl, ⟨node, hkm, rfl, rfl, fun _ => rfl⟩, ?_⟩
      intro i name v inner hm
      cases hm
  | cons m ms =>
      rw [entries] at h
      obtain ⟨_, s₁, hm, h⟩ := run_eq_ok h
      have first := filled_of_entry m hkm lt hm
      refine first.cons lt ?_
      intro node₁ hkm₁
      exact filled_of_entries ms hkm₁ (by rw [first.next]; omega) h
termination_by structural ms

theorem filled_of_entry (m : String × Json) {km : Nat} {enclosing : List KeymapId}
    {path : List String} {s s' : Store (Action σ)} {node : Keymap (Action σ)}
    (hkm : s.keymap? km = some node) (lt : km < s.next)
    (h : (entry km enclosing path m).result s = .ok ((), s')) :
    Filled km enclosing s node [m] s' := by
  obtain ⟨name, v⟩ := m
  rw [entry] at h
  split at h
  · next hn =>
      cases h
      exact filled_of_reserved hkm hn
  · next hn =>
      obtain ⟨keys, hk, h⟩ := located_eq_ok h
      obtain ⟨slot, s₁, hv, h⟩ := run_eq_ok h
      cases h
      have compiled := compiled_of_value v hv
      exact compiled.filled hkm lt (Bool.eq_false_iff.2 hn) (mapError_eq_ok hk)
termination_by structural m

end

end Config

/-- A configuration that compiles is an object, and its keymap is built. -/
theorem Store.built_of_compile {s s' : Store (Action σ)} {config : Json} {root : KeymapId}
    (h : s.compile config = .ok (root, s')) :
    ∃ members, config = .object members ∧ Config.Built s' [] root members := by
  cases config with
  | object members =>
      obtain ⟨km, s₁, hd, h⟩ := Config.run_eq_ok h
      obtain ⟨_, s₂, he, h⟩ := Config.run_eq_ok h
      cases h
      obtain ⟨rfl, rfl⟩ := Config.describedKeymap_eq_ok hd
      have filled := Config.filled_of_entries members (keymap?_create_self s _ _)
        (Nat.lt_succ_self s.next) he
      exact ⟨members, rfl, filled.built⟩
  | _ => cases h

end ModalKeys
