import ModalKeys.Proofs.Keymap.Compilation
import ModalKeys.Proofs.Keymap.Treelike

/-!
# Configurations that compile to trees

Without back references, and with each nested keymap under a single key, a configuration compiles to a
tree of new keymaps.
-/

namespace ModalKeys

variable {σ : Type}

namespace Config

/-- As far as keys lead, no value is a back reference and no two keys share a keymap. -/
inductive Plain : List (String × Json) → Prop
  | mk {members : List (String × Json)} :
      (∀ key i v n, lastBinding? key members = some (i, v) → meaning v ≠ .back n) →
      (∀ key key' i v v' inner, lastBinding? key members = some (i, v) → meaning v = .keymap inner →
        lastBinding? key' members = some (i, v') → key = key') →
      (∀ key i v inner, lastBinding? key members = some (i, v) → meaning v = .keymap inner →
        Plain inner) →
      Plain members

/-! ## A check -/

/-- Whether a name stands for one key. -/
def isSingleKey (name : String) : Bool :=
  match KeySpec.keys name with
  | .ok [_] => true
  | _ => false

mutual

/-- Whether a value has no back references, and all keymaps in it are under single keys. -/
def isPlain : Json → Bool
  | .number _ => false
  | .object members => if Json.hasMember "command" members then true else arePlain members
  | .null => true
  | .bool _ => true
  | .string _ => true
  | .array _ => true
termination_by structural v => v

def arePlain : List (String × Json) → Bool
  | [] => true
  | m :: ms => entryIsPlain m && arePlain ms
termination_by structural ms => ms

def entryIsPlain : String × Json → Bool
  | (name, v) => if isReserved name then true else isPlain v &&
      match meaning v with
      | .keymap _ => isSingleKey name
      | _ => true
termination_by structural m => m

end

theorem eq_of_isSingleKey {name : String} {v v' : Json} {key key' : Char}
    (h : isSingleKey name) (hb : binds key (name, v)) (hb' : binds key' (name, v')) :
    key = key' := by
  unfold isSingleKey at h
  unfold binds at hb hb'
  split at h
  · next only hk =>
      simp only [hk, Bool.and_eq_true, List.contains_iff_mem, List.mem_singleton] at hb hb'
      exact hb.2.trans hb'.2.symm
  · cases h

theorem plain_of_entries {members : List (String × Json)}
    (h : ∀ m ∈ members, isReserved m.1 = false → (∀ n, meaning m.2 ≠ .back n) ∧
      ∀ inner, meaning m.2 = .keymap inner → isSingleKey m.1 ∧ Plain inner) : Plain members := by
  have entry {key : Char} {i : Nat} {v : Json} (hl : lastBinding? key members = some (i, v)) :
      ∃ name, members[i]? = some (name, v) ∧ binds key (name, v) ∧ (∀ n, meaning v ≠ .back n) ∧
        ∀ inner, meaning v = .keymap inner → isSingleKey name ∧ Plain inner := by
    obtain ⟨name, hm, hb, -⟩ := lastBinding?_eq_some hl
    exact ⟨name, hm, hb, h _ (List.mem_of_getElem? hm) (isReserved_of_binds hb)⟩
  refine .mk ?_ ?_ ?_
  · intro key i v n hl
    obtain ⟨name, -, -, noBack, -⟩ := entry hl
    exact noBack n
  · intro key key' i v v' inner hl hv hl'
    obtain ⟨name, hm, hb, -, single⟩ := entry hl
    obtain ⟨name', hm', hb', -⟩ := entry hl'
    cases hm.symm.trans hm'
    exact eq_of_isSingleKey (single inner hv).1 hb hb'
  · intro key i v inner hl hv
    obtain ⟨name, -, -, -, single⟩ := entry hl
    exact (single inner hv).2

mutual

theorem plain_of_isPlain (v : Json) (h : isPlain v) :
    (∀ n, meaning v ≠ .back n) ∧ ∀ inner, meaning v = .keymap inner → Plain inner := by
  cases v with
  | number n => cases h
  | object members =>
      rw [isPlain] at h
      rw [meaning]
      split
      · exact ⟨fun n hm => (nomatch hm), fun inner hm => (nomatch hm)⟩
      · next hc =>
          rw [if_neg hc] at h
          refine ⟨fun n hm => (nomatch hm), fun inner hm => ?_⟩
          cases hm
          exact plain_of_entries fun m hm hr => plain_of_arePlain members h m hm hr
  | _ => exact ⟨fun n hm => (nomatch hm), fun inner hm => (nomatch hm)⟩
termination_by structural v

theorem plain_of_arePlain (ms : List (String × Json)) (h : arePlain ms) (m : String × Json)
    (hm : m ∈ ms) (hr : isReserved m.1 = false) : (∀ n, meaning m.2 ≠ .back n) ∧
      ∀ inner, meaning m.2 = .keymap inner → isSingleKey m.1 ∧ Plain inner := by
  cases ms with
  | nil => cases hm
  | cons first rest =>
      rw [arePlain, Bool.and_eq_true] at h
      rcases List.mem_cons.1 hm with heq | hm
      · rw [heq] at hr ⊢
        exact plain_of_entryIsPlain first h.1 hr
      · exact plain_of_arePlain rest h.2 m hm hr
termination_by structural ms

theorem plain_of_entryIsPlain (m : String × Json) (h : entryIsPlain m)
    (hr : isReserved m.1 = false) : (∀ n, meaning m.2 ≠ .back n) ∧
      ∀ inner, meaning m.2 = .keymap inner → isSingleKey m.1 ∧ Plain inner := by
  obtain ⟨name, v⟩ := m
  rw [entryIsPlain, if_neg (Bool.eq_false_iff.1 hr), Bool.and_eq_true] at h
  obtain ⟨noBack, inside⟩ := plain_of_isPlain v h.1
  refine ⟨noBack, fun inner hv => ⟨?_, inside inner hv⟩⟩
  have single := h.2
  rw [show meaning v = .keymap inner from hv] at single
  exact single
termination_by structural m

end

/-- The check is right. -/
theorem plain_of_check {members : List (String × Json)} (h : arePlain members) : Plain members :=
  plain_of_entries fun m hm hr => plain_of_arePlain members h m hm hr

open KeyTree

/-- A tree for the value of an entry, whose keymaps have the numbers of the entry. -/
structure Sprouts (s : Store (Action σ)) (start : Nat) (v : Json) (t : KeyTree (Action σ)) : Prop where
  spans : s.Spans t
  ends : t.EndsInActions
  unshared : t.Unshared
  bounds : ∀ x : Nat, t.Mem x → start ≤ x ∧ x < start + weight v
  keymap : ∀ x, t.Mem x → ∃ inner, meaning v = .keymap inner

theorem not_mem_leaf (slot : Slot (Action σ)) (x : KeymapId) : ¬(leaf slot).Mem x := by
  rintro ⟨_ | ⟨key, keys⟩, child, h⟩
  · cases h
  · cases h

theorem sprouts_action (s : Store (Action σ)) (start : Nat) (v : Json) (tag : Nat)
    (act : Action σ) : Sprouts s start v (leaf (.bound (.action tag act))) where
  spans := Store.spans_leaf _ _
  ends := endsInActions_leaf tag act
  unshared keys _ id child _ h := (not_mem_leaf _ id ⟨keys, child, h⟩).elim
  bounds x hx := (not_mem_leaf _ x hx).elim
  keymap x hx := (not_mem_leaf _ x hx).elim

/-- The keymaps below different keys have numbers of different entries. -/
theorem unshared_node {id : Nat} {members : List (String × Json)} {s : Store (Action σ)}
    {child : Char → Option (KeyTree (Action σ))} (plain : Plain members)
    (h : ∀ key t, child key = some t → ∃ i v, lastBinding? key members = some (i, v) ∧
      Sprouts s (id + 1 + weights (members.take i)) v t) : (node id child).Unshared := by
  obtain ⟨-, once, -⟩ := plain
  rintro (_ | ⟨key, keys⟩) (_ | ⟨key', keys'⟩) x grand grand' hx hx'
  · rfl
  · obtain ⟨t, hc, hx'⟩ := Option.bind_eq_some_iff.1 hx'
    obtain ⟨i, v, -, sprouts⟩ := h key' t hc
    have bounds := (sprouts.bounds x ⟨keys', grand', hx'⟩).1
    cases hx
    omega
  · obtain ⟨t, hc, hx⟩ := Option.bind_eq_some_iff.1 hx
    obtain ⟨i, v, -, sprouts⟩ := h key t hc
    have bounds := (sprouts.bounds x ⟨keys, grand, hx⟩).1
    cases hx'
    omega
  · obtain ⟨t, hc, hx⟩ := Option.bind_eq_some_iff.1 hx
    obtain ⟨t', hc', hx'⟩ := Option.bind_eq_some_iff.1 hx'
    obtain ⟨i, v, hl, sprouts⟩ := h key t hc
    obtain ⟨i', v', hl', sprouts'⟩ := h key' t' hc'
    have mem : t.Mem x := ⟨keys, grand, hx⟩
    have mem' : t'.Mem x := ⟨keys', grand', hx'⟩
    have bounds := sprouts.bounds x mem
    have bounds' := sprouts'.bounds x mem'
    -- an entry and a later one use different numbers
    have apart {i j : Nat} {k : Char} {w : Json} (hk : lastBinding? k members = some (i, w))
        (hij : i < j) :
        weights (members.take i) + weight w ≤ weights (members.take j) := by
      obtain ⟨name, hm, hb, -⟩ := lastBinding?_eq_some hk
      rw [← weights_take_succ hm (isReserved_of_binds hb)]
      exact weights_take_le members hij
    obtain ⟨inner, hv⟩ := sprouts.keymap x mem
    rcases Nat.lt_trichotomy i i' with hlt | rfl | hgt
    · have := apart hl hlt
      omega
    · obtain rfl := once key key' i v v' inner hl hv hl'
      cases hc.symm.trans hc'
      rw [sprouts.unshared keys keys' x grand grand' hx hx']
    · have := apart hl' hgt
      omega

/-- What is built for a plain configuration is a tree. -/
theorem Built.exists_spans {s : Store (Action σ)} {enclosing : List KeymapId} {id : Nat}
    {members : List (String × Json)} (h : Built s enclosing id members) (plain : Plain members) :
    ∃ child, s.Spans (node id child) ∧ (node id child).EndsInActions ∧
      (node id child).Unshared ∧
      ∀ x : Nat, (node id child).Mem x → id ≤ x ∧ x < id + 1 + weights members := by
  induction h with
  | @mk enclosing id members km hkm hid hhelp hkeys hinner ih =>
    obtain ⟨noBack, once, inside⟩ := plain
    have at_key (key : Char) : ∃ o : Option (KeyTree (Action σ)),
        s.slot? id key = o.map slot ∧
        ∀ t, o = some t → ∃ i v, lastBinding? key members = some (i, v) ∧
          Sprouts s (id + 1 + weights (members.take i)) v t := by
      have hk := hkeys key
      rw [BoundBy] at hk
      rw [Store.slot?_eq hkm]
      cases hl : lastBinding? key members with
      | none =>
          rw [hl] at hk
          refine ⟨none, hk, ?_⟩
          intro t ht
          cases ht
      | some found =>
          obtain ⟨i, v⟩ := found
          rw [hl] at hk
          obtain ⟨slot, hs, hr⟩ := hk
          obtain ⟨name, hm, hb, -⟩ := lastBinding?_eq_some hl
          rw [hs]
          rw [Represents] at hr
          cases hv : meaning v with
          | back n => exact absurd hv (noBack key i v n hl)
          | action =>
              rw [hv] at hr
              refine ⟨some (leaf slot), rfl, ?_⟩
              intro t ht
              cases ht
              rw [hr]
              exact ⟨i, v, rfl, sprouts_action ..⟩
          | keymap inner =>
              rw [hv] at hr
              obtain ⟨grand, spans, ends, unshared, bounds⟩ :=
                ih i name v inner hm (isReserved_of_binds hb) hv (inside key i v inner hl hv)
              refine ⟨some (node _ grand), congrArg some hr, ?_⟩
              intro t ht
              cases ht
              refine ⟨i, v, rfl, spans, ends, unshared, ?_, fun _ _ => ⟨inner, hv⟩⟩
              intro x hx
              have := bounds x hx
              rw [weight_of_keymap hv]
              omega
    choose child hslot hchild using at_key
    refine ⟨child, ?_, ?_, ?_, ?_⟩
    · refine Store.spans_node.2 ⟨⟨Store.alive_of_keymap? hkm, hslot⟩, ?_⟩
      intro key t ht
      obtain ⟨i, v, -, sprouts⟩ := hchild key t ht
      exact sprouts.spans
    · refine endsInActions_node fun key t ht => ?_
      obtain ⟨i, v, -, sprouts⟩ := hchild key t ht
      exact sprouts.ends
    · exact unshared_node (.mk noBack once inside) hchild
    · intro x hx
      rcases mem_node.1 hx with rfl | ⟨key, t, ht, hx⟩
      · omega
      · obtain ⟨i, v, hl, sprouts⟩ := hchild key t ht
        obtain ⟨name, hm, hb, -⟩ := lastBinding?_eq_some hl
        have bounds := sprouts.bounds x hx
        have succ := weights_take_succ hm (isReserved_of_binds hb)
        have all := weights_take_le_weights members (i + 1)
        omega

end Config

end ModalKeys
