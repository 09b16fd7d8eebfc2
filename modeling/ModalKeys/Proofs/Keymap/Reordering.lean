import Mathlib.Data.Char
import Mathlib.Data.List.Forall2
import Mathlib.Data.List.Pairwise
import Mathlib.Data.List.Sort
import ModalKeys.Proofs.Keymap.Diagnosis
import ModalKeys.Proofs.Keymap.Merging
import ModalKeys.Proofs.Keymap.Refinement

/-!
# The order of entries

The order of the entries of a keymap tells which of two overlapping key specs wins, and nothing else. When
no key is bound by two entries of an object, the entries can be put in another order, in any of the objects
that stand for keymaps: the configuration compiles if it did before, and every key sequence leads to the
same. Where something stands is told here by the configuration keys that lead to it, which do not depend on
the order.
-/

namespace ModalKeys

variable {σ : Type}

namespace Config

/-! ## Configurations in another order -/

mutual

/-- Two values that differ at most in the order of the entries of keymaps. -/
inductive Permuted : Json → Json → Prop
  | same (v : Json) : Permuted v v
  | keymap {members members' : List (String × Json)} : Json.hasMember "command" members = false →
      PermutedEntries members members' → Permuted (.object members) (.object members')

/-- The entries of two keymaps that are the same up to their order, and up to the order of entries within
their values. -/
inductive PermutedEntries : List (String × Json) → List (String × Json) → Prop
  | nil : PermutedEntries [] []
  | cons {name : String} {v v' : Json} {ms ms' : List (String × Json)} : Permuted v v' →
      PermutedEntries ms ms' → PermutedEntries ((name, v) :: ms) ((name, v') :: ms')
  | swap (m m' : String × Json) (ms : List (String × Json)) :
      PermutedEntries (m :: m' :: ms) (m' :: m :: ms)
  | trans {ms₁ ms₂ ms₃ : List (String × Json)} : PermutedEntries ms₁ ms₂ →
      PermutedEntries ms₂ ms₃ → PermutedEntries ms₁ ms₃

end

/-- Two configurations that differ at most in the order of the entries of keymaps. The outermost object is
always a keymap. -/
def Reordered : Json → Json → Prop
  | .object members, .object members' => PermutedEntries members members'
  | v, v' => v = v'

/-- The keys that the name of an entry stands for. -/
def specKeys : String × Json → List Char
  | (name, _) => if isReserved name then [] else (KeySpec.keys name).toOption.getD []

/-- The entries of an object have different names, as in every object that has been read, and no two of
them bind the same key. -/
structure Separate (members : List (String × Json)) : Prop where
  names : (members.map (·.1)).Nodup
  keys : members.Pairwise fun m m' => ∀ key ∈ specKeys m, key ∉ specKeys m'

/-- In every object that stands for a keymap the entries are separate. -/
def AllSeparate (members : List (String × Json)) : Prop :=
  ∀ path inner, Nested members path inner → Separate inner

/-- The same for a whole configuration. -/
def NoOverlaps (config : Json) : Prop := ∀ members, config = .object members → AllSeparate members

/-! ## Entries in another order -/

theorem PermutedEntries.refl (ms : List (String × Json)) : PermutedEntries ms ms := by
  induction ms with
  | nil => exact .nil
  | cons m ms ih => exact .cons (.same m.2) ih

theorem PermutedEntries.names {ms ms' : List (String × Json)} :
    PermutedEntries ms ms' → (ms.map (·.1)).Perm (ms'.map (·.1))
  | .nil => .nil
  | @PermutedEntries.cons name _ _ _ _ _ rest => rest.names.cons name
  | .swap m m' ms => (List.Perm.swap m' m ms).map (·.1)
  | .trans first second => first.names.trans second.names

theorem hasMember_iff {name : String} {ms : List (String × Json)} :
    Json.hasMember name ms ↔ name ∈ ms.map (·.1) := by
  induction ms with
  | nil => simp [Json.hasMember, Json.member?]
  | cons m ms ih =>
      rw [Json.hasMember] at ih
      rw [Json.hasMember, Json.member?, List.map_cons, List.mem_cons]
      split
      · next same => simp [same]
      · next other =>
          rw [ih, or_iff_right (Ne.symm other)]

theorem PermutedEntries.hasMember {ms ms' : List (String × Json)} (h : PermutedEntries ms ms')
    (name : String) : Json.hasMember name ms' = Json.hasMember name ms := by
  rw [Bool.eq_iff_iff, hasMember_iff, hasMember_iff]
  exact h.names.mem_iff.symm

mutual

theorem Permuted.symm {v v' : Json} : Permuted v v' → Permuted v' v
  | .same v => .same v
  | .keymap keymap entries => .keymap ((entries.hasMember _).trans keymap) entries.symm

theorem PermutedEntries.symm {ms ms' : List (String × Json)} :
    PermutedEntries ms ms' → PermutedEntries ms' ms
  | .nil => .nil
  | .cons value rest => .cons value.symm rest.symm
  | .swap m m' ms => .swap m' m ms
  | .trans first second => second.symm.trans first.symm

end

theorem Permuted.trans {v₁ v₂ v₃ : Json} (h : Permuted v₁ v₂) (h' : Permuted v₂ v₃) :
    Permuted v₁ v₃ := by
  cases h with
  | same => exact h'
  | keymap keymap entries =>
      cases h' with
      | same => exact .keymap keymap entries
      | keymap _ entries' => exact .keymap keymap (entries.trans entries')

/-- Every entry is there in the other order. -/
theorem PermutedEntries.exists_mem {ms ms' : List (String × Json)} {name : String} {v : Json} :
    PermutedEntries ms ms' → (name, v) ∈ ms → ∃ v', (name, v') ∈ ms' ∧ Permuted v v'
  | .nil, hm => nomatch hm
  | .cons value rest, hm => by
      rcases List.mem_cons.1 hm with heq | hm
      · cases heq
        exact ⟨_, List.mem_cons_self, value⟩
      · obtain ⟨w, hw, permuted⟩ := rest.exists_mem hm
        exact ⟨w, List.mem_cons_of_mem _ hw, permuted⟩
  | .swap m m' ms, hm => ⟨v, (List.Perm.swap m' m ms).mem_iff.1 hm, .same v⟩
  | .trans first second, hm => by
      obtain ⟨w, hw, permuted⟩ := first.exists_mem hm
      obtain ⟨w', hw', permuted'⟩ := second.exists_mem hw
      exact ⟨w', hw', permuted.trans permuted'⟩

/-- A value that takes further keys goes on doing so, and all others stay as they are. -/
theorem Permuted.cases_meaning {v v' : Json} (h : Permuted v v') :
    (∃ inner inner', meaning v = .keymap inner ∧ meaning v' = .keymap inner' ∧
      PermutedEntries inner inner') ∨
    (v' = v ∧ ∀ inner, meaning v ≠ .keymap inner) := by
  cases h with
  | same =>
      cases hv : meaning v with
      | keymap inner => exact Or.inl ⟨inner, inner, rfl, rfl, .refl inner⟩
      | back levels => exact Or.inr ⟨rfl, nofun⟩
      | action => exact Or.inr ⟨rfl, nofun⟩
  | @keymap members members' keymap entries =>
      refine Or.inl ⟨members, members', ?_, ?_, entries⟩
      · rw [meaning, if_neg (Bool.eq_false_iff.1 keymap)]
      · rw [meaning, if_neg (Bool.eq_false_iff.1 ((entries.hasMember _).trans keymap))]

/-! ## Members -/

theorem member?_eq_some_iff {ms : List (String × Json)} (names : (ms.map (·.1)).Nodup)
    {name : String} {v : Json} : Json.member? name ms = some v ↔ (name, v) ∈ ms := by
  induction ms with
  | nil => simp [Json.member?]
  | cons m ms ih =>
      obtain ⟨other, w⟩ := m
      rw [List.map_cons, List.nodup_cons] at names
      rw [Json.member?, List.mem_cons, ← ih names.2]
      split
      · next same =>
          subst same
          have absent : Json.member? other ms ≠ some v := by
            intro h
            exact names.1 (List.mem_map_of_mem (f := (·.1)) ((ih names.2).1 h))
          simp [absent, eq_comm]
      · next other => simp [Ne.symm other]

theorem PermutedEntries.member? {ms ms' : List (String × Json)} (h : PermutedEntries ms ms')
    (names : (ms.map (·.1)).Nodup) (name : String) :
    (Json.member? name ms = none ∧ Json.member? name ms' = none) ∨
    ∃ v v', Json.member? name ms = some v ∧ Json.member? name ms' = some v' ∧ Permuted v v' := by
  have names' : (ms'.map (·.1)).Nodup := h.names.nodup_iff.1 names
  cases hv : Json.member? name ms with
  | none =>
      refine Or.inl ⟨rfl, ?_⟩
      have same := h.hasMember name
      rw [Json.hasMember, Json.hasMember, hv] at same
      exact Option.not_isSome_iff_eq_none.1 (by rw [same]; exact Bool.false_ne_true)
  | some v =>
      obtain ⟨v', hm, permuted⟩ := h.exists_mem ((member?_eq_some_iff names).1 hv)
      exact Or.inr ⟨v, v', rfl, (member?_eq_some_iff names').2 hm, permuted⟩

theorem PermutedEntries.text_eq {ms ms' : List (String × Json)} (h : PermutedEntries ms ms')
    (names : (ms.map (·.1)).Nodup) (name : String) : text name ms' = text name ms := by
  rw [text, text]
  rcases h.member? names name with ⟨hv, hv'⟩ | ⟨v, v', hv, hv', permuted⟩
  · rw [hv, hv']
  · rw [hv, hv']
    cases permuted <;> rfl

/-! ## What is wrong -/

theorem Nested.permuted {root root' members : List (String × Json)} {path : List String}
    (h : Nested root path members) (permuted : PermutedEntries root root') :
    ∃ members', Nested root' path members' ∧ PermutedEntries members members' := by
  induction h generalizing root' with
  | self => exact ⟨root', .self, permuted⟩
  | inside hm hn hv _ ih =>
      obtain ⟨v', hm', value⟩ := permuted.exists_mem hm
      rcases value.cases_meaning with ⟨inner, inner', hk, hk', entries⟩ | ⟨_, other⟩
      · cases hk.symm.trans hv
        obtain ⟨members', nested, result⟩ := ih entries
        exact ⟨members', .inside hm' hn hk' nested, result⟩
      · exact (other _ hv).elim

theorem keymapFaults_permuted {ms ms' : List (String × Json)} (h : PermutedEntries ms ms')
    (names : (ms.map (·.1)).Nodup) {fault : ConfigFault} (hf : fault ∈ keymapFaults ms) :
    ∃ fault', fault' ∈ keymapFaults ms' := by
  have faulty : ∀ (name : String) (make : Json → ConfigFault), fault ∈ textFaults name make ms →
      ∃ fault', fault' ∈ textFaults name make ms' := by
    intro name make hf
    unfold textFaults at hf ⊢
    rcases h.member? names name with ⟨hv, _⟩ | ⟨v, v', hv, hv', permuted⟩
    · rw [hv] at hf
      cases hf
    · rw [hv] at hf
      rw [hv']
      cases permuted with
      | same => exact ⟨fault, hf⟩
      | keymap => exact ⟨_, List.mem_singleton_self _⟩
  rcases List.mem_append.1 hf with hf | hf
  · obtain ⟨fault', hf'⟩ := faulty "id" _ hf
    exact ⟨fault', List.mem_append_left _ hf'⟩
  · obtain ⟨fault', hf'⟩ := faulty "help" _ hf
    exact ⟨fault', List.mem_append_right _ hf'⟩

/-- Names are told apart in every object that stands for a keymap. -/
def Named (members : List (String × Json)) : Prop :=
  ∀ path inner, Nested members path inner → (inner.map (·.1)).Nodup

theorem Named.permuted {root root' : List (String × Json)} (h : Named root)
    (permuted : PermutedEntries root root') : Named root' := by
  intro path inner' nested'
  obtain ⟨inner, nested, entries⟩ := nested'.permuted permuted.symm
  exact entries.names.nodup_iff.2 (h path inner nested)

/-- A configuration does not become right by another order. -/
theorem Faulty.permuted {around : Nat} {root root' : List (String × Json)} {e : ConfigError}
    (h : Faulty around root e) (permuted : PermutedEntries root root') (named : Named root) :
    ∃ e', Faulty around root' e' := by
  cases h with
  | keymap nested hf =>
      obtain ⟨members', nested', entries⟩ := nested.permuted permuted
      obtain ⟨fault', hf'⟩ := keymapFaults_permuted entries (named _ _ nested) hf
      exact ⟨_, .keymap nested' hf'⟩
  | key nested hm hn hf =>
      obtain ⟨members', nested', entries⟩ := nested.permuted permuted
      obtain ⟨v', hm', _⟩ := entries.exists_mem hm
      exact ⟨_, .key nested' hm' hn hf⟩
  | reference nested hm hn hf =>
      obtain ⟨members', nested', entries⟩ := nested.permuted permuted
      obtain ⟨v', hm', value⟩ := entries.exists_mem hm
      cases value
      exact ⟨_, .reference nested' hm' hn hf⟩
  | action nested hm hn hv hf =>
      obtain ⟨members', nested', entries⟩ := nested.permuted permuted
      obtain ⟨v', hm', value⟩ := entries.exists_mem hm
      rcases value.cases_meaning with ⟨inner, _, hk, _⟩ | ⟨rfl, _⟩
      · cases hk.symm.trans hv
      · exact ⟨_, .action nested' hm' hn hv hf⟩

/-! ## Following keys -/

theorem mem_specKeys {key : Char} {m : String × Json} : key ∈ specKeys m ↔ binds key m := by
  obtain ⟨name, v⟩ := m
  rw [specKeys, binds]
  cases isReserved name with
  | true => simp
  | false => cases KeySpec.keys name <;> simp [Except.toOption]

theorem Separate.eq_of_binds {ms : List (String × Json)} (h : Separate ms) {m m' : String × Json}
    (hm : m ∈ ms) (hm' : m' ∈ ms) {key : Char} (hb : binds key m) (hb' : binds key m') : m = m' := by
  by_contra differ
  have : Std.Symm fun m m' : String × Json => ∀ key ∈ specKeys m, key ∉ specKeys m' :=
    ⟨fun _ _ none key there here => none key here there⟩
  exact h.keys.forall hm hm' differ key (mem_specKeys.2 hb) (mem_specKeys.2 hb')

/-- The entries that bind a key have the same name, and values that differ at most in order. -/
theorem PermutedEntries.lastBinding? {ms ms' : List (String × Json)} (h : PermutedEntries ms ms')
    (separate : Separate ms) (key : Char) :
    (lastBinding? key ms = none ∧ lastBinding? key ms' = none) ∨
    ∃ i i' name v v', lastBinding? key ms = some (i, v) ∧ lastBinding? key ms' = some (i', v') ∧
      ms[i]? = some (name, v) ∧ ms'[i']? = some (name, v') ∧ isReserved name = false ∧
      Permuted v v' := by
  cases hl : Config.lastBinding? key ms with
  | none =>
      refine Or.inl ⟨rfl, ?_⟩
      cases hl' : Config.lastBinding? key ms' with
      | none => rfl
      | some found =>
          obtain ⟨name, hm', hb', _⟩ := lastBinding?_eq_some hl'
          obtain ⟨v, hm, _⟩ := h.symm.exists_mem (List.mem_of_getElem? hm')
          have unbound := lastBinding?_eq_none hl (name, v) hm
          exact (Bool.eq_false_iff.1 unbound hb').elim
  | some found =>
      obtain ⟨i, v⟩ := found
      obtain ⟨name, hm, hb, _⟩ := lastBinding?_eq_some hl
      obtain ⟨w', hw', _⟩ := h.exists_mem (List.mem_of_getElem? hm)
      cases hl' : Config.lastBinding? key ms' with
      | none =>
          have unbound := lastBinding?_eq_none hl' (name, w') hw'
          exact (Bool.eq_false_iff.1 unbound hb).elim
      | some found' =>
          obtain ⟨i', v'⟩ := found'
          obtain ⟨name', hm', hb', _⟩ := lastBinding?_eq_some hl'
          -- the entry that binds the key in the other order is the only one here that does
          obtain ⟨w, hw, permuted⟩ := h.symm.exists_mem (List.mem_of_getElem? hm')
          cases separate.eq_of_binds hw (List.mem_of_getElem? hm) hb' hb
          exact Or.inr ⟨i, i', name, v, v', rfl, rfl, hm, hm', isReserved_of_binds hb,
            permuted.symm⟩

/-! ## Where things stand -/

/-- The configuration keys along a path. -/
def spelled : List (String × Json) → List Nat → List String
  | _, [] => []
  | members, i :: path =>
    match members[i]? with
    | none => []
    | some (name, v) =>
      match meaning v with
      | .keymap inner => name :: spelled inner path
      | _ => [name]

section Spelled

variable {members inner : List (String × Json)} {i : Nat} {name : String} {v w : Json}
  {path : List Nat}

theorem spelled_entry (hm : members[i]? = some (name, v)) : spelled members [i] = [name] := by
  rw [spelled, hm]
  dsimp only
  split <;> rfl

theorem spelled_inside (hm : members[i]? = some (name, v)) (hv : meaning v = .keymap inner)
    (path : List Nat) : spelled members (i :: path) = name :: spelled inner path := by
  rw [spelled, hm]
  dsimp only
  rw [hv]

theorem spelled_append (h : Leads members path v) (hv : meaning v = .keymap inner)
    (hi : inner[i]? = some (name, w)) :
    spelled members (path ++ [i]) = spelled members path ++ [name] := by
  induction h with
  | entry hm _ =>
      rw [List.singleton_append, spelled_inside hm hv, spelled_entry hi, spelled_entry hm]
      rfl
  | inside hm _ hk _ ih =>
      rw [List.cons_append, spelled_inside hm hk, spelled_inside hm hk, ih hv]
      rfl

theorem Stands.spelled_append {place : Place} (h : Stands members place)
    (hi : place.members[i]? = some (name, w)) :
    spelled members (place.path ++ [i]) = spelled members place.path ++ [name] := by
  rcases h with rfl | ⟨v, hl, hv⟩
  · exact spelled_entry hi
  · exact Config.spelled_append hl hv hi

theorem spelled_ne_nil (h : Leads members path v) : spelled members path ≠ [] := by
  cases h with
  | entry hm _ =>
      rw [spelled_entry hm]
      exact List.cons_ne_nil _ _
  | inside hm _ hk _ =>
      rw [spelled_inside hm hk]
      exact List.cons_ne_nil _ _

/-- Entries with the same name stand in the same place. -/
theorem position_unique {ms : List (String × Json)} (names : (ms.map (·.1)).Nodup) {i j : Nat}
    {name : String} {v w : Json} (hi : ms[i]? = some (name, v)) (hj : ms[j]? = some (name, w)) :
    i = j := by
  have named : ∀ {k : Nat} {u : Json}, ms[k]? = some (name, u) →
      (ms.map (·.1))[k]? = some name := by
    intro k u hk
    rw [List.getElem?_map, hk]
    rfl
  obtain ⟨inside, _⟩ := List.getElem?_eq_some_iff.1 (named hi)
  exact (List.getElem?_inj inside names).1 ((named hi).trans (named hj).symm)

/-- Different places are told apart by the configuration keys that lead to them. -/
theorem spelled_injective {p q : List Nat} (named : Named members) (hp : Leads members p v)
    (hq : Leads members q w) (h : spelled members p = spelled members q) : p = q := by
  induction hp generalizing q with
  | @entry members i name v hm _ =>
      cases hq with
      | entry hm' _ =>
          rw [spelled_entry hm, spelled_entry hm'] at h
          cases h
          rw [position_unique (named [] members .self) hm hm']
      | inside hm' _ hk' hq =>
          rw [spelled_entry hm, spelled_inside hm' hk'] at h
          exact (spelled_ne_nil hq (List.cons.inj h).2.symm).elim
  | @inside members inner i name u v path hm hn hk hp ih =>
      cases hq with
      | entry hm' _ =>
          rw [spelled_inside hm hk, spelled_entry hm'] at h
          exact (spelled_ne_nil hp (List.cons.inj h).2).elim
      | inside hm' _ hk' hq =>
          rw [spelled_inside hm hk, spelled_inside hm' hk'] at h
          obtain ⟨rfl, rest⟩ := List.cons.inj h
          obtain rfl := position_unique (named [] members .self) hm hm'
          cases hm.symm.trans hm'
          cases hk.symm.trans hk'
          have inside : Named inner := fun path _ nested =>
            named (name :: path) _ (.inside (List.mem_of_getElem? hm) hn hk nested)
          rw [ih inside hq rest]

theorem Stands.path_eq_of_spelled_eq {p q : Place} (named : Named members)
    (hp : Stands members p) (hq : Stands members q)
    (h : spelled members p.path = spelled members q.path) : p.path = q.path := by
  rcases hp with rfl | ⟨v, hp, _⟩
  · rcases hq with rfl | ⟨w, hq, _⟩
    · rfl
    · exact (spelled_ne_nil hq h.symm).elim
  · rcases hq with rfl | ⟨w, hq, _⟩
    · exact (spelled_ne_nil hp h).elim
    · exact spelled_injective named hp hq h

end Spelled

/-! ## Both configurations side by side -/

/-- Two objects that stand at the same place in two configurations, and are the same up to order. -/
structure Counterpart (root root' : List (String × Json)) (place place' : Place) : Prop where
  stands : Stands root place
  stands' : Stands root' place'
  spelled : spelled root' place'.path = spelled root place.path
  entries : PermutedEntries place.members place'.members
  separate : AllSeparate place.members

/-- What keys lead to in the two configurations: nothing, objects at the same place, or equal values at the
same place. -/
inductive Meets (root root' : List (String × Json)) : Option Reached → Option Reached → Prop
  | nothing : Meets root root' none none
  | object {place place' : Place} : Counterpart root root' place place' →
      Meets root root' (some (.object place)) (some (.object place'))
  | action {path path' : List Nat} {v : Json} : Leads root path v → Leads root' path' v →
      spelled root' path' = spelled root path →
      Meets root root' (some (.action path v)) (some (.action path' v))

section Side

variable {root root' : List (String × Json)} {place place' : Place} {i i' : Nat} {name : String}
  {v v' : Json}

/-- Entries with the same name stand at the same place. -/
theorem Counterpart.entry (h : Counterpart root root' place place')
    (hm : place.members[i]? = some (name, v)) (hm' : place'.members[i']? = some (name, v'))
    (hn : isReserved name = false) :
    Leads root (place.path ++ [i]) v ∧ Leads root' (place'.path ++ [i']) v' ∧
      Config.spelled root' (place'.path ++ [i']) = Config.spelled root (place.path ++ [i]) := by
  refine ⟨h.stands.leads hm hn, h.stands'.leads hm' hn, ?_⟩
  rw [h.stands.spelled_append hm, h.stands'.spelled_append hm', h.spelled]

theorem meets_follow {places places' : List Place}
    (h : List.Forall₂ (Counterpart root root') places places') (keys : List Char) :
    Meets root root' (follow places keys) (follow places' keys) := by
  induction keys generalizing places places' with
  | nil =>
      cases h with
      | nil => exact .nothing
      | cons innermost _ =>
          rw [follow, follow]
          exact .object innermost
  | cons key rest ih =>
      cases h with
      | nil => exact .nothing
      | @cons place place' outer outer' innermost enclosing =>
          rw [follow, follow]
          have separate := innermost.separate [] _ .self
          rcases innermost.entries.lastBinding? separate key with
            ⟨hl, hl'⟩ | ⟨i, i', name, v, v', hl, hl', hm, hm', hn, value⟩
          · rw [hl, hl']
            exact .nothing
          · rw [hl, hl']
            dsimp only
            obtain ⟨leads, leads', spelled⟩ := innermost.entry hm hm' hn
            rcases value.cases_meaning with ⟨inner, inner', hv, hv', entries⟩ | ⟨rfl, other⟩
            · rw [hv, hv']
              refine ih (.cons ?_ (.cons innermost enclosing))
              exact {
                stands := Or.inr ⟨v, leads, hv⟩
                stands' := Or.inr ⟨v', leads', hv'⟩
                spelled := spelled
                entries := entries
                separate := fun path _ nested => innermost.separate (name :: path) _
                  (.inside (List.mem_of_getElem? hm) hn hv nested) }
            · cases hv : meaning v' with
              | keymap inner => exact (other inner hv).elim
              | back levels =>
                  -- as many objects are left on either side
                  exact ih (List.forall₂_drop levels (.cons innermost enclosing))
              | action =>
                  dsimp only
                  split
                  · exact .action leads leads' spelled
                  · exact .nothing

end Side

/-- The places that two key sequences lead to are the same in both configurations, or in neither. -/
theorem Meets.occurrence_eq_iff {root root' : List (String × Json)} {r₁ r₂ r₁' r₂' : Reached}
    (named : Named root) (named' : Named root') (h₁ : Meets root root' (some r₁) (some r₁'))
    (h₂ : Meets root root' (some r₂) (some r₂')) :
    r₁.occurrence = r₂.occurrence ↔ r₁'.occurrence = r₂'.occurrence := by
  cases h₁ with
  | @object place₁ place₁' h₁ =>
      cases h₂ with
      | @object place₂ place₂' h₂ =>
          rw [Reached.occurrence, Reached.occurrence, Reached.occurrence, Reached.occurrence,
            Occurrence.object.injEq, Occurrence.object.injEq]
          constructor
          · intro same
            refine h₁.stands'.path_eq_of_spelled_eq named' h₂.stands' ?_
            rw [h₁.spelled, h₂.spelled, same]
          · intro same
            refine h₁.stands.path_eq_of_spelled_eq named h₂.stands ?_
            rw [← h₁.spelled, ← h₂.spelled, same]
      | action => constructor <;> intro same <;> cases same
  | @action path₁ path₁' v₁ leads₁ leads₁' spelled₁ =>
      cases h₂ with
      | object => constructor <;> intro same <;> cases same
      | @action path₂ path₂' v₂ leads₂ leads₂' spelled₂ =>
          rw [Reached.occurrence, Reached.occurrence, Reached.occurrence, Reached.occurrence,
            Occurrence.action.injEq, Occurrence.action.injEq]
          constructor
          · intro same
            refine spelled_injective named' leads₁' leads₂' ?_
            rw [spelled₁, spelled₂, same]
          · intro same
            refine spelled_injective named leads₁ leads₂ ?_
            rw [← spelled₁, ← spelled₂, same]

theorem AllSeparate.named {members : List (String × Json)} (h : AllSeparate members) :
    Named members :=
  fun path inner nested => (h path inner nested).names

/-- A configuration in another order has errors if and only if it has some in its own. -/
theorem errors_eq_nil_iff {config config' : Json} (reordered : Reordered config config')
    (apart : NoOverlaps config) : errors config = [] ↔ errors config' = [] := by
  unfold Reordered at reordered
  split at reordered
  · next members members' =>
      have named := (apart members rfl).named
      rw [List.eq_nil_iff_forall_not_mem, List.eq_nil_iff_forall_not_mem]
      constructor
      · intro right e' he'
        obtain ⟨e, he⟩ := ((mem_errors _ _).1 he' : Faulty 0 members' e').permuted reordered.symm
          (named.permuted reordered)
        exact right e ((mem_errors (.object members) e).2 he)
      · intro right e he
        obtain ⟨e', he'⟩ := ((mem_errors _ _).1 he : Faulty 0 members e).permuted reordered named
        exact right e' ((mem_errors (.object members') e').2 he')
  · rw [reordered]

/-! ## Keymaps side by side -/

/-- A keymap has the keys that the entries of its object bind. -/
theorem Tracks.mem_keys {s t : Store (Action σ)} {root : Nat} {members : List (String × Json)}
    {place : Place} {outer : List Place} {id : KeymapId} {ids : List KeymapId}
    (h : Tracks s root members (place :: outer) (id :: ids)) (kept : s.Retains root t) (key : Char) :
    key ∈ t.keys id ↔ (lastBinding? key place.members).isSome := by
  obtain ⟨km, hkm, _, _, hkeys⟩ := h.keymap?_eq kept
  have bound := hkeys key
  rw [Store.mem_keys, Store.slot?_eq hkm]
  rw [BoundBy] at bound
  cases hl : lastBinding? key place.members with
  | none =>
      rw [hl] at bound
      rw [bound]
      rfl
  | some found =>
      rw [hl] at bound
      obtain ⟨slot, hs, _⟩ := bound
      rw [hs]
      rfl

end Config

namespace Store

/-- The keys of a keymap are listed in increasing order. -/
theorem pairwise_keys {α : Type} (s : Store α) (id : KeymapId) :
    (s.keys id).Pairwise (· < ·) := by
  rw [keys, slots]
  split
  · next km _ =>
      rw [Slots.toList, Std.TreeMap.map_fst_toList_eq_keys]
      exact Std.TreeMap.ordered_keys.imp compare_lt_iff_lt.1
  · exact List.Pairwise.nil

/-- What keys lead to in two stores where only the numbers of keymaps and actions may differ: nothing,
equal actions, or keymaps with the same texts and the same keys. -/
inductive SameOutcome (t t' : Store (Action σ)) :
    Option (Binding (Action σ)) → Option (Binding (Action σ)) → Prop
  | nothing : SameOutcome t t' none none
  | action {tag tag' : Nat} {act : Action σ} :
      SameOutcome t t' (some (.action tag act)) (some (.action tag' act))
  | keymap {id id' : KeymapId} {km km' : Keymap (Action σ)} : t.keymap? id = some km →
      t'.keymap? id' = some km' → km'.id = km.id → km'.help = km.help → t'.keys id' = t.keys id →
      SameOutcome t t' (some (.keymap id)) (some (.keymap id'))

theorem sameOutcome_of_meets {s s' t t' : Store (Action σ)} {base base' : Nat}
    {root root' : List (String × Json)} {r r' : Option Config.Reached}
    {b b' : Option (Binding (Action σ))} (h : Config.Arrives s base root r b)
    (h' : Config.Arrives s' base' root' r' b') (kept : s.Retains base t)
    (kept' : s'.Retains base' t') (meets : Config.Meets root root' r r') :
    SameOutcome t t' b b' := by
  cases meets with
  | nothing =>
      cases h
      cases h'
      exact .nothing
  | @object place place' counterpart =>
      cases h with
      | object tracks =>
          cases h' with
          | object tracks' =>
              obtain ⟨km, hkm, hid, hhelp, _⟩ := tracks.keymap?_eq kept
              obtain ⟨km', hkm', hid', hhelp', _⟩ := tracks'.keymap?_eq kept'
              have separate := counterpart.separate [] _ .self
              refine .keymap hkm hkm' ?_ ?_ ?_
              · rw [hid', hid, counterpart.entries.text_eq separate.names]
              · rw [hhelp', hhelp, counterpart.entries.text_eq separate.names]
              · refine (t'.pairwise_keys _).eq_of_mem_iff (t.pairwise_keys _) ?_
                intro key
                rw [tracks'.mem_keys kept', tracks.mem_keys kept]
                rcases counterpart.entries.lastBinding? separate key with
                  ⟨hl, hl'⟩ | ⟨i, i', name, v, v', hl, hl', _⟩
                · rw [hl, hl']
                · rw [hl, hl']
                  exact Iff.rfl
  | action =>
      cases h
      cases h'
      exact .action

/-- The order of entries does not matter where they do not overlap. A configuration in another order
compiles if and only if it compiles in its own. Every key sequence then leads to the same in both, in all
stores in which the keymaps are kept; and two key sequences lead to one and the same keymap or action in
both of them, or in neither, whether the way goes by back references or not. -/
theorem compile_reordered {s s' : Store (Action σ)} {config config' : Json}
    (reordered : Config.Reordered config config') (apart : Config.NoOverlaps config) :
    ((∃ compiled, s.compile config = .ok compiled) ↔
      ∃ compiled, s'.compile config' = .ok compiled) ∧
    ∀ root root' built built' t t', s.compile config = .ok (root, built) →
      s'.compile config' = .ok (root', built') → built.Retains root t → built'.Retains root' t' →
      (∀ keys, SameOutcome t t' (t.walk root keys) (t'.walk root' keys)) ∧
      ∀ keys₁ keys₂ b₁ b₂ b₁' b₂', t.walk root keys₁ = some b₁ → t.walk root keys₂ = some b₂ →
        t'.walk root' keys₁ = some b₁' → t'.walk root' keys₂ = some b₂' →
        (b₁.same b₂ = true ↔ b₁'.same b₂' = true) := by
  constructor
  · rw [(Config.stops_compile s config).ok_iff, (Config.stops_compile s' config').ok_iff]
    exact Config.errors_eq_nil_iff reordered apart
  · intro root root' built built' t t' compiled compiled' kept kept'
    obtain ⟨members, rfl, arrives⟩ := exists_arrives compiled kept
    obtain ⟨members', rfl, arrives'⟩ := exists_arrives compiled' kept'
    have entries : Config.PermutedEntries members members' := reordered
    have separate := apart members rfl
    have outermost : Config.Counterpart members members' ⟨[], members⟩ ⟨[], members'⟩ :=
      ⟨Or.inl rfl, Or.inl rfl, rfl, entries, separate⟩
    have meets : ∀ keys, Config.Meets members members' (Config.interpret (.object members) keys)
        (Config.interpret (.object members') keys) :=
      fun keys => Config.meets_follow (.cons outermost .nil) keys
    refine ⟨fun keys => sameOutcome_of_meets (arrives keys) (arrives' keys) kept kept' (meets keys), ?_⟩
    intro keys₁ keys₂ b₁ b₂ b₁' b₂' hb₁ hb₂ hb₁' hb₂'
    have reached : ∀ {members : List (String × Json)} {base : Nat} {s : Store (Action σ)} {r b},
        Config.Arrives s base members r (some b) → ∃ x, r = some x := by
      intro members base s r b h
      cases h <;> exact ⟨_, rfl⟩
    obtain ⟨r₁, hr₁⟩ := reached (hb₁ ▸ arrives keys₁)
    obtain ⟨r₂, hr₂⟩ := reached (hb₂ ▸ arrives keys₂)
    obtain ⟨r₁', hr₁'⟩ := reached (hb₁' ▸ arrives' keys₁)
    obtain ⟨r₂', hr₂'⟩ := reached (hb₂' ▸ arrives' keys₂)
    have meets₁ := meets keys₁
    have meets₂ := meets keys₂
    rw [hr₁, hr₁'] at meets₁
    rw [hr₂, hr₂'] at meets₂
    rw [same_walk_iff compiled kept hr₁ hr₂ hb₁ hb₂,
      same_walk_iff compiled' kept' hr₁' hr₂' hb₁' hb₂']
    exact meets₁.occurrence_eq_iff separate.named (separate.named.permuted entries) meets₂

/-- The entries of the inner keymap are turned round as well, and so is the one that leads back out. -/
theorem compile_reordered_nested_back_reference :
    let config : Json := .object [
      ("a", .object [("help", .string "more"), ("r", .number (.integer (-1))), ("x-z", .string "cut")]),
      ("b-c", .string "copy")]
    let config' : Json := .object [
      ("b-c", .string "copy"),
      ("a", .object [("x-z", .string "cut"), ("r", .number (.integer (-1))), ("help", .string "more")])]
    Config.Reordered config config' ∧ Config.NoOverlaps config ∧
      ∃ root root' built built', (default : Store (Action Unit)).compile config = .ok (root, built) ∧
        (default : Store (Action Unit)).compile config' = .ok (root', built') ∧
        ∀ keys, SameOutcome built built' (built.walk root keys) (built'.walk root' keys) := by
  intro config config'
  have reordered : Config.Reordered config config' := by
    have turned := (Config.PermutedEntries.swap ("help", .string "more")
      ("r", .number (.integer (-1))) [("x-z", .string "cut")]).trans <|
        (Config.PermutedEntries.cons (.same _) (.swap ("help", .string "more")
          ("x-z", .string "cut") [])).trans (.swap ("r", .number (.integer (-1)))
            ("x-z", .string "cut") [("help", .string "more")])
    exact .trans (.cons (.keymap rfl turned) (.refl _)) (.swap _ _ [])
  have apart : Config.NoOverlaps config := by
    have keys_a (v : Json) : Config.specKeys ("a", v) = ['a'] := rfl
    have keys_bc (v : Json) : Config.specKeys ("b-c", v) = ['b', 'c'] := rfl
    have keys_help (v : Json) : Config.specKeys ("help", v) = [] := rfl
    have keys_r (v : Json) : Config.specKeys ("r", v) = ['r'] := rfl
    have keys_xz (v : Json) : Config.specKeys ("x-z", v) = ['x', 'y', 'z'] := rfl
    intro members heq path inner nested
    obtain rfl := Json.object.inj heq
    cases nested with
    | self => exact ⟨by decide, by simp [keys_a, keys_bc]⟩
    | inside hm _ hv nested =>
        rcases List.mem_pair.1 hm with heq | heq
        · cases heq
          cases hv
          cases nested with
          | self => exact ⟨by decide, by simp [keys_help, keys_r, keys_xz]⟩
          | inside hm _ hv _ =>
              simp only [List.mem_cons, List.not_mem_nil, or_false] at hm
              rcases hm with heq | heq | heq <;>
              · cases heq
                cases hv
        · cases heq
          cases hv
  obtain ⟨⟨root, built⟩, compiled⟩ : ∃ r, (default : Store (Action Unit)).compile config = .ok r :=
    ⟨_, rfl⟩
  obtain ⟨compiles, outcomes⟩ := @compile_reordered Unit default default _ _ reordered apart
  obtain ⟨⟨root', built'⟩, compiled'⟩ := compiles.1 ⟨_, compiled⟩
  obtain ⟨same, _⟩ := outcomes root root' built built' built built' compiled compiled'
    (Retains.refl _ _) (Retains.refl _ _)
  exact ⟨reordered, apart, root, root', built, built', compiled, compiled', same⟩

end Store

end ModalKeys
