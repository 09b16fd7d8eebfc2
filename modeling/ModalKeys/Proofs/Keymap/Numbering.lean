import ModalKeys.Proofs.Keymap.Interpreter

/-!
# Numbering the places of a configuration

Compilation numbers keymaps and actions from one counter, in the order in which it comes across them:
an object before its entries, and the entries one after the other. Where something stands therefore
tells its number, and things that stand in different places have different numbers.
-/

namespace ModalKeys

namespace Config

/-! ## How many numbers are used -/

mutual

/-- How many numbers a value uses. Back references use none. -/
def weight : Json → Nat
  | .number _ => 0
  | .object members => if Json.hasMember "command" members then 1 else 1 + weights members
  | .null => 1
  | .bool _ => 1
  | .string _ => 1
  | .array _ => 1
termination_by structural v => v

def weights : List (String × Json) → Nat
  | [] => 0
  | m :: ms => entryWeight m + weights ms
termination_by structural ms => ms

def entryWeight : String × Json → Nat
  | (name, v) => if isReserved name then 0 else weight v
termination_by structural m => m

end

theorem weight_of_keymap {v : Json} {members : List (String × Json)}
    (h : meaning v = .keymap members) : weight v = 1 + weights members := by
  unfold meaning at h
  split at h
  · cases h
  · next ms =>
      split at h
      · cases h
      · next hc =>
          cases h
          rw [weight, if_neg hc]
  · cases h

theorem weight_of_action {v : Json} (h : meaning v = .action) : weight v = 1 := by
  cases v with
  | number n => cases h
  | object members =>
      by_cases hc : Json.hasMember "command" members
      · rw [weight, if_pos hc]
      · rw [meaning, if_neg hc] at h
        cases h
  | _ => rfl

theorem weights_take_succ {members : List (String × Json)} {i : Nat} {name : String} {v : Json}
    (hm : members[i]? = some (name, v)) (hn : isReserved name = false) :
    weights (members.take (i + 1)) = weights (members.take i) + weight v := by
  induction members generalizing i with
  | nil => cases hm
  | cons first rest ih =>
      cases i with
      | zero =>
          cases hm
          simp [weights, entryWeight, hn]
      | succ i =>
          rw [List.getElem?_cons_succ] at hm
          have h := ih hm
          simp only [List.take_succ_cons, weights] at h ⊢
          omega

theorem weights_take_le (members : List (String × Json)) {i j : Nat} (h : i ≤ j) :
    weights (members.take i) ≤ weights (members.take j) := by
  induction members generalizing i j with
  | nil => simp
  | cons first rest ih =>
      cases i with
      | zero => exact Nat.zero_le _
      | succ i =>
          cases j with
          | zero => omega
          | succ j =>
              have h := ih (Nat.le_of_succ_le_succ h)
              simp only [List.take_succ_cons, weights]
              omega

theorem weights_take_le_weights (members : List (String × Json)) (i : Nat) :
    weights (members.take i) ≤ weights members := by
  have h := weights_take_le members (Nat.le_max_left i members.length)
  rwa [List.take_of_length_le (Nat.le_max_right i members.length)] at h

/-! ## Places -/

/-- The positions lead through the entries of an object, and of objects in it, to a value. -/
inductive Leads : List (String × Json) → List Nat → Json → Prop
  | entry {members : List (String × Json)} {i : Nat} {name : String} {v : Json} :
      members[i]? = some (name, v) → isReserved name = false → Leads members [i] v
  | inside {members inner : List (String × Json)} {i : Nat} {name : String} {v w : Json}
      {path : List Nat} :
      members[i]? = some (name, v) → isReserved name = false → meaning v = .keymap inner →
      Leads inner path w → Leads members (i :: path) w

theorem Leads.append {members inner : List (String × Json)} {path : List Nat} {v w : Json} {i : Nat}
    {name : String} (h : Leads members path v) (hv : meaning v = .keymap inner)
    (hi : inner[i]? = some (name, w)) (hn : isReserved name = false) :
    Leads members (path ++ [i]) w := by
  induction h with
  | entry hm hr => exact .inside hm hr hv (.entry hi hn)
  | inside hm hr hk _ ih => exact .inside hm hr hk (ih hv)

/-- The number of what stands at the end of a path, in an object whose own number is `base`. -/
def number (base : Nat) (members : List (String × Json)) : List Nat → Nat
  | [] => base
  | i :: path =>
    match members[i]?.map fun m => meaning m.2 with
    | some (.keymap inner) => number (base + 1 + weights (members.take i)) inner path
    | _ => base + 1 + weights (members.take i)

theorem number_entry (base : Nat) (members : List (String × Json)) (i : Nat) :
    number base members [i] = base + 1 + weights (members.take i) := by
  rw [number]
  split <;> rfl

theorem number_inside {base : Nat} {members inner : List (String × Json)} {i : Nat} {name : String}
    {v : Json} (hm : members[i]? = some (name, v)) (hv : meaning v = .keymap inner)
    (path : List Nat) : number base members (i :: path) =
      number (base + 1 + weights (members.take i)) inner path := by
  rw [number, hm, Option.map_some, hv]

theorem number_append {base : Nat} {members inner : List (String × Json)} {path : List Nat}
    {v : Json} (h : Leads members path v) (hv : meaning v = .keymap inner) (i : Nat) :
    number base members (path ++ [i]) =
      number base members path + 1 + weights (inner.take i) := by
  induction h generalizing base with
  | entry hm hr =>
      rw [number_entry, List.singleton_append, number_inside hm hv, number_entry]
  | inside hm hr hk _ ih =>
      rw [List.cons_append, number_inside hm hk, number_inside hm hk]
      exact ih hv

/-- The numbers of an entry and of what is in it lie between those of the entries around it. -/
theorem number_bounds (base : Nat) {members : List (String × Json)} {i : Nat} {path : List Nat}
    {w : Json} (h : Leads members (i :: path) w) :
    base + 1 + weights (members.take i) ≤ number base members (i :: path) ∧
      number base members (i :: path) + weight w ≤ base + 1 + weights (members.take (i + 1)) := by
  generalize hp : i :: path = p at h
  induction h generalizing base i path with
  | @entry members i name v hm hn =>
      cases hp
      rw [number_entry, weights_take_succ hm hn]
      omega
  | @inside members inner i name v w path hm hn hv h ih =>
      cases hp
      rw [number_inside hm hv, weights_take_succ hm hn, weight_of_keymap hv]
      -- the rest of the path starts at some entry of the inner object, whose bounds are within ours
      cases h with
      | @entry _ j _ _ hm' hn' =>
          have bounds := ih (base + 1 + weights (members.take i)) rfl
          have all := weights_take_le_weights inner (j + 1)
          omega
      | @inside _ _ j _ _ _ _ hm' hn' hv' h' =>
          have bounds := ih (base + 1 + weights (members.take i)) rfl
          have all := weights_take_le_weights inner (j + 1)
          omega

theorem Leads.ne_nil {members : List (String × Json)} {path : List Nat} {w : Json}
    (h : Leads members path w) : path ≠ [] := by
  cases h <;> exact List.cons_ne_nil _ _

theorem base_lt_number (base : Nat) {members : List (String × Json)} {path : List Nat} {w : Json}
    (h : Leads members path w) : base < number base members path := by
  cases path with
  | nil => exact absurd rfl h.ne_nil
  | cons i path =>
      have bounds := number_bounds base h
      omega

/-- What stands in an earlier entry has a smaller number. -/
theorem number_lt_of_lt (base : Nat) {members : List (String × Json)} {i j : Nat}
    {p q : List Nat} {v w : Json} (hv : Leads members (i :: p) v) (hw : Leads members (j :: q) w)
    (hij : i < j) (weighs : 0 < weight v) :
    number base members (i :: p) < number base members (j :: q) := by
  have first := (number_bounds base hv).2
  have second := (number_bounds base hw).1
  have between : weights (members.take (i + 1)) ≤ weights (members.take j) :=
    weights_take_le members hij
  omega

/-- An object comes before what is in it. -/
theorem number_lt_of_inside (base : Nat) {members inner : List (String × Json)} {i : Nat}
    {name : String} {path : List Nat} {v w : Json} (hm : members[i]? = some (name, v))
    (hv : meaning v = .keymap inner) (hw : Leads inner path w) :
    number base members [i] < number base members (i :: path) := by
  rw [number_entry, number_inside hm hv]
  exact base_lt_number _ hw

/-- Different places have different numbers, as far as they use any. -/
theorem number_injective {base : Nat} {members : List (String × Json)} {p q : List Nat}
    {v w : Json} (hp : Leads members p v) (hq : Leads members q w) (hv : 0 < weight v)
    (hw : 0 < weight w) (h : number base members p = number base members q) : p = q := by
  -- both start at the same entry, since those of different entries lie apart
  have head : ∀ {members : List (String × Json)} {base i j : Nat} {p q : List Nat},
      Leads members (i :: p) v → Leads members (j :: q) w →
      number base members (i :: p) = number base members (j :: q) → i = j := by
    intro members base i j p q hp hq h
    rcases Nat.lt_trichotomy i j with hlt | heq | hgt
    · have := number_lt_of_lt base hp hq hlt hv
      omega
    · exact heq
    · have := number_lt_of_lt base hq hp hgt hw
      omega
  induction hp generalizing base q with
  | @entry members i name v hm hn =>
      cases hq with
      | entry hm' hn' => rw [head (.entry hm hn) (.entry hm' hn') h]
      | inside hm' hn' hu' hq' =>
          obtain rfl := head (.entry hm hn) (.inside hm' hn' hu' hq') h
          have := number_lt_of_inside base hm' hu' hq'
          omega
  | @inside members inner i name u v path hm hn hu hp' ih =>
      cases hq with
      | entry hm' hn' =>
          obtain rfl := head (.inside hm hn hu hp') (.entry hm' hn') h
          have := number_lt_of_inside base hm hu hp'
          omega
      | inside hm' hn' hu' hq' =>
          obtain rfl := head (.inside hm hn hu hp') (.inside hm' hn' hu' hq') h
          have same := hm.symm.trans hm'
          cases same
          cases hu.symm.trans hu'
          rw [number_inside hm hu, number_inside hm hu] at h
          rw [ih hq' hv h head]

/-- An object of a configuration, which may be the outermost one. -/
def Stands (members : List (String × Json)) (place : Place) : Prop :=
  place = ⟨[], members⟩ ∨ ∃ v, Leads members place.path v ∧ meaning v = .keymap place.members

theorem Stands.leads {members : List (String × Json)} {place : Place} (h : Stands members place)
    {i : Nat} {name : String} {v : Json} (hm : place.members[i]? = some (name, v))
    (hn : isReserved name = false) : Leads members (place.path ++ [i]) v := by
  rcases h with rfl | ⟨u, hu, hk⟩
  · exact .entry hm hn
  · exact hu.append hk hm hn

theorem Stands.number_append {members : List (String × Json)} {place : Place}
    (h : Stands members place) (base i : Nat) : number base members (place.path ++ [i]) =
      number base members place.path + 1 + weights (place.members.take i) := by
  rcases h with rfl | ⟨u, hu, hk⟩
  · exact number_entry base members i
  · exact Config.number_append hu hk i

/-- Objects are told apart by their numbers, the outermost one among them. -/
theorem path_eq_of_number_eq {base : Nat} {members : List (String × Json)} {p q : Place}
    (hp : Stands members p) (hq : Stands members q)
    (h : number base members p.path = number base members q.path) : p.path = q.path := by
  rcases hp with rfl | ⟨v, hv, hk⟩
  · rcases hq with rfl | ⟨w, hw, _⟩
    · rfl
    · exact absurd h (Nat.ne_of_lt (base_lt_number base hw))
  · rcases hq with rfl | ⟨w, hw, hk'⟩
    · exact absurd h (Nat.ne_of_gt (base_lt_number base hv))
    · refine number_injective hv hw ?_ ?_ h
      · rw [weight_of_keymap hk]
        omega
      · rw [weight_of_keymap hk']
        omega

end Config

end ModalKeys
