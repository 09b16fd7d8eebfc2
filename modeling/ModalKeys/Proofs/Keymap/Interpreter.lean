import ModalKeys.Keymap.Compile

/-!
# Reading a configuration key by key

What keys mean according to a configuration, read off its text alone: no keymap is built, and nothing
is shared. The state is the stack of the objects around the place that has been reached, innermost
first. Objects and entries are told apart by where they stand, so that two of them are different
also when they look the same.
-/

namespace ModalKeys

variable {σ : Type}

namespace Config

/-! ## Values -/

/-- The string under a name. -/
def text (name : String) (members : List (String × Json)) : Option String :=
  (Json.member? name members).bind Json.string?

/-- The command that the members of an object describe. Arguments that are null count as none. -/
def describedCommand (members : List (String × Json)) : Action σ :=
  .command ((text "command" members).getD "")
    (match Json.member? "args" members with
      | some .null => none
      | args => args)

mutual

/-- The action that a value describes. -/
def described : Json → Action σ
  | .string name => .command name none
  | .object members => describedCommand members
  | .array items => .sequence (describedItems items)
  | .null => .sequence []
  | .bool _ => .sequence []
  | .number _ => .sequence []
termination_by structural v => v

def describedItems : List Json → List (Action σ)
  | [] => []
  | v :: vs => described v :: describedItems vs
termination_by structural vs => vs

end

/-- What a value does to the keys that lead to it: it takes further keys, it goes back some levels,
or it ends in an action. -/
inductive Meaning where
  | keymap (members : List (String × Json))
  | back (levels : Nat)
  | action

/-- A number is a back reference, and so is its negative. -/
def meaning : Json → Meaning
  | .number n => .back (n.toInt64?.getD 0).natAbs
  | .object members => if Json.hasMember "command" members then .action else .keymap members
  | _ => .action

/-! ## Entries -/

/-- Whether an entry of an object binds a key. -/
def binds (key : Char) : String × Json → Bool
  | (name, _) => !isReserved name &&
    match KeySpec.keys name with
    | .ok keys => keys.contains key
    | .error _ => false

/-- The last entry that binds a key, and its position. -/
def lastBinding? (key : Char) : List (String × Json) → Option (Nat × Json)
  | [] => none
  | m :: ms =>
    match lastBinding? key ms with
    | some (i, v) => some (i + 1, v)
    | none => if binds key m then some (0, m.2) else none

theorem lastBinding?_eq_none {key : Char} {members : List (String × Json)}
    (h : lastBinding? key members = none) : ∀ m ∈ members, binds key m = false := by
  induction members with
  | nil =>
      intro m hm
      cases hm
  | cons first rest ih =>
      rw [lastBinding?] at h
      split at h
      · cases h
      · next hr =>
          intro m hm
          rcases List.mem_cons.1 hm with rfl | hm
          · by_cases hb : binds key m
            · rw [if_pos hb] at h
              cases h
            · exact Bool.eq_false_iff.2 hb
          · exact ih hr m hm

/-- The entry stands at its position and binds the key, and no entry after it does. -/
theorem lastBinding?_eq_some {key : Char} {members : List (String × Json)} {i : Nat} {v : Json}
    (h : lastBinding? key members = some (i, v)) :
    ∃ name, members[i]? = some (name, v) ∧ binds key (name, v) ∧
      ∀ m ∈ members.drop (i + 1), binds key m = false := by
  induction members generalizing i with
  | nil => cases h
  | cons first rest ih =>
      rw [lastBinding?] at h
      split at h
      · next j w hr =>
          cases h
          exact ih hr
      · next hr =>
          split at h
          · next hb =>
              cases h
              exact ⟨first.1, rfl, hb, lastBinding?_eq_none hr⟩
          · cases h

/-- Reserved names bind no keys. -/
theorem isReserved_of_binds {key : Char} {name : String} {v : Json} (h : binds key (name, v)) :
    isReserved name = false := by
  rw [binds, Bool.and_eq_true, Bool.not_eq_true'] at h
  exact h.1

/-! ## Walking -/

/-- An object and where it stands: the positions of the entries that lead to it. -/
structure Place where
  path : List Nat
  members : List (String × Json)

/-- What keys lead to: an object, or the value of an entry, which is an action. -/
inductive Reached where
  | object (place : Place)
  | action (path : List Nat) (value : Json)

/-- Which object or which entry has been reached. -/
inductive Occurrence where
  | object (path : List Nat)
  | action (path : List Nat)
  deriving DecidableEq, Repr

def Reached.occurrence : Reached → Occurrence
  | .object place => .object place.path
  | .action path _ => .action path

/-- Follows keys from the innermost of some objects. -/
def follow : List Place → List Char → Option Reached
  | [], _ => none
  | place :: _, [] => some (.object place)
  | place :: outer, key :: rest =>
    match lastBinding? key place.members with
    | none => none
    | some (i, v) =>
      match meaning v with
      | .keymap members => follow (⟨place.path ++ [i], members⟩ :: place :: outer) rest
      | .back levels => follow ((place :: outer).drop levels) rest
      | .action => if rest.isEmpty then some (.action (place.path ++ [i]) v) else none
termination_by structural _ keys => keys

/-- What keys lead to in a configuration. -/
def interpret : Json → List Char → Option Reached
  | .object members, keys => follow [⟨[], members⟩] keys
  | _, _ => none

/-- Back references lead out of the objects that enclose them, here to the root and in again. -/
example :
    let config : Json := .object [("a", .object [("b", .object [
      ("x", .number (.integer 0)), ("y", .number (.integer (-1))), ("z", .number (.integer (-2)))])])]
    [['a'], ['a', 'b', 'x'], ['a', 'b', 'y'], ['a', 'b', 'z', 'a'], ['x']].map
        (fun keys => (interpret config keys).map Reached.occurrence) =
      [some (.object [0]), some (.object [0, 0]), some (.object [0]), some (.object [0]), none] := by
  decide

end Config

end ModalKeys
