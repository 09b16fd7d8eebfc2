import Mathlib.Data.List.Induction
import ModalKeys.Proofs.Keymap.Interpreter

/-!
# Configurations laid over one another

What keys come to in several configurations of which each is laid over the ones before, read off their
texts. Two keymaps under the same key are laid over one another in turn; everywhere else the later one
counts. A back reference stands for an object of its own configuration, whatever that is laid over.
-/

namespace ModalKeys

variable {σ : Type}

/-- What keys come to: a keymap, which takes further keys, or an action. -/
inductive Outcome (σ : Type) where
  | keymap
  | action (act : Action σ)

def Binding.outcome : Binding (Action σ) → Outcome σ
  | keymap _ => .keymap
  | action _ act => .action act

namespace Outcome

/-! ## Two keymaps -/

/-- What keys come to when a keymap is laid over another one, given what they come to in either. -/
def above (theirs ours : List Char → Option (Outcome σ)) : List Char → Option (Outcome σ)
  | [] => theirs []
  | key :: keys =>
    match theirs [key], ours [key] with
    | none, _ => ours (key :: keys)
    | some keymap, some keymap =>
      above (fun more => theirs (key :: more)) (fun more => ours (key :: more)) keys
    | _, _ => theirs (key :: keys)
termination_by structural keys => keys

section Above

variable {theirs ours : List Char → Option (Outcome σ)} {key : Char}

@[simp] theorem above_nil (theirs ours : List Char → Option (Outcome σ)) :
    above theirs ours [] = theirs [] := rfl

theorem above_of_none (h : theirs [key] = none) (keys : List Char) :
    above theirs ours (key :: keys) = ours (key :: keys) := by
  rw [above]
  simp only [h]

theorem above_of_keymap (h : theirs [key] = some keymap) (h' : ours [key] = some keymap)
    (keys : List Char) : above theirs ours (key :: keys) =
      above (fun more => theirs (key :: more)) (fun more => ours (key :: more)) keys := by
  rw [above]
  simp only [h, h']

theorem above_of_some (h : (theirs [key]).isSome)
    (h' : ¬(theirs [key] = some keymap ∧ ours [key] = some keymap)) (keys : List Char) :
    above theirs ours (key :: keys) = theirs (key :: keys) := by
  rw [above]
  split
  · next hn =>
      rw [hn] at h
      cases h
  · next ht ho => exact absurd ⟨ht, ho⟩ h'
  · rfl

end Above

/-- Keys lead on from keymaps only. -/
def Followed (f : List Char → Option (Outcome σ)) : Prop :=
  ∀ keys key more, (f (keys ++ key :: more)).isSome → f keys = some keymap

theorem Followed.shift {f : List Char → Option (Outcome σ)} (h : Followed f) (keys : List Char) :
    Followed fun more => f (keys ++ more) := by
  intro more key rest hs
  refine h (keys ++ more) key rest ?_
  rw [List.append_assoc]
  exact hs

theorem Followed.eq_none {f : List Char → Option (Outcome σ)} (h : Followed f) {key : Char}
    (hn : f [key] ≠ some keymap) {keys : List Char} (hk : keys ≠ []) : f (key :: keys) = none := by
  cases keys with
  | nil => exact absurd rfl hk
  | cons k rest =>
      rw [← Option.not_isSome_iff_eq_none]
      exact fun hs => hn (h [key] k rest hs)

/-- Nothing changes where there is nothing below. -/
theorem above_eq_self {theirs ours : List Char → Option (Outcome σ)} (h : Followed theirs)
    (none : ∀ keys, keys ≠ [] → ours keys = none) (keys : List Char) :
    above theirs ours keys = theirs keys := by
  cases keys with
  | nil => rfl
  | cons key keys =>
      have ho : ours [key] = Option.none := none [key] (List.cons_ne_nil _ _)
      by_cases ht : (theirs [key]).isSome
      · refine above_of_some ht ?_ keys
        rw [ho]
        exact fun hk => nomatch hk.2
      · rw [Option.not_isSome_iff_eq_none] at ht
        rw [above_of_none ht, none _ (List.cons_ne_nil _ _)]
        cases keys with
        | nil => exact ht.symm
        | cons k rest =>
            refine (h.eq_none ?_ (List.cons_ne_nil _ _)).symm
            rw [ht]
            exact nofun

theorem followed_above {theirs ours : List Char → Option (Outcome σ)} (ht : Followed theirs)
    (ho : Followed ours) (root : theirs [] = some keymap) : Followed (above theirs ours) := by
  intro keys key more
  -- by induction on the keys, as long as both lead to keymaps
  induction keys generalizing theirs ours with
  | nil => exact fun _ => root
  | cons first rest ih =>
      intro hs
      rw [List.cons_append] at hs
      by_cases hboth : theirs [first] = some keymap ∧ ours [first] = some keymap
      · rw [above_of_keymap hboth.1 hboth.2] at hs ⊢
        exact ih (ht.shift [first]) (ho.shift [first]) hboth.1 hs
      · by_cases hsome : (theirs [first]).isSome
        · rw [above_of_some hsome hboth] at hs ⊢
          exact ht (first :: rest) key more hs
        · rw [Option.not_isSome_iff_eq_none] at hsome
          rw [above_of_none hsome] at hs ⊢
          exact ho (first :: rest) key more hs

/-- What comes after keys that lead to a keymap in the upper one: there the two lie over one another as
before. -/
theorem above_append {theirs ours : List Char → Option (Outcome σ)} (ht : Followed theirs)
    (ho : Followed ours) {keys : List Char} (hk : theirs keys = some keymap) (more : List Char) :
    above theirs ours (keys ++ more) =
      above (fun rest => theirs (keys ++ rest)) (fun rest => ours (keys ++ rest)) more := by
  induction keys generalizing theirs ours with
  | nil => rfl
  | cons key keys ih =>
      have first : theirs [key] = some keymap := by
        cases keys with
        | nil => exact hk
        | cons k rest => exact ht [key] k rest (Option.isSome_of_eq_some hk)
      by_cases below : ours [key] = some keymap
      · rw [List.cons_append, above_of_keymap first below]
        exact ih (ht.shift [key]) (ho.shift [key]) hk
      · rw [List.cons_append, above_of_some (Option.isSome_of_eq_some first) fun h => below h.2]
        refine (above_eq_self (ht.shift (key :: keys)) ?_ more).symm
        intro rest hrest
        rw [List.cons_append]
        refine ho.eq_none below ?_
        simp [hrest]

end Outcome

namespace Config

open Outcome

/-! ## Configurations -/

def Reached.outcome : Reached → Outcome σ
  | .object _ => .keymap
  | .action _ v => .action (described v)

/-- What keys come to in a configuration. -/
def outcome (config : Json) (keys : List Char) : Option (Outcome σ) :=
  (interpret config keys).map Reached.outcome

/-- What keys come to in configurations of which each is laid over the ones before. -/
def layered (configs : List Json) : List Char → Option (Outcome σ) :=
  configs.foldl (fun ours config => above (outcome config) ours)
    fun keys => if keys.isEmpty then some .keymap else none

theorem follow_append {places : List Place} {keys : List Char} {key : Char} {more : List Char}
    (h : (follow places (keys ++ key :: more)).isSome) :
    ∃ place, follow places keys = some (.object place) := by
  induction keys generalizing places with
  | nil =>
      cases places with
      | nil => cases h
      | cons place outer => exact ⟨place, rfl⟩
  | cons first rest ih =>
      cases places with
      | nil => cases h
      | cons place outer =>
          rw [List.cons_append, follow] at h
          rw [follow]
          cases hl : lastBinding? first place.members with
          | none =>
              rw [hl] at h
              cases h
          | some found =>
              obtain ⟨i, v⟩ := found
              rw [hl] at h
              dsimp only at h ⊢
              cases hv : meaning v with
              | keymap members =>
                  rw [hv] at h
                  exact ih h
              | back levels =>
                  rw [hv] at h
                  exact ih h
              | action =>
                  rw [hv] at h
                  dsimp only at h
                  rw [if_neg (by simp)] at h
                  cases h

theorem followed_outcome (config : Json) : Followed (outcome (σ := σ) config) := by
  intro keys key more hs
  rw [outcome, Option.isSome_map] at hs
  cases config with
  | object members =>
      obtain ⟨place, hp⟩ := follow_append hs
      show (follow [⟨[], members⟩] keys).map Reached.outcome = _
      rw [hp]
      rfl
  | _ => cases hs

theorem outcome_nil (members : List (String × Json)) :
    outcome (σ := σ) (.object members) [] = some .keymap := rfl

theorem layered_append (configs : List Json) (last : Json) :
    layered (σ := σ) (configs ++ [last]) = above (outcome last) (layered configs) :=
  List.foldl_append

theorem followed_layered {configs : List Json}
    (objects : ∀ config ∈ configs, ∃ members, config = .object members) :
    Followed (layered (σ := σ) configs) := by
  induction configs using List.reverseRecOn with
  | nil =>
      intro keys key more hs
      rw [layered, List.foldl_nil, if_neg (by simp)] at hs
      cases hs
  | append_singleton configs config ih =>
      obtain ⟨members, rfl⟩ := objects config (List.mem_append_right _ List.mem_cons_self)
      rw [layered_append]
      exact followed_above (followed_outcome _)
        (ih fun config hc => objects config (List.mem_append_left _ hc)) (outcome_nil members)

/-! ## Back references -/

/-- The members of the object that keys lead to by way of nested objects only. -/
def nested? (members : List (String × Json)) : List Char → Option (List (String × Json))
  | [] => some members
  | key :: keys =>
    match lastBinding? key members with
    | none => none
    | some (_, v) =>
      match meaning v with
      | .keymap inner => nested? inner keys
      | _ => none
termination_by structural keys => keys

theorem nested?_cons {members inner : List (String × Json)} {key : Char} {keys : List Char}
    (h : nested? members (key :: keys) = some inner) :
    ∃ i v middle, lastBinding? key members = some (i, v) ∧ meaning v = .keymap middle ∧
      nested? middle keys = some inner := by
  rw [nested?] at h
  split at h
  · cases h
  · next i v hl =>
      split at h
      · next middle hv => exact ⟨i, v, middle, hl, hv, h⟩
      · cases h

theorem follow_cons_keymap {place : Place} {outer : List Place} {key : Char} {i : Nat} {v : Json}
    {inner : List (String × Json)} (hl : lastBinding? key place.members = some (i, v))
    (hv : meaning v = .keymap inner) (keys : List Char) :
    follow (place :: outer) (key :: keys) =
      follow (⟨place.path ++ [i], inner⟩ :: place :: outer) keys := by
  rw [follow, hl]
  dsimp only
  rw [hv]

/-- Nested objects are reached by following the keys that lead to them. -/
theorem exists_follow_nested (place : Place) (outer : List Place) {keys : List Char}
    {inner : List (String × Json)} (h : nested? place.members keys = some inner) :
    ∃ reached, follow (place :: outer) keys = some (.object reached) := by
  induction keys generalizing place outer with
  | nil => exact ⟨place, rfl⟩
  | cons key keys ih =>
      obtain ⟨i, v, middle, hl, hv, h⟩ := nested?_cons h
      rw [follow_cons_keymap hl hv]
      exact ih ⟨_, middle⟩ _ h

section Back

variable {outer : List Place} {keys : List Char} {inner : List (String × Json)} {key : Char}
  {i levels : Nat} {v : Json}

/-- A back reference that leads as far as the object that the keys start from, or out of it. -/
theorem follow_back_out (place : Place) (h : nested? place.members keys = some inner)
    (hl : lastBinding? key inner = some (i, v)) (hv : meaning v = .back levels)
    (far : keys.length ≤ levels) (more : List Char) :
    follow (place :: outer) (keys ++ key :: more) =
      follow ((place :: outer).drop (levels - keys.length)) more := by
  induction keys generalizing place outer with
  | nil =>
      cases h
      rw [List.nil_append, follow, hl]
      dsimp only
      rw [hv]
      rfl
  | cons first rest ih =>
      obtain ⟨j, u, middle, hl', hu, h⟩ := nested?_cons h
      rw [List.length_cons] at far ⊢
      have deeper : levels - rest.length = levels - (rest.length + 1) + 1 := by omega
      rw [List.cons_append, follow_cons_keymap hl' hu, ih ⟨_, middle⟩ h (by omega), deeper, List.drop_succ_cons]

/-- A back reference leads to where the keys have been as many levels before. -/
theorem follow_back (place : Place) (h : nested? place.members keys = some inner)
    (hl : lastBinding? key inner = some (i, v)) (hv : meaning v = .back levels)
    (near : levels ≤ keys.length) (more : List Char) :
    follow (place :: outer) (keys ++ key :: more) =
      follow (place :: outer) (keys.take (keys.length - levels) ++ more) := by
  by_cases all : levels = keys.length
  · rw [follow_back_out place h hl hv (Nat.le_of_eq all.symm), all, Nat.sub_self, List.take_zero]
    rfl
  · induction keys generalizing place outer with
    | nil => exact absurd (Nat.le_zero.1 near) all
    | cons first rest ih =>
        obtain ⟨j, u, middle, hl', hu, h⟩ := nested?_cons h
        rw [List.length_cons] at near all ⊢
        have shorter : rest.length + 1 - levels = rest.length - levels + 1 := by omega
        rw [List.cons_append, follow_cons_keymap hl' hu, shorter, List.take_succ_cons,
          List.cons_append, follow_cons_keymap hl' hu]
        by_cases all : levels = rest.length
        · rw [follow_back_out ⟨_, middle⟩ h hl hv (Nat.le_of_eq all.symm), all, Nat.sub_self,
            List.take_zero]
          rfl
        · exact ih ⟨_, middle⟩ h (by omega) all

variable {members : List (String × Json)}

theorem outcome_back (h : nested? members keys = some inner)
    (hl : lastBinding? key inner = some (i, v)) (hv : meaning v = .back levels)
    (near : levels ≤ keys.length) (more : List Char) :
    outcome (σ := σ) (.object members) (keys ++ key :: more) =
      outcome (.object members) (keys.take (keys.length - levels) ++ more) :=
  congrArg (Option.map Reached.outcome) (follow_back ⟨[], members⟩ h hl hv near more)

/-- The keys pass through objects only. -/
theorem outcome_take (h : nested? members keys = some inner) (n : Nat) :
    outcome (σ := σ) (.object members) (keys.take n) = some .keymap := by
  have there : outcome (σ := σ) (.object members) keys = some .keymap := by
    obtain ⟨reached, hr⟩ := exists_follow_nested ⟨[], members⟩ [] h
    exact congrArg (Option.map Reached.outcome) hr
  rw [← List.take_append_drop n keys] at there
  cases hd : keys.drop n with
  | nil => rwa [hd, List.append_nil] at there
  | cons k rest =>
      rw [hd] at there
      exact followed_outcome _ _ k rest (Option.isSome_of_eq_some there)

/-- In the last of several configurations a back reference leads back in that configuration, laid over
what the others have at the place of the reference. -/
theorem layered_back {configs : List Json}
    (objects : ∀ config ∈ configs, ∃ members, config = .object members)
    (h : nested? members keys = some inner) (hl : lastBinding? key inner = some (i, v))
    (hv : meaning v = .back levels) (near : levels ≤ keys.length) (more : List Char) :
    layered (σ := σ) (configs ++ [.object members]) (keys ++ key :: more) =
      above (fun rest => outcome (.object members) (keys.take (keys.length - levels) ++ rest))
        (fun rest => layered configs (keys ++ key :: rest)) more := by
  have back (rest : List Char) := outcome_back (σ := σ) h hl hv near rest
  have arrived : outcome (σ := σ) (.object members) (keys ++ [key]) = some .keymap := by
    rw [back, List.append_nil, outcome_take h]
  rw [layered_append, List.append_cons,
    above_append (followed_outcome _) (followed_layered objects) arrived]
  simp only [List.append_assoc, List.singleton_append, back]

end Back

end Config

end ModalKeys
