import ModalKeys.Proofs.Keymap.Compilation

/-!
# Compiled keymaps mean what the configuration says

Walking a compiled keymap goes along with following the keys through the configuration itself. The
objects around the place that has been reached correspond to a stack of keymaps, each of which is
built for its object and owned by the next one. Since they are owned by the root they are still there
when other keymaps have been released, so that aliases to them hold.
-/

namespace ModalKeys

variable {σ : Type}

namespace Config

/-! ## Objects and keymaps side by side -/

/-- A stack of objects and the stack of their keymaps, innermost first. -/
inductive Tracks (s : Store (Action σ)) (root : Nat) (members : List (String × Json)) :
    List Place → List KeymapId → Prop
  | nil : Tracks s root members [] []
  | cons {place : Place} {outer : List Place} {ids : List KeymapId} : Stands members place →
      s.Owns root (number root members place.path) →
      Built s ids (number root members place.path) place.members →
      Tracks s root members outer ids →
      Tracks s root members (place :: outer) (number root members place.path :: ids)

theorem Tracks.drop {s : Store (Action σ)} {root : Nat} {members : List (String × Json)}
    {places : List Place} {ids : List KeymapId} (h : Tracks s root members places ids) (n : Nat) :
    Tracks s root members (places.drop n) (ids.drop n) := by
  induction h generalizing n with
  | nil =>
      rw [List.drop_nil, List.drop_nil]
      exact .nil
  | cons stands owns built outer ih =>
      cases n with
      | zero => exact .cons stands owns built outer
      | succ n => exact ih n

/-- What walking a keymap leads to, beside what following the keys leads to. At a keymap the stacks of
objects and of keymaps that have been gone through belong together. -/
inductive Arrives (s : Store (Action σ)) (root : Nat) (members : List (String × Json)) :
    Option Reached → Option (Binding (Action σ)) → Prop
  | nothing : Arrives s root members none none
  | object {place : Place} {outer : List Place} {id : KeymapId} {ids : List KeymapId} :
      Tracks s root members (place :: outer) (id :: ids) →
      Arrives s root members (some (.object place)) (some (.keymap id))
  | action {path : List Nat} {v : Json} : Leads members path v → meaning v = .action →
      Arrives s root members (some (.action path v))
        (some (.action (number root members path) (described v)))

/-- What is reached, with the number of its place and, for a keymap, its texts. -/
inductive Lands (t : Store (Action σ)) (root : Nat) (members : List (String × Json)) :
    Option Reached → Option (Binding (Action σ)) → Prop
  | nothing : Lands t root members none none
  | object {place : Place} {km : Keymap (Action σ)} : Stands members place →
      t.keymap? (number root members place.path) = some km →
      km.id = text "id" place.members → km.help = text "help" place.members →
      Lands t root members (some (.object place))
        (some (.keymap (number root members place.path)))
  | action {path : List Nat} {v : Json} : Leads members path v → meaning v = .action →
      Lands t root members (some (.action path v))
        (some (.action (number root members path) (described v)))

theorem lookup_eq {t : Store (Action σ)} {id : KeymapId} {km : Keymap (Action σ)}
    (h : t.keymap? id = some km) (key : Char) :
    t.lookup id key = (km.slots.get? key).bind t.resolve := by
  rw [Store.lookup, Store.slot?, h]
  rfl

theorem resolve_keymap {t : Store (Action σ)} {id : KeymapId} {km : Keymap (Action σ)}
    (h : t.keymap? id = some km) :
    t.resolve (.bound (.keymap id)) = some (.keymap id) ∧
      t.resolve (.aliasOf id) = some (.keymap id) := by
  have alive := Store.alive_of_keymap? h
  constructor
  · rw [Store.resolve, if_pos alive]
  · rw [Store.resolve, if_pos alive]

namespace Tracks

variable {s t : Store (Action σ)} {root : Nat} {members : List (String × Json)} {place : Place}
  {outer : List Place} {id : KeymapId} {ids : List KeymapId}

/-- The innermost keymap of a stack is there, and describes the innermost object. -/
theorem keymap?_eq (h : Tracks s root members (place :: outer) (id :: ids))
    (kept : s.Retains root t) : ∃ km, t.keymap? id = some km ∧
      km.id = text "id" place.members ∧ km.help = text "help" place.members ∧
      ∀ key, BoundBy (id :: ids) (id + 1) place.members key none (km.slots.get? key) := by
  cases h with
  | cons stands owns built _ =>
      cases built with
      | mk hkm hid hhelp hkeys _ => exact ⟨_, (kept _ owns).trans hkm, hid, hhelp, hkeys⟩

theorem lookup_eq_none (h : Tracks s root members (place :: outer) (id :: ids))
    (kept : s.Retains root t) {key : Char} (hl : lastBinding? key place.members = none) :
    t.lookup id key = none := by
  obtain ⟨km, hkm, _, _, hkeys⟩ := h.keymap?_eq kept
  have hk := hkeys key
  rw [BoundBy, hl] at hk
  rw [lookup_eq hkm, hk]
  rfl

/-- A key is bound to the slot for the last entry that binds it. -/
theorem lookup_eq_resolve (h : Tracks s root members (place :: outer) (id :: ids))
    (kept : s.Retains root t) {key : Char} {i : Nat} {v : Json}
    (hl : lastBinding? key place.members = some (i, v)) :
    Leads members (place.path ++ [i]) v ∧ ∃ slot, t.lookup id key = t.resolve slot ∧
      Represents (id :: ids) (number root members (place.path ++ [i])) v slot := by
  obtain ⟨name, hm, hb, _⟩ := lastBinding?_eq_some hl
  obtain ⟨km, hkm, _, _, hkeys⟩ := h.keymap?_eq kept
  have hk := hkeys key
  rw [BoundBy, hl] at hk
  obtain ⟨slot, hs, hr⟩ := hk
  cases h with
  | cons stands _ _ _ =>
      rw [← stands.number_append root i] at hr
      refine ⟨stands.leads hm (isReserved_of_binds hb), slot, ?_, hr⟩
      rw [lookup_eq hkm, hs]
      rfl

/-- An entry that takes further keys leads to the keymap for its object, which goes on the stack. -/
theorem inside (h : Tracks s root members (place :: outer) (id :: ids)) {key : Char} {i : Nat}
    {v : Json} {inner : List (String × Json)} (hl : lastBinding? key place.members = some (i, v))
    (hv : meaning v = .keymap inner) :
    Tracks s root members (⟨place.path ++ [i], inner⟩ :: place :: outer)
      (number root members (place.path ++ [i]) :: id :: ids) := by
  obtain ⟨name, hm, hb, _⟩ := lastBinding?_eq_some hl
  have hn := isReserved_of_binds hb
  have tracks := h
  cases h with
  | cons stands owns built _ =>
      cases built with
      | @mk _ _ _ km hkm _ _ hkeys hinner =>
          have hk := hkeys key
          rw [BoundBy, hl] at hk
          obtain ⟨slot, hs, hr⟩ := hk
          rw [Represents, hv] at hr
          -- the number that the keymap was built under is that of the entry's place
          have built := hinner i name v inner hm hn hv
          rw [← stands.number_append root i] at hr built
          have owned : km.slots.ownedAt? key = some (number root members (place.path ++ [i])) := by
            rw [Slots.ownedAt?, hs, hr]
            rfl
          exact .cons (Or.inr ⟨v, stands.leads hm hn, hv⟩) (.step owns hkm owned) built tracks

/-- Going back some levels leads to the keymap for the object there. -/
theorem back {places : List Place} (h : Tracks s root members places ids) {levels target : Nat}
    (ht : ids[levels]? = some target) : ∃ place outer rest, places.drop levels = place :: outer ∧
      Tracks s root members (place :: outer) (target :: rest) := by
  have dropped := h.drop levels
  obtain ⟨lt, rfl⟩ := List.getElem?_eq_some_iff.1 ht
  rw [List.drop_eq_getElem_cons lt] at dropped
  generalize places.drop levels = remaining at dropped ⊢
  cases remaining with
  | nil => nomatch dropped
  | cons place outer => exact ⟨place, outer, _, rfl, dropped⟩

end Tracks

/-- The keymaps and the objects go on side by side, whatever the keys are. -/
theorem arrives_follow {s t : Store (Action σ)} {root : Nat} {members : List (String × Json)}
    (kept : s.Retains root t) (keys : List Char) {place : Place} {outer : List Place}
    {id : KeymapId} {ids : List KeymapId}
    (h : Tracks s root members (place :: outer) (id :: ids)) :
    Arrives s root members (follow (place :: outer) keys) (t.walk id keys) := by
  -- by induction on the keys, for all stacks, as each key leads to another one
  induction keys generalizing place outer id ids with
  | nil =>
      obtain ⟨km, hkm, _⟩ := h.keymap?_eq kept
      rw [Store.walk, if_pos (Store.alive_of_keymap? hkm)]
      exact .object h
  | cons key rest ih =>
      rw [follow, Store.walk]
      cases hl : lastBinding? key place.members with
      | none =>
          rw [h.lookup_eq_none kept hl]
          exact .nothing
      | some found =>
          obtain ⟨i, v⟩ := found
          obtain ⟨leads, slot, hs, hr⟩ := h.lookup_eq_resolve kept hl
          rw [hs]
          rw [Represents] at hr
          dsimp only
          cases hv : meaning v with
          | keymap inner =>
              rw [hv] at hr
              have tracks := h.inside hl hv
              obtain ⟨km, hkm, _⟩ := tracks.keymap?_eq kept
              rw [hr, (resolve_keymap hkm).1]
              exact ih tracks
          | back levels =>
              rw [hv] at hr
              -- the object that the alias goes back to is on the stack, so its keymap is there
              obtain ⟨target, ht, rfl⟩ := hr
              obtain ⟨place', outer', rest', hd, tracks⟩ := h.back ht
              obtain ⟨km, hkm, _⟩ := tracks.keymap?_eq kept
              rw [(resolve_keymap hkm).2]
              dsimp only
              rw [hd]
              exact ih tracks
          | action =>
              rw [hv] at hr
              rw [hr, Store.resolve]
              cases rest with
              | nil => exact .action leads hv
              | cons _ _ => exact .nothing

theorem Arrives.lands {s t : Store (Action σ)} {root : Nat} {members : List (String × Json)}
    {r : Option Reached} {b : Option (Binding (Action σ))} (h : Arrives s root members r b)
    (kept : s.Retains root t) : Lands t root members r b := by
  cases h with
  | nothing => exact .nothing
  | object tracks =>
      obtain ⟨km, hkm, hid, hhelp, _⟩ := tracks.keymap?_eq kept
      cases tracks with
      | cons stands _ _ _ => exact .object stands hkm hid hhelp
  | action leads hv => exact .action leads hv

/-! ## The end of a walk -/

/-- How following keys through a configuration ends, and how walking its keymap ends: both at
nothing, at an object and a keymap that carries its texts, or at an entry and the action that the
entry describes. -/
inductive Ends (t : Store (Action σ)) : Option Reached → Option (Binding (Action σ)) → Prop
  | nothing : Ends t none none
  | object {place : Place} {id : KeymapId} {km : Keymap (Action σ)} :
      t.keymap? id = some km → km.id = text "id" place.members →
      km.help = text "help" place.members → Ends t (some (.object place)) (some (.keymap id))
  | action {path : List Nat} {v : Json} {tag : Nat} :
      Ends t (some (.action path v)) (some (.action tag (described v)))

theorem Ends.eq_none {t : Store (Action σ)} {b : Option (Binding (Action σ))} (h : Ends t none b) :
    b = none := by
  cases h
  rfl

theorem Ends.eq_action {t : Store (Action σ)} {path : List Nat} {v : Json}
    {b : Option (Binding (Action σ))} (h : Ends t (some (.action path v)) b) :
    ∃ tag, b = some (.action tag (described v)) := by
  cases h
  exact ⟨_, rfl⟩

theorem Lands.ends {t : Store (Action σ)} {root : Nat} {members : List (String × Json)}
    {r : Option Reached} {b : Option (Binding (Action σ))} (h : Lands t root members r b) :
    Ends t r b := by
  cases h with
  | nothing => exact .nothing
  | object _ hkm hid hhelp => exact .object hkm hid hhelp
  | action _ _ => exact .action

/-- What is reached has the number of its place, so that it is the same only in the same place. -/
theorem Lands.same_iff {t : Store (Action σ)} {root : Nat} {members : List (String × Json)}
    {r₁ r₂ : Reached} {b₁ b₂ : Binding (Action σ)} (h₁ : Lands t root members (some r₁) (some b₁))
    (h₂ : Lands t root members (some r₂) (some b₂)) :
    b₁.same b₂ = true ↔ r₁.occurrence = r₂.occurrence := by
  cases h₁ with
  | @object place₁ km₁ stands₁ _ _ _ =>
      cases h₂ with
      | @object place₂ km₂ stands₂ _ _ _ =>
          rw [Binding.same, beq_iff_eq, Reached.occurrence, Reached.occurrence]
          constructor
          · intro h
            rw [path_eq_of_number_eq stands₁ stands₂ h]
          · intro h
            rw [Occurrence.object.inj h]
      | action _ _ =>
          constructor
          · intro h
            cases h
          · intro h
            cases h
  | @action path₁ v₁ leads₁ hv₁ =>
      cases h₂ with
      | object _ _ _ _ =>
          constructor
          · intro h
            cases h
          · intro h
            cases h
      | @action path₂ v₂ leads₂ hv₂ =>
          have weighs₁ : 0 < weight v₁ := by rw [weight_of_action hv₁]; omega
          have weighs₂ : 0 < weight v₂ := by rw [weight_of_action hv₂]; omega
          rw [Binding.same, beq_iff_eq, Reached.occurrence, Reached.occurrence]
          constructor
          · intro h
            rw [number_injective leads₁ leads₂ weighs₁ weighs₂ h]
          · intro h
            rw [Occurrence.action.inj h]

end Config

namespace Store

/-- Following keys through a configuration and walking its keymap reach the same place. -/
theorem exists_arrives {s s' t : Store (Action σ)} {config : Json} {root : KeymapId}
    (compiled : s.compile config = .ok (root, s')) (kept : s'.Retains root t) :
    ∃ members, config = .object members ∧ ∀ keys,
      Config.Arrives s' root members (Config.interpret config keys) (t.walk root keys) := by
  obtain ⟨members, rfl, built⟩ := built_of_compile compiled
  have tracks : Config.Tracks s' root members [⟨[], members⟩] [root] :=
    .cons (Or.inl rfl) .self built .nil
  exact ⟨members, rfl, fun keys => Config.arrives_follow kept keys tracks⟩

theorem exists_lands {s s' t : Store (Action σ)} {config : Json} {root : KeymapId}
    (compiled : s.compile config = .ok (root, s')) (kept : s'.Retains root t) :
    ∃ members, ∀ keys,
      Config.Lands t root members (Config.interpret config keys) (t.walk root keys) := by
  obtain ⟨members, _, arrives⟩ := exists_arrives compiled kept
  exact ⟨members, fun keys => (arrives keys).lands kept⟩

theorem ends_walk {s s' t : Store (Action σ)} {config : Json} {root : KeymapId}
    (compiled : s.compile config = .ok (root, s')) (kept : s'.Retains root t) (keys : List Char) :
    Config.Ends t (Config.interpret config keys) (t.walk root keys) := by
  obtain ⟨members, lands⟩ := exists_lands compiled kept
  exact (lands keys).ends

theorem same_walk_iff {s s' t : Store (Action σ)} {config : Json} {root : KeymapId}
    (compiled : s.compile config = .ok (root, s')) (kept : s'.Retains root t) {keys₁ keys₂ : List Char}
    {r₁ r₂ : Config.Reached} {b₁ b₂ : Binding (Action σ)}
    (hr₁ : Config.interpret config keys₁ = some r₁) (hr₂ : Config.interpret config keys₂ = some r₂)
    (hb₁ : t.walk root keys₁ = some b₁) (hb₂ : t.walk root keys₂ = some b₂) :
    b₁.same b₂ = true ↔ r₁.occurrence = r₂.occurrence := by
  obtain ⟨members, lands⟩ := exists_lands compiled kept
  have h₁ := lands keys₁
  have h₂ := lands keys₂
  rw [hr₁, hb₁] at h₁
  rw [hr₂, hb₂] at h₂
  exact h₁.same_iff h₂

/-- Compilation keeps what a configuration means. In every store in which all is left that the root
owns, any keys lead through the keymaps to what they lead to in the configuration; and they lead to
the same keymap or the same action exactly if they lead to the same place. -/
theorem walk_compile {s s' t : Store (Action σ)} {config : Json} {root : KeymapId}
    (compiled : s.compile config = .ok (root, s')) (kept : s'.Retains root t) :
    (∀ keys, Config.Ends t (Config.interpret config keys) (t.walk root keys)) ∧
    ∀ keys₁ keys₂ r₁ r₂ b₁ b₂, Config.interpret config keys₁ = some r₁ →
      Config.interpret config keys₂ = some r₂ → t.walk root keys₁ = some b₁ →
      t.walk root keys₂ = some b₂ → (b₁.same b₂ = true ↔ r₁.occurrence = r₂.occurrence) := by
  refine ⟨ends_walk compiled kept, ?_⟩
  intro keys₁ keys₂ r₁ r₂ b₁ b₂ hr₁ hr₂ hb₁ hb₂
  exact same_walk_iff compiled kept hr₁ hr₂ hb₁ hb₂

/-- A keymap that is shared by a range of keys, one of which a later entry takes away, and a way back
out of it. The root is held while everything else is released. -/
theorem walk_compile_shared_range :
    let config : Json := .object [
      ("a-c", .object [
        ("help", .string "more"), ("d", .string "delete"), ("u", .number (.integer (-1)))]),
      ("b", .string "back")]
    ∃ root s' t, (default : Store (Action Unit)).compile config = .ok (root, s') ∧
      t = (s'.hold root).release [] ∧ s'.Retains root t ∧ t.walk root ['b', 'd'] = none ∧
      ∃ b₁ b₂, t.walk root ['a', 'd'] = some b₁ ∧ t.walk root ['c', 'u', 'a', 'd'] = some b₂ ∧
        b₁.same b₂ = true := by
  intro config
  obtain ⟨⟨root, s'⟩, compiled⟩ : ∃ r, (default : Store (Action Unit)).compile config = .ok r :=
    ⟨_, rfl⟩
  have kept := s'.retains_release_hold root []
  obtain ⟨ends, same⟩ := walk_compile compiled kept
  have back : Config.Ends _ none _ := ends ['b', 'd']
  have near : Config.Ends _ (some (.action [0, 1] (.string "delete"))) _ := ends ['a', 'd']
  have far : Config.Ends _ (some (.action [0, 1] (.string "delete"))) _ :=
    ends ['c', 'u', 'a', 'd']
  obtain ⟨tag₁, h₁⟩ := near.eq_action
  obtain ⟨tag₂, h₂⟩ := far.eq_action
  refine ⟨root, s', _, compiled, rfl, kept, back.eq_none, _, _, h₁, h₂, ?_⟩
  exact (same ['a', 'd'] ['c', 'u', 'a', 'd'] _ _ _ _ rfl rfl h₁ h₂).2 rfl

end Store

end ModalKeys
