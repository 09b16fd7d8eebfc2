import Mathlib.Data.Fintype.EquivFin
import Mathlib.Order.WellFounded
import ModalKeys.Proofs.Keymap.Ownership

/-!
# What is released and what stays

Releasing takes keymaps away and changes none. A set of keymaps stays if each of them is held by a root
or owned by another one of the set. The other way round, all that stays is owned by a root, unless a
circle of keymaps that own each other keeps it.
-/

namespace ModalKeys

variable {α : Type}

namespace Store

theorem alive_iff {s : Store α} {id : KeymapId} : s.alive id ↔ ∃ km, s.keymap? id = some km := by
  rw [alive, Std.TreeMap.contains_eq_isSome_getElem?]
  exact Option.isSome_iff_exists

/-! ## Fewer keymaps -/

/-- All keymaps of the first store are in the second one, as they are. -/
def Within (t s : Store α) : Prop :=
  ∀ id km, t.keymap? id = some km → s.keymap? id = some km

theorem Within.refl (s : Store α) : s.Within s := fun _ _ h => h

theorem Within.trans {s t u : Store α} (h₁ : u.Within t) (h₂ : t.Within s) : u.Within s :=
  fun id km h => h₂ id km (h₁ id km h)

theorem Within.alive {s t : Store α} (h : t.Within s) {id : KeymapId} (ha : t.alive id) :
    s.alive id := by
  obtain ⟨km, hk⟩ := alive_iff.1 ha
  exact alive_of_keymap? (h id km hk)

theorem Within.owns {s t : Store α} (h : t.Within s) {root id : KeymapId} (ho : t.Owns root id) :
    s.Owns root id := by
  induction ho with
  | self => exact .self
  | step _ hkm hkey ih => exact .step ih (h _ _ hkm) hkey

theorem within_sweep (s : Store α) (roots : List KeymapId) : (s.sweep roots).Within s := by
  intro id km h
  unfold sweep keymap? at h
  rw [Std.TreeMap.getElem?_filter'] at h
  exact (Option.filter_eq_some_iff.1 h).1

theorem within_collect (s : Store α) (roots : List KeymapId) : (s.collect roots).Within s := by
  fun_induction collect s roots with
  | case1 s swept _ ih => exact ih.trans (s.within_sweep roots)
  | case2 s => exact .refl s

theorem within_release (s : Store α) (roots : List KeymapId) : (s.release roots).Within s :=
  s.within_collect _

theorem handles_collect (s : Store α) (roots : List KeymapId) :
    (s.collect roots).handles = s.handles := by
  fun_induction collect s roots with
  | case1 s swept _ ih => exact ih
  | case2 => rfl

@[simp] theorem handles_release (s : Store α) (roots : List KeymapId) :
    (s.release roots).handles = s.handles :=
  s.handles_collect _

/-! ## What stays -/

/-- Each keymap of a set is a root or owned by a keymap of the set. -/
def Supported (s : Store α) (roots : List KeymapId) (K : KeymapId → Prop) : Prop :=
  ∀ id, K id → id ∈ roots ∨
    ∃ owner km key, K owner ∧ s.keymap? owner = some km ∧ km.slots.ownedAt? key = some id

theorem supported_owns {s : Store α} {roots : List KeymapId} {root : KeymapId} (h : root ∈ roots) :
    s.Supported roots (s.Owns root) := by
  intro id ho
  cases ho with
  | self => exact Or.inl h
  | step howns hkm hkey => exact Or.inr ⟨_, _, _, howns, hkm, hkey⟩

theorem Supported.or {s : Store α} {roots : List KeymapId} {K L : KeymapId → Prop}
    (hK : s.Supported roots K) (hL : s.Supported roots L) :
    s.Supported roots fun id => K id ∨ L id := by
  rintro id (h | h)
  · exact (hK id h).imp_right fun ⟨owner, km, key, ho, hkm⟩ => ⟨owner, km, key, Or.inl ho, hkm⟩
  · exact (hL id h).imp_right fun ⟨owner, km, key, ho, hkm⟩ => ⟨owner, km, key, Or.inr ho, hkm⟩

theorem Supported.mono {s : Store α} {roots more : List KeymapId} {K : KeymapId → Prop}
    (h : s.Supported roots K) (sub : roots ⊆ more) : s.Supported more K :=
  fun id hid => (h id hid).imp_left fun hr => sub hr

/-- A set stays supported as long as its keymaps are not changed. -/
theorem Supported.of_agree {s t : Store α} {roots : List KeymapId} {K : KeymapId → Prop}
    (h : s.Supported roots K) (agree : ∀ id, K id → t.keymap? id = s.keymap? id) :
    t.Supported roots K := by
  intro id hid
  refine (h id hid).imp_right ?_
  rintro ⟨owner, km, key, ho, hkm, hkey⟩
  exact ⟨owner, km, key, ho, (agree owner ho).trans hkm, hkey⟩

theorem Supported.keymap?_sweep {s : Store α} {roots : List KeymapId} {K : KeymapId → Prop}
    (h : s.Supported roots K) {id : KeymapId} (hid : K id) :
    (s.sweep roots).keymap? id = s.keymap? id := by
  refine Store.keymap?_sweep (mem_held.2 ((h id hid).imp_right ?_))
  rintro ⟨owner, km, key, _, hkm, hkey⟩
  exact ⟨owner, km, key, hkm, hkey⟩

theorem Supported.keymap?_collect {s : Store α} {roots : List KeymapId} {K : KeymapId → Prop}
    (h : s.Supported roots K) {id : KeymapId} (hid : K id) :
    (s.collect roots).keymap? id = s.keymap? id := by
  fun_induction collect s roots with
  | case1 s swept _ ih =>
      have agree (id : KeymapId) (hid : K id) := h.keymap?_sweep hid
      exact (ih (h.of_agree agree)).trans (agree id hid)
  | case2 s => rfl

theorem Supported.keymap?_release {s : Store α} {roots : List KeymapId} {K : KeymapId → Prop}
    (h : s.Supported (s.handles ++ roots) K) {id : KeymapId} (hid : K id) :
    (s.release roots).keymap? id = s.keymap? id :=
  h.keymap?_collect hid

/-! ## What is released -/

/-- What is left in the end is held by what is left. -/
theorem mem_held_of_alive_collect {s : Store α} {roots : List KeymapId} {id : KeymapId}
    (h : (s.collect roots).alive id) : id ∈ (s.collect roots).held roots := by
  fun_induction collect s roots with
  | case1 s swept _ ih => exact ih h
  | case2 s swept hlt =>
      -- a keymap that is not held would have been taken away by another sweep
      have all : swept.keymaps.size = s.keymaps.size :=
        Nat.le_antisymm Std.TreeMap.size_filter_le_size (Nat.le_of_not_lt hlt)
      have kept := Std.TreeMap.size_filter_eq_size_iff.1 all id (Std.TreeMap.mem_iff_contains.2 h)
      rw [Std.TreeMap.getKey_eq] at kept
      exact Std.TreeSet.mem_iff_contains.2 kept

theorem Owns.trans {s : Store α} {a b c : KeymapId} (hab : s.Owns a b) (hbc : s.Owns b c) :
    s.Owns a c := by
  induction hbc with
  | self => exact hab
  | step _ hkm hkey ih => exact .step ih hkm hkey

/-- Nothing new is owned by what is unchanged. -/
theorem Retains.owns_of_owns {s t : Store α} {root a b : KeymapId} (h : s.Retains root t)
    (ha : s.Owns root a) (ho : t.Owns a b) : s.Owns a b := by
  induction ho with
  | self => exact .self
  | step _ hkm hk ih => exact .step ih ((h _ (ha.trans ih)).symm.trans hkm) hk

/-- A keymap owns another one by one key at least. -/
def OwnsInside (s : Store α) (owner id : KeymapId) : Prop :=
  ∃ km key next, s.keymap? owner = some km ∧ km.slots.ownedAt? key = some next ∧ s.Owns next id

theorem OwnsInside.owns {s : Store α} {owner id : KeymapId} (h : s.OwnsInside owner id) :
    s.Owns owner id := by
  obtain ⟨km, key, next, hkm, hkey, ho⟩ := h
  exact (Owns.step .self hkm hkey).trans ho

theorem OwnsInside.trans_owns {s : Store α} {a b c : KeymapId} (hab : s.OwnsInside a b)
    (hbc : s.Owns b c) : s.OwnsInside a c := by
  obtain ⟨km, key, next, hkm, hkey, ho⟩ := hab
  exact ⟨km, key, next, hkm, hkey, ho.trans hbc⟩

/-- If nothing outside a set, neither a root nor an owner, holds what is in it, then what is left of
the set is owned by a keymap that owns itself. -/
theorem exists_ownsInside_self {s : Store α} {roots : List KeymapId} {P : KeymapId → Prop}
    (hroots : ∀ id ∈ roots, ¬P id)
    (owner : ∀ owner km key id, s.keymap? owner = some km → km.slots.ownedAt? key = some id →
      P id → P owner)
    {id : KeymapId} (alive : (s.collect roots).alive id) (hid : P id) :
    ∃ c, (s.collect roots).OwnsInside c c ∧ (s.collect roots).Owns c id := by
  have within := s.within_collect roots
  have held (c : KeymapId) : (s.collect roots).alive c → c ∈ (s.collect roots).held roots :=
    mem_held_of_alive_collect
  generalize s.collect roots = t at alive within held ⊢
  by_contra none
  simp only [not_exists, not_and] at none
  -- all that own the keymap, in the order of ownership, which has a first one if there is no circle
  let Above := { c : KeymapId // t.alive c ∧ P c ∧ t.Owns c id }
  have : Finite Above := by
    refine Finite.of_injective (fun c : Above => (⟨c.1, lt_next_of_alive c.2.1⟩ : Fin t.next)) ?_
    intro c d h
    exact Subtype.ext (Fin.mk.inj h)
  let before (c d : Above) : Prop := t.OwnsInside c.1 d.1
  have : IsTrans Above before := ⟨fun _ _ _ hab hbc => hab.trans_owns hbc.owns⟩
  have : Std.Irrefl before := ⟨fun c h => none c.1 h c.2.2.2⟩
  obtain ⟨c, -, first⟩ := (Finite.wellFounded_of_trans_of_irrefl before).has_min Set.univ
    ⟨⟨id, alive, hid, .self⟩, trivial⟩
  rcases mem_held.1 (held c.1 c.2.1) with hr | ⟨o, km, key, hkm, hkey⟩
  · exact hroots c.1 hr c.2.2.1
  · have howns : t.OwnsInside o c.1 := ⟨km, key, c.1, hkm, hkey, .self⟩
    have ho : P o := owner o km key c.1 (within o km hkm) hkey c.2.2.1
    exact first ⟨o, alive_of_keymap? hkm, ho, howns.owns.trans c.2.2.2⟩ trivial howns

/-! ## Nothing to release -/

/-- Every keymap is held. -/
def Settled (s : Store α) (roots : List KeymapId) : Prop := ∀ id, s.alive id → id ∈ s.held roots

theorem settled_collect (s : Store α) (roots : List KeymapId) : (s.collect roots).Settled roots :=
  fun _ => mem_held_of_alive_collect

theorem Settled.mono {s : Store α} {roots more : List KeymapId} (h : s.Settled roots)
    (sub : roots ⊆ more) : s.Settled more :=
  fun id alive => mem_held.2 ((mem_held.1 (h id alive)).imp_left fun hid => sub hid)

theorem Settled.collect_eq {s : Store α} {roots : List KeymapId} (h : s.Settled roots) :
    s.collect roots = s := by
  have all : (s.sweep roots).keymaps.size = s.keymaps.size := by
    refine Std.TreeMap.size_filter_eq_size_iff.2 fun id hid => ?_
    rw [Std.TreeMap.getKey_eq]
    exact Std.TreeSet.mem_iff_contains.1 (h id (Std.TreeMap.mem_iff_contains.1 hid))
  rw [collect]
  exact if_neg (Nat.not_lt_of_le all.ge)

end Store

end ModalKeys
