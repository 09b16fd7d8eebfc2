import ModalKeys.Proofs.Keymap.Regions
import ModalKeys.Proofs.Keymap.Serving

/-!
# Compiled keymaps are trees

The keymaps of a configuration own each other as a tree: a keymap is bound to keys of one keymap only,
which is older. Aliases lead up in the tree. Thus nothing is missing as long as the topmost keymap is
held, and nothing stays once it is not. A compilation that fails leaves such keymaps behind as well, and
none of them stays either.
-/

namespace ModalKeys

variable {α σ : Type}

namespace Store

/-! ## Parents -/

/-- A key of the one keymap is bound to the other one, and is not an alias. -/
def Parent (s : Store α) (owner id : KeymapId) : Prop :=
  ∃ key, (s.slot? owner key).bind Slot.owned? = some id

theorem parent_of_keymap? {s : Store α} {owner id : KeymapId} {km : Keymap α} {key : Char}
    (hkm : s.keymap? owner = some km) (hk : km.slots.ownedAt? key = some id) : s.Parent owner id :=
  ⟨key, by rw [slot?_eq hkm]; exact hk⟩

theorem Parent.exists_keymap? {s : Store α} {owner id : KeymapId} (h : s.Parent owner id) :
    ∃ km key, s.keymap? owner = some km ∧ km.slots.ownedAt? key = some id := by
  obtain ⟨key, h⟩ := h
  obtain ⟨slot, hs, ho⟩ := Option.bind_eq_some_iff.1 h
  obtain ⟨km, hkm, hk⟩ := exists_ownedAt? hs ho
  exact ⟨km, key, hkm, hk⟩

theorem Parent.exists_slot? {s : Store α} {owner id : KeymapId} (h : s.Parent owner id) :
    ∃ key slot, s.slot? owner key = some slot ∧ slot.binding.keymap? = some id := by
  obtain ⟨key, h⟩ := h
  obtain ⟨slot, hs, ho⟩ := Option.bind_eq_some_iff.1 h
  exact ⟨key, slot, hs, Slot.keymap?_of_owned? ho⟩

/-- Whatever a keymap owns has a parent that it owns as well, except for the keymap itself. -/
theorem Owns.exists_parent {s : Store α} {root id : KeymapId} (h : s.Owns root id) (hne : id ≠ root) :
    ∃ owner, s.Owns root owner ∧ s.Parent owner id := by
  cases h with
  | self => exact absurd rfl hne
  | step ho hkm hk => exact ⟨_, ho, parent_of_keymap? hkm hk⟩

theorem Parent.of_within {s t : Store α} (h : t.Within s) {owner id : KeymapId}
    (hp : t.Parent owner id) : s.Parent owner id := by
  obtain ⟨km, key, hkm, hk⟩ := hp.exists_keymap?
  exact parent_of_keymap? (h owner km hkm) hk

theorem Parent.of_create {s : Store α} {name help : Option String} {owner id : KeymapId}
    (h : (s.create name help).2.Parent owner id) : s.Parent owner id := by
  obtain ⟨key, h⟩ := h
  rw [slot?_create] at h
  split at h
  · cases h
  · exact ⟨key, h⟩

theorem Parent.of_putAll {s : Store α} {km : KeymapId} {keys : List Char} {slot : Slot α}
    {owner id : KeymapId} (h : (s.putAll km keys slot).Parent owner id) :
    s.Parent owner id ∨ owner = km ∧ slot.owned? = some id := by
  obtain ⟨key, h⟩ := h
  rw [slot?_putAll] at h
  split at h
  · next here => exact Or.inr ⟨here.1, h⟩
  · exact Or.inl ⟨key, h⟩

/-- If parents are always in a set whenever their children are, then owners are. -/
theorem Owns.of_closed {s : Store α} {P : KeymapId → Prop}
    (closed : ∀ owner id, s.Parent owner id → P id → P owner) {a b : KeymapId} (h : s.Owns a b)
    (hb : P b) : P a := by
  induction h with
  | self => exact hb
  | step _ hkm hk ih => exact ih (closed _ _ (parent_of_keymap? hkm hk) hb)

/-- Keymaps that nothing else holds are released, unless some of them own themselves. -/
theorem not_alive_release_of_closed {s : Store α} {roots : List KeymapId} {P : KeymapId → Prop}
    (unheld : ∀ id ∈ s.handles ++ roots, ¬P id)
    (closed : ∀ owner id, s.Parent owner id → P id → P owner)
    (noCircle : ∀ id, P id → ¬s.OwnsInside id id) {id : KeymapId} (hid : P id) :
    ¬(s.release roots).alive id := by
  intro alive
  have within := s.within_release roots
  obtain ⟨c, circle, owns⟩ := exists_ownsInside_self unheld
    (fun _ _ _ _ hkm hk => closed _ _ (parent_of_keymap? hkm hk)) alive hid
  obtain ⟨km, key, next, hkm, hk, ho⟩ := circle
  exact noCircle c ((within.owns owns).of_closed closed hid)
    ⟨km, key, next, within c km hkm, hk, within.owns ho⟩

/-! ## Trees -/

/-- No number is in use that has not been given out. -/
structure Numbered (s : Store α) : Prop where
  handle : ∀ id ∈ s.handles, id < s.next
  slot : ∀ id key slot next, s.slot? id key = some slot → slot.binding.keymap? = some next →
    next < s.next

theorem numbered_default : (default : Store α).Numbered where
  handle := nofun
  slot := nofun

/-- What `root` owns is a tree, and aliases in it lead from a keymap to itself or to one further up. -/
structure OwnershipTree (s : Store α) (root : KeymapId) : Prop where
  parent : ∀ id, s.Owns root id → id ≠ root → ∃ owner, s.Owns root owner ∧ s.Parent owner id ∧
    ∀ other, s.Parent other id → other = owner
  top : ∀ owner, ¬s.Parent owner root
  noCircle : ∀ id, s.Owns root id → ¬s.OwnsInside id id
  back : ∀ id key target, s.Owns root id → s.slot? id key = some (.aliasOf target) →
    s.Owns root target ∧ s.Owns target id

/-! ## New keymaps -/

/-- From a number on, keymaps have one parent at most, and an older one. Those that are being filled
have none yet, and the inner ones are newer. -/
structure Parented (start : Nat) (enclosing : List KeymapId) (s : Store α) : Prop where
  order : enclosing.Pairwise fun inner outer : Nat => outer < inner
  free : ∀ id ∈ enclosing, ∀ owner : Nat, start ≤ owner → ¬s.Parent owner id
  lt : ∀ owner id : Nat, start ≤ owner → s.Parent owner id → owner < id
  unique : ∀ owner other id : Nat, start ≤ owner → start ≤ other → s.Parent owner id →
    s.Parent other id → owner = other

namespace Parented

variable {start : Nat} {enclosing : List KeymapId} {s t : Store α}

theorem of_parent (h : Parented start enclosing s)
    (sub : ∀ owner id, t.Parent owner id → s.Parent owner id) : Parented start enclosing t where
  order := h.order
  free id hid owner ho hp := h.free id hid owner ho (sub _ _ hp)
  lt owner id ho hp := h.lt owner id ho (sub _ _ hp)
  unique owner other id ho ho' hp hp' := h.unique owner other id ho ho' (sub _ _ hp) (sub _ _ hp')

/-- A new keymap is newer than those around it. -/
theorem create (h : Parented start enclosing s) (lt : ∀ id : Nat, id ∈ enclosing → id < s.next)
    (owned : ∀ owner id : Nat, start ≤ owner → s.Parent owner id → id < s.next)
    (name help : Option String) : Parented start (s.next :: enclosing) (s.create name help).2 := by
  refine ⟨List.pairwise_cons.2 ⟨lt, h.order⟩, ?_, ?_, ?_⟩
  · intro id hid owner ho hp
    rcases List.mem_cons.1 hid with rfl | hid
    · exact Nat.lt_irrefl _ (owned owner _ ho hp.of_create)
    · exact h.free id hid owner ho hp.of_create
  · exact fun owner id ho hp => h.lt owner id ho hp.of_create
  · exact fun owner other id ho ho' hp hp' =>
      h.unique owner other id ho ho' hp.of_create hp'.of_create

/-- The innermost keymap gets its parent once it has been filled. -/
theorem close {inner km : Nat} (h : Parented start (inner :: km :: enclosing) s) (keys : List Char) :
    Parented start (km :: enclosing) (s.putAll km keys (.bound (.keymap inner))) := by
  obtain ⟨newer, order⟩ := List.pairwise_cons.1 h.order
  refine ⟨order, ?_, ?_, ?_⟩
  · intro id hid owner ho hp
    rcases hp.of_putAll with hp | ⟨rfl, hi⟩
    · exact h.free id (List.mem_cons_of_mem _ hid) owner ho hp
    · cases hi
      exact Nat.lt_irrefl _ (newer _ hid)
  · intro owner id ho hp
    rcases hp.of_putAll with hp | ⟨rfl, hi⟩
    · exact h.lt owner id ho hp
    · cases hi
      exact newer _ List.mem_cons_self
  · intro owner other id ho ho' hp hp'
    rcases hp.of_putAll with old | ⟨rfl, hi⟩ <;> rcases hp'.of_putAll with old' | ⟨rfl, hi'⟩
    · exact h.unique owner other id ho ho' old old'
    · cases hi'
      exact absurd old (h.free _ List.mem_cons_self owner ho)
    · cases hi
      exact absurd old' (h.free _ List.mem_cons_self other ho')
    · rfl

theorem le_of_owns (h : Parented start enclosing s) {a b : Nat} (ha : start ≤ a)
    (ho : s.Owns a b) : a ≤ b := by
  induction ho with
  | self => exact Nat.le_refl _
  | step _ hkm hk ih =>
      have older := h.lt _ _ (Nat.le_trans ha ih) (parent_of_keymap? hkm hk)
      exact Nat.le_trans ih (Nat.le_of_lt older)

theorem not_ownsInside_self (h : Parented start enclosing s) {id : Nat} (hid : start ≤ id) :
    ¬s.OwnsInside id id := by
  rintro ⟨km, key, next, hkm, hk, ho⟩
  have older := h.lt id next hid (parent_of_keymap? hkm hk)
  exact Nat.not_le_of_lt older (h.le_of_owns (Nat.le_trans hid (Nat.le_of_lt older)) ho)

end Parented

/-- A compilation keeps the order of its keymaps. -/
theorem kept_parented (s : Store (Action σ)) : Config.Kept (fun _ _ => true) fun enclosing t =>
    (s.Extends t ∧ ∀ k : Nat, k ∈ enclosing → s.next ≤ k ∧ k < t.next) ∧
      Parented s.next enclosing t where
  create enclosing t id help h := by
    refine ⟨(kept_extends s).create enclosing t id help h.1, h.2.create (fun k hk => ?_) ?_ id help⟩
    · exact (h.1.2 k hk).2
    · intro owner id ho hp
      obtain ⟨key, slot, hs, hx⟩ := hp.exists_slot?
      exact (h.1.1.inside owner key slot id ho hs hx).2
  tag km enclosing t h := ⟨(kept_extends s).tag km enclosing t h.1, h.2.of_parent fun _ _ => id⟩
  put km enclosing t keys slot h := by
    refine ⟨(kept_extends s).put km enclosing t keys slot (h.imp fun _ _ h => h.1), ?_⟩
    have owned_none (hn : slot.owned? = none) (owner id : KeymapId)
        (hp : (t.putAll km keys slot).Parent owner id) : t.Parent owner id := by
      refine hp.of_putAll.resolve_right fun hi => ?_
      cases hn.symm.trans hi.2
    cases h with
    | action h => exact h.2.of_parent (owned_none rfl)
    | back h => exact h.2.of_parent (owned_none rfl)
    | keymap h => exact h.2.close keys

section Compiled

variable {s s' t : Store (Action σ)} {config : Json} {root : KeymapId}

/-- Only new keymaps own new ones. -/
theorem Extends.le_of_parent (h : s.Extends t) (numbered : s.Numbered) {owner id : Nat}
    (hp : t.Parent owner id) (hid : s.next ≤ id) : s.next ≤ owner := by
  refine Nat.le_of_not_lt fun lt => ?_
  obtain ⟨key, slot, hs, hx⟩ := hp.exists_slot?
  rw [slot?_of_agree (h.keymap? owner lt)] at hs
  exact Nat.not_lt_of_le hid (numbered.slot owner key slot id hs hx)

/-- Wherever a compilation has stopped, its keymaps go once nobody holds them. -/
theorem not_alive_of_parented {enclosing : List KeymapId} (numbered : s.Numbered)
    (ext : s.Extends t) (parented : Parented s.next enclosing t) {roots : List KeymapId}
    (old : ∀ id ∈ roots, id < s.next) {id : Nat} (hid : s.next ≤ id) :
    ¬(t.release roots).alive id := by
  refine not_alive_release_of_closed (P := fun id : Nat => s.next ≤ id) ?_ ?_ ?_ hid
  · intro id hh
    rw [ext.handles] at hh
    refine Nat.not_le_of_lt ?_
    exact (List.mem_append.1 hh).elim (numbered.handle id) (old id)
  · exact fun owner id hp => ext.le_of_parent numbered hp
  · exact fun id => parented.not_ownsInside_self

theorem parented_start (s : Store (Action σ)) :
    (s.Extends s ∧ ∀ k : Nat, k ∈ [] → s.next ≤ k ∧ k < s.next) ∧ Parented s.next [] s := by
  have none (owner id : Nat) (ho : s.next ≤ owner) : ¬s.Parent owner id := by
    intro hp
    obtain ⟨km, key, hkm, -⟩ := hp.exists_keymap?
    exact Nat.not_le_of_lt (lt_next_of_alive (alive_of_keymap? hkm)) ho
  refine ⟨⟨.refl s, nofun⟩, .nil, nofun, ?_, ?_⟩
  · exact fun owner id ho hp => absurd hp (none owner id ho)
  · exact fun owner other id ho _ hp _ => absurd hp (none owner id ho)

theorem parented_of_compile (compiled : s.compile config = .ok (root, s')) :
    Parented s.next [root] s' :=
  ((kept_parented s).compile (parented_start s) (Config.everyBack_true config) compiled).2

/-- Aliases lead up. -/
theorem back_of_compile (compiled : s.compile config = .ok (root, s')) {id target : KeymapId}
    {key : Char} (ho : s'.Owns root id) (hs : s'.slot? id key = some (.aliasOf target)) :
    s'.Owns root target ∧ s'.Owns target id := by
  obtain ⟨members, rfl, built⟩ := built_of_compile compiled
  obtain ⟨place, outer, ids, tracks, around⟩ := exists_tracks built ho
  obtain ⟨i, v, -, hr⟩ := exists_represents tracks hs
  rw [Config.Represents] at hr
  cases hv : Config.meaning v with
  | keymap inner =>
      rw [hv] at hr
      cases hr
  | back levels =>
      rw [hv] at hr
      obtain ⟨_, ht, h⟩ := hr
      cases h
      have mem := List.mem_of_getElem? ht
      exact ⟨Tracks.owns_of_mem tracks mem, around target mem⟩
  | action =>
      rw [hv] at hr
      cases hr

theorem ownershipTree_of_compile (numbered : s.Numbered)
    (compiled : s.compile config = .ok (root, s')) : s'.OwnershipTree root := by
  have parented := parented_of_compile compiled
  have ext := extends_of_compile compiled
  have new {id : KeymapId} (ho : s'.Owns root id) : s.next ≤ (id : Nat) := le_of_owns compiled ho
  constructor
  · intro id ho hne
    obtain ⟨owner, howner, hp⟩ := ho.exists_parent hne
    refine ⟨owner, howner, hp, fun other hp' => ?_⟩
    exact parented.unique other owner id (ext.le_of_parent numbered hp' (new ho)) (new howner) hp' hp
  · intro owner hp
    exact parented.free root List.mem_cons_self owner (ext.le_of_parent numbered hp (new .self)) hp
  · exact fun id ho => parented.not_ownsInside_self (new ho)
  · exact fun id key target => back_of_compile compiled

/-- While all that the topmost keymap owns is there, every key of a keymap that can be reached leads
somewhere. -/
theorem isSome_lookup_of_retains (compiled : s.compile config = .ok (root, s'))
    (kept : s'.Retains root t) {keys : List Char} {id : KeymapId}
    (hw : t.walk root keys = some (.keymap id)) {key : Char} (hk : key ∈ t.keys id) :
    (t.lookup id key).isSome := by
  have encl := (encloses_of_compile compiled).of_agree kept
  have inside : s'.Owns root id := encl.of_walk .self hw
  obtain ⟨slot, hs⟩ := Option.isSome_iff_exists.1 (mem_keys.1 hk)
  rw [encl.lookup inside, hs]
  rfl

/-- Once nothing outside of it holds any of its keymaps, a compiled tree is gone. -/
theorem not_alive_of_retains (numbered : s.Numbered)
    (compiled : s.compile config = .ok (root, s')) (kept : s'.Retains root t)
    {roots : List KeymapId} (unheld : ∀ id ∈ t.handles ++ roots, ¬s'.Owns root id)
    (inside : ∀ owner id, t.Parent owner id → s'.Owns root id → s'.Owns root owner)
    {id : KeymapId} (ho : s'.Owns root id) : ¬(t.release roots).alive id := by
  refine not_alive_release_of_closed unheld inside (fun id ho circle => ?_) ho
  obtain ⟨km, key, next, hkm, hk, owns⟩ := circle
  have hkm' := (kept id ho).symm.trans hkm
  refine (ownershipTree_of_compile numbered compiled).noCircle id ho ⟨km, key, next, hkm', hk, ?_⟩
  exact kept.owns_of_owns (.step ho hkm' hk) owns

end Compiled

/-- A compiled keymap owns others as a tree, with aliases that lead up. While it is held and nothing in
it changes, each key of a keymap that can be reached leads somewhere. Once neither it nor any keymap in
it is held from outside, all of them are gone. A compilation that fails leaves nothing either. -/
theorem ownershipTree_compile {s : Store (Action σ)} (numbered : s.Numbered) (config : Json) :
    match s.compile config with
    | .ok (root, s') =>
        s'.OwnershipTree root ∧
        (∀ t, s'.Retains root t →
          (∀ keys id, t.walk root keys = some (.keymap id) → ∀ key ∈ t.keys id,
            (t.lookup id key).isSome) ∧
          (∀ roots, root ∈ t.handles ++ roots → s'.Retains root (t.release roots)) ∧
          ∀ roots, (∀ id ∈ t.handles ++ roots, ¬s'.Owns root id) →
            (∀ owner id, t.Parent owner id → s'.Owns root id → s'.Owns root owner) →
            ∀ id, s'.Owns root id → ¬(t.release roots).alive id) ∧
        ∀ roots, (∀ id ∈ roots, id < s.next) → ∀ id : Nat, s.next ≤ id →
          ¬(((s'.hold root).drop root).release roots).alive id
    | .error error =>
        (s.attempt config).1 = .error error ∧
        ∀ roots, (∀ id ∈ roots, id < s.next) → ∀ id : Nat, s.next ≤ id →
          ¬((s.attempt config).2.release roots).alive id := by
  cases compiled : s.compile config with
  | ok r =>
      obtain ⟨root, s'⟩ := r
      refine ⟨ownershipTree_of_compile numbered compiled, fun t kept => ⟨?_, ?_, ?_⟩, ?_⟩
      · exact fun keys id hw key hk => isSome_lookup_of_retains compiled kept hw hk
      · exact fun roots hr => kept.trans (retains_release hr)
      · exact fun roots unheld inside id ho =>
          not_alive_of_retains numbered compiled kept unheld inside ho
      · intro roots old id hid
        have given_up : (s'.hold root).drop root = s' := by
          rw [drop, hold, List.erase_cons_head]
        rw [given_up]
        exact not_alive_of_parented numbered (extends_of_compile compiled)
          (parented_of_compile compiled) old hid
  | error error =>
      obtain ⟨failed, still, kept⟩ :=
        (kept_parented s).attempt (parented_start s) (Config.everyBack_true config) compiled
      refine ⟨failed, fun roots old id hid => ?_⟩
      exact not_alive_of_parented numbered kept.1.1 kept.2 old hid

/-- A range of keys shares a keymap with ways back, one of which is taken away by a later entry; and a
compilation that fails after it has created keymaps. -/
theorem ownershipTree_compile_shared_range :
    let config : Json := .object [
      ("a-c", .object [("d", .object [("u", .number (.integer (-2)))]), ("u", .number (.integer 0))]),
      ("b", .string "back")]
    let broken : Json := .object [("a", .object [("b", .object [])]), ("c", .null)]
    (∃ root s', (default : Store (Action Unit)).compile config = .ok (root, s') ∧
      s'.OwnershipTree root ∧ (∃ id, s'.Parent root id) ∧
      ∀ id : Nat, 0 ≤ id → ¬(((s'.hold root).drop root).release []).alive id) ∧
    (default : Store (Action Unit)).next < ((default : Store (Action Unit)).attempt broken).2.next ∧
      ∀ id : Nat, 0 ≤ id → ¬(((default : Store (Action Unit)).attempt broken).2.release []).alive id := by
  intro config broken
  constructor
  · have h := ownershipTree_compile (numbered_default (α := Action Unit)) config
    obtain ⟨⟨root, s'⟩, compiled, owned⟩ : ∃ r, (default : Store (Action Unit)).compile config = .ok r ∧
        (r.2.slot? r.1 'a').bind Slot.owned? = some 1 := ⟨_, rfl, by decide +kernel⟩
    rw [compiled] at h
    exact ⟨root, s', compiled, h.1, ⟨1, 'a', owned⟩, h.2.2 [] nofun⟩
  · have h := ownershipTree_compile (numbered_default (α := Action Unit)) broken
    obtain ⟨error, failed⟩ : ∃ e, (default : Store (Action Unit)).compile broken = .error e :=
      ⟨_, rfl⟩
    rw [failed] at h
    exact ⟨by decide +kernel, h.2 [] nofun⟩

end Store

end ModalKeys
