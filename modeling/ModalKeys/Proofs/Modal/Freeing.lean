import ModalKeys.Proofs.Keymap.Compiling
import ModalKeys.Proofs.Modal.Layers
import ModalKeys.Proofs.Modal.Step

/-!
# What clearing a modal frees

A modal that is cleared, given a new root or dropped holds none of the keymaps that were merged into it.
They are freed, unless keymaps that own each other in a circle keep them. Merging makes no such circle
as long as it meets no alias: each keymap has a rank then, its distance from the root, and owns keymaps
of the next rank only. An alias can lead it to keymaps of another rank, and then it can make a circle.
-/

namespace ModalKeys

variable {α σ : Type}

namespace Store

theorem owned?_of_resolve {s : Store α} {slot : Slot α} {id : KeymapId}
    (h : s.resolve slot = some (.keymap id)) (bound : slot.alias? = none) :
    slot.owned? = some id := by
  unfold resolve at h
  split at h
  · cases h
  · split at h
    · cases h
      rfl
    · cases h
  · cases bound

/-! ## Circles -/

/-- A keymap is owned by one that owns itself by way of others. -/
def Circled (s : Store α) (id : KeymapId) : Prop := ∃ c, s.OwnsInside c c ∧ s.Owns c id

/-- All that stays beside a keymap without keys is owned by keymaps in a circle. -/
theorem circled_of_alive {s : Store α} {root id : KeymapId} (empty : ∀ key, s.slot? root key = none)
    (alive : (s.collect [root]).alive id) : id = root ∨ (s.collect [root]).Circled id := by
  rw [or_iff_not_imp_left]
  intro hne
  refine exists_ownsInside_self (P := (· ≠ root)) ?_ ?_ alive hne
  · intro x hx
    simpa using hx
  · rintro owner km key x hkm hk - rfl
    rw [Slots.ownedAt?, ← slot?_eq hkm, empty] at hk
    cases hk

/-- A keymap that is bound to one of its own keys stays, whatever is held. -/
theorem alive_collect_of_owns_self {s : Store α} {id : KeymapId} (key : Char)
    (h : (s.slot? id key).bind Slot.owned? = some id) (roots : List KeymapId) :
    (s.collect roots).alive id := by
  obtain ⟨slot, hs, ho⟩ := Option.bind_eq_some_iff.1 h
  obtain ⟨km, hkm, hk⟩ := slot?_eq_some_iff.1 hs
  have owned : km.slots.ownedAt? key = some id := by
    rw [Slots.ownedAt?, hk]
    exact ho
  have supported : s.Supported roots (· = id) := by
    rintro x rfl
    exact Or.inr ⟨x, km, key, rfl, hkm, owned⟩
  exact alive_of_keymap? ((supported.keymap?_collect rfl).trans hkm)

/-- All that stays without any root is owned by keymaps in a circle. -/
theorem circled_of_alive_nil {s : Store α} {id : KeymapId} (alive : (s.collect []).alive id) :
    (s.collect []).Circled id :=
  exists_ownsInside_self (P := fun _ => True) (fun _ hx => absurd hx List.not_mem_nil)
    (fun _ _ _ _ _ _ _ => trivial) alive trivial

/-! ## Ranks -/

/-- There are no aliases, and a keymap owns keymaps of the next rank only. -/
structure Graded (s : Store α) (rank : KeymapId → Nat) : Prop where
  bound : ∀ id key slot, s.slot? id key = some slot → slot.alias? = none
  next : ∀ id key slot next, s.slot? id key = some slot → slot.owned? = some next →
    rank next = rank id + 1 ∧ next < s.next

namespace Graded

variable {s t : Store α} {rank : KeymapId → Nat}

theorem of_slots (h : s.Graded rank)
    (slots : ∀ id key slot, t.slot? id key = some slot → s.slot? id key = some slot)
    (next : s.next ≤ t.next) : t.Graded rank where
  bound id key slot hs := h.bound id key slot (slots id key slot hs)
  next id key slot child hs ho := by
    obtain ⟨hr, hlt⟩ := h.next id key slot child (slots id key slot hs) ho
    exact ⟨hr, Nat.lt_of_lt_of_le hlt next⟩

theorem release (h : s.Graded rank) (roots : List KeymapId) : (s.release roots).Graded rank :=
  h.of_slots (fun _ _ _ => (s.within_release roots).slot?) (Nat.le_of_eq (s.next_release roots).symm)

theorem putAll (h : s.Graded rank) {a : KeymapId} (keys : List Char) {slot : Slot α}
    (bound : slot.alias? = none)
    (next : ∀ next, slot.owned? = some next → rank next = rank a + 1 ∧ next < s.next) :
    (s.putAll a keys slot).Graded rank where
  bound id k found hs := by
    rw [slot?_putAll] at hs
    split at hs
    · cases hs
      exact bound
    · exact h.bound id k found hs
  next id k found child hs ho := by
    rw [slot?_putAll] at hs
    split at hs
    · next here =>
        cases hs
        rw [here.1]
        exact next child ho
    · exact h.next id k found child hs ho

theorem rank_le_of_owns (h : s.Graded rank) {a b : KeymapId} (ho : s.Owns a b) :
    rank a ≤ rank b := by
  induction ho with
  | self => exact Nat.le_refl _
  | step _ hkm hk ih =>
      obtain ⟨slot, hs, ho⟩ := Option.bind_eq_some_iff.1 hk
      have := (h.next _ _ slot _ ((slot?_eq hkm _).trans hs) ho).1
      omega

/-- Ranks rule out circles. -/
theorem not_ownsInside_self (h : s.Graded rank) (id : KeymapId) : ¬s.OwnsInside id id := by
  rintro ⟨km, key, next, hkm, hk, hn⟩
  obtain ⟨slot, hs, ho⟩ := Option.bind_eq_some_iff.1 hk
  have above := (h.next _ _ slot _ ((slot?_eq hkm _).trans hs) ho).1
  have below := h.rank_le_of_owns hn
  omega

theorem not_circled (h : s.Graded rank) (id : KeymapId) : ¬s.Circled id := by
  rintro ⟨c, hc, -⟩
  exact h.not_ownsInside_self c hc

/-- Merging keymaps of one rank keeps all ranks: it goes down both sides at the same time. -/
theorem merge (h : s.Graded rank) (roots : List KeymapId) {a b : KeymapId}
    (hab : rank a = rank b) : (s.merge roots a b).Graded rank := by
  have rule : MergeRule roots (fun t : Store α => t.Graded rank ∧ t.next = s.next)
      (fun a b => rank a = rank b)
      (fun b slot => slot.alias? = none ∧
        ∀ next, slot.owned? = some next → rank next = rank b + 1 ∧ next < s.next) :=
    { release := fun t more ht => ⟨ht.1.release _, (t.next_release _).trans ht.2⟩
      put := by
        intro t a b key slot ht hab hs
        refine ⟨ht.1.putAll [key] hs.1 fun next ho => ?_, ht.2⟩
        rw [hab, ht.2]
        exact hs.2 next ho
      slots := by
        intro t a b key slot ht _ hs
        refine ⟨ht.1.bound b key slot hs, fun next ho => ?_⟩
        rw [← ht.2]
        exact ht.1.next b key slot next hs ho
      descend := by
        intro t a b key slot c d ht hab hs hc hd
        obtain ⟨ours, ho, hc⟩ := Option.bind_eq_some_iff.1 hc
        have below := (ht.1.next a key ours c ho
          (owned?_of_resolve hc (ht.1.bound a key ours ho))).1
        have below' := (hs.2 d (owned?_of_resolve hd hs.1)).1
        rw [below, below', hab] }
  exact (rule.merge ⟨h, rfl⟩ hab).1

/-! ## Ranks of new keymaps -/

/-- Keymaps that are being filled, innermost first, have the ranks from 0 on, outermost first. -/
def Ranked (rank : KeymapId → Nat) : List KeymapId → Prop
  | [] => True
  | id :: enclosing => rank id = enclosing.length ∧ Ranked rank enclosing

theorem Ranked.of_agree {rank rank' : KeymapId → Nat} {enclosing : List KeymapId}
    (h : Ranked rank enclosing) (agree : ∀ id ∈ enclosing, rank' id = rank id) :
    Ranked rank' enclosing := by
  induction enclosing with
  | nil => trivial
  | cons id enclosing ih =>
      exact ⟨(agree id List.mem_cons_self).trans h.1,
        ih h.2 fun x hx => agree x (List.mem_cons_of_mem _ hx)⟩

/-- The store of a compilation has ranks that extend the old ones. -/
structure Extended (s : Store (Action σ)) (rank : KeymapId → Nat) (enclosing : List KeymapId)
    (t : Store (Action σ)) (rank' : KeymapId → Nat) : Prop where
  graded : t.Graded rank'
  ranked : Ranked rank' enclosing
  lt : ∀ id ∈ enclosing, id < t.next
  next : s.next ≤ t.next
  agree : ∀ id, id < s.next → rank' id = rank id

theorem kept_extended (s : Store (Action σ)) (rank : KeymapId → Nat) :
    Config.Kept (fun _ _ => false) fun enclosing t => ∃ rank', Extended s rank enclosing t rank' where
  create enclosing t id help h := by
    obtain ⟨rank', h⟩ := h
    let rank'' := Function.update rank' t.next enclosing.length
    have old {x : KeymapId} (hx : x < t.next) : rank'' x = rank' x :=
      Function.update_of_ne (Nat.ne_of_lt hx) ..
    have slot {x : KeymapId} {key : Char} {slot : Slot (Action σ)}
        (hs : (t.create id help).2.slot? x key = some slot) : t.slot? x key = some slot ∧
          x < t.next := by
      obtain ⟨km, hkm, hk⟩ := slot?_eq_some_iff.1 hs
      rw [keymap?_create] at hkm
      split at hkm
      · cases hkm
        rw [Slots.get?_empty] at hk
        cases hk
      · exact ⟨slot?_eq_some_iff.2 ⟨km, hkm, hk⟩, lt_next_of_alive (alive_of_keymap? hkm)⟩
    refine ⟨rank'', ⟨fun x key sl hs => h.graded.bound x key sl (slot hs).1, ?_⟩,
      ⟨Function.update_self .., h.ranked.of_agree fun x hx => old (h.lt x hx)⟩, ?_,
      Nat.le_succ_of_le h.next, fun x hx => (old (Nat.lt_of_lt_of_le hx h.next)).trans (h.agree x hx)⟩
    · intro x key sl child hs ho
      obtain ⟨hs, hx⟩ := slot hs
      obtain ⟨hr, hlt⟩ := h.graded.next x key sl child hs ho
      rw [old hx, old hlt]
      exact ⟨hr, Nat.lt_succ_of_lt hlt⟩
    · intro x hx
      rcases List.mem_cons.1 hx with rfl | hx
      · exact Nat.lt_succ_self _
      · exact Nat.lt_succ_of_lt (h.lt x hx)
  tag km enclosing t h := by
    obtain ⟨rank', h⟩ := h
    refine ⟨rank', ⟨h.graded.bound, ?_⟩, h.ranked, ?_, Nat.le_succ_of_le h.next, h.agree⟩
    · intro x key sl child hs ho
      obtain ⟨hr, hlt⟩ := h.graded.next x key sl child hs ho
      exact ⟨hr, Nat.lt_succ_of_lt hlt⟩
    · exact fun x hx => Nat.lt_succ_of_lt (h.lt x hx)
  put km enclosing t keys slot h := by
    cases h with
    | action h =>
        obtain ⟨rank', h⟩ := h
        exact ⟨rank', h.graded.putAll keys rfl fun _ ho => (nomatch ho), h.ranked, h.lt, h.next, h.agree⟩
    | back _ hp _ => cases hp
    | keymap h =>
        obtain ⟨rank', h⟩ := h
        obtain ⟨inner, outer⟩ := h.ranked
        refine ⟨rank', h.graded.putAll keys rfl ?_, outer,
          fun x hx => h.lt x (List.mem_cons_of_mem _ hx), h.next, h.agree⟩
        intro next ho
        cases ho
        rw [inner, outer.1]
        exact ⟨rfl, h.lt _ List.mem_cons_self⟩

/-- A configuration without back references is compiled to keymaps of ranks from 0 on. -/
theorem exists_compile {s s' : Store (Action σ)} {rank : KeymapId → Nat} {config : Json}
    {root : KeymapId} (h : s.Graded rank) (forward : Config.everyBack (fun _ _ => false) config)
    (compiled : s.compile config = .ok (root, s')) :
    ∃ rank', s'.Graded rank' ∧ rank' root = 0 ∧ ∀ id, id < s.next → rank' id = rank id := by
  have start : Extended s rank [] s rank :=
    ⟨h, trivial, fun _ hx => (nomatch hx), Nat.le_refl _, fun _ _ => rfl⟩
  obtain ⟨rank', h'⟩ := (kept_extended s rank).compile ⟨rank, start⟩ forward compiled
  exact ⟨rank', h'.graded, h'.ranked.1, h'.agree⟩

end Graded

end Store

namespace Standalone

/-! ## What is done to a modal -/

/-- Compiles a configuration and merges it, without keeping a handle to it. A configuration that does
not compile is skipped. -/
def addLayer (m : Standalone σ) (config : Json) : Standalone σ :=
  match m.load config with
  | .ok (layer, m) => (m.updateKeymap layer).drop layer
  | .error _ => m

/-- What happens to a modal before its keymaps are given up. -/
inductive Input where
  | layer (config : Json)
  | key (key : Char) (now : Nat)
  | timeout (now : Nat)
  | reset

def feed (m : Standalone σ) : Input → Standalone σ
  | .layer config => m.addLayer config
  | .key key now => (m.onKey key now).1
  | .timeout now => (m.onTimeout now).1
  | .reset => m.map Modal.reset

/-- Takes a new keymap without keys as the root. -/
def renew (m : Standalone σ) : Standalone σ :=
  let (root, store) := m.store.create none none
  { store, modal := m.modal.setKeymap root : Standalone σ }.release

/-! ## Nothing is held outside the modal -/

theorem handles_updateKeymap (m : Standalone σ) (layer : KeymapId) :
    (m.updateKeymap layer).store.handles = m.store.handles := by
  rw [updateKeymap, Modal.updateKeymap]
  cases m.modal.root? with
  | none => exact Store.handles_release _ _
  | some root => exact (Store.handles_release _ _).trans (Store.handles_merge _ _ _ _)

theorem handles_feed (m : Standalone σ) (input : Input) :
    (m.feed input).store.handles = m.store.handles := by
  cases input with
  | layer config =>
      rw [feed, addLayer]
      cases h : m.load config with
      | error e => rfl
      | ok r =>
          obtain ⟨layer, m'⟩ := r
          refine (Store.handles_release _ _).trans ?_
          show (m'.updateKeymap layer).store.handles.erase layer = _
          rw [handles_updateKeymap, handles_load h, List.erase_cons_head]
  | _ => exact Store.handles_release _ _

theorem handles_foldl_feed (m : Standalone σ) (inputs : List Input) :
    (inputs.foldl feed m).store.handles = m.store.handles := by
  induction inputs generalizing m with
  | nil => rfl
  | cons input inputs ih => exact (ih (m.feed input)).trans (m.handles_feed input)

theorem root?_onKey {m : Modal σ} {root : KeymapId} (h : m.root? = some root)
    (s : Store (Action σ)) (key : Char) (now : Nat) : (m.onKey s key now).1.root? = some root := by
  obtain ⟨matcher, hm, rfl⟩ := Option.map_eq_some_iff.1 h
  rw [Modal.root?, (Modal.onKey_of_matcher? hm s key now).2.1]
  rcases matcher.onKey_cases s key (m.wait.map (now + ·)) with
    ⟨_, hk⟩ | ⟨_, hk⟩ | ⟨_, hk⟩
  all_goals rw [hk]; rfl

theorem root?_feed {m : Standalone σ} {root : KeymapId} (h : m.modal.root? = some root)
    (input : Input) : (m.feed input).modal.root? = some root := by
  cases input with
  | layer config =>
      rw [feed, addLayer]
      cases hl : m.load config with
      | error e => exact h
      | ok r =>
          obtain ⟨layer, m'⟩ := r
          have h' : m'.modal.root? = some root := by rw [modal_load hl, h]
          show (m'.updateKeymap layer).modal.root? = some root
          rw [updateKeymap_eq h']
          exact Modal.root?_mapMatcher h' fun _ => rfl
  | key key now => exact root?_onKey h m.store key now
  | timeout now =>
      show (m.modal.onTimeout now).1.root? = some root
      rcases m.modal.onTimeout_cases now with ht | ⟨_, _, ht⟩
      · rw [ht]
        exact h
      · rw [ht]
        exact Modal.root?_mapMatcher h fun _ => rfl
  | reset => exact Modal.root?_mapMatcher h fun _ => rfl

theorem root?_foldl_feed {m : Standalone σ} {root : KeymapId} (h : m.modal.root? = some root)
    (inputs : List Input) : (inputs.foldl feed m).modal.root? = some root := by
  induction inputs generalizing m with
  | nil => exact h
  | cons input inputs ih => exact ih (root?_feed h input)

/-! ## Ranks from the root on -/

/-- The keymaps have ranks, counted from the root. -/
def Tiered (m : Standalone σ) (root : KeymapId) : Prop :=
  root < m.store.next ∧ ∃ rank, m.store.Graded rank ∧ rank root = 0

theorem Tiered.release {m : Standalone σ} {root : KeymapId} (h : m.Tiered root) :
    m.release.Tiered root := by
  obtain ⟨lt, rank, graded, hr⟩ := h
  refine ⟨?_, rank, graded.release _, hr⟩
  show root < (m.store.release m.modal.held).next
  rw [Store.next_release]
  exact lt

theorem Tiered.addLayer {m : Standalone σ} {root : KeymapId} (h : m.Tiered root)
    (hroot : m.modal.root? = some root) {config : Json}
    (forward : Config.everyBack (fun _ _ => false) config) : (m.addLayer config).Tiered root := by
  rw [Standalone.addLayer]
  cases hl : m.load config with
  | error e => exact h
  | ok r =>
      obtain ⟨layer, m'⟩ := r
      obtain ⟨s, hc, hm'⟩ := load_eq_ok hl
      have hroot' : m'.modal.root? = some root := by rw [modal_load hl, hroot]
      obtain ⟨lt, rank, graded, hr⟩ := h
      obtain ⟨rank', graded', hlayer, agree⟩ := graded.exists_compile forward hc
      have top : rank' root = 0 := (agree root lt).trans hr
      have held : (s.hold layer).Graded rank' :=
        graded'.of_slots (fun _ _ _ hs => hs) (Nat.le_refl _)
      have loaded : m'.store.Graded rank' ∧ root < m'.store.next := by
        rw [hm']
        refine ⟨held.release _, ?_⟩
        show root < (Store.release _ _).next
        rw [Store.next_release]
        exact Nat.lt_of_lt_of_le lt (Store.extends_of_compile hc).next
      dsimp only
      rw [updateKeymap_eq hroot']
      -- the root and the new keymap are both of rank 0
      have merged := loaded.1.merge (layer :: m'.modal.held) (top.trans hlayer.symm)
      refine Tiered.release ⟨?_, rank', ?_, top⟩
      · show root < (Store.release _ _).next
        rw [Store.next_release, Store.next_merge]
        exact loaded.2
      · exact (merged.release _).of_slots (fun _ _ _ hs => hs) (Nat.le_refl _)

theorem Tiered.feed {m : Standalone σ} {root : KeymapId} (h : m.Tiered root)
    (hroot : m.modal.root? = some root) {input : Input}
    (forward : ∀ config, input = .layer config → Config.everyBack (fun _ _ => false) config) :
    (m.feed input).Tiered root := by
  cases input with
  | layer config => exact h.addLayer hroot (forward config rfl)
  | key key now => exact Tiered.release (m := ⟨m.store, _⟩) h
  | timeout now => exact Tiered.release (m := ⟨m.store, _⟩) h
  | reset => exact Tiered.release (m := ⟨m.store, _⟩) h

theorem Tiered.foldl_feed {m : Standalone σ} {root : KeymapId} (h : m.Tiered root)
    (hroot : m.modal.root? = some root) {inputs : List Input}
    (forward : ∀ config, .layer config ∈ inputs → Config.everyBack (fun _ _ => false) config) :
    (inputs.foldl Standalone.feed m).Tiered root := by
  induction inputs generalizing m with
  | nil => exact h
  | cons input inputs ih =>
      refine ih (h.feed hroot ?_) (root?_feed hroot input) ?_
      · rintro config rfl
        exact forward config List.mem_cons_self
      · exact fun config hc => forward config (List.mem_cons_of_mem _ hc)

/-! ## Giving up the keymaps -/

theorem clearKeymap_eq {m : Standalone σ} {root : KeymapId} (hroot : m.modal.root? = some root)
    (handles : m.store.handles = []) :
    m.clearKeymap.store = (m.store.clear root).collect [root] := by
  obtain ⟨matcher, hm, rfl⟩ := Option.map_eq_some_iff.1 hroot
  rw [clearKeymap, Modal.clearKeymap, hroot]
  show (m.store.clear matcher.root).collect (m.store.handles ++ Modal.held _) = _
  rw [handles, Modal.held, Modal.matcher?_mapMatcher, Modal.matcher?_reset, hm]
  rfl

theorem renew_eq {m : Standalone σ} {root : KeymapId} (hroot : m.modal.root? = some root)
    (handles : m.store.handles = []) : m.renew.modal.root? = some m.store.next ∧
      m.renew.store = (m.store.create none none).2.collect [m.store.next] := by
  obtain ⟨matcher, hm, rfl⟩ := Option.map_eq_some_iff.1 hroot
  constructor
  · show (Modal.setKeymap _ _).root? = _
    rw [Modal.setKeymap, Modal.root?, Modal.matcher?_mapMatcher, Modal.matcher?_reset, hm]
    rfl
  · show (m.store.create none none).2.collect (m.store.handles ++ Modal.held _) = _
    rw [handles, Modal.held, Modal.setKeymap, Modal.matcher?_mapMatcher, Modal.matcher?_reset, hm]
    rfl

section GivingUp

variable {m : Standalone σ} {root : KeymapId}

theorem circled_clearKeymap (hroot : m.modal.root? = some root) (handles : m.store.handles = [])
    (id : KeymapId) (alive : m.clearKeymap.store.alive id) :
    m.modal.root? = some id ∨ m.clearKeymap.store.Circled id := by
  rw [clearKeymap_eq hroot handles] at alive ⊢
  rw [hroot]
  refine (Store.circled_of_alive ?_ alive).imp_left fun h => congrArg some h.symm
  intro key
  rw [Store.slot?_clear, if_pos rfl]

theorem circled_renew (hroot : m.modal.root? = some root) (handles : m.store.handles = [])
    (id : KeymapId) (alive : m.renew.store.alive id) :
    m.renew.modal.root? = some id ∨ m.renew.store.Circled id := by
  obtain ⟨hroot', renewal⟩ := renew_eq hroot handles
  rw [renewal] at alive ⊢
  rw [hroot']
  refine (Store.circled_of_alive ?_ alive).imp_left fun h => congrArg some h.symm
  intro key
  rw [Store.slot?_create, if_pos rfl]

theorem circled_release (handles : m.store.handles = []) (id : KeymapId)
    (alive : (m.store.release []).alive id) : (m.store.release []).Circled id := by
  rw [Store.release, handles] at alive ⊢
  exact Store.circled_of_alive_nil alive

/-- In none of the three ways does a circle come about, if there are ranks. -/
theorem Tiered.not_circled (h : m.Tiered root) (hroot : m.modal.root? = some root)
    (handles : m.store.handles = []) (id : KeymapId) :
    ¬m.clearKeymap.store.Circled id ∧ ¬m.renew.store.Circled id ∧
      ¬(m.store.release []).Circled id := by
  obtain ⟨-, rank, graded, -⟩ := h
  refine ⟨?_, ?_, (graded.release []).not_circled id⟩
  · rw [clearKeymap_eq hroot handles]
    refine Store.Graded.not_circled (graded.of_slots ?_ ?_) id
    · intro x key slot hs
      have hs := ((m.store.clear root).within_collect [root]).slot? hs
      rw [Store.slot?_clear] at hs
      split at hs
      · cases hs
      · exact hs
    · exact (Store.next_collect (m.store.clear root) [root]).ge
  · rw [(renew_eq hroot handles).2]
    refine Store.Graded.not_circled (graded.of_slots ?_ ?_) id
    · intro x key slot hs
      have hs := ((m.store.create none none).2.within_collect [m.store.next]).slot? hs
      rw [Store.slot?_create] at hs
      split at hs
      · cases hs
      · exact hs
    · rw [Store.next_collect]
      exact Nat.le_succ _

end GivingUp

/-- A modal as it is created. -/
theorem tiered_create (name : String) (timeout : Option Nat) (kind : KeymapId → ModalKind σ) :
    (create name timeout kind).Tiered 0 := by
  have empty (id : KeymapId) (key : Char) (slot : Slot (Action σ)) :
      (create name timeout kind).store.slot? id key ≠ some slot := by
    intro hs
    replace hs : ((default : Store (Action σ)).create none none).2.slot? id key = some slot := hs
    rw [Store.slot?_create] at hs
    split at hs
    · cases hs
    · cases hs
  exact ⟨Nat.zero_lt_one, fun _ => 0, ⟨fun id key slot hs => absurd hs (empty id key slot),
    fun id key slot _ hs => absurd hs (empty id key slot)⟩, rfl⟩

/-- However configurations have been merged into a modal and keys typed in between, when the modal is
cleared, given a new root or dropped, nothing stays beside the root but what is owned by keymaps in a
circle. Without back references there is no circle, and so nothing stays. -/
theorem alive_of_given_up (name : String) (timeout : Option Nat) (inputs : List Input)
    (m₀ : Standalone σ) (h₀ : m₀ = keymap name timeout ∨ m₀ = visual name timeout) :
    let m := inputs.foldl feed m₀
    (∀ id, m.clearKeymap.store.alive id →
      m.modal.root? = some id ∨ m.clearKeymap.store.Circled id) ∧
    (∀ id, m.renew.store.alive id →
      m.renew.modal.root? = some id ∨ m.renew.store.Circled id) ∧
    (∀ id, (m.store.release []).alive id → (m.store.release []).Circled id) ∧
    ((∀ config, .layer config ∈ inputs → Config.everyBack (fun _ _ => false) config) →
      (∀ id, m.clearKeymap.store.alive id → m.modal.root? = some id) ∧
      (∀ id, m.renew.store.alive id → m.renew.modal.root? = some id) ∧
      ∀ id, ¬(m.store.release []).alive id) := by
  intro m
  have start : m₀.modal.root? = some 0 ∧ m₀.store.handles = [] ∧ m₀.Tiered 0 := by
    rcases h₀ with rfl | rfl
    · exact ⟨rfl, rfl, tiered_create ..⟩
    · exact ⟨rfl, rfl, tiered_create ..⟩
  have hroot : m.modal.root? = some 0 := root?_foldl_feed start.1 inputs
  have handles : m.store.handles = [] := (handles_foldl_feed m₀ inputs).trans start.2.1
  refine ⟨circled_clearKeymap hroot handles, circled_renew hroot handles, circled_release handles,
    fun forward => ?_⟩
  have none := (start.2.2.foldl_feed start.1 forward).not_circled hroot handles
  refine ⟨fun id alive => ?_, fun id alive => ?_, fun id alive => ?_⟩
  · exact (circled_clearKeymap hroot handles id alive).resolve_right (none id).1
  · exact (circled_renew hroot handles id alive).resolve_right (none id).2.1
  · exact (none id).2.2 (circled_release handles id alive)

/-- Two layers whose nested keymaps are merged, and keys in between. -/
theorem alive_of_given_up_two_layers :
    ∃ (m₀ : Standalone Unit) (inputs : List Input), m₀ = keymap "Normal" none ∧
      (∀ config, .layer config ∈ inputs → Config.everyBack (fun _ _ => false) config) ∧
      ∀ id, (inputs.foldl feed m₀).clearKeymap.store.alive id →
        (inputs.foldl feed m₀).modal.root? = some id := by
  let inputs : List Input := [
    .layer (.object [("a-c", .object [("d", .string "delete")])]),
    .key 'a' 0,
    .layer (.object [("b", .object [("e", .string "end")]), ("c", .string "change")])]
  have forward : ∀ config, .layer config ∈ inputs →
      Config.everyBack (fun _ _ => false) config := by
    intro config hc
    simp only [inputs, List.mem_cons, Input.layer.injEq, reduceCtorEq, List.not_mem_nil, or_false,
      false_or] at hc
    rcases hc with rfl | rfl
    · decide +kernel
    · decide +kernel
  obtain ⟨-, -, -, freed⟩ :=
    alive_of_given_up "Normal" none inputs (keymap "Normal" none) (Or.inl rfl)
  exact ⟨_, inputs, rfl, forward, (freed forward).1⟩

/-! ## A circle -/

/-- Adding a layer, with as many steps for the merge as are given. -/
def addLayerWithin (n : Nat) (m : Standalone σ) (config : Json) : Standalone σ :=
  match m.load config with
  | .ok (layer, m) =>
    match m.modal.root? with
    | some root => (release {
        store := (m.store.mergeWithin n (layer :: m.modal.held) root layer).store
        modal := m.modal.mapMatcher fun matcher =>
          { matcher with layers := layer :: matcher.layers } }).drop layer
    | none => m
  | .error _ => m

/-- Whether a configuration compiles, and the steps are enough. -/
def mergesWithin (n : Nat) (m : Standalone σ) (config : Json) : Bool :=
  match m.load config with
  | .ok (layer, m) => m.modal.root?.any fun root => root != layer &&
      (m.store.mergeWithin n (layer :: m.modal.held) root layer).tasks.isEmpty
  | .error _ => false

theorem addLayer_eq_addLayerWithin {n : Nat} {m : Standalone σ} {config : Json}
    (h : m.mergesWithin n config) : m.addLayer config = m.addLayerWithin n config := by
  rw [mergesWithin] at h
  rw [addLayer, addLayerWithin]
  cases hl : m.load config with
  | error e => rfl
  | ok r =>
      obtain ⟨layer, m'⟩ := r
      rw [hl] at h
      dsimp only at h ⊢
      cases hroot : m'.modal.root? with
      | none =>
          rw [hroot] at h
          cases h
      | some root =>
          rw [hroot, Option.any_some, Bool.and_eq_true, bne_iff_ne, List.isEmpty_iff] at h
          rw [updateKeymap_eq hroot, Store.merge_eq_mergeWithin n h.1 h.2]

theorem exists_load_of_mergesWithin {n : Nat} {m : Standalone σ} {config : Json}
    (h : m.mergesWithin n config) : ∃ r, m.load config = .ok r := by
  rw [mergesWithin] at h
  cases hl : m.load config with
  | error e =>
      rw [hl] at h
      cases h
  | ok r => exact ⟨r, rfl⟩

/-- Back references can lead a merge from keymaps to ones further out. Here the second configuration is
merged into a keymap that two keys of the first one share, under one key as a whole and under the other
in part, and a keymap is bound to a key of its own. It stays for good. -/
theorem alive_of_given_up_circle :
    ∃ first second : Json, ∃ id : KeymapId,
      let m₀ : Standalone Unit := keymap "Normal" none
      let m := [Input.layer first, Input.layer second].foldl feed m₀
      (∃ r, m₀.load first = .ok r) ∧ (∃ r, (m₀.addLayer first).load second = .ok r) ∧
      m.modal.root? ≠ some id ∧ m.clearKeymap.store.alive id ∧
      m.renew.modal.root? ≠ some id ∧ m.renew.store.alive id ∧ (m.store.release []).alive id := by
  let first : Json := .object [("p,q", .object [])]
  let second : Json := .object [
    ("p", .number (.integer 0)), ("q", .object [("x", .number (.integer (-1)))]),
    ("x", .object [("j", .string "cmd")])]
  let m₀ : Standalone Unit := keymap "Normal" none
  have fits₁ : m₀.mergesWithin 40 first := by decide +kernel
  have fits₂ : (m₀.addLayerWithin 40 first).mergesWithin 40 second := by decide +kernel
  rw [← addLayer_eq_addLayerWithin fits₁] at fits₂
  let m : Standalone Unit := [Input.layer first, Input.layer second].foldl feed m₀
  have steps : m = (m₀.addLayerWithin 40 first).addLayerWithin 40 second := by
    rw [← addLayer_eq_addLayerWithin fits₁, ← addLayer_eq_addLayerWithin fits₂]
    rfl
  have own : (m.store.slot? 5 'x').bind Slot.owned? = some 5 := by
    rw [steps]
    decide +kernel
  have hroot : m.modal.root? = some 0 := root?_foldl_feed rfl _
  have handles : m.store.handles = [] := handles_foldl_feed m₀ _
  obtain ⟨hroot', renewal⟩ := renew_eq hroot handles
  have old : 5 < m.store.next := by
    obtain ⟨slot, hs, -⟩ := Option.bind_eq_some_iff.1 own
    obtain ⟨km, hkm, -⟩ := Store.slot?_eq_some_iff.1 hs
    exact Store.lt_next_of_alive (Store.alive_of_keymap? hkm)
  refine ⟨first, second, 5, exists_load_of_mergesWithin fits₁, exists_load_of_mergesWithin fits₂,
    ?_, ?_, ?_, ?_, Store.alive_collect_of_owns_self 'x' own _⟩
  · rw [hroot]
    decide
  · rw [clearKeymap_eq hroot handles]
    refine Store.alive_collect_of_owns_self 'x' ?_ _
    rw [Store.slot?_clear, if_neg (by decide)]
    exact own
  · rw [hroot']
    exact fun h => absurd (Option.some.inj h) (Nat.ne_of_gt old)
  · rw [renewal]
    refine Store.alive_collect_of_owns_self 'x' ?_ _
    rw [Store.slot?_create, if_neg (Nat.ne_of_lt old)]
    exact own

end Standalone

end ModalKeys
