import ModalKeys.Modal.Standalone
import ModalKeys.Proofs.Keymap.Compiling
import ModalKeys.Proofs.Keymap.Overlay
import ModalKeys.Proofs.Keymap.PlainConfig
import ModalKeys.Proofs.Modal.Idle

/-!
# Merging layers into a modal

Layers that are trees are merged into the root keymap of a modal as trees. The root comes to own
keymaps of the layers that it has taken in, and later layers change these in place; but a layer that has
not been merged yet shares nothing with the root, so that none of its keymaps is ever changed.
-/

namespace ModalKeys

variable {σ : Type}

namespace Modal

theorem root?_mapMatcher {m : Modal σ} {root : KeymapId} (h : m.root? = some root)
    {f : Matcher σ → Matcher σ} (hf : ∀ matcher, (f matcher).root = matcher.root) :
    (m.mapMatcher f).root? = some root := by
  rw [root?, matcher?_mapMatcher, Option.map_map, ← h, root?]
  congr 1
  funext matcher
  exact hf matcher

theorem root?_reset (m : Modal σ) : m.reset.root? = m.root? := by
  rw [root?, matcher?_reset, Option.map_map]
  rfl

theorem root_mem_held {m : Modal σ} {root : KeymapId} (h : m.root? = some root) :
    root ∈ m.held := by
  obtain ⟨matcher, hm, rfl⟩ := Option.map_eq_some_iff.1 h
  rw [held, hm]
  exact List.mem_cons_self

end Modal

namespace Standalone

open KeyTree

/-- What merging a layer comes to: the keymaps are merged while all is held that was held before, and
the layer becomes one of those that the modal holds. -/
theorem updateKeymap_eq {m : Standalone σ} {root : KeymapId} (h : m.modal.root? = some root)
    (layer : KeymapId) : m.updateKeymap layer = release
      { store := m.store.merge (layer :: m.modal.held) root layer
        modal := m.modal.mapMatcher fun matcher =>
          { matcher with layers := layer :: matcher.layers } } := by
  rw [updateKeymap, Modal.updateKeymap, h]
  dsimp only
  rw [List.append_nil]

/-- The keymap is held by a handle and is the topmost one of a tree in the store. -/
structure Layer (s : Store (Action σ)) (layer : KeymapId) (t : KeyTree (Action σ)) : Prop where
  held : layer ∈ s.handles
  top : ∃ child, t = node layer child
  spans : s.Spans t
  ends : t.EndsInActions
  unshared : t.Unshared

theorem Layer.supported {s : Store (Action σ)} {layer : KeymapId} {t : KeyTree (Action σ)}
    (h : Layer s layer t) (roots : List KeymapId) : s.Supported (s.handles ++ roots) t.Mem := by
  obtain ⟨child, rfl⟩ := h.top
  exact h.spans.supported (List.mem_append_left _ h.held)

theorem Layer.of_agree {s s' : Store (Action σ)} {layer : KeymapId} {t : KeyTree (Action σ)}
    (h : Layer s layer t) (handles : s'.handles = s.handles)
    (agree : ∀ id, t.Mem id → s'.keymap? id = s.keymap? id) : Layer s' layer t where
  held := handles ▸ h.held
  top := h.top
  spans := h.spans.of_agree agree
  ends := h.ends
  unshared := h.unshared

/-- A layer outlasts a release, since a handle holds it. -/
theorem Layer.release {s : Store (Action σ)} {layer : KeymapId} {t : KeyTree (Action σ)}
    (h : Layer s layer t) (roots : List KeymapId) : Layer (s.release roots) layer t :=
  h.of_agree (s.handles_release roots) fun _ hid => (h.supported roots).keymap?_release hid

theorem Layer.encloses {s : Store (Action σ)} {layer : KeymapId} {t : KeyTree (Action σ)}
    (h : Layer s layer t) : s.Encloses t.Mem :=
  h.spans.encloses h.ends

theorem Layer.mem_iff_owns {s : Store (Action σ)} {layer id : KeymapId} {t : KeyTree (Action σ)}
    (h : Layer s layer t) : t.Mem id ↔ s.Owns layer id := by
  obtain ⟨child, rfl⟩ := h.top
  exact h.spans.mem_iff_owns h.ends

theorem Layer.treelike {s : Store (Action σ)} {layer : KeymapId} {t : KeyTree (Action σ)}
    (h : Layer s layer t) : s.Treelike layer := by
  obtain ⟨child, rfl⟩ := h.top
  exact h.spans.treelike h.ends h.unshared

/-- The root keymap of a modal is the topmost one of a tree. -/
structure RootSpans (m : Standalone σ) (root : KeymapId) (t : KeyTree (Action σ)) : Prop where
  root? : m.modal.root? = some root
  top : ∃ child, t = node root child
  spans : m.store.Spans t
  ends : t.EndsInActions
  unshared : t.Unshared

/-- Merging one layer merges its tree into that of the root, and changes nothing that is held by a
handle and not in the tree of the root. -/
theorem RootSpans.updateKeymap {m : Standalone σ} {root layer : KeymapId}
    {t u : KeyTree (Action σ)} (ht : m.RootSpans root t) (hu : Layer m.store layer u)
    (apart : ∀ id, t.Mem id → ¬u.Mem id) :
    (m.updateKeymap layer).RootSpans root (t.merge u) ∧
      (m.updateKeymap layer).store.handles = m.store.handles ∧
      ∀ K : KeymapId → Prop, m.store.Supported m.store.handles K → (∀ id, K id → ¬t.Mem id) →
        ∀ id, K id → (m.updateKeymap layer).store.keymap? id = m.store.keymap? id := by
  obtain ⟨child, rfl⟩ := ht.top
  obtain ⟨theirs, rfl⟩ := hu.top
  rw [updateKeymap_eq ht.root?]
  have hroot := Modal.root?_mapMatcher ht.root?
    (f := fun matcher => { matcher with layers := layer :: matcher.layers }) fun _ => rfl
  generalize m.modal.mapMatcher _ = modal at hroot
  obtain ⟨spans, handles, kept⟩ := Store.spans_overlay ht.spans ht.unshared ht.ends hu.encloses
    (hu.supported (layer :: m.modal.held)) (mem_self layer theirs) apart
  have agree := kept _ (hu.supported _) fun id hid hid' => apart id hid' hid
  have merged := spans_merge spans hu.spans (hu.spans.of_agree agree) hu.ends
  generalize m.store.merge _ root layer = s' at handles kept merged
  have held : root ∈ s'.handles ++ modal.held :=
    List.mem_append_right _ (Modal.root_mem_held hroot)
  refine ⟨⟨hroot, ⟨_, rfl⟩, ?_, endsInActions_merge ht.ends hu.ends,
    unshared_merge ht.unshared hu.unshared apart⟩, (s'.handles_release _).trans handles, ?_⟩
  · exact merged.of_agree fun id hid => (merged.supported held).keymap?_release hid
  · intro K hK out id hid
    have before := kept K (hK.mono (List.subset_append_left _ _)) out
    have after : s'.Supported (s'.handles ++ modal.held) K := by
      rw [handles]
      exact (hK.of_agree before).mono (List.subset_append_left _ _)
    exact (after.keymap?_release hid).trans (before id hid)

/-- All layers, one after the other. No step changes a keymap of the layer that it merges, or of a layer
still to come. -/
theorem RootSpans.foldl_updateKeymap {m : Standalone σ} {root : KeymapId} {t : KeyTree (Action σ)}
    {layers : List KeymapId} {tree : KeymapId → KeyTree (Action σ)} (ht : m.RootSpans root t)
    (trees : ∀ layer ∈ layers, Layer m.store layer (tree layer))
    (apart : ∀ layer ∈ layers, ∀ id, t.Mem id → ¬(tree layer).Mem id)
    (pairwise : layers.Pairwise fun l l' => ∀ id, (tree l).Mem id → ¬(tree l').Mem id) :
    (layers.foldl Standalone.updateKeymap m).RootSpans root ((layers.map tree).foldl merge t) ∧
      ∀ before layer after, layers = before ++ layer :: after → ∀ later ∈ layer :: after,
        ∀ id, (tree later).Mem id →
        ((before ++ [layer]).foldl Standalone.updateKeymap m).store.keymap? id =
          (before.foldl Standalone.updateKeymap m).store.keymap? id := by
  induction layers generalizing m t with
  | nil =>
      refine ⟨ht, ?_⟩
      intro before layer after h
      cases before <;> cases h
  | cons layer layers ih =>
      obtain ⟨ht', handles, kept⟩ :=
        ht.updateKeymap (trees layer List.mem_cons_self) (apart layer List.mem_cons_self)
      have unchanged (l : KeymapId) (hl : l ∈ layer :: layers) (id : KeymapId)
          (hid : (tree l).Mem id) :
          (m.updateKeymap layer).store.keymap? id = m.store.keymap? id := by
        have supported := (trees l hl).supported []
        rw [List.append_nil] at supported
        exact kept _ supported (fun x hx hx' => apart l hl x hx' hx) id hid
      rw [List.pairwise_cons] at pairwise
      obtain ⟨final, later⟩ := ih ht'
        (fun l hl => (trees l (List.mem_cons_of_mem _ hl)).of_agree handles
          (unchanged l (List.mem_cons_of_mem _ hl)))
        (by
          intro l hl id hid hid'
          rcases mem_merge hid with hid | hid
          · exact apart l (List.mem_cons_of_mem _ hl) id hid hid'
          · exact pairwise.1 l hl id hid hid')
        pairwise.2
      refine ⟨final, ?_⟩
      intro before next after h l hl id hid
      cases before with
      | nil =>
          cases h
          exact unchanged l hl id hid
      | cons first before =>
          cases h
          exact later before next after rfl l hl id hid

/-- Merging layers that are trees, share nothing and do not lead to the root merges the trees: every key
sequence leads from the root to what it leads to in the merged tree, the same keymap or the same action,
and every keymap has the keys of its node. No step changes a keymap of the layer that it merges, or of a
layer still to come. -/
theorem walk_foldl_updateKeymap (m : Standalone σ) (root : KeymapId) (layers : List KeymapId)
    (hroot : m.modal.root? = some root) (alive : m.store.alive root)
    (empty : m.store.keys root = []) (held : ∀ layer ∈ layers, layer ∈ m.store.handles)
    (treelike : ∀ layer ∈ layers, m.store.Treelike layer)
    (apart : layers.Pairwise fun l l' => ∀ id, m.store.Owns l id → ¬m.store.Owns l' id)
    (outside : ∀ layer ∈ layers, ¬m.store.Owns layer root) :
    ∃ tree : KeymapId → KeyTree (Action σ),
      (∀ layer ∈ layers, (∃ child, tree layer = node layer child) ∧ m.store.Spans (tree layer) ∧
        (tree layer).EndsInActions) ∧
      (∀ keys, (layers.foldl updateKeymap m).store.walk root keys =
        (((layers.map tree).foldl merge (node root fun _ => none)).at? keys).map binding) ∧
      (∀ keys id child,
        ((layers.map tree).foldl merge (node root fun _ => none)).at? keys = some (node id child) →
        ∀ key, key ∈ (layers.foldl updateKeymap m).store.keys id ↔ (child key).isSome) ∧
      ∀ before layer after, layers = before ++ layer :: after → ∀ later ∈ layer :: after,
        ∀ id, m.store.Owns later id →
        ((before ++ [layer]).foldl updateKeymap m).store.keymap? id =
          (before.foldl updateKeymap m).store.keymap? id := by
  choose! child spans ends unshared using fun layer h => (treelike layer h).exists_spans
  let tree (layer : KeymapId) : KeyTree (Action σ) := node layer (child layer)
  have trees (layer : KeymapId) (hl : layer ∈ layers) : Layer m.store layer (tree layer) :=
    ⟨held layer hl, ⟨_, rfl⟩, spans layer hl, ends layer hl, unshared layer hl⟩
  have start : m.RootSpans root (node root fun _ => none) := by
    refine ⟨hroot, ⟨_, rfl⟩, Store.spans_empty alive fun key => ?_, endsInActions_node nofun,
      unshared_empty root⟩
    rw [← Option.not_isSome_iff_eq_none, ← Store.mem_keys, empty]
    exact List.not_mem_nil
  obtain ⟨final, unchanged⟩ := start.foldl_updateKeymap trees
    (by
      intro layer hl id hid hid'
      rcases mem_node.1 hid with rfl | ⟨key, t, hc, _⟩
      · exact outside layer hl ((trees layer hl).mem_iff_owns.1 hid')
      · cases hc)
    (by
      refine apart.imp_of_mem ?_
      intro l l' hl hl' h id hid hid'
      exact h id ((trees l hl).mem_iff_owns.1 hid) ((trees l' hl').mem_iff_owns.1 hid'))
  obtain ⟨top, htop⟩ := final.top
  refine ⟨tree, fun layer hl => ⟨⟨_, rfl⟩, spans layer hl, ends layer hl⟩, ?_, ?_, ?_⟩
  · intro keys
    have spans := final.spans
    have ends := final.ends
    rw [htop] at spans ends ⊢
    exact spans.walk_eq ends keys
  · intro keys id child hx key
    rw [Store.mem_keys, (final.spans keys id child hx).2, Option.isSome_map]
  · intro before layer after h later hl id ho
    have hmem : later ∈ layers := by
      rw [h]
      exact List.mem_append_right _ hl
    exact unchanged before layer after h later hl id ((trees later hmem).mem_iff_owns.2 ho)

/-! ## Loading -/

theorem load_eq_ok {m m' : Standalone σ} {config : Json} {layer : KeymapId}
    (h : m.load config = .ok (layer, m')) :
    ∃ s', m.store.compile config = .ok (layer, s') ∧
      m' = ⟨(s'.hold layer).release m.modal.held, m.modal⟩ := by
  obtain ⟨⟨km, s⟩, hl, h⟩ := Config.bind_eq_ok h
  cases h
  obtain ⟨⟨root, s'⟩, hc, hl⟩ := Config.bind_eq_ok hl
  cases hl
  exact ⟨s', hc, rfl⟩

theorem modal_load {m m' : Standalone σ} {config : Json} {layer : KeymapId}
    (h : m.load config = .ok (layer, m')) : m'.modal = m.modal := by
  obtain ⟨_, _, rfl⟩ := load_eq_ok h
  rfl

/-- Keymaps that are held stay when a configuration is loaded. -/
theorem keymap?_load {m m' : Standalone σ} {config : Json} {layer : KeymapId}
    (h : m.load config = .ok (layer, m')) {K : KeymapId → Prop}
    (hK : m.store.Supported (m.store.handles ++ m.modal.held) K)
    (alive : ∀ id, K id → m.store.alive id) {id : KeymapId} (hid : K id) :
    m'.store.keymap? id = m.store.keymap? id := by
  obtain ⟨s', hc, rfl⟩ := load_eq_ok h
  have new := Store.extends_of_compile hc
  have agree (id : KeymapId) (hid : K id) : (s'.hold layer).keymap? id = m.store.keymap? id :=
    new.keymap? id (Store.lt_next_of_alive (alive id hid))
  refine Eq.trans ?_ (agree id hid)
  refine ((hK.of_agree agree).mono ?_).keymap?_release hid
  rw [← new.handles]
  exact List.subset_cons_self _ _

theorem keymap?_root_load {m m' : Standalone σ} {config : Json} {layer root : KeymapId}
    (h : m.load config = .ok (layer, m')) (hroot : m.modal.root? = some root)
    (alive : m.store.alive root) : m'.store.keymap? root = m.store.keymap? root := by
  refine keymap?_load (K := (· = root)) h ?_ ?_ rfl
  · rintro id rfl
    exact Or.inl (List.mem_append_right _ (Modal.root_mem_held hroot))
  · rintro id rfl
    exact alive

theorem handles_load {m m' : Standalone σ} {config : Json} {layer : KeymapId}
    (h : m.load config = .ok (layer, m')) : m'.store.handles = layer :: m.store.handles := by
  obtain ⟨s', hc, rfl⟩ := load_eq_ok h
  have new := Store.extends_of_compile hc
  rw [← new.handles]
  exact Store.handles_release _ _

theorem Layer.load {m m' : Standalone σ} {config : Json} {layer new : KeymapId}
    {t : KeyTree (Action σ)} (ht : Layer m.store layer t)
    (h : m.load config = .ok (new, m')) : Layer m'.store layer t where
  held := by
    rw [handles_load h]
    exact List.mem_cons_of_mem _ ht.held
  top := ht.top
  spans := ht.spans.of_agree fun _ hid =>
    keymap?_load h (ht.supported _) ht.encloses.alive hid
  ends := ht.ends
  unshared := ht.unshared

/-- A plain configuration is loaded as a tree of new keymaps. -/
theorem exists_layer_load {m m' : Standalone σ} {members : List (String × Json)}
    {layer : KeymapId} (plain : Config.Plain members)
    (h : m.load (.object members) = .ok (layer, m')) :
    ∃ t, Layer m'.store layer t ∧ ∀ id : Nat, t.Mem id → m.store.next ≤ id := by
  have handles := handles_load h
  obtain ⟨s', hc, rfl⟩ := load_eq_ok h
  have new := Nat.le_of_eq (Store.eq_next_of_compile hc).symm
  obtain ⟨members', heq, built⟩ := Store.built_of_compile hc
  cases heq
  obtain ⟨child, spans, ends, unshared, bounds⟩ := built.exists_spans plain
  have held : layer ∈ (s'.hold layer).handles ++ m.modal.held := List.mem_cons_self
  have spans : (s'.hold layer).Spans (node layer child) := spans.of_agree fun _ _ => rfl
  refine ⟨node layer child, ⟨?_, ⟨_, rfl⟩, ?_, ends, unshared⟩, ?_⟩
  · rw [handles]
    exact List.mem_cons_self
  · exact spans.of_agree fun _ hid => (spans.supported held).keymap?_release hid
  · exact fun id hid => Nat.le_trans new (bounds id hid).1

/-- Two layers: the second one adds a key to a nested keymap of the first one, and replaces an
action. -/
theorem walk_foldl_updateKeymap_two_layers :
    ∃ (m : Standalone Unit) (root : KeymapId) (layers : List KeymapId),
      layers.length = 2 ∧ m.modal.root? = some root ∧ m.store.alive root ∧
      m.store.keys root = [] ∧ (∀ layer ∈ layers, layer ∈ m.store.handles) ∧
      (∀ layer ∈ layers, m.store.Treelike layer) ∧
      (layers.Pairwise fun l l' => ∀ id, m.store.Owns l id → ¬m.store.Owns l' id) ∧
      (∀ layer ∈ layers, ¬m.store.Owns layer root) ∧
      ∃ tree : KeymapId → KeyTree (Action Unit),
        (∀ layer ∈ layers, (∃ child, tree layer = node layer child) ∧ m.store.Spans (tree layer) ∧
          (tree layer).EndsInActions) ∧
        ∀ keys, (layers.foldl updateKeymap m).store.walk root keys =
          (((layers.map tree).foldl merge (node root fun _ => none)).at? keys).map binding := by
  let first := [("g", Json.object [("g", .string "top")]), ("x", .string "cut")]
  let second := [("g", Json.object [("e", .string "end")]), ("x", .string "delete")]
  let m₀ : Standalone Unit := keymap "Normal" none
  obtain ⟨⟨l₁, m₁⟩, h₁⟩ : ∃ r, m₀.load (.object first) = .ok r := ⟨_, rfl⟩
  obtain ⟨⟨l₂, m₂⟩, h₂⟩ : ∃ r, m₁.load (.object second) = .ok r := ⟨_, rfl⟩
  obtain ⟨t₁, layer₁, new₁⟩ := exists_layer_load (Config.plain_of_check (by decide +kernel)) h₁
  obtain ⟨t₂, layer₂, new₂⟩ := exists_layer_load (Config.plain_of_check (by decide +kernel)) h₂
  have old (id : KeymapId) (hid : t₁.Mem id) : id < m₁.store.next :=
    Store.lt_next_of_alive (layer₁.encloses.alive id hid)
  replace layer₁ := layer₁.load h₂
  -- the root is as it was, since the modal holds it
  have modal₁ := modal_load h₁
  have modal₂ := (modal_load h₂).trans modal₁
  have hroot : m₂.modal.root? = some 0 := by
    rw [modal₂]
    rfl
  have alive₀ : m₀.store.alive 0 := by decide +kernel
  have root₁ : m₁.store.keymap? 0 = m₀.store.keymap? 0 := keymap?_root_load h₁ rfl alive₀
  have root₂ : m₂.store.keymap? 0 = m₁.store.keymap? 0 :=
    keymap?_root_load h₂ (modal₁ ▸ rfl) ((Store.alive_of_agree root₁).trans alive₀)
  have alive : m₂.store.alive 0 := (Store.alive_of_agree (root₂.trans root₁)).trans alive₀
  have empty : m₂.store.keys 0 = [] := by
    rw [Store.keys, Store.slots, root₂, root₁]
    decide +kernel
  have held : ∀ layer ∈ [l₁, l₂], layer ∈ m₂.store.handles := by
    simp [layer₁.held, layer₂.held]
  have treelike : ∀ layer ∈ [l₁, l₂], m₂.store.Treelike layer := by
    simp [layer₁.treelike, layer₂.treelike]
  have apart : [l₁, l₂].Pairwise fun l l' => ∀ id, m₂.store.Owns l id → ¬m₂.store.Owns l' id := by
    rw [List.pairwise_pair]
    intro id ho ho'
    exact absurd (new₂ id (layer₂.mem_iff_owns.2 ho'))
      (Nat.not_le_of_lt (old id (layer₁.mem_iff_owns.2 ho)))
  have outside : ∀ layer ∈ [l₁, l₂], ¬m₂.store.Owns layer 0 := by
    have later : 0 < m₁.store.next := Store.lt_next_of_alive ((Store.alive_of_agree root₁).trans alive₀)
    intro layer hl ho
    rcases List.mem_pair.1 hl with rfl | rfl
    · exact absurd (new₁ 0 (layer₁.mem_iff_owns.2 ho)) (by decide)
    · exact absurd (new₂ 0 (layer₂.mem_iff_owns.2 ho)) (Nat.not_le_of_lt later)
  obtain ⟨tree, trees, walks, -, -⟩ := walk_foldl_updateKeymap m₂ 0 [l₁, l₂] hroot alive empty held
    treelike apart outside
  exact ⟨m₂, 0, [l₁, l₂], rfl, hroot, alive, empty, held, treelike, apart, outside, tree, trees,
    walks⟩

/-- A layer that leads to the root keymap of the modal. The root keymap takes itself in under that key, so
that the key can be typed again and again, and the layer is changed with it. -/
theorem walk_updateKeymap_own_root :
    ∃ (m : Standalone Unit) (root layer : KeymapId),
      m.modal.root? = some root ∧ m.store.alive root ∧ m.store.keys root = [] ∧
      layer ∈ m.store.handles ∧ m.store.Treelike layer ∧ m.store.Owns layer root ∧
      (¬∃ tree : KeyTree (Action Unit),
        ((∃ child, tree = node layer child) ∧ m.store.Spans tree ∧ tree.EndsInActions) ∧
        ∀ keys, (m.updateKeymap layer).store.walk root keys =
          ((merge (node root fun _ => none) tree).at? keys).map binding) ∧
      (m.updateKeymap layer).store.keymap? root ≠ m.store.keymap? root := by
  let fresh : Standalone Unit := keymap "Normal" none
  let loaded : Standalone Unit := match fresh.load (.object [("a", .object [])]) with
    | .ok (_, m) => m
    | .error _ => fresh
  have load : fresh.load (.object [("a", .object [])]) = .ok (1, loaded) := rfl
  obtain ⟨t, before, -⟩ := exists_layer_load (Config.plain_of_check (by decide +kernel)) load
  let m : Standalone Unit := loaded.map (Modal.setKeymap · 2)
  have layer : Layer m.store 1 t := before.release _
  have owned : ((m.store.keymap? 1).bind (·.slots.ownedAt? 'a')) = some 2 := by decide +kernel
  obtain ⟨km, hkm, hk⟩ := Option.bind_eq_some_iff.1 owned
  have merged : m.updateKeymap 1 = release
      { store := (m.store.mergeWithin 2 (1 :: m.modal.held) 2 1).store
        modal := m.modal.mapMatcher fun matcher => { matcher with layers := 1 :: matcher.layers } } := by
    rw [updateKeymap_eq rfl, Store.merge_eq_mergeWithin 2 (by decide) (by decide +kernel)]
  have empty : m.store.keys 2 = [] := by decide +kernel
  refine ⟨m, 2, 1, rfl, by decide +kernel, empty, layer.held, layer.treelike, .step .self hkm hk,
    ?_, ?_⟩
  · rintro ⟨_, ⟨⟨child, rfl⟩, spans, ends⟩, walks⟩
    have once : (m.store.walk 1 ['a', 'a']).isSome = false := by decide +kernel
    have twice : ((m.updateKeymap 1).store.walk 2 ['a', 'a']).isSome := by
      rw [merged]
      decide +kernel
    have alone : mergeAt none (child 'a') = child 'a' := by cases child 'a' <;> rfl
    rw [walks, merge_node, at?_node_cons, alone, ← at?_node_cons 1, ← spans.walk_eq ends, once] at twice
    cases twice
  · intro same
    have keys : (m.updateKeymap 1).store.keys 2 = ['a'] := by
      rw [merged]
      decide +kernel
    rw [Store.keys, Store.slots, same] at keys
    exact absurd (empty.symm.trans keys) (by decide)

end Standalone

end ModalKeys
