import ModalKeys.Proofs.Keymap.Compiling
import ModalKeys.Proofs.Keymap.Layering
import ModalKeys.Proofs.Keymap.Overlay
import ModalKeys.Proofs.Keymap.PlainConfig
import ModalKeys.Proofs.Keymap.Refinement
import ModalKeys.Proofs.Keymap.Soundness

/-!
# What a keymap serves

What keys come to from a keymap, beside the keymaps that this depends on. A compiled keymap serves what
its configuration says. When it is merged into a tree of keymaps, the tree comes to serve the
configuration laid over what it served before, and is a tree again if the configuration is plain.
-/

namespace ModalKeys

variable {σ : Type}

namespace Store

open KeyTree

/-- Keys come to what `f` says from a keymap, and lead to keymaps of `J` only. -/
structure Served (s : Store (Action σ)) (root : KeymapId) (J : KeymapId → Prop)
    (f : List Char → Option (Outcome σ)) : Prop where
  mem : J root
  encloses : s.Encloses J
  walk : ∀ keys, (s.walk root keys).map Binding.outcome = f keys

theorem Served.of_agree {s t : Store (Action σ)} {root : KeymapId} {J : KeymapId → Prop}
    {f : List Char → Option (Outcome σ)} (h : s.Served root J f)
    (agree : ∀ id, J id → t.keymap? id = s.keymap? id) : t.Served root J f where
  mem := h.mem
  encloses := h.encloses.of_agree agree
  walk keys := by rw [h.encloses.walk_of_agree agree h.mem, h.walk]

/-- Keys come to what `f` says from the topmost keymap of a tree. -/
structure Grown (s : Store (Action σ)) (root : KeymapId) (t : KeyTree (Action σ))
    (f : List Char → Option (Outcome σ)) : Prop where
  top : ∃ child, t = node root child
  spans : s.Spans t
  ends : t.EndsInActions
  unshared : t.Unshared
  at? : ∀ keys, (t.at? keys).map (fun u => u.binding.outcome) = f keys

namespace Grown

variable {s s' : Store (Action σ)} {root : KeymapId} {t : KeyTree (Action σ)}
  {f : List Char → Option (Outcome σ)}

theorem of_agree (h : s.Grown root t f) (agree : ∀ id, t.Mem id → s'.keymap? id = s.keymap? id) :
    s'.Grown root t f where
  top := h.top
  spans := h.spans.of_agree agree
  ends := h.ends
  unshared := h.unshared
  at? := h.at?

theorem served (h : s.Grown root t f) : s.Served root t.Mem f := by
  obtain ⟨child, rfl⟩ := h.top
  refine ⟨mem_self root child, h.spans.encloses h.ends, fun keys => ?_⟩
  rw [h.spans.walk_eq h.ends, Option.map_map]
  exact h.at? keys

theorem supported (h : s.Grown root t f) {roots : List KeymapId} (hroot : root ∈ roots) :
    s.Supported roots t.Mem := by
  obtain ⟨child, rfl⟩ := h.top
  exact h.spans.supported hroot

end Grown

/-- A keymap without keys. -/
theorem grown_empty {s : Store (Action σ)} {root : KeymapId} (alive : s.alive root)
    (keys : ∀ key, s.slot? root key = none) :
    s.Grown root (node root fun _ => none) (Config.layered []) where
  top := ⟨_, rfl⟩
  spans := spans_empty alive keys
  ends := endsInActions_node nofun
  unshared := unshared_empty root
  at? keys := by cases keys <;> rfl

/-! ## Compiled keymaps -/

section Compiled

variable {s s' t : Store (Action σ)} {config : Json} {root : KeymapId}

/-- What a key of a compiled keymap is bound to, beside the entry that it stands for. -/
theorem exists_represents {members : List (String × Json)} {place : Config.Place}
    {outer : List Config.Place} {id : KeymapId} {ids : List KeymapId} {key : Char}
    {slot : Slot (Action σ)}
    (tracks : Config.Tracks s' root members (place :: outer) (id :: ids))
    (hs : s'.slot? id key = some slot) : ∃ i v, Config.lastBinding? key place.members = some (i, v) ∧
      Config.Represents (id :: ids) (Config.number root members (place.path ++ [i])) v slot := by
  obtain ⟨km, hkm, -, -, hkeys⟩ := tracks.keymap?_eq (.refl s' root)
  have bound := hkeys key
  rw [← slot?_eq hkm, hs, Config.BoundBy] at bound
  cases hl : Config.lastBinding? key place.members with
  | none =>
      rw [hl] at bound
      cases bound
  | some found =>
      obtain ⟨i, v⟩ := found
      rw [hl] at bound
      obtain ⟨_, ⟨⟩, hr⟩ := bound
      refine ⟨i, v, rfl, ?_⟩
      cases tracks with
      | cons stands _ _ _ =>
          rw [stands.number_append root i]
          exact hr

/-- Whatever the topmost keymap of a configuration owns is the keymap of one of its objects, and is
owned by the keymaps of the objects around it. -/
theorem exists_tracks {members : List (String × Json)} (built : Config.Built s' [] root members)
    {id : KeymapId} (ho : s'.Owns root id) : ∃ place outer ids,
      Config.Tracks s' root members (place :: outer) (id :: ids) ∧
        ∀ x ∈ id :: ids, s'.Owns x id := by
  induction ho with
  | self =>
      refine ⟨_, _, _, .cons (Or.inl rfl) .self built .nil, fun x hx => ?_⟩
      cases List.mem_singleton.1 hx
      exact .self
  | @step id next km key _ hkm hk ih =>
      obtain ⟨place, outer, ids, tracks, around⟩ := ih
      obtain ⟨slot, hs, ho⟩ := Option.bind_eq_some_iff.1 hk
      obtain ⟨i, v, hl, hr⟩ := exists_represents tracks ((slot?_eq hkm key).trans hs)
      rw [Config.Represents] at hr
      cases hv : Config.meaning v with
      | keymap inner =>
          rw [hv] at hr
          have inside := tracks.inside hl hv
          subst hr
          cases ho
          refine ⟨_, _, _, inside, List.forall_mem_cons.2 ⟨.self, fun x hx => ?_⟩⟩
          exact .step (around x hx) hkm hk
      | back levels =>
          rw [hv] at hr
          obtain ⟨target, -, rfl⟩ := hr
          cases ho
      | action =>
          rw [hv] at hr
          subst hr
          cases ho

theorem Tracks.owns_of_mem {members : List (String × Json)} {places : List Config.Place}
    {ids : List KeymapId} (h : Config.Tracks s' root members places ids) {id : KeymapId}
    (hid : id ∈ ids) : s'.Owns root id := by
  induction h with
  | nil => cases hid
  | cons _ owns _ _ ih =>
      rcases List.mem_cons.1 hid with rfl | hid
      · exact owns
      · exact ih hid

/-- Keys of the keymaps of a configuration lead to such keymaps only, and those are all there. -/
theorem encloses_of_compile (compiled : s.compile config = .ok (root, s')) :
    s'.Encloses (s'.Owns root) := by
  obtain ⟨members, rfl, built⟩ := built_of_compile compiled
  constructor
  · intro id ho
    obtain ⟨place, outer, ids, tracks, -⟩ := exists_tracks built ho
    obtain ⟨km, hkm, -⟩ := tracks.keymap?_eq (.refl s' root)
    exact alive_of_keymap? hkm
  · intro id key slot next ho hs hn
    obtain ⟨place, outer, ids, tracks, -⟩ := exists_tracks built ho
    obtain ⟨i, v, hl, hr⟩ := exists_represents tracks hs
    rw [Config.Represents] at hr
    cases hv : Config.meaning v with
    | keymap inner =>
        rw [hv] at hr
        subst hr
        obtain ⟨km, hkm, hk⟩ := exists_ownedAt? hs rfl
        cases hn
        exact .step ho hkm hk
    | back levels =>
        rw [hv] at hr
        obtain ⟨target, ht, rfl⟩ := hr
        cases hn
        exact Tracks.owns_of_mem tracks (List.mem_of_getElem? ht)
    | action =>
        rw [hv] at hr
        subst hr
        cases hn

/-- A compiled keymap serves its configuration. -/
theorem served_of_compile (compiled : s.compile config = .ok (root, s')) :
    s'.Served root (s'.Owns root) (Config.outcome config) where
  mem := .self
  encloses := encloses_of_compile compiled
  walk keys := by
    have ends := ends_walk compiled (.refl s' root) keys
    rw [Config.outcome]
    generalize Config.interpret config keys = reached at ends ⊢
    generalize s'.walk root keys = binding at ends ⊢
    cases ends with
    | nothing => rfl
    | object _ _ _ => rfl
    | action => rfl

/-- If the configuration is plain, it does so as a tree. -/
theorem grown_of_compile {members : List (String × Json)} (plain : Config.Plain members)
    (compiled : s.compile (.object members) = .ok (root, s')) :
    ∃ t, s'.Grown root t (Config.outcome (.object members)) ∧ ∀ id, t.Mem id → s'.Owns root id := by
  obtain ⟨members', heq, built⟩ := built_of_compile compiled
  cases heq
  obtain ⟨child, spans, ends, unshared, -⟩ := built.exists_spans plain
  refine ⟨node root child, ⟨⟨child, rfl⟩, spans, ends, unshared, fun keys => ?_⟩, ?_⟩
  · rw [← (served_of_compile compiled).walk, spans.walk_eq ends, Option.map_map]
    rfl
  · exact fun id hid => (spans.mem_iff_owns ends).1 hid

end Compiled

/-! ## Merging -/

section Overlay

variable {s s' : Store (Action σ)} {D : KeymapId → Prop} {b : KeymapId}

/-- The new leaves of a tree are slots of the incoming keymaps. -/
theorem leaf_of_overlay {t : KeyTree (Action σ)} (ends : t.EndsInActions) (encl : s.Encloses D)
    (hb : D b) {keys : List Char} {slot : Slot (Action σ)}
    (h : (overlay s b t).at? keys = some (leaf slot)) :
    (∃ tag act, slot = .bound (.action tag act)) ∨ ∃ id key, D id ∧ s.slot? id key = some slot := by
  induction t using induct generalizing b keys with
  | leaf other => exact Or.inl (ends keys slot h)
  | node a child ih =>
      cases keys with
      | nil => cases h
      | cons key keys =>
          obtain ⟨t', ht', h⟩ := Option.bind_eq_some_iff.1 h
          replace ht' : overlayAt s (s.slot? b key) (child key) = some t' := ht'
          have new (theirs : Slot (Action σ)) (hs : s.slot? b key = some theirs)
              (ht' : t' = leaf theirs) : ∃ id key, D id ∧ s.slot? id key = some slot := by
            subst ht'
            cases keys with
            | nil =>
                cases h
                exact ⟨b, key, hb, hs⟩
            | cons _ _ => cases h
          cases hs : s.slot? b key with
          | none =>
              rw [hs, overlayAt_none] at ht'
              exact Or.inl (ends.of_child ht' keys slot h)
          | some theirs =>
              rw [hs] at ht'
              cases hc : child key with
              | none =>
                  rw [hc] at ht'
                  exact Or.inr (new theirs hs (Option.some.inj ht').symm)
              | some t =>
                  rw [hc] at ht'
                  rcases overlayAt_cases s theirs t with ⟨d, hd, he⟩ | he
                  · cases he.symm.trans ht'
                    exact ih key t hc (ends.of_child hc)
                      (encl.target b key theirs d hb hs (congrArg Binding.keymap? hd)) h
                  · exact Or.inr (new theirs hs (Option.some.inj (he.symm.trans ht')).symm)

/-- The nodes of the tree and the incoming keymaps lead to each other only. -/
theorem encloses_overlay {t : KeyTree (Action σ)} (spans : s'.Spans (overlay s b t))
    (ends : t.EndsInActions) (encl : s.Encloses D) (hb : D b)
    (agree : ∀ id, D id → s'.keymap? id = s.keymap? id) :
    s'.Encloses fun id => (overlay s b t).Mem id ∨ D id := by
  have encl' := encl.of_agree agree
  constructor
  · rintro id (⟨keys, grand, hx⟩ | hid)
    · exact (spans keys id grand hx).1
    · exact encl'.alive id hid
  · rintro id key slot next (⟨keys, grand, hx⟩ | hid) hs hn
    · rw [(spans keys id grand hx).2] at hs
      obtain ⟨u, hu, rfl⟩ := Option.map_eq_some_iff.1 hs
      have hx' : (overlay s b t).at? (keys ++ [key]) = some u := by
        rw [at?_append, hx, Option.bind_some, at?_node_cons, hu]
        rfl
      cases u with
      | node below child =>
          cases hn
          exact Or.inl ⟨_, child, hx'⟩
      | leaf slot =>
          rcases leaf_of_overlay ends encl hb hx' with ⟨tag, act, rfl⟩ | ⟨from_, key', hf, hs⟩
          · cases hn
          · exact Or.inr (encl.target from_ key' slot next hf hs hn)
    · exact Or.inr (encl'.target id key slot next hid hs hn)

/-- A key leads into a tree below. -/
theorem walk_cons_of_spans {s : Store (Action σ)} {a : KeymapId} {key : Char}
    {t : KeyTree (Action σ)} (hs : s.slot? a key = some t.slot) (spans : s.Spans t)
    (ends : t.EndsInActions) (keys : List Char) :
    s.walk a (key :: keys) = (t.at? keys).map binding := by
  cases t with
  | leaf slot =>
      obtain ⟨tag, act, rfl⟩ := ends [] slot rfl
      rw [walk, lookup, hs]
      cases keys <;> rfl
  | node c grand =>
      have alive : s.alive c := (spans_node.1 spans).1.1
      have hl : s.lookup a key = some (.keymap c) := by
        rw [lookup, hs]
        exact if_pos alive
      rw [walk_of_lookup hl, spans.walk_eq ends]

/-- Two keymaps with the same slot for a key. -/
theorem walk_cons_of_slot? {s : Store (Action σ)} {a b : KeymapId} {key : Char}
    (h : s.slot? a key = s.slot? b key) (keys : List Char) :
    s.walk a (key :: keys) = s.walk b (key :: keys) := by
  rw [walk, walk, lookup, lookup, h]

theorem Encloses.outcome_singleton (encl : s.Encloses D) (hb : D b) {key : Char}
    {slot : Slot (Action σ)} (hs : s.slot? b key = some slot) :
    (s.walk b [key]).map Binding.outcome = some slot.binding.outcome := by
  rw [walk, encl.lookup hb, hs, Option.map_some]
  cases hn : slot.binding with
  | action tag act => rfl
  | keymap d =>
      have alive := encl.alive d (encl.target b key slot d hb hs (congrArg Binding.keymap? hn))
      dsimp only
      rw [walk, if_pos alive]
      rfl

/-- What keys come to in the tree: the incoming keymap is laid over it. -/
theorem outcome_overlay {a : KeymapId} {child : Char → Option (KeyTree (Action σ))}
    (spans : s'.Spans (overlay s b (node a child))) (ends : (node a child).EndsInActions)
    (encl : s.Encloses D) (hb : D b) (agree : ∀ id, D id → s'.keymap? id = s.keymap? id)
    (keys : List Char) : (s'.walk a keys).map Binding.outcome =
      Outcome.above (fun keys => (s'.walk b keys).map Binding.outcome)
        (fun keys => ((node a child).at? keys).map fun u => u.binding.outcome) keys := by
  have encl' := encl.of_agree agree
  induction keys generalizing a b child with
  | nil =>
      have alive : s'.alive a := (spans_node.1 spans).1.1
      rw [Outcome.above_nil, walk, if_pos alive, walk, if_pos (encl'.alive b hb)]
      rfl
  | cons key keys ih =>
      obtain ⟨⟨-, slots⟩, below⟩ := spans_node.1 spans
      have at_key := slots key
      replace below := below key
      rw [← slot?_of_agree (agree b hb)] at at_key below
      cases hs : s'.slot? b key with
      | none =>
          -- the key is bound in the tree only
          rw [hs, overlayAt_none] at at_key below
          have unbound : (s'.walk b [key]).map Binding.outcome = none := by
            rw [walk, lookup, hs]
            rfl
          rw [Outcome.above_of_none unbound, at?_node_cons]
          cases hc : child key with
          | none =>
              rw [hc] at at_key
              rw [walk, lookup, at_key]
              rfl
          | some t =>
              rw [hc] at at_key
              rw [walk_cons_of_spans at_key (below t hc) (ends.of_child hc), Option.map_map]
              rfl
      | some slot =>
          rw [hs] at at_key below
          have first := encl'.outcome_singleton hb hs
          -- where not both lead to keymaps the incoming slot has come in
          have replaced (h : overlayAt s (some slot) (child key) = some (leaf slot))
              (hboth : ¬((s'.walk b [key]).map Binding.outcome = some .keymap ∧
                ((node a child).at? [key]).map (fun u => u.binding.outcome) = some .keymap)) :
              (s'.walk a (key :: keys)).map Binding.outcome =
                Outcome.above (fun keys => (s'.walk b keys).map Binding.outcome)
                  (fun keys => ((node a child).at? keys).map fun u => u.binding.outcome)
                  (key :: keys) := by
            rw [h] at at_key
            rw [Outcome.above_of_some (Option.isSome_of_eq_some first) hboth,
              walk_cons_of_slot? (at_key.trans hs.symm)]
          cases hc : child key with
          | none =>
              refine replaced (by rw [hc]; rfl) fun both => ?_
              rw [at?_node_cons, hc] at both
              cases both.2
          | some t =>
              have ours : ((node a child).at? [key]).map (fun u => u.binding.outcome) =
                  some t.binding.outcome := by
                rw [at?_node_cons, hc]
                rfl
              cases t with
              | leaf other =>
                  obtain ⟨tag, act, rfl⟩ := ends.of_child hc [] other rfl
                  refine replaced (hc ▸ overlayAt_leaf fun _ _ _ ht => ?_) fun both => ?_
                  · cases ht
                  · cases ours.symm.trans both.2
              | node c grand =>
                  cases hn : slot.binding with
                  | action tag act =>
                      refine replaced (hc ▸ overlayAt_leaf fun _ d _ _ hd => ?_) fun both => ?_
                      · cases hn.symm.trans hd
                      · rw [hn] at first
                        cases first.symm.trans both.1
                  | keymap d =>
                      -- both lead to keymaps, of which one has been merged into the other
                      have he : overlayAt s (some slot) (some (node c grand)) =
                          some (overlay s d (node c grand)) := overlayAt_descend hn
                      rw [hc, he] at at_key below
                      have spans := below _ rfl
                      have hd := encl'.target b key slot d hb hs (congrArg Binding.keymap? hn)
                      have to_c : s'.lookup a key = some (.keymap c) := by
                        rw [lookup, at_key]
                        exact if_pos (spans_node.1 spans).1.1
                      have to_d : s'.lookup b key = some (.keymap d) := by
                        rw [encl'.lookup hb, hs, Option.map_some, hn]
                      rw [hn] at first
                      rw [Outcome.above_of_keymap first ours, walk_of_lookup to_c,
                        ih spans (ends.of_child hc) hd]
                      congr 1
                      · funext more
                        rw [walk_of_lookup to_d]
                      · funext more
                        rw [at?_of_child hc]

end Overlay

section Merge

variable {s : Store (Action σ)} {roots : List KeymapId} {root b : KeymapId} {t : KeyTree (Action σ)}
  {D : KeymapId → Prop} {f g : List Char → Option (Outcome σ)}

/-- What is held and not in a tree is not changed when something is merged into the tree. -/
theorem Grown.keymap?_merge (hg : s.Grown root t g) (hf : s.Served b D f)
    (supp : s.Supported (s.handles ++ roots) D) (apart : ∀ id, t.Mem id → ¬D id)
    {K : KeymapId → Prop} (hK : s.Supported (s.handles ++ roots) K)
    (out : ∀ id, K id → ¬t.Mem id) (id : KeymapId) (hid : K id) :
    (s.merge roots root b).keymap? id = s.keymap? id := by
  obtain ⟨child, rfl⟩ := hg.top
  exact (spans_overlay hg.spans hg.unshared hg.ends hf.encloses supp hf.mem apart).2.2 K hK out id hid

/-- A keymap that is merged into a tree is laid over what the tree serves. -/
theorem Grown.served_merge (hg : s.Grown root t g) (hf : s.Served b D f)
    (supp : s.Supported (s.handles ++ roots) D) (apart : ∀ id, t.Mem id → ¬D id) :
    (s.merge roots root b).Served root (fun id => (overlay s b t).Mem id ∨ D id)
      (Outcome.above f g) := by
  have agree := hg.keymap?_merge hf supp apart supp fun id hid ht => apart id ht hid
  obtain ⟨child, rfl⟩ := hg.top
  have spans := (spans_overlay hg.spans hg.unshared hg.ends hf.encloses supp hf.mem apart).1
  generalize s.merge roots root b = s' at agree spans
  refine ⟨Or.inl (mem_self root _), encloses_overlay spans hg.ends hf.encloses hf.mem agree, ?_⟩
  intro keys
  rw [outcome_overlay spans hg.ends hf.encloses hf.mem agree]
  congr 1
  · funext more
    exact (hf.of_agree agree).walk more
  · funext more
    exact hg.at? more

/-- What the tree leads to then stays if the tree is held and so is what was merged. -/
theorem Grown.supported_merge (hg : s.Grown root t g) (hf : s.Served b D f)
    (supp : s.Supported (s.handles ++ roots) D) (apart : ∀ id, t.Mem id → ¬D id)
    {more : List KeymapId} (hroot : root ∈ more) (hD : s.Supported more D) :
    (s.merge roots root b).Supported more fun id => (overlay s b t).Mem id ∨ D id := by
  have agree := hg.keymap?_merge hf supp apart supp fun id hid ht => apart id ht hid
  obtain ⟨child, rfl⟩ := hg.top
  have spans := (spans_overlay hg.spans hg.unshared hg.ends hf.encloses supp hf.mem apart).1
  rw [overlay_node] at spans ⊢
  exact (spans.supported hroot).or (hD.of_agree agree)

/-- The outcome is a tree if the keymap is the topmost one of a tree. -/
theorem Grown.merge {u : KeyTree (Action σ)} (hg : s.Grown root t g) (hf : s.Grown b u f)
    (supp : s.Supported (s.handles ++ roots) u.Mem) (apart : ∀ id, t.Mem id → ¬u.Mem id) :
    (s.merge roots root b).Grown root (t.merge u) (Outcome.above f g) := by
  have walk := (hg.served_merge hf.served supp apart).walk
  have agree := hg.keymap?_merge hf.served supp apart supp fun id hid ht => apart id ht hid
  obtain ⟨child, rfl⟩ := hg.top
  have overlaid := (spans_overlay hg.spans hg.unshared hg.ends hf.served.encloses supp
    hf.served.mem apart).1
  obtain ⟨theirs, rfl⟩ := hf.top
  have spans := spans_merge overlaid hf.spans (hf.spans.of_agree agree) hf.ends
  have ends := endsInActions_merge hg.ends hf.ends
  refine ⟨⟨_, rfl⟩, spans, ends, unshared_merge hg.unshared hf.unshared apart, fun keys => ?_⟩
  rw [← walk, merge_node, spans.walk_eq ends, Option.map_map]
  rfl

end Merge

end Store

end ModalKeys
