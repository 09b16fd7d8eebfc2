import ModalKeys.Proofs.Keymap.Soundness

/-!
# Back references that hold

An alias leads somewhere as long as its keymap is there, and nothing about the alias sees to that. It is
safe in two cases: the keymap is one of a few that are held for good, or it lies *around* the keymap with
the alias, that is, whoever comes to the one has come through the other. A keymap that is merged into
another one keeps its aliases and may lose what was around it, so that only the first case is left,
unless the other one has no keys.
-/

namespace ModalKeys

variable {α σ : Type}

namespace Store

/-- Every alias leads to one of `layers`, or to a keymap that lies around the one with the alias. What
lies around a keymap also lies around its owners, itself apart, and nothing lies around a layer. -/
structure Guarded (s : Store α) (Around : KeymapId → KeymapId → Prop) (layers : List KeymapId) :
    Prop where
  back : ∀ id key target, s.slot? id key = some (.aliasOf target) →
    target ∈ layers ∨ Around target id
  inner : ∀ id key slot next x, s.slot? id key = some slot → slot.owned? = some next →
    Around x next → x = next ∨ Around x id
  nested : ∀ x y id, Around x y → Around y id → Around x id
  outer : ∀ x, ∀ layer ∈ layers, ¬Around x layer

namespace Guarded

variable {s t : Store α} {Around : KeymapId → KeymapId → Prop} {layers : List KeymapId}

/-! ## Following keys -/

/-- Whatever lies around a keymap is still there when a key has been followed from it. -/
theorem alive_of_lookup (h : s.Guarded Around layers) {id next : KeymapId} {key : Char}
    (around : ∀ x, Around x id → s.alive x) (hl : s.lookup id key = some (.keymap next)) :
    ∀ x, Around x next → s.alive x := by
  obtain ⟨slot, hs, hr⟩ := Option.bind_eq_some_iff.1 hl
  have alive : s.alive next := Store.alive_of_lookup hl
  intro x hx
  have hn : slot.binding = .keymap next := binding_of_resolve hr
  rcases slot with binding | target
  · subst hn
    rcases h.inner id key _ next x hs rfl hx with rfl | hx
    · exact alive
    · exact around x hx
  · obtain rfl : target = next := Binding.keymap.inj hn
    rcases h.back id key target hs with layer | up
    · exact absurd hx (h.outer x target layer)
    · exact around x (h.nested x target id hx up)

theorem alive_of_walk (h : s.Guarded Around layers) {id next : KeymapId} {keys : List Char}
    (around : ∀ x, Around x id → s.alive x) (hw : s.walk id keys = some (.keymap next)) :
    ∀ x, Around x next → s.alive x := by
  induction keys generalizing id with
  | nil =>
      rw [walk] at hw
      split at hw
      · cases hw
        exact around
      · cases hw
  | cons key keys ih =>
      rw [walk] at hw
      split at hw
      · next below hl => exact ih (h.alive_of_lookup around hl) hw
      · split at hw
        · cases hw
        · cases hw
      · cases hw

/-- Every key of a keymap that can be reached leads somewhere. -/
theorem isSome_lookup (h : s.Guarded Around layers) (sound : s.Sound)
    (held : ∀ layer ∈ layers, s.alive layer) {root : KeymapId} (hroot : root ∈ layers)
    {keys : List Char} {id : KeymapId} (hw : s.walk root keys = some (.keymap id)) {key : Char}
    (hk : key ∈ s.keys id) : (s.lookup id key).isSome := by
  have around : ∀ x, Around x id → s.alive x :=
    h.alive_of_walk (fun x hx => absurd hx (h.outer x root hroot)) hw
  obtain ⟨slot, hs⟩ := Option.isSome_iff_exists.1 (mem_keys.1 hk)
  have resolves : s.resolve slot = some slot.binding := by
    apply resolve_eq_binding
    intro next hn
    rcases slot with (next' | ⟨tag, act⟩) | target
    · exact sound id key _ next hs hn
    · cases hn
    · cases hn
      rcases h.back id key next hs with layer | up
      · exact held next layer
      · exact around next up
  rw [lookup, hs]
  exact Option.isSome_of_eq_some resolves

/-! ## Steps -/

theorem of_slots (h : s.Guarded Around layers)
    (slots : ∀ id key slot, t.slot? id key = some slot → s.slot? id key = some slot) :
    t.Guarded Around layers where
  back id key target hs := h.back id key target (slots id key _ hs)
  inner id key slot next x hs := h.inner id key slot next x (slots id key slot hs)
  nested := h.nested
  outer := h.outer

theorem release (h : s.Guarded Around layers) (roots : List KeymapId) :
    (s.release roots).Guarded Around layers :=
  h.of_slots fun _ _ _ => (s.within_release roots).slot?

theorem putAll (h : s.Guarded Around layers) (a : KeymapId) (keys : List Char) {slot : Slot α}
    (back : ∀ target, slot = .aliasOf target → target ∈ layers ∨ Around target a)
    (inner : ∀ next x, slot.owned? = some next → Around x next → x = next ∨ Around x a) :
    (s.putAll a keys slot).Guarded Around layers where
  back id key target hs := by
    rw [slot?_putAll] at hs
    split at hs
    · next here =>
        rw [here.1]
        exact back target (Option.some.inj hs)
    · exact h.back id key target hs
  inner id key found next x hs ho hx := by
    rw [slot?_putAll] at hs
    split at hs
    · next here =>
        cases hs
        rw [here.1]
        exact inner next x ho hx
    · exact h.inner id key found next x hs ho hx
  nested := h.nested
  outer := h.outer

/-! ## Merging -/

/-- A layer can be merged into a keymap without keys, which takes its place. -/
theorem merge_keyless (h : s.Guarded Around layers) (roots : List KeymapId) {a b : KeymapId}
    (keyless : ∀ key, s.slot? a key = none) (hb : b ∈ layers) :
    (s.merge roots a b).Guarded Around layers where
  back id key target hs := by
    rcases slot?_merge_of_keyless keyless hs with hs | ⟨rfl, theirs⟩
    · exact h.back id key target hs
    · exact (h.back b key target theirs).imp_right fun hx => absurd hx (h.outer target b hb)
  inner id key slot next x hs ho hx := by
    rcases slot?_merge_of_keyless keyless hs with hs | ⟨rfl, theirs⟩
    · exact h.inner id key slot next x hs ho hx
    · exact (h.inner b key slot next x theirs ho hx).imp_right fun hx => absurd hx (h.outer x b hb)
  nested := h.nested
  outer := h.outer

/-- New keymaps, which lead to new ones only and have nothing around them, can be merged wherever the
merge takes them. -/
theorem merge_new (h : s.Guarded Around layers) (roots : List KeymapId) {start a b : Nat}
    (inside : ∀ (id : Nat) key slot (x : Nat), start ≤ id → s.slot? id key = some slot →
      slot.binding.keymap? = some x → start ≤ x)
    (open_ : ∀ (x id : Nat), start ≤ id → ¬Around x id) (hb : start ≤ b) :
    (s.merge roots a b).Guarded Around layers := by
  have rule : MergeRule roots
      (fun t : Store α => t.Guarded Around layers ∧ ∀ (id : Nat) key slot (x : Nat), start ≤ id →
        t.slot? id key = some slot → slot.binding.keymap? = some x → start ≤ x)
      (fun _ (b : Nat) => start ≤ b)
      (fun _ slot => (∀ x : Nat, slot.binding.keymap? = some x → start ≤ x) ∧
        ∀ target, slot = .aliasOf target → target ∈ layers) :=
    { release := fun t more ht => ⟨ht.1.release _, fun id key slot x hid hs =>
        ht.2 id key slot x hid ((t.within_release _).slot? hs)⟩
      put := by
        rintro t a b key slot ⟨guarded, inside⟩ hb ⟨new, layer⟩
        constructor
        · refine guarded.putAll a [key] (fun target ht => Or.inl (layer target ht)) ?_
          intro next x ho hx
          refine absurd hx (open_ x next (new next ?_))
          rcases slot with (next' | ⟨tag, act⟩) | target
          · exact ho
          · cases ho
          · cases ho
        · intro id k found x hid hs hx
          rw [slot?_put] at hs
          split at hs
          · cases hs
            exact new x hx
          · exact inside id k found x hid hs hx
      slots := by
        rintro t a b key slot ⟨guarded, inside⟩ hb hs
        refine ⟨fun x hx => inside b key slot x hb hs hx, ?_⟩
        rintro target rfl
        exact (guarded.back b key target hs).resolve_right (open_ target b hb)
      descend := by
        rintro t a b key slot c d - hb ⟨new, -⟩ - hd
        exact new d (congrArg Binding.keymap? (binding_of_resolve hd)) }
  exact (rule.merge ⟨h, inside⟩ hb).1

/-! ## Compiling -/

/-- Keymaps that are being filled, innermost first: what lies around each of them is itself and the
keymaps further out, save the outermost one. Unless the configuration is `deep`, nothing does. -/
def Stacked (deep : Bool) (outermost : KeymapId) (Around : KeymapId → KeymapId → Prop) :
    List KeymapId → Prop
  | [] => True
  | id :: outer => (∀ x, Around x id ↔ deep ∧ x ∈ id :: outer ∧ x ≠ outermost) ∧
      Stacked deep outermost Around outer

section Compiling

variable {deep : Bool} {outermost : KeymapId} {enclosing : List KeymapId}
  {Around' : KeymapId → KeymapId → Prop}

theorem Stacked.of_agree (h : Stacked deep outermost Around enclosing)
    (agree : ∀ id ∈ enclosing, ∀ x, Around' x id ↔ Around x id) :
    Stacked deep outermost Around' enclosing := by
  induction enclosing with
  | nil => trivial
  | cons id outer ih =>
      refine ⟨fun x => (agree id List.mem_cons_self x).trans (h.1 x), ih h.2 ?_⟩
      exact fun y hy => agree y (List.mem_cons_of_mem _ hy)

/-- What lies around a keymap that is being filled is being filled. -/
theorem Stacked.mem (h : Stacked deep outermost Around enclosing) {x id : KeymapId}
    (hid : id ∈ enclosing) (hx : Around x id) : x ∈ enclosing ∧ x ≠ outermost := by
  induction enclosing with
  | nil => cases hid
  | cons first outer ih =>
      rcases List.mem_cons.1 hid with rfl | hid
      · exact ((h.1 x).1 hx).2
      · exact ⟨List.mem_cons_of_mem _ (ih h.2 hid).1, (ih h.2 hid).2⟩

/-- The store of a compilation. The keymap for the configuration as a whole is about to be a layer. -/
structure Growing (s : Store (Action σ)) (layers : List KeymapId) (deep : Bool)
    (enclosing : List KeymapId) (t : Store (Action σ)) (Around : KeymapId → KeymapId → Prop) :
    Prop where
  guarded : t.Guarded Around (s.next :: layers)
  next : s.next ≤ t.next
  lt : ∀ x y : Nat, Around x y → x < t.next ∧ y < t.next
  owned : ∀ id key slot (next : Nat), t.slot? id key = some slot → slot.owned? = some next →
    next < t.next
  stacked : Stacked deep s.next Around enclosing
  bounds : ∀ id : Nat, id ∈ enclosing → s.next ≤ id ∧ id < t.next
  start : enclosing = [] → t.next = s.next
  last : ∀ id, enclosing.getLast? = some id → id = s.next
  shallow : deep = false → ∀ x y : Nat, s.next ≤ y → ¬Around x y

namespace Growing

variable {s t : Store (Action σ)} {km : KeymapId}

/-- A new keymap lies in those that are being filled, itself included, but for the outermost one. -/
def Widened (outermost new : KeymapId) (deep : Bool) (enclosing : List KeymapId)
    (Around : KeymapId → KeymapId → Prop) (x y : KeymapId) : Prop :=
  Around x y ∨ deep ∧ y = new ∧ x ∈ new :: enclosing ∧ x ≠ outermost

theorem guarded_create (h : Growing s layers deep enclosing t Around)
    (old : ∀ layer : Nat, layer ∈ layers → layer < s.next) (name help : Option String) :
    (t.create name help).2.Guarded (Widened s.next t.next deep enclosing Around)
      (s.next :: layers) where
  back id key target hs := by
    rw [slot?_create] at hs
    split at hs
    · cases hs
    · exact (h.guarded.back id key target hs).imp_right Or.inl
  inner id key slot next x hs ho hx := by
    rw [slot?_create] at hs
    split at hs
    · cases hs
    · rcases hx with hx | ⟨-, rfl, -⟩
      · exact (h.guarded.inner id key slot next x hs ho hx).imp_right Or.inl
      · exact absurd (h.owned id key slot t.next hs ho) (Nat.lt_irrefl _)
  nested := by
    rintro x y id (hx | ⟨hd, rfl, hx⟩) (hy | ⟨hd', rfl, hy⟩)
    · exact Or.inl (h.guarded.nested x y id hx hy)
    · rcases List.mem_cons.1 hy.1 with rfl | hmem
      · exact absurd (h.lt x t.next hx).2 (Nat.lt_irrefl _)
      · obtain ⟨hmem, hne⟩ := h.stacked.mem hmem hx
        exact Or.inr ⟨hd', rfl, List.mem_cons_of_mem _ hmem, hne⟩
    · exact absurd (h.lt t.next id hy).1 (Nat.lt_irrefl _)
    · exact Or.inr ⟨hd, rfl, hx⟩
  outer := by
    rintro x layer hl (hx | ⟨-, rfl, hx, hne⟩)
    · exact h.guarded.outer x layer hl hx
    · rcases List.mem_cons.1 hl with he | hl
      · rcases List.mem_cons.1 hx with rfl | hx
        · exact hne he
        · have above : t.next ≤ x := Nat.le_trans (Nat.le_of_eq he) (h.bounds x hx).1
          exact absurd (h.bounds x hx).2 (Nat.not_lt_of_le above)
      · have := old t.next hl
        have := h.next
        omega

theorem create (h : Growing s layers deep enclosing t Around)
    (old : ∀ layer : Nat, layer ∈ layers → layer < s.next) (name help : Option String) :
    Growing s layers deep (t.next :: enclosing) (t.create name help).2
      (Widened s.next t.next deep enclosing Around) where
  guarded := h.guarded_create old name help
  next := Nat.le_succ_of_le h.next
  lt x y hx := by
    rcases hx with hx | ⟨-, rfl, hx, -⟩
    · exact ⟨Nat.lt_succ_of_lt (h.lt x y hx).1, Nat.lt_succ_of_lt (h.lt x y hx).2⟩
    · refine ⟨?_, Nat.lt_succ_self _⟩
      rcases List.mem_cons.1 hx with rfl | hx
      · exact Nat.lt_succ_self _
      · exact Nat.lt_succ_of_lt (h.bounds x hx).2
  owned id key slot next hs ho := by
    rw [slot?_create] at hs
    split at hs
    · cases hs
    · exact Nat.lt_succ_of_lt (h.owned id key slot next hs ho)
  stacked := by
    refine ⟨fun x => ?_, h.stacked.of_agree fun id hid x => ?_⟩
    · constructor
      · rintro (hx | ⟨hd, -, hx⟩)
        · exact absurd (h.lt x t.next hx).2 (Nat.lt_irrefl _)
        · exact ⟨hd, hx⟩
      · rintro ⟨hd, hx⟩
        exact Or.inr ⟨hd, rfl, hx⟩
    · constructor
      · rintro (hx | ⟨-, rfl, -⟩)
        · exact hx
        · exact absurd (h.bounds t.next hid).2 (Nat.lt_irrefl _)
      · exact Or.inl
  bounds id hid := by
    rcases List.mem_cons.1 hid with rfl | hid
    · exact ⟨h.next, Nat.lt_succ_self _⟩
    · exact ⟨(h.bounds id hid).1, Nat.lt_succ_of_lt (h.bounds id hid).2⟩
  start := nofun
  last id hid := by
    cases enclosing with
    | nil =>
        cases hid
        exact h.start rfl
    | cons first outer =>
        rw [List.getLast?_cons_cons] at hid
        exact h.last id hid
  shallow hd x y hy := by
    rintro (hx | ⟨hd', -⟩)
    · exact h.shallow hd x y hy hx
    · rw [hd] at hd'
      cases hd'

theorem freshTag (h : Growing s layers deep (km :: enclosing) t Around) :
    Growing s layers deep (km :: enclosing) t.freshTag.2 Around where
  guarded := h.guarded.of_slots fun _ _ _ hs => hs
  next := Nat.le_succ_of_le h.next
  lt x y hx := ⟨Nat.lt_succ_of_lt (h.lt x y hx).1, Nat.lt_succ_of_lt (h.lt x y hx).2⟩
  owned id key slot next hs ho := Nat.lt_succ_of_lt (h.owned id key slot next hs ho)
  stacked := h.stacked
  bounds id hid := ⟨(h.bounds id hid).1, Nat.lt_succ_of_lt (h.bounds id hid).2⟩
  start := nofun
  last := h.last
  shallow := h.shallow

theorem tail {inner : KeymapId} (h : Growing s layers deep (inner :: km :: enclosing) t Around) :
    Growing s layers deep (km :: enclosing) t Around where
  guarded := h.guarded
  next := h.next
  lt := h.lt
  owned := h.owned
  stacked := h.stacked.2
  bounds id hid := h.bounds id (List.mem_cons_of_mem _ hid)
  start := nofun
  last id hid := h.last id (by rw [List.getLast?_cons_cons, hid])
  shallow := h.shallow

theorem putAll (h : Growing s layers deep (km :: enclosing) t Around) (keys : List Char)
    {slot : Slot (Action σ)}
    (back : ∀ target, slot = .aliasOf target → target ∈ s.next :: layers ∨ Around target km)
    (inner : ∀ next x, slot.owned? = some next → Around x next → x = next ∨ Around x km)
    (lt : ∀ next : Nat, slot.owned? = some next → next < t.next) :
    Growing s layers deep (km :: enclosing) (t.putAll km keys slot) Around :=
  { h with
    guarded := h.guarded.putAll km keys back inner
    owned := by
      intro id key found next hs ho
      rw [slot?_putAll] at hs
      split at hs
      · cases hs
        exact lt next ho
      · exact h.owned id key found next hs ho }

end Growing

theorem kept_growing (s : Store (Action σ)) (layers : List KeymapId) (deep : Bool)
    (old : ∀ layer : Nat, layer ∈ layers → layer < s.next) :
    Config.Kept (fun depth n => deep || n + 1 == depth) fun enclosing t =>
      ∃ Around, Growing s layers deep enclosing t Around where
  create enclosing t name help h := by
    obtain ⟨Around, h⟩ := h
    exact ⟨_, h.create old name help⟩
  tag km enclosing t h := by
    obtain ⟨Around, h⟩ := h
    exact ⟨Around, h.freshTag⟩
  put km enclosing t keys slot h := by
    cases h with
    | action h =>
        obtain ⟨Around, h⟩ := h
        exact ⟨Around, h.putAll keys nofun nofun nofun⟩
    | @back _ n target h hp ht =>
        obtain ⟨Around, h⟩ := h
        refine ⟨Around, h.putAll keys ?_ nofun nofun⟩
        rintro _ ⟨⟩
        by_cases ho : target = s.next
        · exact Or.inl (ho ▸ List.mem_cons_self)
        · refine Or.inr ((h.stacked.1 target).2 ⟨?_, List.mem_of_getElem? ht, ho⟩)
          -- else it would be the outermost keymap
          rw [Bool.or_eq_true, beq_iff_eq] at hp
          refine hp.resolve_right fun hn => ho (h.last target ?_)
          rw [List.getLast?_eq_getElem?, ← hn, Nat.add_sub_cancel, ht]
    | @keymap _ inner h =>
        obtain ⟨Around, h⟩ := h
        refine ⟨Around, h.tail.putAll keys nofun ?_ ?_⟩
        · rintro _ x ⟨⟩ hx
          obtain ⟨hd, hmem, hne⟩ := (h.stacked.1 x).1 hx
          rcases List.mem_cons.1 hmem with rfl | hmem
          · exact Or.inl rfl
          · exact Or.inr ((h.stacked.2.1 x).2 ⟨hd, hmem, hne⟩)
        · rintro _ ⟨⟩
          exact (h.bounds inner List.mem_cons_self).2

/-- Compiling a configuration guards its back references: those to the outermost keymap once that is a
layer, and all others by what lies around the keymaps that they are in. -/
theorem exists_compile {s s' : Store (Action σ)} {config : Json} {root : KeymapId}
    (h : s.Guarded Around layers) (sound : s.Sound)
    (old : ∀ layer : Nat, layer ∈ layers → layer < s.next)
    (lt : ∀ x y : Nat, Around x y → x < s.next ∧ y < s.next) (deep : Bool)
    (outermost : Config.everyBack (fun depth n => deep || n + 1 == depth) config)
    (compiled : s.compile config = .ok (root, s')) :
    ∃ Around', s'.Guarded Around' (root :: layers) ∧
      (∀ x y : Nat, Around' x y → x < s'.next ∧ y < s'.next) ∧
      (deep = false → ∀ x y : Nat, s.next ≤ y → ¬Around' x y) := by
  have unmarked (x y : Nat) (hy : s.next ≤ y) : ¬Around x y :=
    fun hx => absurd (lt x y hx).2 (Nat.not_lt_of_le hy)
  have start : Growing s layers deep [] s Around :=
    { guarded :=
        { back := fun id key target hs =>
            (h.back id key target hs).imp_left (List.mem_cons_of_mem _)
          inner := h.inner
          nested := h.nested
          outer := fun x => List.forall_mem_cons.2 ⟨unmarked x s.next (Nat.le_refl _), h.outer x⟩ }
      next := Nat.le_refl _
      lt := lt
      owned := fun id key slot next hs ho => lt_next_of_alive (sound id key slot next hs ho)
      stacked := trivial
      bounds := nofun
      start := fun _ => rfl
      last := nofun
      shallow := fun _ => unmarked }
  obtain ⟨Around', h'⟩ := (kept_growing s layers deep old).compile ⟨Around, start⟩ outermost compiled
  refine ⟨Around', ?_, h'.lt, h'.shallow⟩
  rw [eq_next_of_compile compiled]
  exact h'.guarded

end Compiling

end Guarded

end Store

end ModalKeys
