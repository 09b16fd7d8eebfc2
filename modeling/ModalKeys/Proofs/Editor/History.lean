import ModalKeys.Proofs.Editor.BackReferences
import ModalKeys.Proofs.Editor.Faults
import ModalKeys.Proofs.Keymap.Copying
import ModalKeys.Proofs.Keymap.Parentage

/-!
# Editors that keep their keymaps to themselves

An embedding program can set up an editor by configurations alone. The keymaps of such an editor are all
its own, and whatever its operations do comes down to a few moves: modals follow keys and give up
keymaps, keymaps are released, a root keymap is cleared, and a layer of configurations is merged. What
each move keeps holds after every run.
-/

namespace ModalKeys

variable {σ : Type}

/-! ## Modals -/

namespace Modal

/-- A modal keeps its root keymap, and holds what it held or what keys of that lead to. -/
structure Follows (s : Store (Action σ)) (m m' : Modal σ) : Prop where
  root? : m'.root? = m.root?
  held : ∀ id ∈ m'.held, id ∈ m.held ∨
    ∃ owner ∈ m.held, ∃ key, s.lookup owner key = some (.keymap id)

variable {s : Store (Action σ)} {m m' : Modal σ}

theorem follows_of_matcher? (h : m'.matcher? = m.matcher?) : m.Follows s m' where
  root? := by rw [root?, h, root?]
  held id hid := by
    rw [held, h] at hid
    exact Or.inl hid

theorem follows_of_map {f : Matcher σ → Matcher σ} (h : m'.matcher? = m.matcher?.map f)
    (root : ∀ matcher, (f matcher).root = matcher.root)
    (sub : ∀ matcher, (f matcher).held ⊆ matcher.held) : m.Follows s m' where
  root? := by
    rw [root?, h, Option.map_map, root?]
    congr 1
    funext matcher
    exact root matcher
  held id hid := by
    rw [held, h] at hid
    rw [held]
    cases hm : m.matcher? with
    | none =>
        rw [hm] at hid
        exact Or.inl hid
    | some matcher =>
        rw [hm] at hid
        exact Or.inl (sub matcher hid)

theorem held_reset_subset (matcher : Matcher σ) : matcher.reset.held ⊆ matcher.held := by
  intro id hid
  rcases List.mem_cons.1 hid with rfl | hid
  · exact List.mem_cons_self
  · exact List.mem_append_right (matcher.root :: matcher.current.toList) hid

theorem follows_reset (s : Store (Action σ)) (m : Modal σ) : m.Follows s m.reset :=
  follows_of_map m.matcher?_reset (fun _ => rfl) held_reset_subset

theorem matcher?_willEnter (m : Modal σ) (options : EnterOptions) :
    (m.willEnter options).matcher? = m.matcher? := by
  unfold matcher? willEnter
  cases m.kind <;> rfl

theorem matcher?_willLeave (m : Modal σ) : m.willLeave.matcher? = m.matcher? := by
  unfold matcher? willLeave
  cases m.kind <;> rfl

theorem current_mem_held (matcher : Matcher σ) :
    matcher.current.getD matcher.root ∈ matcher.held := by
  rw [Matcher.held]
  cases matcher.current with
  | none => exact List.mem_cons_self
  | some id => exact List.mem_cons_of_mem _ List.mem_cons_self

/-- A key leads on from a keymap that is held, or what was typed is given up. -/
theorem held_onKey (matcher : Matcher σ) (s : Store (Action σ)) (key : Char) (deadline : Option Nat) :
    (matcher.onKey s key deadline).1.root = matcher.root ∧
      ∀ id ∈ (matcher.onKey s key deadline).1.held, id ∈ matcher.held ∨
        ∃ owner ∈ matcher.held, ∃ key, s.lookup owner key = some (.keymap id) := by
  unfold Matcher.onKey
  split
  · next next hl =>
      refine ⟨rfl, fun id hid => ?_⟩
      rw [Matcher.held, Option.toList_some, List.cons_append, List.mem_cons, List.mem_append,
        List.mem_singleton] at hid
      rcases hid with rfl | rfl | hid
      · exact Or.inl List.mem_cons_self
      · exact Or.inr ⟨_, current_mem_held matcher, key, hl⟩
      · exact Or.inl (List.mem_append_right (matcher.root :: matcher.current.toList) hid)
  · exact ⟨rfl, fun id hid => Or.inl (held_reset_subset matcher hid)⟩
  · exact ⟨rfl, fun id hid => Or.inl (held_reset_subset matcher hid)⟩

theorem follows_onKey (s : Store (Action σ)) (m : Modal σ) (key : Char) (now : Nat) :
    m.Follows s (m.onKey s key now).1 := by
  have after := m.matcher?_onKey s key now
  cases hm : m.matcher? with
  | none =>
      refine follows_of_matcher? ?_
      rw [after, hm, Option.map_none]
  | some matcher =>
      rw [hm, Option.map_some] at after
      obtain ⟨root, held⟩ := held_onKey matcher s key (m.wait.map (now + ·))
      constructor
      · rw [root?, after, root?, hm, Option.map_some, root, Option.map_some]
      · rw [Modal.held, after, Modal.held, hm]
        exact held

/-- A modal with a root keymap holds each further layer. -/
theorem mem_held_cons_layer {m : Modal σ} {root : KeymapId} (hr : m.root? = some root)
    (layer id : KeymapId) :
    id ∈ (m.mapMatcher fun matcher => { matcher with layers := layer :: matcher.layers }).held ↔
      id = layer ∨ id ∈ m.held := by
  obtain ⟨matcher, hm, -⟩ := Option.map_eq_some_iff.1 hr
  rw [held, matcher?_mapMatcher, held, hm]
  show id ∈ matcher.root :: matcher.current.toList ++ layer :: matcher.layers ↔
    id = layer ∨ id ∈ matcher.root :: matcher.current.toList ++ matcher.layers
  rw [List.mem_append, List.mem_cons (l := matcher.layers), List.mem_append, or_left_comm]

end Modal

namespace Operation

/-- Whether an operation shares no keymap with the embedding program. -/
def Internal : Operation σ → Prop
  | .setKeymap .. => False
  | .updateKeymap .. => False
  | .changeModal .. => False
  | .changeStore .. => False
  | _ => True

end Operation

namespace Editor

/-! ## Moves -/

@[simp] theorem modal_withStore (e : Editor σ) (s : Store (Action σ)) (mode : Mode) :
    ({ e with store := s } : Editor σ).modal mode = e.modal mode := by
  cases mode <;> rfl

/-- What the operations of an editor that shares no keymaps do to keymaps. -/
inductive Moves : Editor σ → Editor σ → Prop
  | follow {e e' : Editor σ} : e'.store = e.store →
      (∀ mode, (e.modal mode).Follows e.store (e'.modal mode)) → Moves e e'
  | release (e : Editor σ) : Moves e e.release
  | clear (e : Editor σ) {mode : Mode} {root : KeymapId} : (e.modal mode).root? = some root →
      Moves e { e with store := e.store.clear root }
  | layer (e : Editor σ) (name : String) (layers : KeymapLayers) :
      Moves e (e.mergeLayer name layers).1

theorem Moves.modify (e : Editor σ) (mode : Mode) {f : Modal σ → Modal σ}
    (hf : (e.modal mode).Follows e.store (f (e.modal mode))) : Moves e (e.modify mode f) := by
  refine .follow (by cases mode <;> rfl) fun m => ?_
  rw [modal_modify]
  split
  · next here =>
      subst here
      exact hf
  · exact Modal.follows_of_matcher? rfl

theorem Moves.transition (e : Editor σ) (mode : Mode) (options : EnterOptions) :
    Moves e (e.transition mode options) := by
  refine .follow ?_ fun m => ?_
  · unfold Editor.transition
    cases e.mode <;> cases mode <;> rfl
  · rw [modal_transition]
    refine Modal.follows_of_map (f := Matcher.reset) ?_ (fun _ => rfl) Modal.held_reset_subset
    rw [Modal.matcher?_reset, modal_modify, modal_modify]
    congr 1
    split <;> split <;> simp [Modal.matcher?_willEnter, Modal.matcher?_willLeave]

section Preserves

variable {P : Editor σ → Prop} (step : ∀ e e', Moves e e' → P e → P e')

include step

theorem Moves.ran {e e' : Editor σ} {events : List (Event σ)} (h : Ran e events e') (he : P e) :
    P e' :=
  h.preserves (P := P)
    (fun e s he => step e _ (.follow rfl fun mode => by
      cases mode <;> exact Modal.follows_of_matcher? rfl) he)
    (fun e mode options => step e _ (.transition e mode options)) he

theorem Moves.reset {e : Editor σ} (he : P e) (mode : Mode) : P (e.modify mode Modal.reset) :=
  step e _ (.modify e mode (Modal.follows_reset e.store _)) he

theorem Moves.resolve {e : Editor σ} (he : P e) (source : Mode) (r : Resolution σ) :
    P (e.resolve source r).1 := by
  cases r with
  | pending => exact he
  | unhandled => exact Moves.reset step he source
  | run action => exact Moves.reset step (Moves.ran step (ran_exec _ _ e action) he) source
  | search query => exact Moves.ran step (ran_runSearch e query) he

theorem Moves.taken {e : Editor σ} (he : P e) (input : TimedInput) :
    P (e.taken input).1 := by
  cases input with
  | typed key now =>
      exact step e _ (.modify e e.mode (f := fun _ => ((e.modal e.mode).onKey e.store key now).1)
        (Modal.follows_onKey e.store _ key now)) he
  | check now =>
      rcases e.taken_check_cases now with hn | ⟨matcher, -, hs⟩
      · rw [hn]
        exact he
      · rw [hs]
        refine step e _ (.modify e e.mode (f := (Modal.mapMatcher · Matcher.reset)) ?_) he
        exact Modal.follows_of_map (Modal.matcher?_mapMatcher _ _) (fun _ => rfl)
          Modal.held_reset_subset

theorem Moves.input {e : Editor σ} (he : P e) (input : TimedInput) :
    P (e.apply input.operation) := by
  rw [apply_input]
  have taken := Moves.taken step he input
  generalize e.taken input = reply at taken ⊢
  rcases reply with ⟨e', _ | r⟩
  · exact he
  · exact step _ _ (.release _) (Moves.resolve step taken e.mode r)

theorem Moves.update {e : Editor σ} (he : P e) (mode : Mode) {f : Modal σ → Modal σ}
    (hf : (e.modal mode).Follows e.store (f (e.modal mode))) : P (e.update mode f) :=
  step _ _ (.release _) (step e _ (.modify e mode hf) he)

theorem Moves.resetModals {e : Editor σ} (he : P e) : P e.resetModals := by
  have each (modes : List Mode) (x : Editor σ) (hx : P x) :
      P (modes.foldl (fun x mode => x.modify mode Modal.reset) x) := by
    induction modes generalizing x with
    | nil => exact hx
    | cons mode rest ih => exact ih _ (Moves.reset step hx mode)
  exact each Mode.all e he

theorem Moves.clearKeymap {e : Editor σ} (he : P e) (mode : Mode) : P (e.clearKeymap mode) := by
  rw [Editor.clearKeymap, Modal.clearKeymap]
  cases hr : (e.modal mode).root? with
  | none =>
      exact step _ _ (.release _) (step e _ (.modify e mode (f := fun _ => (e.modal mode).reset)
        (Modal.follows_reset e.store _)) he)
  | some root =>
      refine step _ _ (.release _) (step _ _ (.modify { e with store := e.store.clear root } mode ?_)
        (step e _ (.clear e hr) he))
      rw [modal_withStore]
      refine Modal.follows_of_map (f := fun matcher => { matcher.reset with layers := [] }) ?_
        (fun _ => rfl) fun matcher => ?_
      · rw [Modal.matcher?_mapMatcher, Modal.matcher?_reset, Option.map_map]
        rfl
      · rw [Matcher.held]
        exact List.cons_subset.2 ⟨List.mem_cons_self, List.nil_subset _⟩

theorem Moves.clearKeymaps {e : Editor σ} (he : P e) : P e.clearKeymaps :=
  clearKeymaps_preserves (P := P) (fun _ mode hx => Moves.clearKeymap step hx mode) he

theorem Moves.mergeLayers {e : Editor σ} (he : P e) (layers : List (String × KeymapLayers)) :
    P (e.mergeLayers layers).1 := by
  induction layers generalizing e with
  | nil => exact he
  | cons layer rest ih => exact ih (step e _ (.layer e layer.1 layer.2) he)

/-- What the moves keep is kept by every operation that shares no keymaps. -/
theorem Moves.apply {e : Editor σ} (he : P e) {op : Operation σ} (hop : op.Internal) :
    P (e.apply op) := by
  have same (e' : Editor σ) (store : e'.store = e.store)
      (modal : ∀ mode, e'.modal mode = e.modal mode) : P e' :=
    step e _ (.follow store fun mode => Modal.follows_of_matcher? (by rw [modal])) he
  have setter (mode : Mode) {f : Modal σ → Modal σ} {g : Matcher σ → Matcher σ}
      (hf : (f (e.modal mode)).matcher? = (e.modal mode).matcher?.map g)
      (hg : ∀ matcher, (g matcher).root = matcher.root ∧ (g matcher).held = matcher.held) :
      P (e.update mode f) := by
    refine Moves.update step he mode (Modal.follows_of_map hf (fun m => (hg m).1) fun m => ?_)
    rw [(hg m).2]
    exact List.Subset.refl _
  cases op with
  | inputKey key now => exact Moves.input step he (.typed key now)
  | checkTimeout now => exact Moves.input step he (.check now)
  | enterMode mode options =>
      exact step _ _ (.release _) (step e _ (.transition e mode options) he)
  | enterModeNamed name options =>
      show P (e.enterModeNamed name options).1
      unfold enterModeNamed
      cases Mode.ofName? name with
      | none => exact he
      | some mode => exact step _ _ (.release _) (step e _ (.transition e mode options) he)
  | resetCurrent => exact Moves.update step he _ (Modal.follows_reset e.store _)
  | resetAll => exact step _ _ (.release _) (Moves.resetModals step he)
  | clearKeymaps => exact Moves.clearKeymaps step he
  | updateKeymaps layers => exact step e _ (.layer e "keymaps" layers) he
  | applyPreset preset => exact Moves.mergeLayers step he _
  | updateFromSettings settings =>
      exact Moves.mergeLayers step (Moves.clearKeymaps step
        (Moves.update step he .insert (Modal.follows_of_matcher? rfl))) _
  | clearKeymap mode => exact Moves.clearKeymap step he mode
  | setWait mode wait => exact Moves.update step he mode (Modal.follows_of_matcher? rfl)
  | setDefaultHandler mode action =>
      exact setter mode (Modal.matcher?_mapMatcher _ _) fun _ => ⟨rfl, rfl⟩
  | setTimeoutHandler mode action =>
      exact setter mode (Modal.matcher?_mapMatcher _ _) fun _ => ⟨rfl, rfl⟩
  | changeState change => exact same _ rfl fun mode => by cases mode <;> rfl
  | subscribe => exact same _ rfl fun mode => by cases mode <;> rfl
  | unsubscribe ticket => exact same _ rfl fun mode => by cases mode <;> rfl
  | receive ticket => exact same _ rfl fun mode => by cases mode <;> rfl
  | setKeymap mode root => exact hop.elim
  | updateKeymap mode layer => exact hop.elim
  | changeModal mode change => exact hop.elim
  | changeStore change => exact hop.elim

theorem Moves.run {e : Editor σ} (he : P e) {ops : List (Operation σ)}
    (hops : ∀ op ∈ ops, op.Internal) : P (e.run ops) := by
  induction ops generalizing e with
  | nil => exact he
  | cons op rest ih =>
      obtain ⟨first, hops⟩ := List.forall_mem_cons.1 hops
      exact ih (Moves.apply step he first) hops

end Preserves

/-! ## Handles -/

theorem handles_loads {layers : KeymapLayers} {modes : List Mode} {s s' : Store (Action σ)}
    {keymaps : List (Mode × KeymapId)} (h : KeymapLayers.Loads layers modes s keymaps s') :
    s'.handles.Perm (keymaps.map (·.2) ++ s.handles) := by
  induction h with
  | nil => exact .refl _
  | skip _ _ ih => exact ih
  | load _ compiled _ ih =>
      rw [← (Store.extends_of_compile compiled).handles]
      exact ih.trans List.perm_middle

theorem handles_foldl_take {keymaps : List (Mode × KeymapId)} {e : Editor σ} {old : List KeymapId}
    (h : e.store.handles.Perm (keymaps.map (·.2) ++ old)) :
    (keymaps.foldl take e).store.handles.Perm old := by
  induction keymaps generalizing e with
  | nil => exact h
  | cons p rest ih =>
      refine ih ?_
      rw [handles_take]
      have given_up := h.erase p.2
      rwa [List.map_cons, List.cons_append, List.erase_cons_head] at given_up

/-- The handles to the keymaps of a layer have all been given up in the end. -/
theorem handles_mergeLayer (e : Editor σ) (name : String) (layers : KeymapLayers) :
    (e.mergeLayer name layers).1.store.handles.Perm e.store.handles := by
  obtain ⟨same, -⟩ := layers.compile_repaired name e.store
  have loads := KeymapLayers.loads_of_compile same
  rw [mergeLayer_eq]
  exact handles_foldl_take (handles_loads loads)

theorem Moves.handles {e e' : Editor σ} (h : Moves e e') (none : e.store.handles = []) :
    e'.store.handles = [] := by
  cases h with
  | follow store => rw [store, none]
  | release => exact (Store.handles_release _ _).trans none
  | clear => exact none
  | layer name layers => exact (none ▸ e.handles_mergeLayer name layers).eq_nil

end Editor

end ModalKeys
