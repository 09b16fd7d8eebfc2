import ModalKeys.Proofs.Editor.Callbacks
import ModalKeys.Proofs.Editor.History

/-!
# Where actions come from

An editor runs the actions that keys are bound to and the handlers of its modals. The embedding program
sets the handlers, and if it shares no keymaps then all other actions are described by configurations,
which know of commands and sequences only. So whatever changes of the shared state there are in a run,
the embedding program makes them, or a handler that it has set.
-/

namespace ModalKeys

variable {σ : Type}

/-! ## Configurations -/

namespace Config

variable (Q : (σ → σ) → Prop)

theorem updates_describedCommand (members : List (String × Json)) :
    (describedCommand members : Action σ).Updates Q := by
  rw [describedCommand]
  trivial

mutual

/-- An action that a configuration describes has no callbacks. -/
theorem updates_described (v : Json) : (described v : Action σ).Updates Q := by
  cases v with
  | string name => trivial
  | object members => exact updates_describedCommand Q members
  | array items => exact updates_describedItems items
  | null => trivial
  | bool b => trivial
  | number n => trivial
termination_by structural v

theorem updates_describedItems (vs : List Json) :
    Action.UpdatesAll Q (describedItems vs : List (Action σ)) := by
  cases vs with
  | nil => trivial
  | cons v vs => exact ⟨updates_described v, updates_describedItems vs⟩
termination_by structural vs

end

end Config

/-! ## Stores -/

namespace Store

/-- Every action that a key is bound to satisfies a condition. -/
def EveryAction {α : Type} (P : α → Prop) (s : Store α) : Prop :=
  ∀ id key tag action, s.slot? id key = some (.bound (.action tag action)) → P action

namespace EveryAction

theorem of_rearranged {α : Type} {P : α → Prop} {s t : Store α} (h : s.EveryAction P)
    (copied : s.Rearranged t) : t.EveryAction P := by
  intro id key tag action hs
  obtain ⟨id', key', hs⟩ := copied.slot id key _ hs
  exact h id' key' tag action hs

theorem of_lookup {α : Type} {P : α → Prop} {s : Store α} (h : s.EveryAction P) {id : KeymapId}
    {key : Char} {tag : Nat} {action : α} (hl : s.lookup id key = some (.action tag action)) :
    P action := by
  obtain ⟨slot, hs, hr⟩ := Option.bind_eq_some_iff.1 hl
  have binding := binding_of_resolve hr
  cases slot with
  | bound other =>
      cases binding
      exact h id key tag action hs
  | aliasOf target => cases binding

variable {P : Action σ → Prop} {s s' : Store (Action σ)}

theorem kept (configured : ∀ v, P (Config.described v)) :
    Config.Kept (fun _ _ => true) fun _ (s : Store (Action σ)) => s.EveryAction P where
  create enclosing s id help h := by
    intro k key tag action hs
    rw [slot?_create] at hs
    split at hs
    · cases hs
    · exact h k key tag action hs
  tag km enclosing s h := h
  put km enclosing s keys slot fits := by
    intro k key tag action hs
    rw [slot?_putAll] at hs
    split at hs
    · cases hs
      cases fits with
      | action => exact configured _
    · cases fits with
      | action h => exact h k key tag action hs
      | back h => exact h k key tag action hs
      | keymap h => exact h k key tag action hs

theorem loads (configured : ∀ v, P (Config.described v)) {layers : KeymapLayers}
    {modes : List Mode} {keymaps : List (Mode × KeymapId)}
    (loads : KeymapLayers.Loads layers modes s keymaps s') (h : s.EveryAction P) :
    s'.EveryAction P := by
  induction loads with
  | nil => exact h
  | skip _ _ ih => exact ih h
  | @load _ _ _ s₁ _ _ _ _ _ compiled _ ih =>
      have first : s₁.EveryAction P :=
        (kept configured).compile h (Config.everyBack_true _) compiled
      exact ih first

end EveryAction

end Store

/-! ## Modals -/

namespace Matcher

/-- The handlers that are set. -/
def handlers (m : Matcher σ) : List (Action σ) := m.onDefault.toList ++ m.onTimeout.toList

theorem handlers_onKey (m : Matcher σ) (s : Store (Action σ)) (key : Char) (deadline : Option Nat) :
    (m.onKey s key deadline).1.handlers = m.handlers := by
  rcases m.onKey_cases s key deadline with ⟨next, h⟩ | ⟨action, h⟩ | ⟨-, h⟩ <;> rw [h] <;> rfl

theorem mem_handlers_of_unmatched {m : Matcher σ} {action : Action σ}
    (h : m.unmatched = .run action) : action ∈ m.handlers := by
  unfold unmatched at h
  split at h
  · next set =>
      cases h
      exact List.mem_append_left _ (Option.mem_toList.2 set)
  · cases h

theorem mem_handlers_of_expired {m : Matcher σ} {action : Action σ} (h : m.expired = .run action) :
    action ∈ m.handlers := by
  unfold expired at h
  split at h
  · next set =>
      cases h
      exact List.mem_append_right _ (Option.mem_toList.2 set)
  · exact mem_handlers_of_unmatched h

/-- A key runs the action that it is bound to, or a handler. -/
theorem action_of_onKey {m : Matcher σ} {s : Store (Action σ)} {key : Char} {deadline : Option Nat}
    {action : Action σ} (h : (m.onKey s key deadline).2 = .run action) :
    (∃ tag, s.lookup (m.current.getD m.root) key = some (.action tag action)) ∨
      action ∈ m.handlers := by
  unfold onKey at h
  split at h
  · cases h
  · next tag found hl =>
      cases h
      exact Or.inl ⟨tag, hl⟩
  · exact Or.inr (mem_handlers_of_unmatched h)

end Matcher

namespace Modal

/-- The handlers that are set. A modal that collects text has none. -/
def handlers (m : Modal σ) : List (Action σ) := (m.matcher?.map Matcher.handlers).getD []

variable {m m' : Modal σ}

theorem handlers_of_map {f : Matcher σ → Matcher σ} (h : m'.matcher? = m.matcher?.map f)
    (same : ∀ matcher, (f matcher).handlers = matcher.handlers) : m'.handlers = m.handlers := by
  rw [handlers, h, Option.map_map, handlers, show Matcher.handlers ∘ f = _ from funext same]

theorem handlers_of_matcher? (h : m'.matcher? = m.matcher?) : m'.handlers = m.handlers := by
  rw [handlers, h, handlers]

theorem handlers_mapMatcher (m : Modal σ) {f : Matcher σ → Matcher σ}
    (same : ∀ matcher, (f matcher).handlers = matcher.handlers) :
    (m.mapMatcher f).handlers = m.handlers :=
  handlers_of_map (m.matcher?_mapMatcher f) same

/-- What a change of the matcher adds to the handlers. -/
theorem mem_handlers_mapMatcher {f : Matcher σ → Matcher σ} {set : Option (Action σ)}
    (adds : ∀ matcher, ∀ action ∈ (f matcher).handlers, action ∈ matcher.handlers ∨ action ∈ set)
    {action : Action σ} (h : action ∈ (m.mapMatcher f).handlers) :
    action ∈ m.handlers ∨ action ∈ set := by
  rw [handlers, matcher?_mapMatcher] at h
  rw [handlers]
  cases hm : m.matcher? with
  | none =>
      rw [hm] at h
      exact Or.inl h
  | some matcher =>
      rw [hm] at h
      exact adds matcher action h

theorem mem_handlers_setDefaultHandler {set : Option (Action σ)} {action : Action σ}
    (h : action ∈ (m.setDefaultHandler set).handlers) : action ∈ m.handlers ∨ action ∈ set := by
  refine mem_handlers_mapMatcher (fun matcher action h => ?_) h
  rcases List.mem_append.1 h with new | kept
  · exact Or.inr (Option.mem_toList.1 new)
  · exact Or.inl (List.mem_append_right _ kept)

theorem mem_handlers_setTimeoutHandler {set : Option (Action σ)} {action : Action σ}
    (h : action ∈ (m.setTimeoutHandler set).handlers) : action ∈ m.handlers ∨ action ∈ set := by
  refine mem_handlers_mapMatcher (fun matcher action h => ?_) h
  rcases List.mem_append.1 h with kept | new
  · exact Or.inl (List.mem_append_left _ kept)
  · exact Or.inr (Option.mem_toList.1 new)

theorem handlers_reset (m : Modal σ) : m.reset.handlers = m.handlers :=
  handlers_of_map m.matcher?_reset fun _ => rfl

theorem handlers_onKey (s : Store (Action σ)) (m : Modal σ) (key : Char) (now : Nat) :
    (m.onKey s key now).1.handlers = m.handlers :=
  handlers_of_map (m.matcher?_onKey s key now) fun matcher => matcher.handlers_onKey s key _

theorem handlers_setKeymap (m : Modal σ) (root : KeymapId) :
    (m.setKeymap root).handlers = m.handlers := by
  refine (handlers_mapMatcher m.reset ?_).trans m.handlers_reset
  exact fun _ => rfl

theorem handlers_clearKeymap (m : Modal σ) (s : Store (Action σ)) :
    (m.clearKeymap s).1.handlers = m.handlers := by
  unfold clearKeymap
  split
  · exact m.handlers_reset
  · refine (handlers_mapMatcher m.reset ?_).trans m.handlers_reset
    exact fun _ => rfl

theorem handlers_updateKeymap (m : Modal σ) (s : Store (Action σ)) (roots : List KeymapId)
    (layer : KeymapId) : (m.updateKeymap s roots layer).1.handlers = m.handlers := by
  unfold updateKeymap
  split
  · rfl
  · refine handlers_mapMatcher m ?_
    exact fun _ => rfl

end Modal

namespace Operation

/-- The handler that an operation sets. -/
def handler? : Operation σ → Option (Action σ)
  | .setDefaultHandler _ action => action
  | .setTimeoutHandler _ action => action
  | _ => none

/-- The embedding program makes changes of `Q` only and sets no handlers that make others. -/
def Updates (Q : (σ → σ) → Prop) : Operation σ → Prop
  | .changeState change => Q change
  | op => ∀ action ∈ op.handler?, action.Updates Q

theorem Updates.handler {Q : (σ → σ) → Prop} {op : Operation σ} (h : op.Updates Q) :
    ∀ action ∈ op.handler?, action.Updates Q := by
  cases op with
  | changeState change => exact nofun
  | _ => exact h

theorem Internal.regular {op : Operation σ} (h : op.Internal) : op.Regular := by
  cases op with
  | changeModal mode change => exact h
  | _ => trivial

end Operation

namespace Editor

/-! ## Handlers -/

/-- Each mode has the same handlers in both editors. -/
def SameHandlers (e e' : Editor σ) : Prop :=
  ∀ mode, (e'.modal mode).handlers = (e.modal mode).handlers

namespace SameHandlers

variable {e e' : Editor σ}

theorem refl (e : Editor σ) : SameHandlers e e := fun _ => rfl

theorem withStore (h : SameHandlers e e') (s : Store (Action σ)) :
    SameHandlers e { e' with store := s } := h

theorem modify (h : SameHandlers e e') {mode : Mode} {f : Modal σ → Modal σ}
    (same : (f (e'.modal mode)).handlers = (e'.modal mode).handlers) :
    SameHandlers e (e'.modify mode f) := by
  intro other
  rw [modal_modify]
  split
  · next here =>
      subst here
      exact same.trans (h other)
  · exact h other

theorem update (h : SameHandlers e e') {mode : Mode} {f : Modal σ → Modal σ}
    (same : (f (e'.modal mode)).handlers = (e'.modal mode).handlers) :
    SameHandlers e (e'.update mode f) :=
  (h.modify same).withStore _

theorem transition (h : SameHandlers e e') (mode : Mode) (options : EnterOptions) :
    SameHandlers e (e'.transition mode options) := by
  have entered : SameHandlers e
      ((e'.modify e'.mode Modal.willLeave).modify mode (Modal.willEnter · options)) :=
    (h.modify (Modal.handlers_of_matcher? (Modal.matcher?_willLeave _))).modify
      (Modal.handlers_of_matcher? (Modal.matcher?_willEnter _ options))
  intro other
  rw [modal_transition, Modal.handlers_reset, entered other]

theorem ran {events : List (Event σ)} (h : Ran e events e') : SameHandlers e e' :=
  h.preserves (P := SameHandlers e) (fun _ _ hx => hx)
    (fun _ mode options hx => hx.transition mode options) (refl e)

theorem resolve (e : Editor σ) (source : Mode) (r : Resolution σ) :
    SameHandlers e (e.resolve source r).1 := by
  cases r with
  | pending => exact refl e
  | unhandled => exact (refl e).modify (Modal.handlers_reset _)
  | run action => exact (ran (ran_exec _ _ e action)).modify (Modal.handlers_reset _)
  | search query => exact ran (ran_runSearch e query)

theorem taken (e : Editor σ) (input : TimedInput) : SameHandlers e (e.taken input).1 := by
  cases input with
  | typed key now => exact (refl e).modify (Modal.handlers_onKey e.store _ key now)
  | check now =>
      rcases e.taken_check_cases now with hn | ⟨matcher, -, hs⟩
      · rw [hn]
        exact refl e
      · rw [hs]
        exact (refl e).modify (Modal.handlers_mapMatcher _ fun _ => rfl)

theorem input (e : Editor σ) (input : TimedInput) : SameHandlers e (e.apply input.operation) := by
  rw [apply_input]
  have before := taken e input
  generalize e.taken input = reply at before ⊢
  rcases reply with ⟨e', _ | r⟩
  · exact refl e
  · intro mode
    rw [modal_release, resolve e' e.mode r mode, before mode]

theorem resetModals (e : Editor σ) : SameHandlers e e.resetModals := by
  intro mode
  cases mode <;> exact Modal.handlers_reset _

theorem updateKeymap (h : SameHandlers e e') (mode : Mode) (layer : KeymapId) :
    SameHandlers e (e'.updateKeymap mode layer) := by
  refine ((h.withStore _).modify ?_).withStore _
  rw [modal_withStore]
  exact Modal.handlers_updateKeymap _ _ _ _

theorem clearKeymap (h : SameHandlers e e') (mode : Mode) :
    SameHandlers e (e'.clearKeymap mode) := by
  refine ((h.withStore _).modify ?_).withStore _
  rw [modal_withStore]
  exact Modal.handlers_clearKeymap _ _

/-- Only two operations set handlers. -/
theorem apply (e : Editor σ) {op : Operation σ} (hop : op.Regular)
    (default : ∀ mode action, op ≠ .setDefaultHandler mode action)
    (timeout : ∀ mode action, op ≠ .setTimeoutHandler mode action) :
    SameHandlers e (e.apply op) := by
  have store : ∀ (x : Editor σ) s, SameHandlers e x → SameHandlers e { x with store := s } :=
    fun _ s hx => hx.withStore s
  have merge : ∀ (x : Editor σ) mode layer, SameHandlers e x →
      SameHandlers e (x.updateKeymap mode layer) := fun _ mode layer hx => hx.updateKeymap mode layer
  have clear : ∀ (x : Editor σ) mode, SameHandlers e x → SameHandlers e (x.clearKeymap mode) :=
    fun _ mode hx => hx.clearKeymap mode
  cases op with
  | inputKey key now => exact input e (.typed key now)
  | checkTimeout now => exact input e (.check now)
  | enterMode mode options => exact ((refl e).transition mode options).withStore _
  | enterModeNamed name options =>
      show SameHandlers e (e.enterModeNamed name options).1
      unfold enterModeNamed
      cases Mode.ofName? name with
      | none => exact refl e
      | some mode => exact ((refl e).transition mode options).withStore _
  | resetCurrent => exact (refl e).update (Modal.handlers_reset _)
  | resetAll => exact (resetModals e).withStore _
  | clearKeymaps => exact clearKeymaps_preserves clear (refl e)
  | updateKeymaps layers => exact mergeLayer_preserves store merge _ layers (refl e)
  | applyPreset preset => exact mergeLayers_preserves store merge _ (refl e)
  | updateFromSettings settings =>
      exact updateFromSettings_preserves store merge clear (fun x mode timeout hx => hx.update rfl)
        settings (refl e)
  | setKeymap mode root => exact (refl e).update (Modal.handlers_setKeymap _ root)
  | updateKeymap mode layer => exact (refl e).updateKeymap mode layer
  | clearKeymap mode => exact (refl e).clearKeymap mode
  | setWait mode wait => exact (refl e).update rfl
  | setDefaultHandler mode action => exact (default mode action rfl).elim
  | setTimeoutHandler mode action => exact (timeout mode action rfl).elim
  | changeModal mode change => exact hop.elim
  | changeStore change => exact (refl e).withStore _
  | changeState change => exact refl e
  | subscribe => exact refl e
  | unsubscribe ticket => exact refl e
  | receive ticket => exact refl e

end SameHandlers

/-! ## Runs -/

/-- Every action that an editor may run satisfies a condition. -/
structure EveryAction (P : Action σ → Prop) (e : Editor σ) : Prop where
  bound : e.store.EveryAction P
  handlers : ∀ mode, ∀ action ∈ (e.modal mode).handlers, P action

variable {P : Action σ → Prop} {Q : (σ → σ) → Prop} {e e' : Editor σ}

/-- A new editor has no actions. -/
theorem everyAction_create (P : Action σ → Prop) (host : Host σ) (state : σ) :
    (create host state).EveryAction P where
  bound := by
    intro id key tag action hs
    rw [(bare_create host state).slots] at hs
    cases hs
  handlers mode := by cases mode <;> exact nofun

theorem everyAction_take (h : e.store.EveryAction P) (p : Mode × KeymapId) :
    (e.take p).store.EveryAction P := by
  have updated : (e.updateKeymap p.1 p.2).store.EveryAction P := by
    cases hr : (e.modal p.1).root? with
    | none =>
        rw [updateKeymap_of_none hr]
        exact h.of_rearranged (.release _ _)
    | some root =>
        have merged := h.of_rearranged (.merge _ (p.2 :: (e.modal p.1).held ++ e.held) root p.2)
        rw [← store_merged] at merged
        rw [updateKeymap_eq hr]
        exact merged.of_rearranged (.release _ _)
  have dropped : ((e.updateKeymap p.1 p.2).store.drop p.2).EveryAction P := updated
  exact dropped.of_rearranged (.release _ _)

/-- The actions that a layer brings along are described by its configurations. -/
theorem everyAction_mergeLayer (configured : ∀ v, P (Config.described v))
    (h : e.store.EveryAction P) (name : String) (layers : KeymapLayers) :
    (e.mergeLayer name layers).1.store.EveryAction P := by
  have take (keymaps : List (Mode × KeymapId)) (x : Editor σ) (hx : x.store.EveryAction P) :
      (keymaps.foldl Editor.take x).store.EveryAction P := by
    induction keymaps generalizing x with
    | nil => exact hx
    | cons p rest ih => exact ih _ (everyAction_take hx p)
  obtain ⟨same, -⟩ := layers.compile_repaired name e.store
  have loads := KeymapLayers.loads_of_compile same
  rw [mergeLayer_eq]
  exact take _ _ (Store.EveryAction.loads configured loads h)

theorem everyAction_of_moves (configured : ∀ v, P (Config.described v)) (moves : Moves e e')
    (h : e.store.EveryAction P) : e'.store.EveryAction P := by
  cases moves with
  | follow store modals => rwa [store]
  | release => exact h.of_rearranged (.release _ _)
  | clear => exact h.of_rearranged (.clear _ _)
  | layer name layers => exact everyAction_mergeLayer configured h name layers

namespace EveryAction

theorem handlers_update (h : e.EveryAction P) {mode : Mode} {f : Modal σ → Modal σ}
    {set : Option (Action σ)} (sets : ∀ action ∈ set, P action)
    (adds : ∀ action ∈ (f (e.modal mode)).handlers, action ∈ (e.modal mode).handlers ∨ action ∈ set)
    (other : Mode) : ∀ action ∈ ((e.update mode f).modal other).handlers, P action := by
  intro action hin
  rw [update, modal_release, modal_modify] at hin
  split at hin
  · next here =>
      subst here
      exact (adds action hin).elim (h.handlers other action) (sets action)
  · exact h.handlers other action hin

/-- If no keymaps are shared, an operation brings along the actions that configurations describe and the
handler that it sets. -/
theorem apply (configured : ∀ v, P (Config.described v)) (h : e.EveryAction P) {op : Operation σ}
    (hop : op.Internal) (sets : ∀ action ∈ op.handler?, P action) : (e.apply op).EveryAction P where
  bound := Moves.apply (P := fun x => x.store.EveryAction P)
    (fun _ _ moves hx => everyAction_of_moves configured moves hx) h.bound hop
  handlers mode := by
    have same (kept : SameHandlers e (e.apply op)) :
        ∀ action ∈ ((e.apply op).modal mode).handlers, P action := by
      rw [kept mode]
      exact h.handlers mode
    cases op with
    | setDefaultHandler other set =>
        exact h.handlers_update sets (fun _ => Modal.mem_handlers_setDefaultHandler) mode
    | setTimeoutHandler other set =>
        exact h.handlers_update sets (fun _ => Modal.mem_handlers_setTimeoutHandler) mode
    | _ => exact same (.apply e hop.regular nofun nofun)

/-- An input runs an action that a key is bound to, or a handler. -/
theorem of_taken (h : e.EveryAction P) {input : TimedInput} {action : Action σ}
    (ht : e.taken input = (e', some (.run action))) : P action := by
  cases input with
  | typed key now =>
      have resolved : ((e.modal e.mode).onKey e.store key now).2 = .run action :=
        Option.some.inj (congrArg Prod.snd ht)
      rcases (e.modal e.mode).matcher?_or_searcher? with ⟨matcher, hm, -⟩ | ⟨searcher, hs, -⟩
      · obtain ⟨-, -, answer⟩ := Modal.onKey_of_matcher? hm e.store key now
        rcases Matcher.action_of_onKey (answer.symm.trans resolved) with ⟨tag, hl⟩ | handler
        · exact h.bound.of_lookup hl
        · refine h.handlers e.mode action ?_
          rw [Modal.handlers, hm]
          exact handler
      · obtain ⟨-, -, waits | ⟨query, confirms⟩⟩ := Modal.onKey_of_searcher? hs e.store key now
        · cases waits.symm.trans resolved
        · cases confirms.symm.trans resolved
  | check now =>
      rcases e.taken_check_cases now with hn | ⟨matcher, hm, expired⟩
      · cases hn.symm.trans ht
      · have resolved := Option.some.inj (congrArg Prod.snd (expired.symm.trans ht))
        refine h.handlers e.mode action ?_
        rw [Modal.handlers, hm]
        exact Matcher.mem_handlers_of_expired resolved

theorem updates_input (h : e.EveryAction (Action.Updates Q)) (input : TimedInput) (step : σ → σ)
    (hs : .update step ∈ e.inputEvents input) : Q step := by
  rw [inputEvents] at hs
  rcases ht : e.taken input with ⟨e', _ | r⟩
  · rw [ht] at hs
    cases hs
  · rw [ht] at hs
    cases r with
    | pending => cases hs
    | unhandled => cases hs
    | run action => exact byAction_exec _ _ e' action (h.of_taken ht) _ hs
    | search query =>
        rcases List.mem_cons.1 hs with hs | hs
        · cases hs
        · exact byAction_switches (Q := Q) _ _ _ hs

theorem updates_apply (h : e.EveryAction (Action.Updates Q)) {op : Operation σ}
    (hop : op.Updates Q) (step : σ → σ) (hs : .update step ∈ e.operationEvents op) : Q step := by
  cases op with
  | inputKey key now => exact h.updates_input (.typed key now) step hs
  | checkTimeout now => exact h.updates_input (.check now) step hs
  | enterMode mode options => exact byAction_switch (Q := Q) e.mode ⟨mode, options⟩ _ hs
  | enterModeNamed name options =>
      rw [operationEvents] at hs
      split at hs
      · next mode _ => exact byAction_switch (Q := Q) e.mode ⟨mode, options⟩ _ hs
      · cases hs
  | changeState change =>
      cases List.mem_singleton.1 hs
      exact hop
  | _ => cases hs

/-- If no keymaps are shared, only the embedding program and the handlers that it has set change the
shared state in the course of a run. -/
theorem updates_run (h : e.EveryAction (Action.Updates Q)) {ops : List (Operation σ)}
    (internal : ∀ op ∈ ops, op.Internal) (updates : ∀ op ∈ ops, op.Updates Q) (step : σ → σ)
    (hs : .update step ∈ e.runEvents ops) : Q step := by
  induction ops generalizing e with
  | nil => cases hs
  | cons op rest ih =>
      obtain ⟨hi, internal⟩ := List.forall_mem_cons.1 internal
      obtain ⟨hu, updates⟩ := List.forall_mem_cons.1 updates
      rcases List.mem_append.1 hs with hs | hs
      · exact h.updates_apply hu step hs
      · exact ih (h.apply (Config.updates_described Q) hi hu.handler) internal updates hs

end EveryAction

end Editor

end ModalKeys
