import ModalKeys.Proofs.Editor.Event
import ModalKeys.Proofs.Modal.Step

/-!
# Operations of an editor

Everything that an embedding program can do with an editor, as data, so that whole runs can be
spoken of. Results are left out: an operation that fails has changed the editor as far as it got.
-/

namespace ModalKeys

variable {σ : Type}

/-- What an embedding program can do with an editor. -/
inductive Operation (σ : Type) where
  | inputKey (key : Char) (now : Nat)
  | checkTimeout (now : Nat)
  | enterMode (mode : Mode) (options : EnterOptions)
  | enterModeNamed (name : String) (options : EnterOptions)
  | resetCurrent
  | resetAll
  | clearKeymaps
  | updateKeymaps (layers : KeymapLayers)
  | applyPreset (preset : Preset)
  | updateFromSettings (settings : Settings)
  | setKeymap (mode : Mode) (root : KeymapId)
  | updateKeymap (mode : Mode) (layer : KeymapId)
  | clearKeymap (mode : Mode)
  | setWait (mode : Mode) (wait : Option Nat)
  | setDefaultHandler (mode : Mode) (action : Option (Action σ))
  | setTimeoutHandler (mode : Mode) (action : Option (Action σ))
  /-- Any other change of one modal, such as having it take a key while another one is active. -/
  | changeModal (mode : Mode) (change : Modal σ → Modal σ)
  /-- Work on keymaps outside the editor, some of which it may share. -/
  | changeStore (change : Store (Action σ) → Store (Action σ))
  /-- Work on the host, or on what callbacks share with it. -/
  | changeState (change : σ → σ)
  | subscribe
  | unsubscribe (ticket : Nat)
  | receive (ticket : Nat)

namespace Operation

/-- Whether the modals are changed by the editor's own operations only. -/
def Regular : Operation σ → Prop
  | .changeModal .. => False
  | _ => True

end Operation

namespace Editor

/-- The editor after an operation. -/
def apply (e : Editor σ) : Operation σ → Editor σ
  | .inputKey key now => (e.inputKey key now).1
  | .checkTimeout now => (e.checkTimeout now).1
  | .enterMode mode options => e.enterMode mode options
  | .enterModeNamed name options => (e.enterModeNamed name options).1
  | .resetCurrent => e.resetCurrent
  | .resetAll => e.resetAll
  | .clearKeymaps => e.clearKeymaps
  | .updateKeymaps layers => (e.updateKeymaps layers).1
  | .applyPreset preset => (e.applyPreset preset).1
  | .updateFromSettings settings => (e.updateFromSettings settings).1
  | .setKeymap mode root => e.setKeymap mode root
  | .updateKeymap mode layer => e.updateKeymap mode layer
  | .clearKeymap mode => e.clearKeymap mode
  | .setWait mode wait => e.setWait mode wait
  | .setDefaultHandler mode action => e.setDefaultHandler mode action
  | .setTimeoutHandler mode action => e.setTimeoutHandler mode action
  | .changeModal mode change => e.update mode change
  | .changeStore change => { e with store := change e.store }
  | .changeState change => { e with state := change e.state }
  | .subscribe => e.subscribe.2
  | .unsubscribe ticket => e.unsubscribe ticket
  | .receive ticket => (e.receive ticket).2

/-- The editor after some operations. -/
def run (e : Editor σ) (ops : List (Operation σ)) : Editor σ := ops.foldl apply e

/-! ## Keys and timeouts -/

end Editor

/-- A key typed, or a look at the clock. -/
inductive TimedInput where
  | typed (key : Char) (now : Nat)
  | check (now : Nat)

/-- The operation that processes an input. -/
def TimedInput.operation : TimedInput → Operation σ
  | .typed key now => .inputKey key now
  | .check now => .checkTimeout now

namespace Editor

/-- The editor when the active modal has taken an input, and what is to be done about it. A look at
the clock before the deadline comes to nothing. -/
def taken (e : Editor σ) : TimedInput → Editor σ × Option (Resolution σ)
  | .typed key now =>
    let (modal, r) := (e.modal e.mode).onKey e.store key now
    (e.modify e.mode fun _ => modal, some r)
  | .check now =>
    match (e.modal e.mode).onTimeout now with
    | (_, none) => (e, none)
    | (modal, some r) => (e.modify e.mode fun _ => modal, some r)

theorem taken_check_cases (e : Editor σ) (now : Nat) :
    e.taken (.check now) = (e, none) ∨
    ∃ matcher, (e.modal e.mode).matcher? = some matcher ∧
      e.taken (.check now) =
        (e.modify e.mode (Modal.mapMatcher · Matcher.reset), some matcher.expired) := by
  rw [taken]
  rcases (e.modal e.mode).onTimeout_cases now with h | ⟨matcher, hm, h⟩
  · exact Or.inl (by rw [h])
  · refine Or.inr ⟨matcher, hm, ?_⟩
    rw [h]
    cases e.mode <;> rfl

/-- An input is processed by doing what it came to. -/
theorem apply_input (e : Editor σ) (input : TimedInput) : e.apply input.operation =
    match e.taken input with
    | (_, none) => e
    | (e', some r) => (e'.resolve e.mode r).1.release := by
  cases input with
  | typed key now => rfl
  | check now =>
      show (e.checkTimeout now).1 = _
      rw [taken, checkTimeout]
      generalize (e.modal e.mode).onTimeout now = reply
      rcases reply with ⟨modal, _ | r⟩ <;> rfl

/-! ## Keymap operations -/

/-- What holds after each merge of a keymap and each handle given up holds after a whole layer. -/
theorem mergeLayer_preserves {P : Editor σ → Prop} (store : ∀ e s, P e → P { e with store := s })
    (updateKeymap : ∀ e mode km, P e → P (e.updateKeymap mode km)) {e : Editor σ} (name : String)
    (layers : KeymapLayers) (h : P e) : P (e.mergeLayer name layers).1 := by
  have step : ∀ (keymaps : List (Mode × KeymapId)) (e : Editor σ), P e →
      P (keymaps.foldl (fun e entry => (e.updateKeymap entry.1 entry.2).drop entry.2) e) := by
    intro keymaps
    induction keymaps with
    | nil => exact fun e he => he
    | cons entry rest ih =>
        intro e he
        -- once a keymap has been merged the handle to it is given up
        have hu := updateKeymap e entry.1 entry.2 he
        have hd : P ((e.updateKeymap entry.1 entry.2).drop entry.2) := store _ _ (store _ _ hu)
        exact ih _ hd
  exact step _ _ (store _ _ h)

theorem mergeLayers_preserves {P : Editor σ → Prop} (store : ∀ e s, P e → P { e with store := s })
    (updateKeymap : ∀ e mode km, P e → P (e.updateKeymap mode km)) {e : Editor σ}
    (layers : List (String × KeymapLayers)) (h : P e) : P (e.mergeLayers layers).1 := by
  induction layers generalizing e with
  | nil => exact h
  | cons layer rest ih => exact ih (mergeLayer_preserves store updateKeymap layer.1 layer.2 h)

theorem clearKeymaps_preserves {P : Editor σ → Prop}
    (clearKeymap : ∀ e mode, P e → P (e.clearKeymap mode)) {e : Editor σ} (h : P e) :
    P e.clearKeymaps :=
  clearKeymap _ _ (clearKeymap _ _ (clearKeymap _ _ h))

theorem updateFromSettings_preserves {P : Editor σ → Prop}
    (store : ∀ e s, P e → P { e with store := s })
    (updateKeymap : ∀ e mode km, P e → P (e.updateKeymap mode km))
    (clearKeymap : ∀ e mode, P e → P (e.clearKeymap mode))
    (setWait : ∀ e mode wait, P e → P (e.setWait mode wait)) {e : Editor σ}
    (settings : Settings) (h : P e) : P (e.updateFromSettings settings).1 :=
  mergeLayers_preserves store updateKeymap _
    (clearKeymaps_preserves clearKeymap (setWait _ _ _ h))

end Editor

end ModalKeys
