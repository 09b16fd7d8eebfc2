import ModalKeys.Editor.Keymaps
import ModalKeys.Proofs.Modal.Idle

/-!
# What a mode switch changes

The fields of an editor after its small steps. A mode switch calls the host three times in a row,
resets every modal, and is the only step that sends anything to the subscribers.
-/

namespace ModalKeys

variable {σ : Type}

namespace Editor

/-! ## Changing one modal -/

section Modify

variable (e : Editor σ) (mode : Mode) (f : Modal σ → Modal σ)

theorem modal_modify (other : Mode) :
    (e.modify mode f).modal other = if other = mode then f (e.modal other) else e.modal other := by
  cases mode <;> cases other <;> rfl

@[simp] theorem host_modify : (e.modify mode f).host = e.host := by cases mode <;> rfl

@[simp] theorem state_modify : (e.modify mode f).state = e.state := by cases mode <;> rfl

@[simp] theorem mode_modify : (e.modify mode f).mode = e.mode := by cases mode <;> rfl

@[simp] theorem subscribers_modify : (e.modify mode f).subscribers = e.subscribers := by
  cases mode <;> rfl

@[simp] theorem nextTicket_modify : (e.modify mode f).nextTicket = e.nextTicket := by
  cases mode <;> rfl

theorem modal_modify_self : (e.modify mode f).modal mode = f (e.modal mode) := by
  rw [modal_modify, if_pos rfl]

theorem modal_modify_of_ne {other : Mode} (h : other ≠ mode) :
    (e.modify mode f).modal other = e.modal other := by
  rw [modal_modify, if_neg h]

/-- A change of a modal that does not alter its kind. -/
theorem isSome_searcher?_modify {e : Editor σ} {mode : Mode} {f : Modal σ → Modal σ}
    (h : (f (e.modal mode)).searcher?.isSome = (e.modal mode).searcher?.isSome) (other : Mode) :
    ((e.modify mode f).modal other).searcher?.isSome = (e.modal other).searcher?.isSome := by
  by_cases hm : other = mode
  · subst hm
    rw [modal_modify_self, h]
  · rw [modal_modify_of_ne _ _ _ hm]

end Modify

@[simp] theorem modal_release (e : Editor σ) (mode : Mode) :
    e.release.modal mode = e.modal mode := by
  cases mode <;> rfl

/-! ## Resetting all modals -/

@[simp] theorem host_resetModals (e : Editor σ) : e.resetModals.host = e.host := rfl

@[simp] theorem state_resetModals (e : Editor σ) : e.resetModals.state = e.state := rfl

@[simp] theorem subscribers_resetModals (e : Editor σ) :
    e.resetModals.subscribers = e.subscribers := rfl

@[simp] theorem nextTicket_resetModals (e : Editor σ) :
    e.resetModals.nextTicket = e.nextTicket := rfl

/-! ## Switching modes -/

section Transition

variable (e : Editor σ) (mode : Mode) (options : EnterOptions)

@[simp] theorem host_transition : (e.transition mode options).host = e.host := by
  simp [transition]

/-- The three calls of the host, in this order and without another between them. -/
theorem state_transition : (e.transition mode options).state =
    e.host.didEnter (e.host.willEnter (e.host.willLeave e.state e.mode) mode options) mode := by
  simp [transition]

@[simp] theorem mode_transition : (e.transition mode options).mode = mode := rfl

theorem subscribers_transition :
    (e.transition mode options).subscribers = Subscriber.notify mode e.subscribers := by
  simp [transition]

@[simp] theorem nextTicket_transition : (e.transition mode options).nextTicket = e.nextTicket := by
  simp [transition]

theorem modal_transition (m : Mode) : (e.transition mode options).modal m =
    (((e.modify e.mode Modal.willLeave).modify mode (Modal.willEnter · options)).modal m).reset := by
  unfold transition
  cases e.mode <;> cases mode <;> cases m <;> rfl

theorem isSome_searcher?_transition (m : Mode) :
    ((e.transition mode options).modal m).searcher?.isSome = (e.modal m).searcher?.isSome := by
  rw [modal_transition, Modal.searcher?_reset, isSome_searcher?_modify, isSome_searcher?_modify]
  · rw [Modal.searcher?_willLeave, Option.isSome_map]
  · rw [Modal.searcher?_willEnter, Option.isSome_map]

end Transition

end Editor

end ModalKeys
