import ModalKeys.Keymap.Compile
import ModalKeys.Modal

/-!
# A modal on its own

A modal together with the keymaps it works on. After each step, keymaps that neither the modal nor a
handle keeps are released.
-/

namespace ModalKeys

structure Standalone (σ : Type) where
  store : Store (Action σ)
  modal : Modal σ

namespace Standalone

/-- A modal with an empty keymap. The timeout is in milliseconds. -/
def create (name : String) (timeout : Option Nat) (kind : KeymapId → ModalKind σ) : Standalone σ :=
  let (root, store) := (default : Store (Action σ)).create none none
  ⟨store, Modal.setTimeout { name, kind := kind root } timeout⟩

def keymap (name : String) (timeout : Option Nat) : Standalone σ :=
  create name timeout fun root => .keymap { root }

def visual (name : String) (timeout : Option Nat) : Standalone σ :=
  create name timeout fun root => .visual { root } default

def search (name : String) (timeout : Option Nat) : Standalone σ :=
  ⟨default, Modal.setTimeout { name, kind := .search {} } timeout⟩

/-- Releases the keymaps that are no longer held. -/
def release (m : Standalone σ) : Standalone σ := { m with store := m.store.release m.modal.held }

def map (m : Standalone σ) (f : Modal σ → Modal σ) : Standalone σ :=
  { m with modal := f m.modal }.release

def load (m : Standalone σ) (config : Json) : Except ConfigError (KeymapId × Standalone σ) := do
  let (km, store) ← m.store.load config
  .ok (km, { m with store }.release)

def drop (m : Standalone σ) (id : KeymapId) : Standalone σ :=
  { m with store := m.store.drop id }.release

def clearKeymap (m : Standalone σ) : Standalone σ :=
  let (modal, store) := m.modal.clearKeymap m.store
  { store, modal : Standalone σ }.release

def updateKeymap (m : Standalone σ) (layer : KeymapId) : Standalone σ :=
  let (modal, store) := m.modal.updateKeymap m.store [] layer
  { store, modal : Standalone σ }.release

def onKey (m : Standalone σ) (key : Char) (now : Nat) : Standalone σ × Resolution σ :=
  let (modal, r) := m.modal.onKey m.store key now
  ({ m with modal }.release, r)

def onTimeout (m : Standalone σ) (now : Nat) : Standalone σ × Option (Resolution σ) :=
  let (modal, r) := m.modal.onTimeout now
  ({ m with modal }.release, r)

end Standalone

end ModalKeys
