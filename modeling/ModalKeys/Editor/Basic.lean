import ModalKeys.Host
import ModalKeys.Modal

/-!
# Editors

An editor owns one modal for each mode and knows which mode is active. A mode switch always takes the
same steps:

1. the host and then the active modal are told that the mode will be left,
2. the new mode's modal latches the options, and the host is told that the mode will be entered,
3. all modals are reset, which discards typed keys and deadlines,
4. the new mode becomes the active one,
5. the host is told that it has been entered, and
6. every subscriber is sent the new mode.

Entering the active mode takes them as well.
-/

namespace ModalKeys

/-- Someone who is sent each mode that is entered. The sender finds out that the receiver is gone
when it next has something to send. -/
structure Subscriber where
  ticket : Nat
  listening : Bool
  /-- What it has not looked at yet, the latest first. -/
  unread : List Mode
  deriving DecidableEq, Repr

/-- Sends a mode to all who listen, and forgets the others. -/
def Subscriber.notify (mode : Mode) (subscribers : List Subscriber) : List Subscriber :=
  (subscribers.filter (·.listening)).map fun sub => { sub with unread := mode :: sub.unread }

/-- Routes keys to the modal of the active mode. -/
structure Editor (σ : Type) where
  host : Host σ
  /-- The state of the host, which callbacks share. -/
  state : σ
  store : Store (Action σ)
  normal : Modal σ
  insert : Modal σ
  visual : Modal σ
  search : Modal σ
  mode : Mode := .normal
  subscribers : List Subscriber := []
  nextTicket : Nat := 0

namespace Editor

/-- An editor in Normal mode with empty keymaps and no timeouts. -/
def create (host : Host σ) (state : σ) : Editor σ :=
  let (normal, store) := (default : Store (Action σ)).create none none
  let (insert, store) := store.create none none
  let (visual, store) := store.create none none
  { host, state, store
    normal := { name := "normal", kind := .keymap { root := normal } }
    insert := { name := "insert", kind := .keymap { root := insert } }
    visual := { name := "visual", kind := .visual { root := visual } default }
    search := { name := "search", kind := .search {} } }

def modal (e : Editor σ) : Mode → Modal σ
  | .normal => e.normal
  | .insert => e.insert
  | .visual => e.visual
  | .search => e.search

def modify (e : Editor σ) (mode : Mode) (f : Modal σ → Modal σ) : Editor σ :=
  match mode with
  | .normal => { e with normal := f e.normal }
  | .insert => { e with insert := f e.insert }
  | .visual => { e with visual := f e.visual }
  | .search => { e with search := f e.search }

def current (e : Editor σ) : Modal σ := e.modal e.mode

def held (e : Editor σ) : List KeymapId := Mode.all.flatMap fun mode => (e.modal mode).held

/-- Releases the keymaps that are no longer held. -/
def release (e : Editor σ) : Editor σ := { e with store := e.store.release e.held }

/-! ## Looking at an editor -/

def nextDeadline (e : Editor σ) : Option Nat := e.current.deadline

/-- How many nanoseconds from `now` to wait for a key before timeouts should be checked. -/
def pollTimeout (e : Editor σ) (now : Nat) : Option Nat := e.nextDeadline.map (· - now)

/-- Whether the editor is in Visual mode, with a given shape if one is asked for. -/
def isVisual (e : Editor σ) (shape : Option VisualShape) : Bool :=
  e.mode == .visual && shape.all (some · == e.visual.visualShape)

def message (e : Editor σ) : String := e.current.message

/-- The text of a status line, such as `-- NORMAL --` or `-- SEARCH --: foo`. -/
def statusText (e : Editor σ) : String :=
  if e.message = "" then s!"-- {e.mode.title} --" else s!"-- {e.mode.title} --: {e.message}"

def lastSearch (e : Editor σ) : Option SearchQuery := e.search.lastSearch

/-! ## Subscribers -/

def subscribe (e : Editor σ) : Nat × Editor σ :=
  (e.nextTicket, { e with
    subscribers := e.subscribers ++ [⟨e.nextTicket, true, []⟩]
    nextTicket := e.nextTicket + 1 })

def unsubscribe (e : Editor σ) (ticket : Nat) : Editor σ :=
  { e with subscribers := e.subscribers.map fun sub =>
      if sub.ticket = ticket then { sub with listening := false } else sub }

/-- What a subscriber has been sent since it last looked. -/
def receive (e : Editor σ) (ticket : Nat) : List Mode × Editor σ :=
  ((e.subscribers.filter (·.ticket = ticket)).flatMap (·.unread.reverse),
    { e with subscribers := e.subscribers.map fun sub =>
        if sub.ticket = ticket then { sub with unread := [] } else sub })

/-- Leaves modes that a subscriber has received, but not dealt with, to be received again. -/
def putBack (e : Editor σ) (ticket : Nat) (modes : List Mode) : Editor σ :=
  { e with subscribers := e.subscribers.map fun sub =>
      if sub.ticket = ticket then { sub with unread := sub.unread ++ modes.reverse } else sub }

/-! ## Switching modes -/

def resetModals (e : Editor σ) : Editor σ :=
  Mode.all.foldl (fun e mode => e.modify mode Modal.reset) e

/-- Takes the steps of a switch to a mode. -/
def transition (e : Editor σ) (mode : Mode) (options : EnterOptions) : Editor σ :=
  let source := e.mode
  let e := { e with state := e.host.willLeave e.state source }
  let e := e.modify source Modal.willLeave
  let e := e.modify mode (Modal.willEnter · options)
  let e := { e with state := e.host.willEnter e.state mode options }
  let e := { e.resetModals with mode }
  let e := { e with state := e.host.didEnter e.state mode }
  { e with subscribers := Subscriber.notify mode e.subscribers }

/-- Carries out the switches that a host has asked for, in order. -/
def applyRequests (e : Editor σ) (requests : List ModeRequest) : Editor σ :=
  requests.foldl (fun e r => e.transition r.mode r.options) e

end Editor

end ModalKeys
