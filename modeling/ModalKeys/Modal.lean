import ModalKeys.Action
import ModalKeys.Keymap.Merge

/-!
# Modals

A modal is the state of one mode. A keymap modal follows keys through a keymap, and a timeout tells
apart a key that is complete from one that begins a longer sequence. A visual modal also remembers
the shape of the selection. A search modal collects text until it is confirmed.

A modal only decides what a key or a timeout comes to, its `Resolution`. Running the action is left to
the caller, who resets the modal when the action has finished. Timers are deadlines; nothing fires by
itself. Instants are counted in nanoseconds from a fixed instant, and so is the time between them.
-/

namespace ModalKeys

/-- The instant some milliseconds after another. -/
def afterMillis (now ms : Nat) : Nat := now + ms * 1000000

/-- What a key or an expired timeout comes to. -/
inductive Resolution (σ : Type) where
  /-- More keys are needed. -/
  | pending
  /-- Run the action with the keys typed, then reset the modal. -/
  | run (action : Action σ)
  /-- Nothing is bound to the keys and no handler takes them. Reset the modal. -/
  | unhandled
  /-- Hand a search to the host. The modal stays as it is. -/
  | search (query : SearchQuery)

/-- The part of a modal that follows keys through keymaps. -/
structure Matcher (σ : Type) where
  /-- Where every sequence starts. -/
  root : KeymapId
  /-- The keymaps that were merged into the root, kept so that aliases into them hold. -/
  layers : List KeymapId := []
  /-- Where the keys typed so far lead. -/
  current : Option KeymapId := none
  deadline : Option Nat := none
  onDefault : Option (Action σ) := none
  onTimeout : Option (Action σ) := none

namespace Matcher

def reset (m : Matcher σ) : Matcher σ := { m with current := none, deadline := none }

/-- What unmatched keys come to: the default handler takes them, if there is one. -/
def unmatched (m : Matcher σ) : Resolution σ :=
  match m.onDefault with
  | some action => .run action
  | none => .unhandled

/-- What keys come to when no further key arrives in time: the timeout handler takes them, or else
the default handler. -/
def expired (m : Matcher σ) : Resolution σ :=
  match m.onTimeout with
  | some action => .run action
  | none => m.unmatched

/-- Follows one key. `deadline` is the one to set if more keys are needed. -/
def onKey (m : Matcher σ) (s : Store (Action σ)) (key : Char) (deadline : Option Nat) :
    Matcher σ × Resolution σ :=
  match s.lookup (m.current.getD m.root) key with
  | some (.keymap next) => ({ m with current := some next, deadline }, .pending)
  | some (.action _ action) => (m.reset, .run action)
  | none => (m.reset, m.unmatched)

/-- The keymaps that a matcher holds. -/
def held (m : Matcher σ) : List KeymapId := m.root :: m.current.toList ++ m.layers

end Matcher

/-- The part of a modal that collects search text. -/
structure Searcher where
  text : String := ""
  range : SearchRange := default
  direction : SearchDirection := default
  singleChar : Bool := false
  last : Option SearchQuery := none
  deriving DecidableEq, Repr

namespace Searcher

/-- Starts with no text and the given options. The last search is kept. -/
def latch (s : Searcher) (options : EnterOptions) : Searcher :=
  { s with
    text := ""
    range := options.searchRange.getD default
    direction := options.searchDirection.getD default
    singleChar := options.singleChar.getD false }

def confirm (s : Searcher) : Searcher × SearchQuery :=
  let query := ⟨s.text, s.range, s.direction⟩
  ({ s with last := some query }, query)

/-- A line break confirms the text, any other key adds to it. With `singleChar` any other key is the
whole text and confirms it. -/
def onKey (s : Searcher) (key : Char) : Searcher × Option SearchQuery :=
  if key = '\n' then s.confirm.map id some
  else if s.singleChar then ({ s with text := String.singleton key }.confirm).map id some
  else ({ s with text := s.text.push key }, none)

end Searcher

inductive ModalKind (σ : Type) where
  | keymap (matcher : Matcher σ)
  | visual (matcher : Matcher σ) (shape : VisualShape)
  | search (searcher : Searcher)

/-- The state of one mode. -/
structure Modal (σ : Type) where
  name : String
  /-- How many nanoseconds to wait for a further key. Without it the wait never ends. -/
  wait : Option Nat := none
  /-- The keys typed since the last sequence was resolved. -/
  keySeq : List Char := []
  kind : ModalKind σ

namespace Modal

/-! ## Looking at a modal -/

def matcher? (m : Modal σ) : Option (Matcher σ) :=
  match m.kind with
  | .keymap matcher => some matcher
  | .visual matcher _ => some matcher
  | .search _ => none

def searcher? (m : Modal σ) : Option Searcher :=
  match m.kind with
  | .search searcher => some searcher
  | _ => none

def root? (m : Modal σ) : Option KeymapId := m.matcher?.map (·.root)

/-- The wait for a further key in whole milliseconds. -/
def timeout (m : Modal σ) : Option Nat := m.wait.map (· / afterMillis 0 1)

def deadline (m : Modal σ) : Option Nat := m.matcher?.bind (·.deadline)

def isPending (m : Modal σ) : Bool := (m.matcher?.bind (·.current)).isSome

def visualShape (m : Modal σ) : Option VisualShape :=
  match m.kind with
  | .visual _ shape => some shape
  | _ => none

def searchText (m : Modal σ) : Option String := m.searcher?.map (·.text)
def searchRange (m : Modal σ) : Option SearchRange := m.searcher?.map (·.range)
def searchDirection (m : Modal σ) : Option SearchDirection := m.searcher?.map (·.direction)

def isSingleChar (m : Modal σ) : Bool := (m.searcher?.map (·.singleChar)).getD false

def lastSearch (m : Modal σ) : Option SearchQuery := m.searcher?.bind (·.last)

/-- A short text for the user: the search text, or the keys that are pending. -/
def message (m : Modal σ) : String :=
  match m.kind with
  | .search searcher => searcher.text
  | _ => String.ofList m.keySeq

/-- The keymaps that a modal holds. -/
def held (m : Modal σ) : List KeymapId := (m.matcher?.map Matcher.held).getD []

/-- A number of nanoseconds in a larger unit, with the digits of the fraction that matter. -/
def inUnits (nanos unit : Nat) (name : String) : String :=
  let digits := (Nat.toDigits 10 (unit + nanos % unit)).drop 1
  let fraction := (digits.reverse.dropWhile (· = '0')).reverse
  let point := if fraction.isEmpty then "" else "."
  s!"{nanos / unit}{point}{String.ofList fraction}{name}"

/-- A duration in the largest unit that it fills. -/
def durationText (nanos : Nat) : String :=
  if nanos < 1000 then inUnits nanos 1 "ns"
  else if nanos < 1000000 then inUnits nanos 1000 "µs"
  else if nanos < 1000000000 then inUnits nanos 1000000 "ms"
  else inUnits nanos 1000000000 "s"

def described (m : Modal σ) : String :=
  let timeout := match m.wait with
    | none => "None"
    | some nanos => "Some(" ++ durationText nanos ++ ")"
  "Modal \x7b name: " ++ quoted m.name ++ ", timeout: " ++ timeout ++ ", key_seq: " ++
    quotedChars m.keySeq ++ ", .. \x7d"

/-! ## Changing a modal -/

/-- Changes the matcher of a modal that has one. -/
def mapMatcher (m : Modal σ) (f : Matcher σ → Matcher σ) : Modal σ :=
  { m with kind := match m.kind with
      | .keymap matcher => .keymap (f matcher)
      | .visual matcher shape => .visual (f matcher) shape
      | .search searcher => .search searcher }

/-- Forgets the keys typed so far and the deadline. What was latched on entry stays. -/
def reset (m : Modal σ) : Modal σ := { m with keySeq := [] }.mapMatcher Matcher.reset

/-- Sets how long to wait after later keys. A deadline that is already set stays. -/
def setWait (m : Modal σ) (wait : Option Nat) : Modal σ := { m with wait }

/-- Sets the wait in milliseconds. -/
def setTimeout (m : Modal σ) (timeout : Option Nat) : Modal σ :=
  m.setWait (timeout.map (afterMillis 0))

def setDefaultHandler (m : Modal σ) (action : Option (Action σ)) : Modal σ :=
  m.mapMatcher fun matcher => { matcher with onDefault := action }

def setTimeoutHandler (m : Modal σ) (action : Option (Action σ)) : Modal σ :=
  m.mapMatcher fun matcher => { matcher with onTimeout := action }

def setVisualShape (m : Modal σ) (shape : VisualShape) : Modal σ :=
  match m.kind with
  | .visual matcher _ => { m with kind := .visual matcher shape }
  | _ => m

/-- Takes another root keymap, and gives up the layers. -/
def setKeymap (m : Modal σ) (root : KeymapId) : Modal σ :=
  m.reset.mapMatcher fun matcher => { matcher with root, layers := [] }

/-- Removes every key of the root keymap, and gives up the layers. -/
def clearKeymap (m : Modal σ) (s : Store (Action σ)) : Modal σ × Store (Action σ) :=
  match m.root? with
  | none => (m.reset, s)
  | some root => (m.reset.mapMatcher fun matcher => { matcher with layers := [] }, s.clear root)

/-- Merges a keymap into the root keymap and holds on to it as a layer. The keymaps in `roots` are
held throughout. -/
def updateKeymap (m : Modal σ) (s : Store (Action σ)) (roots : List KeymapId) (layer : KeymapId) :
    Modal σ × Store (Action σ) :=
  match m.root? with
  | none => (m, s)
  | some root =>
    (m.mapMatcher fun matcher => { matcher with layers := layer :: matcher.layers },
      s.merge (layer :: m.held ++ roots) root layer)

/-! ## Entering and leaving -/

/-- Latches the options before the modal becomes active. -/
def willEnter (m : Modal σ) (options : EnterOptions) : Modal σ :=
  { m with kind := match m.kind with
      | .keymap matcher => .keymap matcher
      | .visual matcher _ => .visual matcher (options.visualShape.getD default)
      | .search searcher => .search (searcher.latch options) }

/-- Gives up latched search options before the modal stops being active. -/
def willLeave (m : Modal σ) : Modal σ :=
  { m with kind := match m.kind with
      | .search searcher => .search (searcher.latch {})
      | kind => kind }

/-! ## Keys and timeouts -/

/-- Takes a key typed at `now`. After `run` and `unhandled` the caller resets the modal. -/
def onKey (m : Modal σ) (s : Store (Action σ)) (key : Char) (now : Nat) : Modal σ × Resolution σ :=
  let deadline := m.wait.map (now + ·)
  match m.kind with
  | .keymap matcher =>
    let (matcher, r) := matcher.onKey s key deadline
    ({ m with keySeq := m.keySeq ++ [key], kind := .keymap matcher }, r)
  | .visual matcher shape =>
    let (matcher, r) := matcher.onKey s key deadline
    ({ m with keySeq := m.keySeq ++ [key], kind := .visual matcher shape }, r)
  | .search searcher =>
    match searcher.onKey key with
    | (searcher, none) => ({ m with kind := .search searcher }, .pending)
    | (searcher, some query) => ({ m with kind := .search searcher }, .search query)

/-- Resolves the typed keys if their deadline has come by `now`. The caller resets the modal
afterwards. -/
def onTimeout (m : Modal σ) (now : Nat) : Modal σ × Option (Resolution σ) :=
  match m.matcher? with
  | none => (m, none)
  | some matcher =>
    if matcher.deadline.any (· ≤ now) then (m.mapMatcher Matcher.reset, some matcher.expired)
    else (m, none)

end Modal

end ModalKeys
