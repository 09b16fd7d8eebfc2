import ModalKeys.Editor.Keymaps
import ModalKeys.Terminal.Host
import ModalKeys.Terminal.Keyboard

/-!
# Terminal sessions

A session shows an editor on a terminal. Redrawing prints the cursor shape of each mode entered since
the last redraw, and the status line if its text has changed.
-/

namespace ModalKeys

/-- The escape sequence that sets a cursor shape. Outlines and thin shapes are shown as blinking
ones. -/
def CursorStyle.ansi : CursorStyle → String
  | blockOutline => "\x1b[1 q"
  | block => "\x1b[2 q"
  | underlineThin => "\x1b[3 q"
  | underline => "\x1b[4 q"
  | lineThin => "\x1b[5 q"
  | line => "\x1b[6 q"

structure Session where
  editor : Editor Terminal
  settings : Settings
  /-- The ticket under which the session is sent mode switches. -/
  ticket : Nat
  /-- The status text that was shown last. -/
  status : String := ""

namespace Session

/-- Sets up an editor. In Insert mode, keys that complete no binding are typed. The errors of keymaps
that were skipped are returned beside the session. -/
def create (settings : Settings) (output : Output) : Session × List LayerError :=
  let type : Option (Action Terminal) := some (Action.typeKeys Terminal.typeCommand)
  let editor := (Editor.create Terminal.host { output }).modify .insert fun m =>
    (m.setDefaultHandler type).setTimeoutHandler type
  let (editor, errors) := editor.updateFromSettings settings
  let (ticket, editor) := editor.subscribe
  ({ editor, settings, ticket }, errors)

def printed (s : Session) : String := s.editor.state.output.text

def onTerminal (s : Session) (f : Terminal → Terminal × β) : Session × β :=
  let (t, r) := f s.editor.state
  ({ s with editor := { s.editor with state := t } }, r)

def takePrinted (s : Session) : Session × String :=
  s.onTerminal fun t => ({ t with output := { t.output with text := "" } }, t.output.text)

/-- Prints the error of a key or a timeout. -/
def report (s : Session) : Except DispatchError β → Session
  | .ok _ => s
  | .error error => (s.onTerminal (·.echo s!"error: {error.message}")).1

def key (s : Session) (key : Char) (now : Nat) : Session :=
  let (editor, result) := s.editor.inputKey key now
  { s with editor }.report result

def timeout (s : Session) (now : Nat) : Session :=
  let (editor, result) := s.editor.checkTimeout now
  { s with editor }.report result

def escape (s : Session) : Session := { s with editor := s.editor.enterMode .normal {} }

/-- Prints the cursor shapes of modes that have been received, until one cannot be written. The modes after
that one are left for the next time. -/
def showCursors (s : Session) : List Mode → Session × Except String Unit
  | [] => (s, .ok ())
  | mode :: rest =>
    let (s, result) := s.onTerminal fun t =>
      let (output, result) := t.output.write (s.settings.cursorStyle mode).ansi
      ({ t with output }, result)
    match result with
    | .ok () => s.showCursors rest
    -- the mode that could not be shown is not tried again
    | .error reason => ({ s with editor := s.editor.putBack s.ticket rest }, .error reason)

/-- Prints what has changed since the last time. -/
def redraw (s : Session) : Session × Except String Unit :=
  let (modes, editor) := s.editor.receive s.ticket
  match { s with editor }.showCursors modes with
  | (s, .error reason) => (s, .error reason)
  | (s, .ok ()) =>
    let status := s.editor.statusText
    -- a status counts as shown also when its line could not be written
    if status = s.status then (s, .ok ())
    else ({ (s.onTerminal (·.echo s!"[{status}]")).1 with status }, .ok ())

/-- Takes a keyboard event at `now`. Returns nothing when the user quits. -/
def input? (s : Session) (now : Nat) : Input → Option Session
  | .key c => some (s.key c now)
  | .escape => some s.escape
  | .quit => none
  | .ignore => some s

end Session

end ModalKeys
