/-!
# Keyboard events of a terminal
-/

namespace ModalKeys

inductive KeyCode where
  | char (c : Char)
  | enter
  | tab
  | escape
  | other
  deriving DecidableEq, Repr

/-- Whether a key went down, came up or was held. -/
inductive KeyEventKind where
  | press
  | release
  | repeated
  deriving DecidableEq, Repr

structure KeyEvent where
  code : KeyCode
  control : Bool
  kind : KeyEventKind := .press
  deriving DecidableEq, Repr

/-- The press behind a character that a terminal in raw mode sends. A control character stands for the
letter that was typed with the control key, unless it has a key of its own. -/
def KeyEvent.ofChar (c : Char) : KeyEvent :=
  if c = '\x1b' then ⟨.escape, false, .press⟩
  else if c = '\r' ∨ c = '\n' then ⟨.enter, false, .press⟩
  else if c = '\t' then ⟨.tab, false, .press⟩
  else if 1 ≤ c.toNat ∧ c.toNat ≤ 26 then ⟨.char (Char.ofNat (c.toNat + 96)), true, .press⟩
  else ⟨.char c, false, .press⟩

/-- What a keyboard event means to a session. -/
inductive Input where
  | key (c : Char)
  | escape
  | quit
  | ignore
  deriving DecidableEq, Repr

/-- Only presses count. `Ctrl-C` quits, and other characters typed with the control key mean
nothing. -/
def KeyEvent.input (e : KeyEvent) : Input :=
  if e.kind ≠ .press then .ignore
  else match e.code with
    | .char c => if !e.control then .key c else if c = 'c' then .quit else .ignore
    | .enter => .key '\n'
    | .tab => .key '\t'
    | .escape => .escape
    | .other => .ignore

end ModalKeys
