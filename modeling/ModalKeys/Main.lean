import ModalKeys.Terminal.Launch
import ModalKeys.Terminal.Session

/-!
# The command line

Runs a session on standard input and output, with the terminal in raw mode. Commands are printed and
not run, `Esc` goes back to Normal mode, and `Ctrl-C` or the end of the input quits.
-/

namespace ModalKeys

namespace Launch

/-- The nanoseconds to wait for a key when no timeout is pending. -/
def idleWait : Nat := 500000000

/-- Reads bytes until they make up a character. Returns nothing at the end of the input. -/
partial def readChar? (input : IO.FS.Stream) (bytes : ByteArray) : IO (Option Char) := do
  let next ← input.read 1
  if next.isEmpty then return none
  let bytes := bytes ++ next
  match (String.fromUTF8? bytes).map String.toList with
  | some (c :: _) => return some c
  | _ => if bytes.size < 4 then readChar? input bytes else return some (Char.ofNat 0xFFFD)

/-- Waits until a task has finished or the given time has come. -/
partial def waitUntil (task : Task α) (time : Nat) : IO Unit := do
  if ← IO.hasFinished task then return
  if time ≤ (← IO.monoNanosNow) then return
  IO.sleep 2
  waitUntil task time

/-- Prints what the session has printed since the last time. -/
def flushPrinted (output : IO.FS.Stream) (s : Session) : IO Session := do
  let (s, text) := s.takePrinted
  output.putStr text
  output.flush
  return s

/-- Processes characters and timeouts until the user quits. -/
partial def serve (input output : IO.FS.Stream)
    (reader : Task (Except IO.Error (Option Char))) (s : Session) : IO Unit := do
  let (s, drawn) := s.redraw
  let s ← flushPrinted output s
  if let .error reason := drawn then throw (IO.userError reason)
  let now ← IO.monoNanosNow
  waitUntil reader (now + (s.editor.pollTimeout now).getD idleWait)
  let now ← IO.monoNanosNow
  let s := s.timeout now
  if !(← IO.hasFinished reader) then serve input output reader s
  else match reader.get with
    | .error error => throw error
    | .ok none => discard (flushPrinted output s)
    | .ok (some c) =>
      match s.input? now (KeyEvent.ofChar c).input with
      | none => discard (flushPrinted output s)
      | some s => serve input output (← IO.asTask (readChar? input .empty)) s

def runSession (settings : Settings) : IO Unit := do
  let (s, errors) := Session.create settings {}
  if !errors.isEmpty then IO.eprintln s!"warning: {LayerError.summary errors}"
  let input ← IO.getStdin
  let output ← IO.getStdout
  serve input output (← IO.asTask (readChar? input .empty)) s.escape
  output.putStr "\x1b[0 q"
  output.flush

def readSettings : Option String → IO Settings
  | none => return defaultSettings
  | some file => do
    let text ← try IO.FS.readFile file catch _ =>
      throw (IO.userError s!"failed to read settings from {file}")
    match Settings.ofText? text with
    | some settings => return settings
    | none => throw (IO.userError s!"invalid settings in {file}")

end Launch

end ModalKeys

open ModalKeys in
/-- Starts what the command line asks for. The settings file can also come from the environment. -/
def main (arguments : List String) : IO UInt32 := do
  match Launch.ofArguments arguments with
  | .error error =>
    IO.eprintln s!"error: {error.message}"
    return 2
  | .ok .help =>
    IO.print Launch.usage
    return 0
  | .ok (.session file) =>
    try
      Launch.runSession (← Launch.readSettings (file <|> (← IO.getEnv "MODALEX_SETTINGS")))
      return 0
    catch error =>
      IO.eprintln s!"Error: {error}"
      return 1
