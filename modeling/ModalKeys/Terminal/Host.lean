import ModalKeys.Host
import ModalKeys.Json.Compact
import ModalKeys.Terminal.Output
import ModalKeys.Text.Quoted

/-!
# A host that prints

The terminal host prints each command as a line instead of running it, and remembers the last search
so that it can be repeated.
-/

namespace ModalKeys

structure Terminal where
  output : Output := {}
  lastSearch : Option SearchQuery := none

namespace Terminal

/-- The command that takes typed text. -/
def typeCommand : String := "type"

def line (t : Terminal) (text : String) : Terminal × CommandResult :=
  let (output, result) := t.output.write (text ++ "\r\n")
  ({ t with output }, result.mapError .failed)

/-- Prints a line that no command asked for, and tells whether it was written. -/
def echo (t : Terminal) (text : String) : Terminal × Bool :=
  let (t, result) := t.line text
  (t, result.toBool)

/-- Prints that the last search is repeated, in its own direction or against it. -/
def repeatSearch (t : Terminal) (command : String) (reverse : Bool) : Terminal × CommandResult :=
  match t.lastSearch with
  | none => (t, .error (.failed s!"{command}: no previous search"))
  | some query =>
    let direction := if reverse then "reverse" else "same"
    t.line s!"search {quoted query.text} again ({direction} direction)"

def typedText? : Option Json → Option String
  | some (.object members) => Json.member? "text" members >>= Json.string?
  | _ => none

def execute (t : Terminal) (command : String) (args : Option Json) : Terminal × CommandResult :=
  if command = typeCommand then
    match typedText? args with
    | some text => t.line s!"type {quoted text}"
    | none => (t, .error (.invalidArguments command))
  else if command = "modalex.searchNext" then t.repeatSearch command false
  else if command = "modalex.searchPrev" then t.repeatSearch command true
  else match args with
    | some args => t.line s!"{command} {args.compact}"
    | none => t.line command

def search (t : Terminal) (query : SearchQuery) : Terminal × CommandResult :=
  { t with lastSearch := some query }.line
    s!"search {quoted query.text} ({query.range.label}, {query.direction.label})"

/-- The terminal host. A search ends in Normal mode, also when it cannot be printed. -/
def host : Host Terminal where
  execute t modes command args :=
    let (t, result) := t.execute command args
    ⟨t, modes, result⟩
  search t modes query :=
    let (t, result) := t.search query
    ⟨t, modes.enter .normal {}, result⟩

end Terminal

end ModalKeys
