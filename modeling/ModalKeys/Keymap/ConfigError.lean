import ModalKeys.Json.Compact
import ModalKeys.Mode
import ModalKeys.Text.Quoted

/-!
# Errors in keymap configurations

An error names what is wrong and where: the configuration keys that lead from the root to the value.
-/

namespace ModalKeys

/-- What can be wrong with a keymap configuration. -/
inductive ConfigFault where
  /-- A key spec cannot be read beyond the given offset. -/
  | keySpec (source : String) (offset : Nat)
  /-- A value that should be a keymap is no object. -/
  | notKeymap (value : Json)
  /-- A value is no binding. -/
  | notBinding (value : Json)
  | helpNotString (value : Json)
  | idNotString (value : Json)
  /-- Arguments are neither an object nor a string. -/
  | badArguments (value : Json)
  | emptyCommand
  /-- A back reference is greater than zero. -/
  | forwardReference (index : Int)
  /-- A back reference has a fraction. -/
  | fractionalReference (number : JsonNumber)
  /-- A back reference leads above the outermost of `depth` keymaps. -/
  | referenceOutOfRange (index : Int) (depth : Nat)

def ConfigFault.message : ConfigFault → String
  | keySpec source offset => s!"Failed to parse keys {quoted source} at offset {offset}"
  | notKeymap v => s!"Invalid keymap: {v.compact}"
  | notBinding v => s!"Invalid binding: {v.compact}"
  | helpNotString v => s!"Invalid help: {v.compact}"
  | idNotString v => s!"Invalid id: {v.compact}"
  | badArguments v => s!"Invalid args: {v.compact}"
  | emptyCommand => "Empty command name"
  | forwardReference i => s!"Back reference must be 0 or negative, but {i} was given"
  | fractionalReference n => s!"Back reference must be an integer, but {n.text} was given"
  | referenceOutOfRange i depth => s!"Back reference {i} is out of range (depth {depth})"

namespace KeyPath

/-- The text of a path of configuration keys, given which characters are hidden: the keys in quotes,
outermost first, or `<root>` for the empty path. -/
def chars (hidden : Char → Bool) : List (List Char) → List Char
  | [] => ['<', 'r', 'o', 'o', 't', '>']
  | [key] => Quoted.quote hidden key
  | key :: rest => Quoted.quote hidden key ++ [' ', '>', ' '] ++ chars hidden rest

def text (path : List String) : String :=
  String.ofList (chars isHidden (path.map String.toList))

end KeyPath

/-- A fault and the configuration keys that lead to it. -/
structure ConfigError where
  path : List String
  fault : ConfigFault

def ConfigError.message (e : ConfigError) : String :=
  s!"{e.fault.message} (at {KeyPath.text e.path})"

/-- A configuration error in one mode of a named layer. -/
structure LayerError where
  layer : String
  mode : Mode
  error : ConfigError

def LayerError.message (e : LayerError) : String :=
  s!"{e.layer} {e.mode.name} keymaps: {e.error.message}"

/-- The text for several failed layers. -/
def LayerError.summary (errors : List LayerError) : String :=
  let texts := "; ".intercalate (errors.map LayerError.message)
  s!"{errors.length} keymap layer(s) failed to compile: {texts}"

end ModalKeys
