import ModalKeys.Json.Reading
import ModalKeys.Settings.Preset

/-!
# Settings

Settings say which keymaps an editor starts with, how long Insert mode waits for a key, and which
cursor is shown in each mode. They are read from a JSON text: an object, or an array of the fields in
order.
-/

namespace ModalKeys

inductive CursorStyle where
  | block
  | blockOutline
  | line
  | lineThin
  | underline
  | underlineThin
  deriving DecidableEq, Repr

namespace CursorStyle

def names : List (String × CursorStyle) := [
  ("block", .block),
  ("block-outline", .blockOutline),
  ("line", .line),
  ("line-thin", .lineThin),
  ("underline", .underline),
  ("underline-thin", .underlineThin)]

def label : CursorStyle → String
  | block => "Block"
  | blockOutline => "BlockOutline"
  | line => "Line"
  | lineThin => "LineThin"
  | underline => "Underline"
  | underlineThin => "UnderlineThin"

def ofJson? : Json → Option CursorStyle := Json.choice? Json.isNull names

end CursorStyle

/-- How an editor should be set up. Keymaps are layered in order: the preset, the custom keymaps, and
the keymaps for single modes. -/
structure Settings where
  preset : Preset := .none
  insertTimeout : Option Binary64 := none
  customKeymaps : Option KeymapLayers := none
  normalKeymaps : Option Json := none
  insertKeymaps : Option Json := none
  visualKeymaps : Option Json := none
  normalCursor : CursorStyle := .block
  insertCursor : CursorStyle := .line
  visualCursor : CursorStyle := .block
  searchCursor : CursorStyle := .underline

namespace Document

/-- The values of known fields by name. An object may have further members, but must not give a field
twice; an array gives the first fields in order. -/
def fields? (names : List String) : Document → Option (List (String × Document))
  | .object members => do
    let written ← members.mapM fun (name, d) => do some (← StringPiece.string? name, d)
    let known := written.filter fun (name, _) => names.contains name
    if (known.map (·.1)).Nodup then some known else none
  | .array items => if items.length ≤ names.length then some (names.zip items) else none
  | _ => none

/-- Reads a choice among names: the name, or an object with the name as its only member and null in
it. -/
def choice? (names : List (String × α)) : Document → Option α
  | .string name => StringPiece.string? name >>= (List.lookup · names)
  | .object [(name, .null)] => StringPiece.string? name >>= (List.lookup · names)
  | _ => none

def optional? (read : Document → Option α) : Document → Option (Option α)
  | .null => some none
  | d => (read d).map some

def binary64? : Document → Option Binary64
  | .number t => JsonNumber.ofText? t >>= JsonNumber.toBinary64?
  | _ => none

/-- Reads a field that may be missing, in which case it has a default. -/
def field? (fields : List (String × Document)) (name : String) (default : α)
    (read : Document → Option α) : Option α :=
  match fields.lookup name with
  | none => some default
  | some d => read d

end Document

/-- Reads layers whose configurations nest at most `depth` containers. -/
def KeymapLayers.ofDocument? (depth : Nat) (d : Document) : Option KeymapLayers := do
  let fields ← d.fields? ["normal", "insert", "visual"]
  let config (name : String) := Document.field? fields name none
    (Document.optional? (Document.toJson? depth))
  some {
    normal := ← config "normal"
    insert := ← config "insert"
    visual := ← config "visual" }

namespace Settings

/-- The names of the fields, in the order in which an array gives them. -/
def fieldNames : List String := [
  "preset", "insertTimeout", "customKeymaps", "normalKeymaps", "insertKeymaps", "visualKeymaps",
  "normalCursorStyle", "insertCursorStyle", "visualCursorStyle", "searchCursorStyle"]

/-- How many containers may be nested in a settings text. -/
def greatestDepth : Nat := 127

def ofDocument? (d : Document) : Option Settings := do
  let fields ← d.fields? fieldNames
  let keymaps (name : String) := Document.field? fields name none
    (Document.optional? (Document.toJson? (greatestDepth - 1)))
  let cursor (name : String) (default : CursorStyle) := Document.field? fields name default
    (Document.choice? CursorStyle.names)
  some {
    preset := ← Document.field? fields "preset" .none (Document.choice? Preset.names)
    insertTimeout := ← Document.field? fields "insertTimeout" none
      (Document.optional? Document.binary64?)
    customKeymaps := ← Document.field? fields "customKeymaps" none
      (Document.optional? (KeymapLayers.ofDocument? (greatestDepth - 2)))
    normalKeymaps := ← keymaps "normalKeymaps"
    insertKeymaps := ← keymaps "insertKeymaps"
    visualKeymaps := ← keymaps "visualKeymaps"
    normalCursor := ← cursor "normalCursorStyle" .block
    insertCursor := ← cursor "insertCursorStyle" .line
    visualCursor := ← cursor "visualCursorStyle" .block
    searchCursor := ← cursor "searchCursorStyle" .underline }

def ofText? (text : String) : Option Settings := Document.ofText? text >>= ofDocument?

def greatestTimeout : Nat := Nat.pow 2 64 - 1

/-- The Insert mode timeout in whole milliseconds, if it is at least one. -/
def insertTimeoutMillis (s : Settings) : Option Nat :=
  match s.insertTimeout with
  | none => none
  | some x => if x.negative ∨ x.truncate = 0 then none else some (min x.truncate greatestTimeout)

def inlineKeymaps (s : Settings) : KeymapLayers :=
  { normal := s.normalKeymaps, insert := s.insertKeymaps, visual := s.visualKeymaps }

def cursorStyle (s : Settings) : Mode → CursorStyle
  | .normal => s.normalCursor
  | .insert => s.insertCursor
  | .visual => s.visualCursor
  | .search => s.searchCursor

end Settings

end ModalKeys
