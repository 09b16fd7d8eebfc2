import ModalKeys.EnterOptions
import ModalKeys.Settings.Layers

/-!
# Presets

Built-in keymap layers that settings can start from.
-/

namespace ModalKeys

inductive Preset where
  /-- No keymaps. -/
  | none
  /-- A small set in the manner of Vim. -/
  | simple
  deriving DecidableEq, Repr

namespace Preset

def names : List (String × Preset) := [("none", .none), ("simple", .simple)]

def label : Preset → String
  | none => "None"
  | simple => "Simple"

def ofJson? : Json → Option Preset := Json.choice? Json.isNull names

/-- A sequence of commands without arguments. -/
def inOrder (commands : List String) : Json := .array (commands.map .string)

def simpleNormal : Json := .object [
  ("i", .string "modalex.enterInsert"),
  ("a", inOrder ["cursorRight", "modalex.enterInsert"]),
  ("h", .string "cursorLeft"),
  ("j", .string "cursorDown"),
  ("k", .string "cursorUp"),
  ("l", .string "cursorRight"),
  ("w,W", .string "cursorWordStartRight"),
  ("b,B", .string "cursorWordStartLeft"),
  ("e,E", .string "cursorWordEndRight"),
  ("x", .string "deleteRight"),
  ("X", .string "deleteLeft"),
  ("o", inOrder ["editor.action.insertLineAfter", "modalex.enterInsert"]),
  ("O", inOrder ["editor.action.insertLineBefore", "modalex.enterInsert"]),
  ("d", .object [
    ("help", .string "delete"),
    ("d", .string "modalex.action.deleteAndYankLine"),
    ("b", .string "deleteWordLeft"),
    ("e,w", .string "deleteWordRight")]),
  ("y", .object [
    ("help", .string "yank"),
    ("y", .string "modalex.action.yankLine")]),
  ("p", .string "modalex.action.paste"),
  ("P", .object [
    ("command", .string "modalex.action.paste"),
    ("args", .object [("before", .bool true)])]),
  ("v", .string "modalex.enterVisual"),
  ("V", .string "modalex.enterVisualLine"),
  ("f", .string "modalex.enterSearchCharLineAfter"),
  ("F", .string "modalex.enterSearchCharLineBefore"),
  ("/", .string "modalex.enterSearchAfter"),
  ("?", .string "modalex.enterSearchBefore"),
  ("n", .string "modalex.searchNext"),
  ("N", .string "modalex.searchPrev"),
  ("u", .string "undo")]

def simpleVisual : Json := .object [
  ("h", .string "modalex.action.cursorLeftSelect"),
  ("l", .string "modalex.action.cursorRightSelect"),
  ("j", .string "modalex.action.cursorDownSelect"),
  ("k", .string "modalex.action.cursorUpSelect"),
  ("I", .string "modalex.enterInsert"),
  ("A", inOrder ["cursorRight", "modalex.enterInsert"]),
  ("w", .string "cursorWordStartRightSelect"),
  ("e", .string "cursorWordRightSelect"),
  ("b", .string "cursorWordLeftSelect"),
  ("y,Y", inOrder ["editor.action.clipboardCopyAction", "modalex.enterNormal"]),
  ("p", inOrder ["modalex.action.paste", "modalex.enterNormal"]),
  ("d,x", inOrder ["editor.action.clipboardCutAction", "modalex.enterNormal"]),
  ("f", .string "modalex.enterSearchCharLineAfter"),
  ("F", .string "modalex.enterSearchCharLineBefore"),
  ("s", inOrder ["editor.action.clipboardCutAction", "modalex.enterInsert"])]

def layers : Preset → Option KeymapLayers
  | none => Option.none
  | simple => some { normal := simpleNormal, insert := some (.object []), visual := simpleVisual }

end Preset

end ModalKeys
