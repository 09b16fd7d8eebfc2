import ModalKeys.Keymap.Store
import ModalKeys.Text.Quoted

/-!
# Outlines of keymaps

An outline lists everything that can be reached from a keymap. Keymaps and actions are numbered in
the order in which they are first met: keymap by keymap, and key by key within a keymap. What two
keys share has one number.
-/

namespace ModalKeys

namespace Outline

inductive Target where
  | keymap (number : Nat)
  | action (number : Nat)
  | nowhere
  deriving DecidableEq, Repr

structure Entry where
  id : Option String
  help : Option String
  keys : List (Char × Target)
  deriving Repr

end Outline

/-- A numbered list of keymaps and of the actions in them. -/
structure Outline (α : Type) where
  keymaps : List Outline.Entry
  actions : List α

namespace Outline

/-- What has been numbered so far, in order. -/
structure Numbering (α : Type) where
  keymaps : Array KeymapId
  keymapNumbers : Std.TreeMap KeymapId Nat
  actions : Array α
  actionNumbers : Std.TreeMap Nat Nat

namespace Numbering

/-- The number of what a key leads to, which is the next one when it is met for the first time. -/
def target (n : Numbering α) : Option (Binding α) → Target × Numbering α
  | none => (.nowhere, n)
  | some (.keymap id) =>
    match n.keymapNumbers[id]? with
    | some i => (.keymap i, n)
    | none => (.keymap n.keymaps.size, { n with
        keymaps := n.keymaps.push id
        keymapNumbers := n.keymapNumbers.insert id n.keymaps.size })
  | some (.action tag act) =>
    match n.actionNumbers[tag]? with
    | some i => (.action i, n)
    | none => (.action n.actions.size, { n with
        actions := n.actions.push act
        actionNumbers := n.actionNumbers.insert tag n.actions.size })

/-- Numbers what the keys of one keymap lead to. -/
def targets (s : Store α) (n : Numbering α) : List (Char × Slot α) → List (Char × Target) × Numbering α
  | slots =>
    let (keys, n) := slots.foldl (fun (keys, n) (key, slot) =>
      let (t, n) := n.target (s.resolve slot)
      (keys.push (key, t), n)) (#[], n)
    (keys.toList, n)

end Numbering

/-- Lists the keymaps from number `i` on. There are at most `fuel` of them. -/
def entries (s : Store α) (i : Nat) (n : Numbering α) : Nat → List Entry × Numbering α
  | 0 => ([], n)
  | fuel + 1 =>
    match n.keymaps[i]? >>= s.keymap? with
    | none => ([], n)
    | some km =>
      let (keys, n) := n.targets s km.slots.toList
      let (rest, n) := entries s (i + 1) n fuel
      (⟨km.id, km.help, keys⟩ :: rest, n)

end Outline

namespace Store

/-- The outline of a keymap, which gets number 0. -/
def outline (s : Store α) (root : KeymapId) : Outline α :=
  let (entries, n) :=
    Outline.entries s 0 ⟨#[root], Std.TreeMap.empty.insert root 0, #[], Std.TreeMap.empty⟩
      s.keymaps.size
  ⟨entries, n.actions.toList⟩

/-- A keymap as it is shown to a developer, without what its keys lead to. -/
def describe (s : Store α) (id : KeymapId) : String :=
  match s.keymap? id with
  | none => ""
  | some km =>
    "Keymap \x7b id: " ++ quotedOption km.id ++ ", help: " ++ quotedOption km.help ++ ", keys: " ++
      quotedChars km.slots.keys ++ " \x7d"

end Store

end ModalKeys
