import Std.Data.TreeSet
import ModalKeys.Keymap.Slots

/-!
# Logs of pairs

A log lists pairs of keymaps, the last one first, and finds out quickly whether a pair is in it.
-/

namespace ModalKeys

/-- Pairs of keymaps with an index by their first component. -/
structure PairLog where
  pairs : List (KeymapId × KeymapId) := []
  index : Std.TreeMap KeymapId (Std.TreeSet KeymapId) := {}
  mem_index : ∀ a b, b ∈ index.getD a {} ↔ (a, b) ∈ pairs := by simp

namespace PairLog

instance : Inhabited PairLog := ⟨{}⟩

def contains (log : PairLog) (a b : KeymapId) : Bool := (log.index.getD a {}).contains b

/-- Adds a pair. -/
def add (log : PairLog) (a b : KeymapId) : PairLog where
  pairs := (a, b) :: log.pairs
  index := log.index.insert a ((log.index.getD a {}).insert b)
  mem_index := by
    intro c d
    rw [Std.TreeMap.getD_insert]
    by_cases h : a = c
    · subst h
      simp [Std.TreeSet.mem_insert, log.mem_index, eq_comm (a := d)]
    · simp [h, Ne.symm h, log.mem_index]

@[simp] theorem contains_iff {log : PairLog} {a b : KeymapId} :
    log.contains a b ↔ (a, b) ∈ log.pairs :=
  Std.TreeSet.contains_iff_mem.trans (log.mem_index a b)

@[simp] theorem pairs_add (log : PairLog) (a b : KeymapId) :
    (log.add a b).pairs = (a, b) :: log.pairs := rfl

end PairLog

end ModalKeys
