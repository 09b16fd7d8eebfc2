import Std.Data.TreeSet
import ModalKeys.Keymap.Store

/-!
# Lifetime of keymaps

A keymap exists as long as it is held: by a handle, or by a keymap that owns it. A keymap that is
released gives up the keymaps it owns, which may release those in turn. Keymaps that own each other
in a circle therefore stay, also when nothing else holds them; aliases hold nothing, so a configuration
that refers back to an enclosing keymap makes no such circle.
-/

namespace ModalKeys

namespace Store

/-- The keymaps held by `roots` or owned by a keymap of the store. -/
def held (s : Store α) (roots : List KeymapId) : Std.TreeSet KeymapId :=
  s.keymaps.foldl (fun set _ km => km.slots.ownedIds.foldl (·.insert ·) set)
    (Std.TreeSet.ofList roots)

/-- Releases every keymap that is not held at this moment. -/
def sweep (s : Store α) (roots : List KeymapId) : Store α :=
  let held := s.held roots
  { s with
    keymaps := s.keymaps.filter fun id _ => held.contains id
    lt_next := fun k hk => s.lt_next k (Std.TreeMap.mem_of_mem_filter hk) }

/-- Releases keymaps until all that are left are held. -/
def collect (s : Store α) (roots : List KeymapId) : Store α :=
  let swept := s.sweep roots
  if swept.keymaps.size < s.keymaps.size then swept.collect roots else s
termination_by s.keymaps.size

/-- Releases what neither a handle nor one of `roots` keeps. -/
def release (s : Store α) (roots : List KeymapId) : Store α :=
  s.collect (s.handles ++ roots)

@[simp] theorem next_collect (s : Store α) (roots : List KeymapId) :
    (s.collect roots).next = s.next := by
  fun_induction collect s roots with
  | case1 s swept h ih => exact ih
  | case2 => rfl

@[simp] theorem next_release (s : Store α) (roots : List KeymapId) :
    (s.release roots).next = s.next := next_collect ..

end Store

end ModalKeys
