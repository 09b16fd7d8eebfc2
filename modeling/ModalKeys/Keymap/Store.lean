import ModalKeys.Keymap.Slots

/-!
# Keymaps

A keymap binds keys to actions and to further keymaps, so that keymaps form a trie of key sequences.
Keymaps are shared and may refer back to keymaps that enclose them. They therefore live in a `Store`
and are named by identifiers, which are never used again.
-/

namespace ModalKeys

/-- A single keymap: its identifier and help text from the configuration, and its keys. -/
structure Keymap (α : Type) where
  id : Option String := none
  help : Option String := none
  slots : Slots α := .empty

/-- The keymaps that exist, and the handles that the embedding program holds to some of them. -/
structure Store (α : Type) where
  keymaps : Std.TreeMap KeymapId (Keymap α) := {}
  next : Nat := 0
  handles : List KeymapId := []
  lt_next : ∀ id ∈ keymaps, id < next := by simp

namespace Store

instance : Inhabited (Store α) := ⟨{}⟩

def keymap? (s : Store α) (id : KeymapId) : Option (Keymap α) := s.keymaps[id]?

def alive (s : Store α) (id : KeymapId) : Bool := s.keymaps.contains id

/-- What a slot leads to. -/
def resolve (s : Store α) : Slot α → Option (Binding α)
  | .bound (.action tag act) => some (.action tag act)
  | .bound (.keymap id) => if s.alive id then some (.keymap id) else none
  | .aliasOf id => if s.alive id then some (.keymap id) else none

/-- How a key of a keymap is bound. -/
def slot? (s : Store α) (id : KeymapId) (key : Char) : Option (Slot α) := do
  (← s.keymap? id).slots.get? key

/-- What a key of a keymap leads to. -/
def lookup (s : Store α) (id : KeymapId) (key : Char) : Option (Binding α) := do
  s.resolve (← s.slot? id key)

/-- The keys and slots of a keymap in the order of the keys. -/
def slots (s : Store α) (id : KeymapId) : List (Char × Slot α) :=
  match s.keymap? id with
  | some km => km.slots.toList
  | none => []

/-- The keys of a keymap in order, with those whose alias leads nowhere. -/
def keys (s : Store α) (id : KeymapId) : List Char := (s.slots id).map (·.1)

def size (s : Store α) (id : KeymapId) : Nat :=
  match s.keymap? id with
  | some km => km.slots.size
  | none => 0

/-- Follows keys from a keymap. Nothing leads on from an action. -/
def walk (s : Store α) (id : KeymapId) : List Char → Option (Binding α)
  | [] => if s.alive id then some (.keymap id) else none
  | key :: rest =>
    match s.lookup id key with
    | some (.keymap next) => s.walk next rest
    | some (.action tag act) => if rest.isEmpty then some (.action tag act) else none
    | none => none

/-- Adds a keymap without keys. -/
def create (s : Store α) (id help : Option String) : KeymapId × Store α :=
  (s.next, { s with
    keymaps := s.keymaps.insert s.next ⟨id, help, .empty⟩
    next := s.next + 1
    lt_next := by
      intro k hk
      simp only [Std.TreeMap.mem_insert, Std.compare_eq_iff_eq] at hk
      rcases hk with rfl | hk
      · exact Nat.lt_succ_self _
      · exact Nat.lt_succ_of_lt (s.lt_next k hk) })

/-- A tag for a new action. -/
def freshTag (s : Store α) : Nat × Store α :=
  (s.next, { s with
    next := s.next + 1
    lt_next := fun k hk => Nat.lt_succ_of_lt (s.lt_next k hk) })

def modify (s : Store α) (id : KeymapId) (f : Keymap α → Keymap α) : Store α :=
  { s with
    keymaps := s.keymaps.modify id f
    lt_next := fun k hk => s.lt_next k (Std.TreeMap.mem_modify.1 hk) }

/-- Binds each of some keys, in place of what it was bound to. -/
def putAll (s : Store α) (id : KeymapId) (keys : List Char) (slot : Slot α) : Store α :=
  s.modify id fun km => { km with slots := keys.foldl (·.put · slot) km.slots }

def put (s : Store α) (id : KeymapId) (key : Char) (slot : Slot α) : Store α :=
  s.modify id fun km => { km with slots := km.slots.put key slot }

def clear (s : Store α) (id : KeymapId) : Store α :=
  s.modify id fun km => { km with slots := .empty }

def hold (s : Store α) (id : KeymapId) : Store α := { s with handles := id :: s.handles }

def drop (s : Store α) (id : KeymapId) : Store α := { s with handles := s.handles.erase id }

@[simp] theorem next_put (s : Store α) (id : KeymapId) (key : Char) (slot : Slot α) :
    (s.put id key slot).next = s.next := rfl

theorem lt_next_of_alive {s : Store α} {id : KeymapId} (h : s.alive id) : id < s.next :=
  s.lt_next id (Std.TreeMap.mem_iff_contains.2 h)

theorem alive_of_resolve {s : Store α} {slot : Slot α} {id : KeymapId}
    (h : s.resolve slot = some (.keymap id)) : s.alive id := by
  unfold resolve at h
  split at h
  · cases h
  all_goals
    split at h
    · next ha => cases h; exact ha
    · cases h

theorem alive_of_lookup {s : Store α} {id target : KeymapId} {key : Char}
    (h : s.lookup id key = some (.keymap target)) : s.alive target := by
  simp only [lookup, bind, Option.bind_eq_some_iff] at h
  obtain ⟨_, _, h⟩ := h
  exact alive_of_resolve h

end Store

end ModalKeys
