/-!
# Key specs

A key spec names one or more keys in a keymap configuration: a single character, an inclusive
range such as `a-z`, or a comma-separated list of those, such as `a,c,e-g`. The grammar is

    Spec := Atom (',' Atom)*        Atom := Char '-' Char | Char

over all characters, so `,` and `-` are themselves keys. An atom is read greedily: three characters
with a dash in the middle are a range wherever they stand.
-/

namespace ModalKeys

/-- An atom of a key spec: every character from `lo` to `hi`, both included. -/
structure KeySpan where
  lo : Char
  hi : Char
  deriving DecidableEq, Repr

namespace KeySpan

/-- The span between two bounds, which may be given in either order. -/
def between (a b : Char) : KeySpan :=
  if a ≤ b then ⟨a, b⟩ else ⟨b, a⟩

def single (c : Char) : KeySpan := ⟨c, c⟩

/-- The character with a given code point, unless the code point is a surrogate or too large. -/
def scalar? (n : Nat) : Option Char :=
  if h : n.isValidChar then some (Char.ofNatAux n h) else none

/-- Puts the characters among `n` code points from `lo` on before `rest`. -/
def scalarsOnto (lo : Nat) (rest : List Char) : Nat → List Char
  | 0 => rest
  | n + 1 =>
    match scalar? (lo + n) with
    | some c => scalarsOnto lo (c :: rest) n
    | none => scalarsOnto lo rest n

/-- Puts the characters of a span in increasing order before `rest`. Surrogate code points are no
characters, so a span across them leaves them out. -/
def keysOnto (s : KeySpan) (rest : List Char) : List Char :=
  scalarsOnto s.lo.toNat rest (s.hi.toNat + 1 - s.lo.toNat)

/-- The characters of a span in increasing order. -/
def keys (s : KeySpan) : List Char := s.keysOnto []

theorem scalarsOnto_eq (lo : Nat) (rest : List Char) (n : Nat) :
    scalarsOnto lo rest n = (List.range' lo n).filterMap scalar? ++ rest := by
  induction n generalizing rest with
  | zero => rfl
  | succ n ih =>
    rw [scalarsOnto, List.range'_concat, List.filterMap_append, List.append_assoc]
    cases h : scalar? (lo + n) <;> simp [ih, h]

theorem keysOnto_eq (s : KeySpan) (rest : List Char) : s.keysOnto rest = s.keys ++ rest := by
  simp [keys, keysOnto, scalarsOnto_eq]

end KeySpan

namespace KeySpec

/-- Reads one atom, a range where one fits. -/
def atom : List Char → Option (KeySpan × List Char)
  | a :: '-' :: b :: rest => some (KeySpan.between a b, rest)
  | a :: rest => some (KeySpan.single a, rest)
  | [] => none

/-- Reads as many `,`-separated atoms as there are. A comma with nothing behind it is left unread. -/
def more : List Char → List KeySpan × List Char
  | ',' :: a :: '-' :: b :: rest => let (spans, left) := more rest; (KeySpan.between a b :: spans, left)
  | ',' :: a :: rest => let (spans, left) := more rest; (KeySpan.single a :: spans, left)
  | rest => ([], rest)

/-- The atoms of a key spec, or the offset of the first character that cannot be part of one. -/
def spans (source : List Char) : Except Nat (List KeySpan) :=
  match atom source with
  | none => .error 0
  | some (first, rest) =>
    match more rest with
    | (others, []) => .ok (first :: others)
    | (_, left) => .error (source.length - left.length)

/-- The keys that a spec names, in the order in which its atoms name them. -/
def keys (source : String) : Except Nat (List Char) :=
  (spans source.toList).map (·.foldr KeySpan.keysOnto [])

theorem foldr_keysOnto (spans : List KeySpan) :
    spans.foldr KeySpan.keysOnto [] = spans.flatMap KeySpan.keys := by
  induction spans with
  | nil => rfl
  | cons s spans ih => rw [List.foldr_cons, ih, KeySpan.keysOnto_eq, List.flatMap_cons]

end KeySpec

end ModalKeys
