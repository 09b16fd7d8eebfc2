/-!
# JSON text

`Document` is a JSON text as it is written: numbers keep their digits, strings their escapes, and
objects all of their members, also those that repeat a name. What the parts are worth is decided
when a document is read as a value.
-/

namespace ModalKeys

/-- The text of a number, split into its parts. The parts hold digits only. -/
structure NumberText where
  negative : Bool
  whole : List Char
  fraction : Option (List Char)
  exponent : Option (Bool × List Char)
  deriving DecidableEq, Repr

/-- A piece of a string: a character, or a four-digit escape, which may be half of a surrogate
pair. -/
inductive StringPiece where
  | char (c : Char)
  | unit (code : Nat)
  deriving DecidableEq, Repr

inductive Document where
  | null
  | bool (value : Bool)
  | number (text : NumberText)
  | string (pieces : List StringPiece)
  | array (items : List Document)
  | object (members : List (List StringPiece × Document))
  deriving Inhabited

namespace Document

/-- What is left of a text after some of it has been read. -/
abbrev Rest (s : List Char) := { r : List Char // r.length < s.length }

def isBlank (c : Char) : Bool := c == ' ' || c == '\t' || c == '\n' || c == '\r'

def skipBlank (s : List Char) : List Char := s.dropWhile isBlank

theorem length_skipBlank_le (s : List Char) : (skipBlank s).length ≤ s.length := by
  induction s with
  | nil => simp [skipBlank]
  | cons c s ih => simp only [skipBlank, List.dropWhile_cons] at *; split <;> simp; omega

/-- The digit run at the front of a text, and what is behind it. -/
def digits (s : List Char) : List Char × List Char := (s.takeWhile Char.isDigit, s.dropWhile Char.isDigit)

def hexDigit? (c : Char) : Option Nat :=
  if '0' ≤ c ∧ c ≤ '9' then some (c.toNat - '0'.toNat)
  else if 'a' ≤ c ∧ c ≤ 'f' then some (c.toNat - 'a'.toNat + 10)
  else if 'A' ≤ c ∧ c ≤ 'F' then some (c.toNat - 'A'.toNat + 10)
  else none

def escape? : Char → Option Char
  | '"' => some '"'
  | '\\' => some '\\'
  | '/' => some '/'
  | 'b' => some '\x08'
  | 'f' => some '\x0c'
  | 'n' => some '\n'
  | 'r' => some '\r'
  | 't' => some '\t'
  | _ => none

/-- Reads a string up to its closing quote, which is taken too. Control characters must be
escaped. -/
def readString : List Char → Option (List StringPiece × List Char)
  | [] => none
  | '"' :: r => some ([], r)
  | '\\' :: 'u' :: a :: b :: c :: d :: r => do
    let unit := ((← hexDigit? a) * 16 + (← hexDigit? b)) * 256 + (← hexDigit? c) * 16 + (← hexDigit? d)
    let (pieces, r) ← readString r
    some (.unit unit :: pieces, r)
  | '\\' :: e :: r => do
    let c ← escape? e
    let (pieces, r) ← readString r
    some (.char c :: pieces, r)
  | c :: r =>
    if c.toNat < 0x20 ∨ c = '\\' then none
    else do
      let (pieces, r) ← readString r
      some (.char c :: pieces, r)

theorem length_lt_of_readString {s : List Char} {p : List StringPiece × List Char}
    (h : readString s = some p) : p.2.length < s.length := by
  fun_induction readString s generalizing p <;>
    simp_all [bind, Option.bind_eq_some_iff] <;> grind

/-- Reads the whole part of a number: zero, or digits that do not start with zero. -/
def readWhole : List Char → Option (List Char × List Char)
  | '0' :: r => some (['0'], r)
  | r => match digits r with
    | ([], _) => none
    | (ds, r) => some (ds, r)

/-- Reads an optional fraction, which needs a digit. -/
def readFraction : List Char → Option (Option (List Char) × List Char)
  | '.' :: r => match digits r with
    | ([], _) => none
    | (ds, r) => some (some ds, r)
  | r => some (none, r)

/-- Reads an optional exponent with an optional sign. It needs a digit. -/
def readExponent (s : List Char) : Option (Option (Bool × List Char) × List Char) :=
  let unsigned (negative : Bool) (r : List Char) : Option (Option (Bool × List Char) × List Char) :=
    match digits r with
    | ([], _) => none
    | (ds, r) => some (some (negative, ds), r)
  match s with
  | e :: r =>
    if e = 'e' ∨ e = 'E' then
      match r with
      | '+' :: r => unsigned false r
      | '-' :: r => unsigned true r
      | r => unsigned false r
    else some (none, s)
  | [] => some (none, s)

def readNumber (s : List Char) : Option (NumberText × List Char) := do
  let (negative, r) := match s with
    | '-' :: r => (true, r)
    | r => (false, r)
  let (w, r) ← readWhole r
  let (f, r) ← readFraction r
  let (e, r) ← readExponent r
  some (⟨negative, w, f, e⟩, r)

theorem length_digits_le (s : List Char) : (digits s).2.length ≤ s.length := by
  induction s with
  | nil => simp [digits]
  | cons c s ih => simp only [digits, List.dropWhile_cons] at *; split <;> simp; omega

theorem length_digits_lt {s ds r : List Char} (h : digits s = (ds, r)) (hds : ds ≠ []) :
    r.length < s.length := by
  cases s with
  | nil => simp [digits] at h; exact absurd h.1 hds
  | cons c s =>
    have hs := length_digits_le s
    by_cases hc : c.isDigit
    · simp [digits, hc] at h hs
      rw [← h.2]; simp; omega
    · simp [digits, hc] at h
      exact absurd h.1 hds

theorem length_lt_of_readWhole {s : List Char} {p : List Char × List Char} (h : readWhole s = some p) :
    p.2.length < s.length := by
  unfold readWhole at h
  split at h
  · cases h; simp
  · split at h
    · cases h
    · next ds r hne hd => cases h; exact length_digits_lt hd (by grind)

theorem length_le_of_readFraction {s : List Char} {p : Option (List Char) × List Char}
    (h : readFraction s = some p) : p.2.length ≤ s.length := by
  unfold readFraction at h
  split at h
  · next r =>
    split at h
    · cases h
    · next hd => cases h; have := length_digits_le r; rw [hd] at this; simp at *; omega
  · cases h; exact Nat.le_refl _

theorem length_le_of_readExponent {s : List Char} {p : Option (Bool × List Char) × List Char}
    (h : readExponent s = some p) : p.2.length ≤ s.length := by
  have key (b : Bool) (r : List Char) {p : Option (Bool × List Char) × List Char}
      (h : (match digits r with
        | ([], _) => none
        | (ds, r) => some (some (b, ds), r)) = some p) : p.2.length ≤ r.length := by
    split at h
    · cases h
    · next hd => cases h; have := length_digits_le r; rw [hd] at this; exact this
  unfold readExponent at h
  split at h
  · split at h
    · split at h <;> have := key _ _ h <;> simp at * <;> omega
    · cases h; exact Nat.le_refl _
  · cases h; exact Nat.le_refl _

theorem length_lt_of_readNumber {s : List Char} {p : NumberText × List Char} (h : readNumber s = some p) :
    p.2.length < s.length := by
  simp only [readNumber, bind, Option.bind_eq_some_iff] at h
  obtain ⟨w, hw, f, hf, e, he, h⟩ := h
  cases h
  have h1 := length_lt_of_readWhole hw
  have h2 := length_le_of_readFraction hf
  have h3 := length_le_of_readExponent he
  simp only
  split at h1 <;> simp at * <;> omega

def readKeyword (word : List Char) (s : List Char) : Option (List Char) :=
  match word, s with
  | [], r => some r
  | w :: ws, c :: r => if w = c then readKeyword ws r else none
  | _ :: _, [] => none

theorem length_le_of_readKeyword {word s r : List Char} (h : readKeyword word s = some r) :
    r.length ≤ s.length := by
  fun_induction readKeyword word s <;> simp_all; omega

mutual

/-- Reads a value, with blanks in front of it. -/
def readValue (s : List Char) : Option (Document × Rest s) :=
  match hs : skipBlank s with
  | [] => none
  | 'n' :: t => match h : readKeyword ['u', 'l', 'l'] t with
    | none => none
    | some r => some (.null, ⟨r, by
        have := length_skipBlank_le s; have := length_le_of_readKeyword h; simp [hs] at *; omega⟩)
  | 't' :: t => match h : readKeyword ['r', 'u', 'e'] t with
    | none => none
    | some r => some (.bool true, ⟨r, by
        have := length_skipBlank_le s; have := length_le_of_readKeyword h; simp [hs] at *; omega⟩)
  | 'f' :: t => match h : readKeyword ['a', 'l', 's', 'e'] t with
    | none => none
    | some r => some (.bool false, ⟨r, by
        have := length_skipBlank_le s; have := length_le_of_readKeyword h; simp [hs] at *; omega⟩)
  | '"' :: t => match h : readString t with
    | none => none
    | some (pieces, r) => some (.string pieces, ⟨r, by
        have := length_skipBlank_le s; have := length_lt_of_readString h; simp [hs] at *; omega⟩)
  | '[' :: t =>
    have ht : t.length < s.length := by have := length_skipBlank_le s; simp [hs] at *; omega
    match h : skipBlank t with
    | ']' :: r => some (.array [], ⟨r, by
        have := length_skipBlank_le t; simp [h] at *; omega⟩)
    | _ => match readItems t with
      | none => none
      | some (ds, ⟨r, hr⟩) => some (.array ds, ⟨r, by omega⟩)
  | '{' :: t =>
    have ht : t.length < s.length := by have := length_skipBlank_le s; simp [hs] at *; omega
    match h : skipBlank t with
    | '}' :: r => some (.object [], ⟨r, by
        have := length_skipBlank_le t; simp [h] at *; omega⟩)
    | _ => match readMembers t with
      | none => none
      | some (ms, ⟨r, hr⟩) => some (.object ms, ⟨r, by omega⟩)
  | c :: t => match h : readNumber (c :: t) with
    | none => none
    | some (n, r) => some (.number n, ⟨r, by
        have := length_skipBlank_le s; have := length_lt_of_readNumber h; simp [hs] at *; omega⟩)
termination_by (s.length, 0)

/-- Reads the items of an array that is not empty, and its closing bracket. -/
def readItems (s : List Char) : Option (List Document × Rest s) :=
  match readValue s with
  | none => none
  | some (d, ⟨t, ht⟩) => match h : skipBlank t with
    | ']' :: r => some ([d], ⟨r, by have := length_skipBlank_le t; simp [h] at *; omega⟩)
    | ',' :: u =>
      have hu : u.length < s.length := by have := length_skipBlank_le t; simp [h] at *; omega
      match readItems u with
      | none => none
      | some (ds, ⟨r, hr⟩) => some (d :: ds, ⟨r, by omega⟩)
    | _ => none
termination_by (s.length, 1)

/-- Reads the members of an object that is not empty, and its closing brace. -/
def readMembers (s : List Char) : Option (List (List StringPiece × Document) × Rest s) :=
  match hs : skipBlank s with
  | '"' :: t => match hk : readString t with
    | none => none
    | some (name, u) => match hu : skipBlank u with
      | ':' :: w =>
        have hw : w.length < s.length := by
          have := length_skipBlank_le s; have := length_lt_of_readString hk
          have := length_skipBlank_le u; simp [hs, hu] at *; omega
        match readValue w with
        | none => none
        | some (d, ⟨x, hx⟩) => match h : skipBlank x with
          | '}' :: r => some ([(name, d)], ⟨r, by
              have := length_skipBlank_le x; simp [h] at *; omega⟩)
          | ',' :: y =>
            have hy : y.length < s.length := by have := length_skipBlank_le x; simp [h] at *; omega
            match readMembers y with
            | none => none
            | some (ms, ⟨r, hr⟩) => some ((name, d) :: ms, ⟨r, by omega⟩)
          | _ => none
      | _ => none
  | _ => none
termination_by (s.length, 1)

end

/-- The document that a text is, with nothing but blanks around it. -/
def ofText? (text : String) : Option Document := do
  let (d, r) ← readValue text.toList
  if skipBlank r.val = [] then some d else none

end Document

end ModalKeys
