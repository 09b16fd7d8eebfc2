import ModalKeys.Json.Basic
import ModalKeys.Json.Document

/-!
# Reading JSON text as a value

A document is a value if its numbers are in range, its strings are whole characters, and its
containers are not nested too deep. A member name given twice keeps its first place and its last
value.
-/

namespace ModalKeys

namespace JsonNumber

def digitValue (c : Char) : Nat := c.toNat - '0'.toNat

/-- The greatest significand that is kept exactly: what 64 unsigned bits hold. -/
def greatestSignificand : Nat := Nat.pow 2 64 - 1

def ofDigits (ds : List Char) : Nat := ds.foldl (fun n c => n * 10 + digitValue c) 0

/-- Appends digits to a significand while it stays within bounds. The digits that no longer fit are
returned; the first of them would be too much. -/
def extend (significand : Nat) : List Char → Nat × List Char
  | [] => (significand, [])
  | c :: cs =>
    let next := significand * 10 + digitValue c
    if greatestSignificand < next then (significand, c :: cs) else extend next cs

def greatestExponent : Nat := Nat.pow 2 31 - 1

/-- The binary64 number for a significand and a power of ten that is moved by a written exponent.
A written exponent beyond bounds makes zero of everything when it is negative, and is an error for
every significand but zero when it is positive. -/
def scaled? (significand : Nat) (power : Int) : Option (Bool × List Char) → Option Binary64
  | none => Binary64.ofDecimal significand power
  | some (negative, ds) =>
    let e := ofDigits ds
    if greatestExponent < e then
      if significand ≠ 0 ∧ !negative then none else some Binary64.zero
    else Binary64.ofDecimal significand (if negative then power - e else power + e)

/-- The number that a text is worth, or nothing when it is too large. Without fraction and exponent
it is an integer, unless it is `-0` or needs more than 64 bits. Digits that do not fit the
significand count as zeros before the point and are ignored behind it. -/
def ofText? (t : NumberText) : Option JsonNumber :=
  let (significand, dropped) := extend 0 t.whole
  if dropped = [] ∧ t.fraction = none ∧ t.exponent = none then
    if !t.negative then some (.integer significand)
    else if significand ≠ 0 ∧ significand ≤ Nat.pow 2 63 then some (.integer (-significand))
    else (Binary64.ofRatio significand 1).map fun x => .float x.neg
  else
    let fraction := t.fraction.getD []
    let (significand, ignored) := extend significand fraction
    let power : Int := dropped.length - (fraction.length - ignored.length : Nat)
    (scaled? significand power t.exponent).map fun x => .float (if t.negative then x.neg else x)

end JsonNumber

namespace StringPiece

def isHighSurrogate (u : Nat) : Bool := 0xD800 ≤ u && u ≤ 0xDBFF
def isLowSurrogate (u : Nat) : Bool := 0xDC00 ≤ u && u ≤ 0xDFFF

/-- The characters of a string. Surrogate escapes must come in pairs. -/
def chars? : List StringPiece → Option (List Char)
  | [] => some []
  | .char c :: rest => (chars? rest).map (c :: ·)
  | .unit hi :: .unit lo :: rest =>
    if isHighSurrogate hi then
      if isLowSurrogate lo then
        (chars? rest).map (Char.ofNat (0x10000 + (hi - 0xD800) * 0x400 + (lo - 0xDC00)) :: ·)
      else none
    else if isLowSurrogate hi then none
    else (chars? (.unit lo :: rest)).map (Char.ofNat hi :: ·)
  | .unit u :: rest =>
    if isHighSurrogate u || isLowSurrogate u then none
    else (chars? rest).map (Char.ofNat u :: ·)

def string? (pieces : List StringPiece) : Option String :=
  (chars? pieces).map String.ofList

end StringPiece

namespace Document

mutual

/-- The value of a document that nests at most `depth` containers. -/
def toJson? (depth : Nat) : Document → Option Json
  | .null => some .null
  | .bool b => some (.bool b)
  | .number t => (JsonNumber.ofText? t).map .number
  | .string pieces => (StringPiece.string? pieces).map .string
  | .array items =>
    if depth = 0 then none else (itemsToJson? (depth - 1) items).map .array
  | .object members =>
    if depth = 0 then none
    else (membersToJson? (depth - 1) members).map fun written => .object (Json.ofMembers written)
termination_by structural d => d

def itemsToJson? (depth : Nat) : List Document → Option (List Json)
  | [] => some []
  | d :: ds => do
    let v ← toJson? depth d
    some (v :: (← itemsToJson? depth ds))
termination_by structural ds => ds

def membersToJson? (depth : Nat) : List (List StringPiece × Document) → Option (List (String × Json))
  | [] => some []
  | m :: ms => do
    let v ← memberToJson? depth m
    some (v :: (← membersToJson? depth ms))
termination_by structural ms => ms

def memberToJson? (depth : Nat) : List StringPiece × Document → Option (String × Json)
  | (name, d) => do
    let name ← StringPiece.string? name
    some (name, ← toJson? depth d)
termination_by structural m => m

end

end Document

/-- The value of a JSON text that nests at most `depth` containers. -/
def Json.ofText? (depth : Nat) (text : String) : Option Json :=
  Document.ofText? text >>= Document.toJson? depth

end ModalKeys
