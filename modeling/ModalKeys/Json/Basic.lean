import ModalKeys.Json.Binary64

/-!
# JSON values

Objects keep their members in the order of the text. That order decides which of two overlapping key
specs wins and which error is reported first, so it is part of the value.
-/

namespace ModalKeys

/-- A JSON number: an integer that fits 64 bits, signed or unsigned, or a binary64 number. -/
inductive JsonNumber where
  | integer (value : Int)
  | float (value : Binary64)
  deriving DecidableEq, Repr

inductive Json where
  | null
  | bool (value : Bool)
  | number (value : JsonNumber)
  | string (value : String)
  | array (items : List Json)
  | object (members : List (String × Json))
  deriving Inhabited

namespace JsonNumber

/-- The binary64 number nearest to a number. -/
def toBinary64? : JsonNumber → Option Binary64
  | .integer i => Binary64.ofInt i
  | .float x => some x

/-- The least and greatest integers of 64 signed bits. -/
def leastInt64 : Int := -(Nat.pow 2 63 : Int)
def greatestInt64 : Int := (Nat.pow 2 63 : Int) - 1

/-- An integer moved into the range of 64 signed bits. -/
def clampInt64 (i : Int) : Int := max leastInt64 (min i greatestInt64)

/-- The value of a number without a fraction, clamped to 64 signed bits. -/
def toInt64? : JsonNumber → Option Int
  | .integer i => some (clampInt64 i)
  | .float x => x.toInt?.map clampInt64

end JsonNumber

namespace Json

def member? (name : String) : List (String × Json) → Option Json
  | [] => none
  | (k, v) :: rest => if k = name then some v else member? name rest

def hasMember (name : String) (members : List (String × Json)) : Bool :=
  (member? name members).isSome

/-- Replaces the value of a member where it stands, or adds the member at the end. -/
def setMember (name : String) (value : Json) : List (String × Json) → List (String × Json)
  | [] => [(name, value)]
  | (k, v) :: rest => if k = name then (k, value) :: rest else (k, v) :: setMember name value rest

/-- The members of an object as written, where a repeated name keeps its first place and takes its
last value. -/
def ofMembers (written : List (String × Json)) : List (String × Json) :=
  written.foldl (fun members (k, v) => setMember k v members) []

def string? : Json → Option String
  | .string s => some s
  | _ => none

end Json

end ModalKeys
