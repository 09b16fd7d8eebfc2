import ModalKeys.Json.Basic
import ModalKeys.Mode

/-!
# Reading options for entering a mode

Options are read from an object by field name, or from an array by position. A choice among names is
written as the name, or as an object with the name as its only member and nothing in it.
-/

namespace ModalKeys

namespace Json

/-- Reads a choice among names. `isNothing` tells which values may stand beside the name. -/
def choice? (isNothing : Json → Bool) (names : List (String × α)) : Json → Option α
  | .string s => names.lookup s
  | .object [(s, v)] => if isNothing v then names.lookup s else none
  | _ => none

def bool? : Json → Option Bool
  | .bool b => some b
  | _ => none

def isNull : Json → Bool
  | .null => true
  | _ => false

/-- Null or an empty object. -/
def isNullOrEmpty : Json → Bool
  | .null => true
  | .object [] => true
  | _ => false

/-- Reads a field that may be missing or null. The outer option is for a value that is neither null
nor readable. -/
def optional? (read : Json → Option α) : Option Json → Option (Option α)
  | none => some none
  | some .null => some none
  | some v => (read v).map some

end Json

/-- The names of the shapes. Plain selections are also called normal. -/
def VisualShape.names : List (String × VisualShape) :=
  [("plain", .plain), ("normal", .plain), ("line", .line), ("block", .block)]

def SearchRange.names : List (String × SearchRange) :=
  [("line", .line), ("document", .document)]

def SearchDirection.names : List (String × SearchDirection) :=
  [("before", .before), ("after", .after), ("start", .start), ("reverse", .reverse)]

def VisualShape.ofJson? : Json → Option VisualShape := Json.choice? Json.isNull VisualShape.names

def SearchRange.ofJson? : Json → Option SearchRange := Json.choice? Json.isNull SearchRange.names

def SearchDirection.ofJson? : Json → Option SearchDirection :=
  Json.choice? Json.isNull SearchDirection.names

namespace EnterOptions

/-- Reads options field by field, given how to find the value of a field. -/
def ofFields? (isNothing : Json → Bool) (visualShape searchRange searchDirection singleChar : Option Json) :
    Option EnterOptions := do
  some {
    visualShape := ← Json.optional? (Json.choice? isNothing VisualShape.names) visualShape
    searchRange := ← Json.optional? (Json.choice? isNothing SearchRange.names) searchRange
    searchDirection :=
      ← Json.optional? (Json.choice? isNothing SearchDirection.names) searchDirection
    singleChar := ← Json.optional? Json.bool? singleChar }

/-- Reads options from the members of an object. Other members are ignored. -/
def ofMembers? (isNothing : Json → Bool) (members : List (String × Json)) : Option EnterOptions :=
  ofFields? isNothing (Json.member? "visualType" members) (Json.member? "searchRange" members)
    (Json.member? "searchDirection" members) (Json.member? "singleChar" members)

/-- Reads options from an object, or from an array of at most four fields in order. -/
def ofJson? : Json → Option EnterOptions
  | .object members => ofMembers? Json.isNull members
  | .array items =>
    if items.length ≤ 4 then ofFields? Json.isNull items[0]? items[1]? items[2]? items[3]? else none
  | _ => none

end EnterOptions

end ModalKeys
