import ModalKeys.Json.Compact
import ModalKeys.Text.Quoted

/-!
# JSON values as shown to a developer

Each part is named by its kind, and strings are quoted in the way of `ModalKeys.quoted`.
-/

namespace ModalKeys

namespace Json

mutual

/-- A value as it is shown to a developer, with the kind of each part. -/
def described : Json → String
  | .null => "Null"
  | .bool b => "Bool(" ++ toString b ++ ")"
  | .number n => "Number(" ++ n.text ++ ")"
  | .string s => "String(" ++ ModalKeys.quoted s ++ ")"
  | .array items => "Array [" ++ ", ".intercalate (describedItems items) ++ "]"
  | .object members => "Object \x7b" ++ ", ".intercalate (describedMembers members) ++ "\x7d"
termination_by structural v => v

def describedItems : List Json → List String
  | [] => []
  | v :: vs => described v :: describedItems vs
termination_by structural vs => vs

def describedMembers : List (String × Json) → List String
  | [] => []
  | m :: ms => describedMember m :: describedMembers ms
termination_by structural ms => ms

def describedMember : String × Json → String
  | (name, v) => ModalKeys.quoted name ++ ": " ++ described v
termination_by structural m => m

end

end Json

end ModalKeys
