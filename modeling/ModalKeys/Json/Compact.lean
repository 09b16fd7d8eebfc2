import ModalKeys.Json.Basic
import ModalKeys.Json.Decimal

/-!
# Compact JSON text

Values are written without blanks. Strings escape quotes, backslashes and control characters only.
-/

namespace ModalKeys

def hexDigit (n : Nat) : Char := Nat.digitChar (n % 16)

/-- Numbers are written positionally from `0.00001` up to below `1e+16`. -/
def JsonNumber.layout : Decimal.Layout := ⟨-5, 16⟩

def JsonNumber.text : JsonNumber → String
  | .integer i => toString i
  | .float x => (if x.negative then "-" else "") ++ (Decimal.shortest x).text JsonNumber.layout

namespace Json

def escaped (c : Char) : List Char :=
  match c with
  | '"' => ['\\', '"']
  | '\\' => ['\\', '\\']
  | '\x08' => ['\\', 'b']
  | '\x0c' => ['\\', 'f']
  | '\n' => ['\\', 'n']
  | '\r' => ['\\', 'r']
  | '\t' => ['\\', 't']
  | c => if c.toNat < 0x20 then ['\\', 'u', '0', '0', hexDigit (c.toNat / 16), hexDigit c.toNat] else [c]

def quoted (s : String) : String :=
  "\"" ++ String.ofList (s.toList.flatMap escaped) ++ "\""

mutual

def compact : Json → String
  | .null => "null"
  | .bool true => "true"
  | .bool false => "false"
  | .number n => n.text
  | .string s => quoted s
  | .array items => "[" ++ ",".intercalate (compactItems items) ++ "]"
  | .object members => "\x7b" ++ ",".intercalate (compactMembers members) ++ "\x7d"
termination_by structural v => v

def compactItems : List Json → List String
  | [] => []
  | v :: vs => compact v :: compactItems vs
termination_by structural vs => vs

def compactMembers : List (String × Json) → List String
  | [] => []
  | m :: ms => compactMember m :: compactMembers ms
termination_by structural ms => ms

def compactMember : String × Json → String
  | (name, v) => quoted name ++ ":" ++ compact v
termination_by structural m => m

end

end Json

end ModalKeys
