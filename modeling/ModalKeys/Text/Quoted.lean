import ModalKeys.Text.Hidden

/-!
# Quoted text

Text shown to a user in quotes escapes the quote, the backslash, line breaks, tabs and NUL by a
letter, and every character that does not show as itself by its code point, as in `\u{200b}`.
-/

namespace ModalKeys

namespace Quoted

def codePoint (c : Char) : List Char :=
  '\\' :: 'u' :: '\x7b' :: Nat.toDigits 16 c.toNat ++ ['\x7d']

/-- How a character is written between two `quote` characters, given which characters are hidden. -/
def escaped (hidden : Char → Bool) (quote c : Char) : List Char :=
  if c = quote ∨ c = '\\' then ['\\', c]
  else if c = '\n' then ['\\', 'n']
  else if c = '\r' then ['\\', 'r']
  else if c = '\t' then ['\\', 't']
  else if c = '\x00' then ['\\', '0']
  else if hidden c then codePoint c
  else [c]

/-- Some characters in double quotes, given which characters are hidden. -/
def quote (hidden : Char → Bool) (cs : List Char) : List Char :=
  '"' :: cs.flatMap (escaped hidden '"') ++ ['"']

end Quoted

def quoted (s : String) : String := String.ofList (Quoted.quote isHidden s.toList)

/-- A character in single quotes. -/
def quotedChar (c : Char) : String :=
  "'" ++ String.ofList (Quoted.escaped isHidden '\'' c) ++ "'"

/-- Characters in single quotes, as a list in brackets. -/
def quotedChars (cs : List Char) : String :=
  "[" ++ ", ".intercalate (cs.map quotedChar) ++ "]"

/-- An optional string: `None`, or `Some` with the string in quotes. -/
def quotedOption : Option String → String
  | none => "None"
  | some s => "Some(" ++ quoted s ++ ")"

end ModalKeys
