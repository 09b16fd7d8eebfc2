import ModalKeys.Keymap.ConfigError

/-!
# Reading key paths back

Text in quotes can be read back one character at a time, whatever is in it and whichever characters are
hidden: a quote that no backslash precedes ends it, and the escapes do not collide with each other. So the
text that an error gives for its place names one path of configuration keys only, even if the keys contain
quotes, backslashes or the separator.
-/

namespace ModalKeys

namespace Quoted

/-! ## A reader of quoted text -/

/-- Where a reader stands in quoted text. -/
inductive Position where
  /-- Between two characters. -/
  | between
  /-- Behind a backslash. -/
  | backslash
  /-- Behind the letter of a code point escape. -/
  | brace
  /-- Among the digits of a code point escape; those read so far are worth `value`. -/
  | digits (value : Nat)

/-- The character that is escaped by a letter. A quote and a backslash stand for themselves. -/
def ofLetter (c : Char) : Char :=
  if c = 'n' then '\n'
  else if c = 'r' then '\r'
  else if c = 't' then '\t'
  else if c = '0' then '\x00'
  else c

/-- The value of a hexadecimal digit. -/
def hexValue (c : Char) : Nat :=
  if c.toNat ≤ '9'.toNat then c.toNat - '0'.toNat else c.toNat - 'a'.toNat + 10

/-- Puts a character in front of those that have been read. -/
def push (c : Char) : Option (List Char × List Char) → Option (List Char × List Char) :=
  Option.map (Prod.map (c :: ·) id)

/-- Reads the characters up to the closing quote, and returns them with what comes behind it. -/
def unquote : Position → List Char → Option (List Char × List Char)
  | _, [] => none
  | .between, c :: rest =>
    if c = '"' then some ([], rest)
    else if c = '\\' then unquote .backslash rest
    else push c (unquote .between rest)
  | .backslash, c :: rest =>
    if c = 'u' then unquote .brace rest else push (ofLetter c) (unquote .between rest)
  | .brace, _ :: rest => unquote (.digits 0) rest
  | .digits value, c :: rest =>
    if c = '\x7d' then push (Char.ofNat value) (unquote .between rest)
    else unquote (.digits (16 * value + hexValue c)) rest

/-! ## Escapes -/

theorem hexValue_digitChar {n : Nat} (h : n < 16) : hexValue n.digitChar = n := by
  revert n
  decide

theorem digitChar_ne_brace {n : Nat} (h : n < 16) : n.digitChar ≠ '\x7d' := by
  revert n
  decide

theorem unquote_digit {n : Nat} (h : n < 16) (value : Nat) (rest : List Char) :
    unquote (.digits value) (n.digitChar :: rest) = unquote (.digits (16 * value + n)) rest := by
  rw [unquote, if_neg (digitChar_ne_brace h), hexValue_digitChar h]

/-- The digits of a number are read as that number. -/
theorem unquote_toDigits (n : Nat) (rest : List Char) :
    unquote (.digits 0) (Nat.toDigits 16 n ++ rest) = unquote (.digits n) rest := by
  induction n using Nat.strongRecOn generalizing rest with
  | _ n ih =>
    by_cases small : n < 16
    · rw [Nat.toDigits_of_lt_base small, List.singleton_append, unquote_digit small]
      simp
    · have last : n % 16 < 16 := Nat.mod_lt n (by decide)
      rw [Nat.toDigits_of_base_le (by decide) (Nat.not_lt.1 small), List.append_assoc,
        List.singleton_append, ih (n / 16) (by omega), unquote_digit last, Nat.div_add_mod]

theorem unquote_codePoint (c : Char) (rest : List Char) :
    unquote .between (codePoint c ++ rest) = push c (unquote .between rest) := by
  have opened : unquote .between (codePoint c ++ rest) =
      unquote (.digits 0) (Nat.toDigits 16 c.toNat ++ '\x7d' :: rest) := by
    simp [codePoint, unquote]
  rw [opened, unquote_toDigits, unquote, if_pos rfl, Char.ofNat_toNat]

/-- However a character is written, it is read as itself. -/
theorem unquote_escaped (hidden : Char → Bool) (c : Char) (rest : List Char) :
    unquote .between (escaped hidden '"' c ++ rest) = push c (unquote .between rest) := by
  unfold escaped
  by_cases mark : c = '"' ∨ c = '\\'
  · rw [if_pos mark]
    rcases mark with rfl | rfl <;> simp [unquote, ofLetter]
  rw [if_neg mark]
  by_cases newline : c = '\n'
  · simp [newline, unquote, ofLetter]
  by_cases carriageReturn : c = '\r'
  · simp [carriageReturn, unquote, ofLetter]
  by_cases tab : c = '\t'
  · simp [tab, unquote, ofLetter]
  by_cases nul : c = '\x00'
  · simp [nul, unquote, ofLetter]
  rw [if_neg newline, if_neg carriageReturn, if_neg tab, if_neg nul]
  split
  · exact unquote_codePoint c rest
  · rw [not_or] at mark
    rw [List.singleton_append, unquote, if_neg mark.1, if_neg mark.2]

/-! ## Quoted text -/

/-- Reading undoes quoting. The reader does not know which characters are hidden. -/
theorem unquote_quote (hidden : Char → Bool) (cs rest : List Char) :
    unquote .between (cs.flatMap (escaped hidden '"') ++ '"' :: rest) = some (cs, rest) := by
  induction cs with
  | nil => rfl
  | cons c cs ih =>
    rw [List.flatMap_cons, List.append_assoc, unquote_escaped, ih]
    rfl

/-- Text in quotes ends where its closing quote is, so it can be told from what comes behind it. -/
theorem quote_append_inj {hidden hidden' : Char → Bool} {cs cs' rest rest' : List Char}
    (h : quote hidden cs ++ rest = quote hidden' cs' ++ rest') : cs = cs' ∧ rest = rest' := by
  simp only [quote, List.cons_append, List.append_assoc, List.nil_append, List.cons.injEq,
    true_and] at h
  have read := unquote_quote hidden cs rest
  rw [h, unquote_quote, Option.some.injEq, Prod.mk.injEq] at read
  exact ⟨read.1.symm, read.2.symm⟩

end Quoted

namespace KeyPath

/-! ## Key paths -/

variable {hidden hidden' : Char → Bool}

theorem chars_ne_root (key : List Char) (path : List (List Char)) :
    chars hidden (key :: path) ≠ ['<', 'r', 'o', 'o', 't', '>'] := by
  cases path <;> simp [chars, Quoted.quote]

/-- A path with its first key set apart. What comes behind that key in the text is nothing or the
separator and the text of the rest. -/
theorem chars_cons (key : List Char) (path : List (List Char)) :
    chars hidden (key :: path) = Quoted.quote hidden key ++
      if path = [] then [] else [' ', '>', ' '] ++ chars hidden path := by
  cases path with
  | nil => simp [chars]
  | cons next rest => simp [chars]

/-- Different paths have different texts, even if other characters are hidden in one than in the other. -/
theorem eq_of_chars_eq {path path' : List (List Char)}
    (h : chars hidden path = chars hidden' path') : path = path' := by
  induction path generalizing path' with
  | nil =>
    cases path' with
    | nil => rfl
    | cons key rest => exact (chars_ne_root key rest h.symm).elim
  | cons key rest ih =>
    cases path' with
    | nil => exact (chars_ne_root key rest h).elim
    | cons key' rest' =>
      rw [chars_cons, chars_cons] at h
      obtain ⟨rfl, behind⟩ := Quoted.quote_append_inj h
      by_cases last : rest = [] <;> by_cases last' : rest' = []
      · rw [last, last']
      · simp [last, last'] at behind
      · simp [last, last'] at behind
      · rw [if_neg last, if_neg last', List.append_cancel_left_eq] at behind
        rw [ih behind]

/-- The text of a path names that path and no other, whichever characters are hidden, and only the empty
path is written as the root. -/
theorem text_names_path :
    (∀ (hidden : Char → Bool) (path path' : List (List Char)),
      chars hidden path = chars hidden path' ↔ path = path') ∧
    (∀ (hidden : Char → Bool) (path : List (List Char)),
      chars hidden path = "<root>".toList ↔ path = []) ∧
    (∀ path path' : List String, text path = text path' ↔ path = path') ∧
    ∀ path : List String, text path = "<root>" ↔ path = [] := by
  have named (hidden : Char → Bool) (path path' : List (List Char)) :
      chars hidden path = chars hidden path' ↔ path = path' :=
    ⟨eq_of_chars_eq, congrArg (chars hidden)⟩
  have texts (path path' : List String) : text path = text path' ↔ path = path' := by
    rw [text, text, String.ofList_inj, named]
    exact List.map_inj_right fun _ _ => String.toList_inj.1
  exact ⟨named, fun hidden path => named hidden path [], texts, fun path => texts path []⟩

example : text ["d", "a\" > \"b", "\\\u0301\n"] = "\"d\" > \"a\\\" > \\\"b\" > \"\\\\\\u\x7b301\x7d\\n\"" := by
  decide +kernel

end KeyPath

end ModalKeys
