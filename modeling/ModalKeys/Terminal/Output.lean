/-!
# Terminal output

A terminal takes text until it fails. Which writes fail, how far they get and for what reason is up to
the terminal.
-/

namespace ModalKeys

/-- How a write fails. Some of the text may have been written by then, even all of it. -/
structure WriteFailure where
  reason : String
  /-- How many characters have been written. -/
  written : Nat := 0
  deriving DecidableEq, Repr

/-- The text written so far, and what comes of each further write. -/
structure Output where
  text : String := ""
  writes : Nat := 0
  failure : Nat → Option WriteFailure := fun _ => none

namespace Output

/-- A terminal that is closed: every write finds a broken pipe. -/
def closed : Output := { failure := fun _ => some { reason := "broken pipe" } }

def write (o : Output) (text : String) : Output × Except String Unit :=
  let next := { o with writes := o.writes + 1 }
  match o.failure o.writes with
  | some failure =>
    let begun := String.ofList (text.toList.take failure.written)
    ({ next with text := o.text ++ begun }, .error failure.reason)
  | none => ({ next with text := o.text ++ text }, .ok ())

end Output

end ModalKeys
