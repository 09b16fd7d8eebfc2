/-!
# Modes

The four modes of an editor, and the options that a mode can be entered with.
-/

namespace ModalKeys

/-- The role an editor is in. -/
inductive Mode where
  | normal
  | insert
  | visual
  | search
  deriving DecidableEq, Repr, Inhabited

namespace Mode

/-- All modes, in the order in which a mode switch resets them. -/
def all : List Mode := [normal, insert, visual, search]

def name : Mode → String
  | normal => "normal"
  | insert => "insert"
  | visual => "visual"
  | search => "search"

/-- The mode with a given name. Names are case sensitive. -/
def ofName? (s : String) : Option Mode := all.find? (·.name = s)

/-- The mode as a status line shows it. -/
def title : Mode → String
  | normal => "NORMAL"
  | insert => "INSERT"
  | visual => "VISUAL"
  | search => "SEARCH"

end Mode

inductive VisualShape where
  | plain
  | line
  | block
  deriving DecidableEq, Repr, Inhabited

/-- How much of the buffer a search covers. -/
inductive SearchRange where
  | line
  | document
  deriving DecidableEq, Repr

instance : Inhabited SearchRange := ⟨.document⟩

/-- Which way a search goes: before or after the cursor, from the start of the range, or against the
last search. -/
inductive SearchDirection where
  | before
  | after
  | start
  | reverse
  deriving DecidableEq, Repr

instance : Inhabited SearchDirection := ⟨.after⟩

def VisualShape.label : VisualShape → String
  | plain => "Plain"
  | line => "Line"
  | block => "Block"

def SearchRange.label : SearchRange → String
  | line => "Line"
  | document => "Document"

def SearchDirection.label : SearchDirection → String
  | before => "Before"
  | after => "After"
  | start => "Start"
  | reverse => "Reverse"

/-- Options for entering a mode. A mode ignores options it has no use for, and takes the default for
those that are unset. -/
structure EnterOptions where
  visualShape : Option VisualShape := none
  searchRange : Option SearchRange := none
  searchDirection : Option SearchDirection := none
  singleChar : Option Bool := none
  deriving DecidableEq, Repr, Inhabited

/-- A search that was confirmed in Search mode. -/
structure SearchQuery where
  text : String
  range : SearchRange
  direction : SearchDirection
  deriving DecidableEq, Repr

end ModalKeys
