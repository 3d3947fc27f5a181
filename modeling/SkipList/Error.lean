/-!
# Errors, faults and debug text

What a map refuses, with the text of each refusal; the steps that the structure of a map rules out; and the
written forms of records, variants, lists and tables.
-/

namespace SkipList

/-! ### Debug text -/

namespace Display

def record (name : String) (fields : List (String × String)) : String :=
  name ++ " \x7b " ++ ", ".intercalate (fields.map fun field => field.1 ++ ": " ++ field.2) ++ " \x7d"

def variant (name : String) (values : List String) : String :=
  name ++ "(" ++ ", ".intercalate values ++ ")"

def option : Option String → String
  | none => "None"
  | some value => variant "Some" [value]

def list (items : List String) : String :=
  "[" ++ ", ".intercalate items ++ "]"

def table (rows : List (String × String)) : String :=
  "\x7b" ++ ", ".intercalate (rows.map fun row => row.1 ++ ": " ++ row.2) ++ "\x7d"

/-- Puts `text` behind the last line. -/
def closeWith (text : String) : List String → List String
  | [] => []
  | [line] => [line ++ text]
  | line :: rest => line :: closeWith text rest

def joinLines : List String → List String → List String
  | [], lines => lines
  | [line], [] => [line]
  | [line], next :: rest => (line ++ next) :: rest
  | line :: rest, lines => line :: joinLines rest lines

/-- Items between two brackets, each indented by four blanks and closed by a comma; nothing stands
between the brackets when there is no item. -/
def block (opening closing : String) (items : List (List String)) : List String :=
  match items with
  | [] => [opening ++ closing]
  | items =>
    opening :: (items.flatMap fun item => (closeWith "," item).map ("    " ++ ·)) ++ [closing]

def listLines (items : List String) : List String :=
  block "[" "]" (items.map fun item => [item])

def tableLines (rows : List (List String × String)) : List String :=
  block "\x7b" "\x7d" (rows.map fun row => joinLines (closeWith ": " row.1) [row.2])

def ofLines (lines : List String) : String :=
  "\n".intercalate lines

end Display

/-! ### Errors -/

inductive AllocationFailure where
  /-- The allocator had none to give. -/
  | refused
  /-- No block of memory can be that large. -/
  | capacityOverflow
deriving DecidableEq

def AllocationFailure.message : AllocationFailure → String
  | refused => "memory allocation failed because the memory allocator returned an error"
  | capacityOverflow =>
    "memory allocation failed because the computed capacity exceeded the collection's maximum"

inductive Error where
  | zeroKeySize
  /-- The system gave no seed. -/
  | entropy
  | keySize (expected actual : Nat)
  | allocation (cause : AllocationFailure)
  /-- No index is left for another node. -/
  | full
  | invalidatedCursor
deriving DecidableEq

namespace Error

def message : Error → String
  | zeroKeySize => "key size must be greater than zero"
  | entropy => "failed to seed the level generator from the os random source"
  | keySize expected actual =>
    "key size " ++ toString actual ++ " does not match the map key size " ++ toString expected
  | allocation cause => "allocation failed: " ++ cause.message
  | full => "the map has no room for another node"
  | invalidatedCursor => "cursor has been invalidated"

def name : Error → String
  | zeroKeySize => "ZeroKeySize"
  | entropy => "Entropy"
  | keySize _ _ => "KeySize"
  | allocation _ => "Allocation"
  | full => "Full"
  | invalidatedCursor => "InvalidatedCursor"

def cause? : Error → Option AllocationFailure
  | allocation cause => some cause
  | _ => none

/-- The debug text; a failed allocation has none of its own. -/
def debugText? : Error → Option String
  | allocation _ => none
  | keySize expected actual =>
    some (Display.record "KeySize" [("expected", toString expected), ("actual", toString actual)])
  | error => some error.name

/-- Whether there was no memory for a node or no index. -/
def isShortage : Error → Bool
  | allocation _ | full => true
  | _ => false

end Error

/-! ### Faults -/

/-- A step that the structure of a map rules out. Every internal step says which fault it would meet, so that
freedom from faults is a statement about the definitions themselves. -/
inductive Fault where
  | noSlot (index : Nat)
  | notLive (index : Nat)
  | released (index : Nat)
  | noLevel (index level : Nat)
  /-- The list of free slots leads to a slot in use. -/
  | freeListLive (index : Nat)
  | releaseNotLive (index : Nat)
  /-- A node was stored where no room had been reserved. -/
  | unreserved
  | noPredecessor (level : Nat)
  /-- The predecessor of a node to be removed does not lead to it. -/
  | detached (index level : Nat)
  | noThreshold (level : Nat)
  /-- A number of levels was drawn that no tower has. -/
  | noHeight (levels : Nat)
  /-- A chain is longer than the arena. -/
  | endless
deriving DecidableEq

end SkipList
