import SkipList.Map

/-!
# Traversals

A traversal goes along level 0 from a given node and counts down the entries that may still come. It
holds the arena as it was when the traversal began. A program drives one traversal step by step, and can
remember a place and go back to it.
-/

namespace SkipList

/-- A place on level 0 of an arena, with a bound on the number of entries from there on. -/
structure Traversal (α : Type) where
  arena : Arena α
  next : Link
  remaining : Nat
deriving DecidableEq

namespace Traversal

variable {α : Type}

def next? (traversal : Traversal α) : Except Fault (Option ((Key × α) × Traversal α)) := do
  match traversal.next with
  | none => return none
  | some slot =>
    let node ← traversal.arena.node slot
    let link ← traversal.arena.next slot 0
    return some ((node.key, node.value),
      { traversal with next := link, remaining := traversal.remaining - 1 })

/-- The least and the greatest number of entries that may still come. -/
def bounds (traversal : Traversal α) : Nat × Nat :=
  match traversal.next with
  | some _ => (1, traversal.remaining)
  | none => (0, 0)

def locatedWithin : (fuel : Nat) → Traversal α → Except Fault (List (Nat × Key × α) × Traversal α)
  | 0, _ => .error .endless
  | fuel + 1, traversal => do
    match traversal.next, ← traversal.next? with
    | some slot, some (entry, after) =>
      let (entries, last) ← locatedWithin fuel after
      return ((slot, entry) :: entries, last)
    | _, _ => return ([], traversal)

def located (traversal : Traversal α) : Except Fault (List (Nat × Key × α) × Traversal α) :=
  traversal.locatedWithin (traversal.arena.slots.size + 1)

def rest (traversal : Traversal α) : Except Fault (List (Key × α) × Traversal α) := do
  let (entries, last) ← traversal.located
  return (entries.map Prod.snd, last)

/-- The entry that comes after `n` others, and the traversal behind it. -/
def nth? (traversal : Traversal α) : (n : Nat) → Except Fault (Option (Key × α) × Traversal α)
  | 0 => do
    match ← traversal.next? with
    | none => return (none, traversal)
    | some (entry, after) => return (some entry, after)
  | n + 1 => do
    match ← traversal.next? with
    | none => return (none, traversal)
    | some (_, after) => after.nth? n

end Traversal

namespace Map

variable {σ α : Type}

def traverse (map : Map σ α) : Except Fault (Traversal α) :=
  return { arena := map.arena, next := ← map.firstSlot, remaining := map.len }

/-- Traverses the entries from the first one that does not come before the key. -/
def traverseFrom (map : Map σ α) (key : Key) : Except Fault (Reply α (Traversal α)) := do
  let search ← map.lowerBound key
  return {
    result := { arena := map.arena, next := search.slot, remaining := map.len }
    trace := { compared := search.compared } }

def located (map : Map σ α) : Except Fault (List (Nat × Key × α)) := do
  return (← (← map.traverse).located).1

def toList (map : Map σ α) : Except Fault (List (Key × α)) := do
  return (← (← map.traverse).rest).1

def keys (map : Map σ α) : Except Fault (List Key) :=
  return (← map.toList).map Prod.fst

def values (map : Map σ α) : Except Fault (List α) :=
  return (← map.toList).map Prod.snd

def debugText (map : Map σ α) (text : α → String) : Except Fault String := do
  return Display.table
    ((← map.toList).map fun (key, value) => (Display.list (key.map toString), text value))

def debugLines (map : Map σ α) (text : α → String) : Except Fault String := do
  return Display.ofLines (Display.tableLines
    ((← map.toList).map fun (key, value) => (Display.listLines (key.map toString), text value)))

end Map

/-! ### Programs of steps -/

inductive View where
  | entries
  | keys
  | values
deriving DecidableEq

namespace Traversal

variable {α : Type}

def debugText (view : View) (traversal : Traversal α) : String :=
  let text := Display.record "Iter"
    [("next", Display.option (traversal.next.map toString)),
     ("remaining", toString traversal.remaining)]
  match view with
  | .entries => text
  | .keys => Display.variant "Keys" [text]
  | .values => Display.variant "Values" [text]

inductive Step where
  | next
  | bounds
  | debugText
  | save
  | restore
  | rest
  | last
  | count
  | nth (n : Nat)
deriving DecidableEq

inductive StepAnswer (α : Type) where
  | item (entry : Option (Key × α))
  | bounds (least greatest : Nat)
  | text (debugText : String)
  | saved
  | restored
  | items (entries : List (Key × α))
  | count (n : Nat)
deriving DecidableEq

def step (view : View) (here saved : Traversal α) :
    Step → Except Fault (StepAnswer α × Traversal α × Traversal α)
  | .next => do
    let (entry, here) ← here.nth? 0
    return (.item entry, here, saved)
  | .bounds => return (.bounds here.bounds.1 here.bounds.2, here, saved)
  | .debugText => return (.text (here.debugText view), here, saved)
  | .save => return (.saved, here, here)
  | .restore => return (.restored, saved, saved)
  | .rest => do
    let (entries, here) ← here.rest
    return (.items entries, here, saved)
  | .last => do
    let (entries, here) ← here.rest
    return (.item entries.getLast?, here, saved)
  | .count => do
    let (entries, here) ← here.rest
    return (.count entries.length, here, saved)
  | .nth n => do
    let (entry, here) ← here.nth? n
    return (.item entry, here, saved)

def run (view : View) : (here saved : Traversal α) → List Step → Except Fault (List (StepAnswer α))
  | _, _, [] => return []
  | here, saved, first :: steps => do
    let (answer, here, saved) ← step view here saved first
    return answer :: (← run view here saved steps)

end Traversal

end SkipList
