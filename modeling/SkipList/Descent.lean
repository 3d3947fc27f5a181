import SkipList.Arena

/-!
# Descents

A search starts at the head on the top level, walks right while the stored keys come before the
sought one, and goes on one level below where it stopped. `find` leaves early when it meets the key;
`descend` goes down to level 0 and remembers where each level was left. Every comparison is recorded
in the order in which it is made.
-/

namespace SkipList

/-! ### What can be seen of a call -/

/-- One comparison of a stored key with the sought one, made on a level of a descent. -/
structure Comparison where
  level : Nat
  slot : Nat
  stored : Key
  sought : Key
  answer : Ordering
deriving DecidableEq

inductive Event where
  /-- A node was linked in; `len` counts the entries after it. -/
  | spliced (index height len : Nat)
  | unspliced (index height len : Nat)
  | cursorRemoved (index : Nat)
deriving DecidableEq

def Event.message : Event → String
  | spliced _ _ _ => "spliced node"
  | unspliced _ _ _ => "unspliced node"
  | cursorRemoved _ => "cursor entry was removed"

/-- What was seen during a call, each list in the order of time. -/
structure Trace (α : Type) where
  compared : List Comparison := []
  dropped : List α := []
  events : List Event := []
deriving DecidableEq

namespace Trace

variable {α : Type}

def append (a b : Trace α) : Trace α :=
  { compared := a.compared ++ b.compared
    dropped := a.dropped ++ b.dropped
    events := a.events ++ b.events }

instance : Append (Trace α) := ⟨append⟩

end Trace

structure Reply (α β : Type) where
  result : β
  trace : Trace α := {}

def Reply.map {α β γ : Type} (f : β → γ) (reply : Reply α β) : Reply α γ :=
  { result := f reply.result, trace := reply.trace }

/-! ### Searches -/

/-- Where a walk along one level stops: the last slot before the sought key, and its successor if
that one has the key. -/
structure Stop where
  last : Nat
  equal : Link
  compared : List Comparison
deriving DecidableEq

structure Search where
  slot : Link
  compared : List Comparison
deriving DecidableEq

/-- Where each level was left, the lowest level first, and the slot of the sought key if it is
stored. -/
structure Splice where
  path : List Nat
  slot : Link
  compared : List Comparison
deriving DecidableEq

/-- The slot before the sought key on each level, the lowest level first, and the slot where the
descent ends. -/
structure Descent where
  last : Nat
  path : List Nat
  compared : List Comparison
deriving DecidableEq

namespace Arena

variable {α : Type}

def compareAt (arena : Arena α) (order : KeyOrder) (sought : Key) (level slot : Nat) :
    Except Fault Comparison := do
  let stored ← arena.key slot
  return { level, slot, stored, sought, answer := order.compare stored sought }

def walk (arena : Arena α) (order : KeyOrder) (sought : Key) (level : Nat) :
    (fuel last : Nat) → Except Fault Stop
  | 0, _ => .error .endless
  | fuel + 1, last => do
    match ← arena.next last level with
    | none => return { last, equal := none, compared := [] }
    | some slot =>
      let comparison ← arena.compareAt order sought level slot
      match comparison.answer with
      | .lt =>
        let stop ← arena.walk order sought level fuel slot
        return { stop with compared := comparison :: stop.compared }
      | .eq => return { last, equal := some slot, compared := [comparison] }
      | .gt => return { last, equal := none, compared := [comparison] }

/-- Walks along the levels below `levels`, from slot `last`, until a node has the key. -/
def findBelow (arena : Arena α) (order : KeyOrder) (sought : Key) :
    (levels last : Nat) → Except Fault Search
  | 0, _ => return { slot := none, compared := [] }
  | level + 1, last => do
    let stop ← arena.walk order sought level arena.slots.size last
    match stop.equal with
    | some slot => return { slot := some slot, compared := stop.compared }
    | none =>
      let below ← arena.findBelow order sought level stop.last
      return { below with compared := stop.compared ++ below.compared }

def descendBelow (arena : Arena α) (order : KeyOrder) (sought : Key) :
    (levels last : Nat) → Except Fault Descent
  | 0, last => return { last, path := [], compared := [] }
  | level + 1, last => do
    let stop ← arena.walk order sought level arena.slots.size last
    let below ← arena.descendBelow order sought level stop.last
    return {
      last := below.last
      path := below.path ++ [stop.last]
      compared := stop.compared ++ below.compared }

def find (arena : Arena α) (order : KeyOrder) (levels : Nat) (sought : Key) :
    Except Fault Search :=
  arena.findBelow order sought levels headSlot

def descend (arena : Arena α) (order : KeyOrder) (levels : Nat) (sought : Key) :
    Except Fault Descent :=
  arena.descendBelow order sought levels headSlot

def lowerBound (arena : Arena α) (order : KeyOrder) (levels : Nat) (sought : Key) :
    Except Fault Search := do
  let way ← arena.descend order levels sought
  return { slot := ← arena.next way.last 0, compared := way.compared }

/-- The way down to the key, and the node that has it, which takes one more comparison. -/
def splice (arena : Arena α) (order : KeyOrder) (levels : Nat) (sought : Key) :
    Except Fault Splice := do
  let way ← arena.descend order levels sought
  match ← arena.next way.last 0 with
  | none => return { path := way.path, slot := none, compared := way.compared }
  | some slot =>
    let comparison ← arena.compareAt order sought 0 slot
    return {
      path := way.path
      slot := if comparison.answer = .eq then some slot else none
      compared := way.compared ++ [comparison] }

def lastOn (arena : Arena α) (level : Nat) : (fuel last : Nat) → Except Fault Nat
  | 0, _ => .error .endless
  | fuel + 1, last => do
    match ← arena.next last level with
    | none => return last
    | some slot => arena.lastOn level fuel slot

def lastBelow (arena : Arena α) : (levels last : Nat) → Except Fault Nat
  | 0, last => return last
  | level + 1, last => do arena.lastBelow level (← arena.lastOn level arena.slots.size last)

def findLast (arena : Arena α) (levels : Nat) : Except Fault Link := do
  let last ← arena.lastBelow levels headSlot
  return if last = headSlot then none else some last

end Arena

end SkipList
