import SkipList.Height
import SkipList.KeyOrder.Catalogue

/-!
# Arena

The arena holds the nodes of a map in numbered slots. Nodes lead to each other by slot number: a node of
height `h` has one link for each of the levels below `h`. Slot 0 is the head, which every level starts from.
Each slot counts its occupants, so that a node's identity is its slot together with its generation.

Free slots form a stack: the slot released last is used first, and only an empty stack makes the arena longer.
A released slot keeps the generation of its next occupant; after the last generation it is retired.
-/

namespace SkipList

/-! ### Memory -/

def Memory.linkBytes : Nat := 8

theorem Memory.common_fits : Height.greatest.levels * Memory.linkBytes ≤ 1 <<< 30 := by decide

/-- The memory that one call may ask for. The requests of a call are numbered from one; a request is refused
if it is the one chosen to fail or if it is larger than any block. -/
structure Memory where
  /-- Which request is refused; zero refuses none. -/
  refuseAt : Nat := 0
  /-- The size of the largest block, in bytes. -/
  blockLimit : Nat := 1 <<< 30
  /-- The size of a slot, which depends on the values. -/
  slotBytes : Nat := 48
  /-- A tower of any height fits into a block. -/
  towers_fit : Height.greatest.levels * Memory.linkBytes ≤ blockLimit := by exact Memory.common_fits
deriving DecidableEq

namespace Memory

def Grants (memory : Memory) (number bytes : Nat) : Prop :=
  number ≠ memory.refuseAt ∧ bytes ≤ memory.blockLimit

instance (memory : Memory) (number bytes : Nat) : Decidable (memory.Grants number bytes) :=
  inferInstanceAs (Decidable (_ ∧ _))

def request (memory : Memory) (number bytes : Nat) : Except Error Unit :=
  if memory.Grants number bytes then .ok () else .error (.allocation .refused)

end Memory

/-! ### Slots -/

/-- The slot of the next node on a level, or none at the end. -/
abbrev Link := Option Nat

/-- The identity of a node: its slot, and which occupant of that slot it is. -/
structure NodeId where
  index : Nat
  generation : Nat
deriving DecidableEq

/-- An entry of the map with its links, the lowest level first. -/
structure Node (α : Type) where
  key : Key
  value : α
  tower : List Link
deriving DecidableEq

def Node.height {α : Type} (node : Node α) : Nat := node.tower.length

inductive Slot (α : Type) where
  /-- The head, which has a link on every level and no key. -/
  | head (tower : List Link)
  | occupied (generation : Nat) (node : Node α)
  /-- A free place: the generation of its next occupant and the next free place. -/
  | vacant (generation : Nat) (nextFree : Link)
  /-- A place that has had its last occupant. -/
  | retired
deriving DecidableEq

structure Arena (α : Type) where
  slots : Array (Slot α)
  /-- The first free slot. -/
  free : Link
  /-- The number of slots that there is memory for. -/
  capacity : Nat
deriving DecidableEq

namespace Arena

variable {α : Type}

def headSlot : Nat := 0

def slot (arena : Arena α) (index : Nat) : Except Fault (Slot α) :=
  match arena.slots[index]? with
  | some slot => .ok slot
  | none => .error (.noSlot index)

def node (arena : Arena α) (index : Nat) : Except Fault (Node α) := do
  match ← arena.slot index with
  | .occupied _ node => return node
  | _ => .error (.notLive index)

def key (arena : Arena α) (index : Nat) : Except Fault Key :=
  return (← arena.node index).key

def id (arena : Arena α) (index : Nat) : Except Fault NodeId := do
  match ← arena.slot index with
  | .occupied generation _ => return ⟨index, generation⟩
  | _ => .error (.notLive index)

def tower (arena : Arena α) (index : Nat) : Except Fault (List Link) := do
  match ← arena.slot index with
  | .head tower => return tower
  | .occupied _ node => return node.tower
  | _ => .error (.released index)

def next (arena : Arena α) (index level : Nat) : Except Fault Link := do
  match (← arena.tower index)[level]? with
  | some link => return link
  | none => .error (.noLevel index level)

def setSlot (arena : Arena α) (index : Nat) (slot : Slot α) : Arena α :=
  { arena with slots := arena.slots.setIfInBounds index slot }

def setTower (arena : Arena α) (index : Nat) (tower : List Link) : Except Fault (Arena α) := do
  match ← arena.slot index with
  | .head _ => return arena.setSlot index (.head tower)
  | .occupied generation node => return arena.setSlot index (.occupied generation { node with tower })
  | _ => .error (.released index)

def setLink (arena : Arena α) (index level : Nat) (link : Link) : Except Fault (Arena α) := do
  let tower ← arena.tower index
  if level < tower.length then arena.setTower index (tower.set level link)
  else .error (.noLevel index level)

def setValue (arena : Arena α) (index : Nat) (value : α) : Except Fault (Arena α) := do
  match ← arena.slot index with
  | .occupied generation node => return arena.setSlot index (.occupied generation { node with value })
  | _ => .error (.notLive index)

/-- The slot of a node that is still in the arena. -/
def resolve (arena : Arena α) (id : NodeId) : Option Nat :=
  match arena.slots[id.index]? with
  | some (.occupied generation _) => if generation = id.generation then some id.index else none
  | _ => none

/-! ### Storing and releasing nodes -/

def lastGeneration : Nat := 0xFFFFFFFF

/-- No arena has more slots than this: the last 32-bit number is never a slot. -/
def slotLimit : Nat := 0xFFFFFFFF

/-- The number of slots of a new arena that makes room for that many nodes. -/
def firstCapacity (nodes : Nat) : Nat := max (nodes + 1) 4

def create (memory : Memory) (height nodes : Nat) : Except Error (Arena α) := do
  memory.request 1 (firstCapacity nodes * memory.slotBytes)
  memory.request 2 (height * Memory.linkBytes)
  return {
    slots := #[.head (List.replicate height none)]
    free := none
    capacity := firstCapacity nodes }

def HasRoom (arena : Arena α) : Prop := arena.slots.size < arena.capacity

instance (arena : Arena α) : Decidable arena.HasRoom :=
  inferInstanceAs (Decidable (_ < _))

/-- The arena with room for another slot; a full one doubles. -/
def grow (arena : Arena α) : Arena α :=
  if arena.HasRoom then arena else { arena with capacity := 2 * arena.capacity }

/-- Makes sure that a node can be stored; growing is the call's request number `number`. -/
def reserve (arena : Arena α) (memory : Memory) (number : Nat) : Except Error (Arena α) := do
  match arena.free with
  | some _ => return arena
  | none =>
    if slotLimit ≤ arena.slots.size then .error .full
    else if arena.HasRoom then return arena
    else
      memory.request number (2 * arena.capacity * memory.slotBytes)
      return arena.grow

def insert (arena : Arena α) (node : Node α) : Except Fault (Arena α × Nat) := do
  match arena.free with
  | some index =>
    match ← arena.slot index with
    | .vacant generation nextFree =>
      return ({ arena.setSlot index (.occupied generation node) with free := nextFree }, index)
    | _ => .error (.freeListLive index)
  | none =>
    let index := arena.slots.size
    if slotLimit ≤ index then .error .unreserved
    else return ({ arena.grow with slots := arena.slots.push (.occupied 0 node) }, index)

def release (arena : Arena α) (index : Nat) : Except Fault (Arena α × Node α) := do
  match ← arena.slot index with
  | .occupied generation node =>
    if generation < lastGeneration then
      let slot := .vacant (generation + 1) arena.free
      return ({ arena.setSlot index slot with free := some index }, node)
    else return (arena.setSlot index .retired, node)
  | _ => .error (.releaseNotLive index)

/-! ### Linking nodes in and out

A descent leaves one predecessor for each level. A new node takes over the links of its predecessors on the
levels of its tower, and they lead to it from then on; a node is taken out by giving its links back to them. -/

def predecessor (path : List Nat) (level : Nat) : Except Fault Nat :=
  match path[level]? with
  | some slot => .ok slot
  | none => .error (.noPredecessor level)

/-- The successors of the predecessors on the levels below `height`, the lowest level first. -/
def successors (arena : Arena α) (path : List Nat) : (height : Nat) → Except Fault (List Link)
  | 0 => return []
  | level + 1 => do
    let below ← arena.successors path level
    let link ← arena.next (← predecessor path level) level
    return below ++ [link]

/-- Makes the predecessors on the levels below `height` lead to a slot. -/
def attach (arena : Arena α) (path : List Nat) (slot : Nat) :
    (height : Nat) → Except Fault (Arena α)
  | 0 => return arena
  | level + 1 => do
    let arena ← arena.attach path slot level
    arena.setLink (← predecessor path level) level (some slot)

/-- Makes the predecessors on the levels below `height` pass a slot over. -/
def detach (arena : Arena α) (path : List Nat) (slot : Nat) :
    (height : Nat) → Except Fault (Arena α)
  | 0 => return arena
  | level + 1 => do
    let arena ← arena.detach path slot level
    let link ← arena.next slot level
    let before ← predecessor path level
    if (← arena.next before level) = some slot then arena.setLink before level link
    else .error (.detached slot level)

/-- Links a new node in behind its predecessors and shows its slot. The key, the tower and a new
slot each ask for memory; when one is refused the arena comes back as it is at that moment. -/
def link (arena : Arena α) (memory : Memory) (path : List Nat) (height : Nat) (key : Key)
    (value : α) : Except Fault (Arena α × Except Error Nat) := do
  match memory.request 1 key.length with
  | .error error => return (arena, .error error)
  | .ok () =>
    match memory.request 2 (height * Memory.linkBytes) with
    | .error error => return (arena, .error error)
    | .ok () =>
      let tower ← arena.successors path height
      match arena.reserve memory 3 with
      | .error error => return (arena, .error error)
      | .ok arena =>
        let (arena, slot) ← arena.insert { key, value, tower }
        let arena ← arena.attach path slot height
        return (arena, .ok slot)

def unlink (arena : Arena α) (path : List Nat) (slot : Nat) :
    Except Fault (Arena α × Node α) := do
  let node ← arena.node slot
  let arena ← arena.detach path slot node.height
  arena.release slot

/-- Releases the nodes of a chain of level 0 one after another and hands their values over in that
order. -/
def releaseChain (arena : Arena α) : (fuel : Nat) → Link → Except Fault (Arena α × List α)
  | _, none => return (arena, [])
  | 0, some _ => .error .endless
  | fuel + 1, some slot => do
    let link ← arena.next slot 0
    let (arena, node) ← arena.release slot
    let (arena, values) ← arena.releaseChain fuel link
    return (arena, node.value :: values)

def drain (arena : Arena α) : Except Fault (Arena α × List α) := do
  let first ← arena.next headSlot 0
  let (arena, values) ← arena.releaseChain arena.slots.size first
  let tower ← arena.tower headSlot
  return (← arena.setTower headSlot (tower.map fun _ => none), values)

def storedValues (arena : Arena α) : List α :=
  arena.slots.toList.filterMap fun
    | .occupied _ node => some node.value
    | _ => none

end Arena

end SkipList
