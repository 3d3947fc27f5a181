import SkipList.Descent
import SkipList.Draws.Source

/-!
# Maps

A map from keys of one length to values, kept as a skip list under any key order. A key of another length
than the map's is never found, and neither it nor an empty map leads to a comparison. A new key takes one
draw for its height and is linked in behind the last entry before it; when there is no room for it only that
draw has been taken.
-/

namespace SkipList

/-! ### Outcomes -/

inductive Insertion (α : Type) where
  | inserted
  /-- The key was there; its old value is handed back. -/
  | updated (previous : α)
deriving DecidableEq

namespace Insertion

variable {α : Type}

def isInserted : Insertion α → Bool
  | inserted => true
  | updated _ => false

def isUpdated : Insertion α → Bool
  | inserted => false
  | updated _ => true

def previous? : Insertion α → Option α
  | inserted => none
  | updated previous => some previous

def debugText (text : α → String) : Insertion α → String
  | inserted => "Inserted"
  | updated previous => Display.variant "Updated" [text previous]

end Insertion

inductive Removal (α : Type) where
  | removed (value : α)
  | notFound
deriving DecidableEq

namespace Removal

variable {α : Type}

def isRemoved : Removal α → Bool
  | removed _ => true
  | notFound => false

def isNotFound : Removal α → Bool
  | removed _ => false
  | notFound => true

def value? : Removal α → Option α
  | removed value => some value
  | notFound => none

def debugText (text : α → String) : Removal α → String
  | removed value => Display.variant "Removed" [text value]
  | notFound => "NotFound"

end Removal

/-! ### The type -/

/-- A skip list with values of type `α` that draws its heights from a source of type `σ`. -/
structure Map (σ α : Type) where
  arena : Arena α
  len : Nat
  maxHeight : Height
  keySize : Nat
  /-- Tells this map from all others. -/
  id : Nat
  source : σ
  order : KeyOrder

namespace Map

variable {σ α : Type}

/-- Builds an empty map that draws from `source`; the seed of the configuration plays no part. -/
def build (memory : Memory) (blueprint : Blueprint) (source : σ) (id : Nat) :
    Except Error (Map σ α) := do
  let config := blueprint.config
  if config.keySize = 0 then .error .zeroKeySize
  else
    let arena ← Arena.create memory config.maxHeight.levels config.capacity
    return {
      arena
      len := 0
      maxHeight := config.maxHeight
      keySize := config.keySize
      id
      source
      order := blueprint.order }

def isEmpty (map : Map σ α) : Bool := map.len == 0

/-! ### Looking entries up -/

/-- Whether a search for the key can find anything. -/
def Searchable (map : Map σ α) (key : Key) : Prop :=
  map.len ≠ 0 ∧ key.length = map.keySize

instance (map : Map σ α) (key : Key) : Decidable (map.Searchable key) :=
  inferInstanceAs (Decidable (_ ∧ _))

def find (map : Map σ α) (key : Key) : Except Fault Search :=
  if map.Searchable key then map.arena.find map.order map.maxHeight.levels key
  else return { slot := none, compared := [] }

def lowerBound (map : Map σ α) (key : Key) : Except Fault Search :=
  if map.Searchable key then map.arena.lowerBound map.order map.maxHeight.levels key
  else return { slot := none, compared := [] }

def firstSlot (map : Map σ α) : Except Fault Link :=
  map.arena.next Arena.headSlot 0

def lastSlot (map : Map σ α) : Except Fault Link :=
  map.arena.findLast map.maxHeight.levels

def entryAt (map : Map σ α) (slot : Nat) : Except Fault (Key × α) := do
  let node ← map.arena.node slot
  return (node.key, node.value)

def entryAt? (map : Map σ α) : Link → Except Fault (Option (Key × α))
  | none => return none
  | some slot => return some (← map.entryAt slot)

/-- The entry with that key, with the key as it was first inserted. -/
def getEntry? (map : Map σ α) (key : Key) : Except Fault (Reply α (Option (Key × α))) := do
  let search ← map.find key
  return { result := ← map.entryAt? search.slot, trace := { compared := search.compared } }

def get? (map : Map σ α) (key : Key) : Except Fault (Reply α (Option α)) :=
  return (← map.getEntry? key).map (Option.map Prod.snd)

def contains (map : Map σ α) (key : Key) : Except Fault (Reply α Bool) := do
  let search ← map.find key
  return { result := search.slot.isSome, trace := { compared := search.compared } }

def first? (map : Map σ α) : Except Fault (Option (Key × α)) := do
  map.entryAt? (← map.firstSlot)

def firstValue? (map : Map σ α) : Except Fault (Option α) :=
  return (← map.first?).map Prod.snd

def last? (map : Map σ α) : Except Fault (Option (Key × α)) := do
  map.entryAt? (← map.lastSlot)

/-! ### Changing entries -/

def insertNew [DrawSource σ] (map : Map σ α) (memory : Memory) (path : List Nat) (key : Key)
    (value : α) : Except Fault (Map σ α × Except Error Event) := do
  let (height, source) ← map.maxHeight.random map.source
  let (arena, linked) ← map.arena.link memory path height.levels key value
  let map := { map with source, arena }
  match linked with
  | .error error => return (map, .error error)
  | .ok slot =>
    let len := map.len + 1
    return ({ map with len }, .ok (.spliced slot height.levels len))

def insert [DrawSource σ] (map : Map σ α) (memory : Memory) (key : Key) (value : α) :
    Except Fault (Map σ α × Reply α (Except Error (Insertion α))) := do
  if key.length ≠ map.keySize then
    let error := .keySize map.keySize key.length
    return (map, { result := .error error, trace := { dropped := [value] } })
  else
    let splice ← map.arena.splice map.order map.maxHeight.levels key
    let compared := splice.compared
    match splice.slot with
    | some slot =>
      let previous := (← map.arena.node slot).value
      let arena ← map.arena.setValue slot value
      return ({ map with arena }, { result := .ok (.updated previous), trace := { compared } })
    | none =>
      match ← map.insertNew memory splice.path key value with
      | (map, .error error) =>
        return (map, { result := .error error, trace := { compared, dropped := [value] } })
      | (map, .ok event) =>
        return (map, { result := .ok .inserted, trace := { compared, events := [event] } })

def modify (map : Map σ α) (key : Key) (change : α → α) :
    Except Fault (Map σ α × Reply α (Option α)) := do
  let search ← map.find key
  let trace : Trace α := { compared := search.compared }
  match search.slot with
  | none => return (map, { result := none, trace })
  | some slot =>
    let value := change (← map.arena.node slot).value
    let arena ← map.arena.setValue slot value
    return ({ map with arena }, { result := some value, trace })

def remove (map : Map σ α) (key : Key) : Except Fault (Map σ α × Reply α (Removal α)) := do
  if map.Searchable key then
    let splice ← map.arena.splice map.order map.maxHeight.levels key
    let compared := splice.compared
    match splice.slot with
    | none => return (map, { result := .notFound, trace := { compared } })
    | some slot =>
      let (arena, node) ← map.arena.unlink splice.path slot
      let len := map.len - 1
      return ({ map with arena, len },
        { result := .removed node.value
          trace := { compared, events := [.unspliced slot node.height len] } })
  else return (map, { result := .notFound })

/-- Removes the entry with that key, drops its value and says whether there was one. -/
def erase (map : Map σ α) (key : Key) : Except Fault (Map σ α × Reply α Bool) := do
  let (map, reply) ← map.remove key
  return (map,
    { result := reply.result.isRemoved
      trace := { reply.trace with dropped := reply.trace.dropped ++ reply.result.value?.toList } })

def drain (map : Map σ α) : Except Fault (Map σ α × List α) := do
  let (arena, values) ← map.arena.drain
  return ({ map with arena, len := 0 }, values)

def clear (map : Map σ α) : Except Fault (Map σ α × Reply α Unit) := do
  let (map, values) ← map.drain
  return (map, { result := (), trace := { dropped := values } })

def takeValues (map : Map σ α) : Except Fault (List α) :=
  return (← map.drain).2

/-- Gives the map up and drops the values in the order of their slots. -/
def discard (map : Map σ α) : Reply α Unit :=
  { result := (), trace := { dropped := map.arena.storedValues } }

end Map

end SkipList
