import SkipList.Traversal

/-!
# Cursors

A cursor remembers a node by its identity and the map that the node belongs to. It stays on its
entry whatever happens to others; once that entry is removed, or when it is used with another map,
it is refused until it is sought again. A walk takes a cursor along the rest of the map and collects the
entries it stands on.
-/

namespace SkipList

inductive Position where
  | positioned (id : NodeId)
  | exhausted
deriving DecidableEq

/-- A place in the map with that id. -/
structure Cursor where
  map : Nat
  position : Position
deriving DecidableEq

namespace Map

variable {σ α : Type}

def positionOf (map : Map σ α) : Link → Except Fault Position
  | none => return .exhausted
  | some slot => return .positioned (← map.arena.id slot)

def begin (map : Map σ α) : Except Fault Cursor :=
  return { map := map.id, position := ← map.positionOf (← map.firstSlot) }

end Map

namespace Cursor

variable {σ α : Type}

def isExhausted (cursor : Cursor) : Bool :=
  cursor.position == .exhausted

/-- The slot of the cursor's node, or none if the cursor is exhausted. -/
def resolve (cursor : Cursor) (map : Map σ α) : Reply α (Except Error Link) :=
  if cursor.map ≠ map.id then { result := .error .invalidatedCursor }
  else match cursor.position with
    | .exhausted => { result := .ok none }
    | .positioned id =>
      match map.arena.resolve id with
      | some slot => { result := .ok (some slot) }
      | none =>
        { result := .error .invalidatedCursor, trace := { events := [.cursorRemoved id.index] } }

def withSlot {β : Type} (cursor : Cursor) (map : Map σ α) (use : Link → Except Fault β) :
    Except Fault (Reply α (Except Error β)) := do
  let reply := cursor.resolve map
  match reply.result with
  | .error error => return { result := .error error, trace := reply.trace }
  | .ok link => return { result := .ok (← use link), trace := reply.trace }

def entry (cursor : Cursor) (map : Map σ α) :
    Except Fault (Reply α (Except Error (Option (Key × α)))) :=
  cursor.withSlot map map.entryAt?

def key (cursor : Cursor) (map : Map σ α) : Except Fault (Reply α (Except Error (Option Key))) :=
  return (← cursor.entry map).map (Except.map (Option.map Prod.fst))

def value (cursor : Cursor) (map : Map σ α) : Except Fault (Reply α (Except Error (Option α))) :=
  return (← cursor.entry map).map (Except.map (Option.map Prod.snd))

def peekNext (cursor : Cursor) (map : Map σ α) :
    Except Fault (Reply α (Except Error (Option Key))) :=
  cursor.withSlot map fun
    | none => return none
    | some slot => do
      match ← map.arena.next slot 0 with
      | none => return none
      | some next => return some (← map.arena.key next)

def increment (cursor : Cursor) (map : Map σ α) : Except Fault (Reply α (Except Error Cursor)) :=
  cursor.withSlot map fun
    | none => return cursor
    | some slot => do
      return { cursor with position := ← map.positionOf (← map.arena.next slot 0) }

/-- Whether the predicate holds of the current key; an exhausted cursor has none to ask it of. -/
def satisfies (cursor : Cursor) (map : Map σ α) (predicate : Key → Bool) :
    Except Fault (Reply α (Except Error (Option Bool))) :=
  return (← cursor.key map).map (Except.map (Option.map predicate))

def holds (cursor : Cursor) (map : Map σ α) (predicate : Key → Bool) :
    Except Fault (Reply α (Except Error Bool)) :=
  return (← cursor.satisfies map predicate).map (Except.map (·.getD false))

def isValid (cursor : Cursor) (map : Map σ α) : Reply α Bool :=
  (cursor.resolve map).map fun result => match result with
    | .ok _ => true
    | .error _ => false

/-- The cursor moved to the first entry that does not come before the key. Only a cursor of another
map is refused. -/
def seek (cursor : Cursor) (map : Map σ α) (key : Key) :
    Except Fault (Reply α (Except Error Cursor)) := do
  if cursor.map ≠ map.id then return { result := .error .invalidatedCursor }
  else
    let search ← map.lowerBound key
    return {
      result := .ok { map := map.id, position := ← map.positionOf search.slot }
      trace := { compared := search.compared } }

def debugText (cursor : Cursor) : String :=
  let position := match cursor.position with
    | .exhausted => "Exhausted"
    | .positioned id =>
      Display.variant "Positioned" [Display.record "NodeId"
        [("index", toString id.index), ("generation", toString id.generation)]]
  Display.record "Cursor" [("map", toString cursor.map), ("state", position)]

/-! ### Walks -/

/-- The entries that a walk to the end passes, where it was refused if it was, and the cursor at its
end. -/
structure Walk (α : Type) where
  entries : List (Key × α)
  refusal : Option Error
  cursor : Cursor

def walkWithin (map : Map σ α) : (fuel : Nat) → Cursor → Except Fault (Reply α (Walk α))
  | 0, _ => .error .endless
  | fuel + 1, cursor => do
    let shown ← cursor.entry map
    match shown.result with
    | .error error =>
      return { result := { entries := [], refusal := some error, cursor }, trace := shown.trace }
    | .ok none =>
      return { result := { entries := [], refusal := none, cursor }, trace := shown.trace }
    | .ok (some entry) =>
      let moved ← cursor.increment map
      match moved.result with
      | .error error =>
        return {
          result := { entries := [entry], refusal := some error, cursor }
          trace := shown.trace ++ moved.trace }
      | .ok next =>
        let walk ← walkWithin map fuel next
        return {
          result := { walk.result with entries := entry :: walk.result.entries }
          trace := shown.trace ++ moved.trace ++ walk.trace }

def walk (cursor : Cursor) (map : Map σ α) : Except Fault (Reply α (Walk α)) :=
  walkWithin map (map.arena.slots.size + 1) cursor

end Cursor

end SkipList
