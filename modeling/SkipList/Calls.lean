import SkipList.Cursor

/-!
# Calls and answers

The calls on maps and through cursors as data, with what they hand back as one type. A list of changes is a
history, and every map is a new map with a history.
-/

namespace SkipList

inductive Answer (α : Type) where
  | done
  | inserted (outcome : Insertion α)
  | removed (outcome : Removal α)
  | flag (value : Bool)
  | number (value : Nat)
  | text (value : String)
  | key (value : Option Key)
  | value (value : Option α)
  | entry (value : Option (Key × α))
  | keys (keys : List Key)
  | values (values : List α)
  | entries (entries : List (Key × α))
  | located (entries : List (Nat × Key × α))
  | traversed (view : View) (answers : List (Traversal.StepAnswer α))
  | insertedAll (inserted updated : Nat)
  | removedAll (removed missing : Nat)
  | satisfied (value : Option Bool)
  | moved (cursor : Cursor)
  | walked (entries : List (Key × α)) (refusal : Option Error)
  | built (index : Nat) (height : Height) (keySize : Nat)
  | begun (index : Nat) (cursor : Cursor)
  | copied (index : Nat)
deriving DecidableEq

/-! ### Calls through a cursor -/

namespace Cursor

inductive Call where
  | key
  | value
  | entry
  | peekNext
  | increment
  | seek (key : Key)
  | satisfies (predicate : Key → Bool)
  | isValid
  | walk

variable {σ α : Type}

def staying {β : Type} (cursor : Cursor) (answer : β → Answer α) (reply : Reply α (Except Error β)) :
    Cursor × Reply α (Except Error (Answer α)) :=
  (cursor, reply.map (Except.map answer))

/-- A cursor that moves unless it is refused. -/
def moving (cursor : Cursor) (reply : Reply α (Except Error Cursor)) :
    Cursor × Reply α (Except Error (Answer α)) :=
  (match reply.result with
    | .error _ => cursor
    | .ok next => next,
   reply.map (Except.map Answer.moved))

def call (cursor : Cursor) (map : Map σ α) :
    Call → Except Fault (Cursor × Reply α (Except Error (Answer α)))
  | .key => return cursor.staying .key (← cursor.key map)
  | .value => return cursor.staying .value (← cursor.value map)
  | .entry => return cursor.staying .entry (← cursor.entry map)
  | .peekNext => return cursor.staying .key (← cursor.peekNext map)
  | .increment => return cursor.moving (← cursor.increment map)
  | .seek key => return cursor.moving (← cursor.seek map key)
  | .satisfies predicate => return cursor.staying .satisfied (← cursor.satisfies map predicate)
  | .isValid => return (cursor, (cursor.isValid map).map fun valid => .ok (.flag valid))
  | .walk => do
    let reply ← cursor.walk map
    return (reply.result.cursor, reply.map fun walk => .ok (.walked walk.entries walk.refusal))

end Cursor

/-! ### Queries -/

inductive Query (α : Type) where
  | get (key : Key)
  | contains (key : Key)
  | getEntry (key : Key)
  | len
  | isEmpty
  | height
  | keySize
  | order
  | first
  | firstValue
  | last
  | keys
  | values
  | entries
  | located
  | debugText (text : α → String)
  | debugLines (text : α → String)
  | traverse (view : View) (steps : List Traversal.Step)
  | traverseFrom (key : Key) (steps : List Traversal.Step)

namespace Map

variable {σ α : Type}

def answer (map : Map σ α) : Query α → Except Fault (Reply α (Answer α))
  | .get key => return (← map.get? key).map .value
  | .contains key => return (← map.contains key).map .flag
  | .getEntry key => return (← map.getEntry? key).map .entry
  | .len => return { result := .number map.len }
  | .isEmpty => return { result := .flag map.isEmpty }
  | .height => return { result := .number map.maxHeight.levels }
  | .keySize => return { result := .number map.keySize }
  | .order => return { result := .text map.order.label }
  | .first => return { result := .entry (← map.first?) }
  | .firstValue => return { result := .value (← map.firstValue?) }
  | .last => return { result := .entry (← map.last?) }
  | .keys => return { result := .keys (← map.keys) }
  | .values => return { result := .values (← map.values) }
  | .entries => return { result := .entries (← map.toList) }
  | .located => return { result := .located (← map.located) }
  | .debugText text => return { result := .text (← map.debugText text) }
  | .debugLines text => return { result := .text (← map.debugLines text) }
  | .traverse view steps => do
    let start ← map.traverse
    return { result := .traversed view (← start.run view start steps) }
  | .traverseFrom key steps => do
    let reply ← map.traverseFrom key
    let start := reply.result
    return { result := .traversed .entries (← start.run .entries start steps), trace := reply.trace }

end Map

/-! ### Changes -/

inductive Change (α : Type) where
  | insert (key : Key) (value : α) (memory : Memory)
  | remove (key : Key)
  | erase (key : Key)
  | modify (key : Key) (change : α → α)
  | clear

namespace Map

variable {σ α : Type}

def apply [DrawSource σ] (map : Map σ α) :
    Change α → Except Fault (Map σ α × Reply α (Except Error (Answer α)))
  | .insert key value memory => do
    let (map, reply) ← map.insert memory key value
    return (map, reply.map (Except.map Answer.inserted))
  | .remove key => do
    let (map, reply) ← map.remove key
    return (map, reply.map fun outcome => .ok (.removed outcome))
  | .erase key => do
    let (map, reply) ← map.erase key
    return (map, reply.map fun there => .ok (.flag there))
  | .modify key change => do
    let (map, reply) ← map.modify key change
    return (map, reply.map fun value => .ok (.value value))
  | .clear => do
    let (map, reply) ← map.clear
    return (map, reply.map fun () => .ok .done)

def applyAll [DrawSource σ] (map : Map σ α) :
    List (Change α) → Except Fault (Map σ α × List (Reply α (Except Error (Answer α))))
  | [] => return (map, [])
  | change :: changes => do
    let (map, reply) ← map.apply change
    let (map, replies) ← map.applyAll changes
    return (map, reply :: replies)

end Map

end SkipList
