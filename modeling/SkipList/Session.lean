import SkipList.Calls

/-!
# Sessions

A session holds any number of maps and cursors and numbers both from zero. A map that could not be
built or was given up keeps its number; map ids count only the maps that were built.
-/

namespace SkipList

/-! ### Series of keys -/

/-- The numbers `start`, `start + step`, and so on, `count` in all; with a modulus each is reduced
to its least remainder. -/
structure Progression where
  start : Int := 0
  step : Int := 1
  count : Nat
  modulus : Option Int := none
deriving DecidableEq

namespace Progression

def number (series : Progression) (place : Nat) : Int :=
  let n := series.start + series.step * place
  match series.modulus with
  | none => n
  | some modulus => n % modulus

/-- The key at one place: the number in 64-bit two's complement, the most significant byte first. -/
def key (series : Progression) (size place : Nat) : Key :=
  Key.bigEndian size (series.number place % 0x10000000000000000).toNat

def places (series : Progression) : List Nat := List.range series.count

end Progression

namespace Map

variable {σ α : Type}

/-- Inserts the keys at the given places of a progression, and counts the new keys and the known
ones. -/
def insertAt [DrawSource σ] (memory : Memory) (series : Progression) (value : Nat → α) :
    Map σ α → List Nat → Except Fault (Map σ α × Reply α (Nat × Nat))
  | map, [] => return (map, { result := (0, 0) })
  | map, place :: places => do
    let (map, reply) ← map.insert memory (series.key map.keySize place) (value place)
    let (map, more) ← insertAt memory series value map places
    let (inserted, updated) := more.result
    let result := match reply.result with
      | .ok .inserted => (inserted + 1, updated)
      | .ok (.updated _) => (inserted, updated + 1)
      | .error _ => (inserted, updated)
    return (map, { result, trace := reply.trace ++ more.trace })

def insertAll [DrawSource σ] (map : Map σ α) (memory : Memory) (series : Progression)
    (value : Nat → α) : Except Fault (Map σ α × Reply α (Nat × Nat)) :=
  insertAt memory series value map series.places

def removeAt (series : Progression) :
    Map σ α → List Nat → Except Fault (Map σ α × Reply α (Nat × Nat))
  | map, [] => return (map, { result := (0, 0) })
  | map, place :: places => do
    let (map, reply) ← map.remove (series.key map.keySize place)
    let (map, more) ← removeAt series map places
    let (removed, missing) := more.result
    let result := if reply.result.isRemoved then (removed + 1, missing) else (removed, missing + 1)
    return (map, { result, trace := reply.trace ++ more.trace })

def removeAll (map : Map σ α) (series : Progression) :
    Except Fault (Map σ α × Reply α (Nat × Nat)) :=
  removeAt series map series.places

end Map

/-! ### Commands -/

structure BuildRequest (σ : Type) where
  settings : List Setting
  /-- Whether the map takes only its key size from the settings, which are checked all the same. -/
  keySizeOnly : Bool := false
  order : KeyOrder
  source : Config → Except Error σ
  memory : Memory := {}

inductive Refusal where
  | height (error : HeightError)
  | error (error : Error)
  | noMap
  | noCursor
deriving DecidableEq

inductive Command (σ α : Type) where
  | build (request : BuildRequest σ)
  | change (map : Nat) (change : Change α)
  | query (map : Nat) (query : Query α)
  | insertAll (map : Nat) (series : Progression) (value : Nat → α) (memory : Memory := {})
  | removeAll (map : Nat) (series : Progression)
  | takeValues (map : Nat)
  | discard (map : Nat)
  | begin (map : Nat)
  | call (map cursor : Nat) (call : Cursor.Call)
  | copyCursor (cursor : Nat)
  | sameCursor (cursor other : Nat)
  | isExhausted (cursor : Nat)
  | cursorText (cursor : Nat)

/-- Maps, cursors, and the id of the next map. -/
structure Session (σ α : Type) where
  maps : List (Option (Map σ α)) := []
  cursors : List Cursor := []
  nextId : Nat := 0

namespace Session

variable {σ α : Type}

abbrev Response (α : Type) := Reply α (Except Refusal (Answer α))

def map? (session : Session σ α) (index : Nat) : Option (Map σ α) :=
  session.maps[index]?.join

def setMap (session : Session σ α) (index : Nat) (map : Map σ α) : Session σ α :=
  { session with maps := session.maps.set index (some map) }

def dropMap (session : Session σ α) (index : Nat) : Session σ α :=
  { session with maps := session.maps.set index none }

/-- The session with one more map, or with a number for the map that was not built. -/
def addMap (session : Session σ α) (map : Option (Map σ α)) : Session σ α :=
  { session with maps := session.maps ++ [map] }

def setCursor (session : Session σ α) (index : Nat) (cursor : Cursor) : Session σ α :=
  { session with cursors := session.cursors.set index cursor }

def addCursor (session : Session σ α) (cursor : Cursor) : Session σ α :=
  { session with cursors := session.cursors ++ [cursor] }

def buildMap (request : BuildRequest σ) (id : Nat) : Except Refusal (Map σ α) := do
  let config ← (({} : Config).setAll request.settings).mapError .height
  let config : Config := if request.keySizeOnly then { keySize := config.keySize } else config
  let source ← (request.source config).mapError .error
  (Map.build request.memory { config, order := request.order } source id).mapError .error

/-- Builds a map and gives it the next number, and the next id if it could be built. -/
def build (session : Session σ α) (request : BuildRequest σ) : Session σ α × Response α :=
  match buildMap request session.nextId with
  | .error refusal => (session.addMap none, { result := .error refusal })
  | .ok map =>
    ({ session.addMap (some map) with nextId := session.nextId + 1 },
      { result := .ok (.built session.maps.length map.maxHeight map.keySize) })

def withMap (session : Session σ α) (index : Nat)
    (use : Map σ α → Except Fault (Session σ α × Response α)) :
    Except Fault (Session σ α × Response α) :=
  match session.map? index with
  | none => return (session, { result := .error .noMap })
  | some map => use map

def withCursor (session : Session σ α) (index : Nat)
    (use : Cursor → Except Fault (Session σ α × Response α)) :
    Except Fault (Session σ α × Response α) :=
  match session.cursors[index]? with
  | none => return (session, { result := .error .noCursor })
  | some cursor => use cursor

def step [DrawSource σ] (session : Session σ α) :
    Command σ α → Except Fault (Session σ α × Response α)
  | .build request => return session.build request
  | .change index change => session.withMap index fun map => do
    let (map, reply) ← map.apply change
    return (session.setMap index map, reply.map (Except.mapError .error))
  | .query index query => session.withMap index fun map => do
    return (session, (← map.answer query).map .ok)
  | .insertAll index series value memory => session.withMap index fun map => do
    let (map, reply) ← map.insertAll memory series value
    return (session.setMap index map,
      reply.map fun (inserted, updated) => .ok (.insertedAll inserted updated))
  | .removeAll index series => session.withMap index fun map => do
    let (map, reply) ← map.removeAll series
    return (session.setMap index map,
      reply.map fun (removed, missing) => .ok (.removedAll removed missing))
  | .takeValues index => session.withMap index fun map => do
    return (session.dropMap index, { result := .ok (.values (← map.takeValues)) })
  | .discard index => session.withMap index fun map =>
    return (session.dropMap index, map.discard.map fun () => .ok .done)
  | .begin index => session.withMap index fun map => do
    let cursor ← map.begin
    return (session.addCursor cursor, { result := .ok (.begun session.cursors.length cursor) })
  | .call index number call => session.withMap index fun map =>
    session.withCursor number fun cursor => do
      let (cursor, reply) ← cursor.call map call
      return (session.setCursor number cursor, reply.map (Except.mapError .error))
  | .copyCursor number => session.withCursor number fun cursor =>
    return (session.addCursor cursor, { result := .ok (.copied session.cursors.length) })
  | .sameCursor number other => session.withCursor number fun cursor =>
    session.withCursor other fun second =>
      return (session, { result := .ok (.flag (cursor == second)) })
  | .isExhausted number => session.withCursor number fun cursor =>
    return (session, { result := .ok (.flag cursor.isExhausted) })
  | .cursorText number => session.withCursor number fun cursor =>
    return (session, { result := .ok (.text cursor.debugText) })

def run [DrawSource σ] (session : Session σ α) :
    List (Command σ α) → Except Fault (Session σ α × List (Response α))
  | [] => return (session, [])
  | command :: commands => do
    let (session, reply) ← session.step command
    let (session, replies) ← session.run commands
    return (session, reply :: replies)

end Session

end SkipList
