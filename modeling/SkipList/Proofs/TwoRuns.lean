import SkipList.Draws.Source
import SkipList.Proofs.Frame
import SkipList.Proofs.Safety
import SkipList.Proofs.Twins

/-!
# Two runs

The same commands to two maps that are built alike but for their heights and their sources. All that can
be seen of the runs is the same, except for the heights and the comparisons.
-/

namespace SkipList

open Entry

variable {σ τ α : Type}

/-- A command to the only map of a session, or to a cursor on it. The text of a cursor is left out: it
shows the id of its map. -/
inductive Use (α : Type) where
  | change (change : Change α)
  | query (query : Query α)
  | insertAll (series : Progression) (value : Nat → α) (memory : Memory := {})
  | removeAll (series : Progression)
  | takeValues
  | discard
  | begin
  | call (cursor : Nat) (call : Cursor.Call)
  | copyCursor (cursor : Nat)
  | sameCursor (cursor other : Nat)
  | isExhausted (cursor : Nat)

def Use.command : Use α → Command σ α
  | .change made => .change 0 made
  | .query asked => .query 0 asked
  | .insertAll series value memory => .insertAll 0 series value memory
  | .removeAll series => .removeAll 0 series
  | .takeValues => .takeValues 0
  | .discard => .discard 0
  | .begin => .begin 0
  | .call cursor made => .call 0 cursor made
  | .copyCursor cursor => .copyCursor cursor
  | .sameCursor cursor other => .sameCursor cursor other
  | .isExhausted cursor => .isExhausted cursor

def Session.hosting (map : Map σ α) : Session σ α := { maps := [some map], nextId := map.id + 1 }

theorem Trace.bare_append (trace more : Trace α) : (trace ++ more).bare = trace.bare ++ more.bare := by
  change ({ dropped := trace.dropped ++ more.dropped,
            events := (trace.events ++ more.events).map Event.bare } : Trace α) = _
  rw [List.map_append]
  rfl

theorem Session.withMap_of_hosted {session : Session σ α} {map : Map σ α}
    (hosted : session.maps = [some map]) (use : Map σ α → Except Fault (Session σ α × Response α)) :
    session.withMap 0 use = use map := by
  unfold Session.withMap Session.map?
  rw [hosted]
  rfl

theorem Session.withMap_of_gone {session : Session σ α} (gone : session.maps = [none])
    (use : Map σ α → Except Fault (Session σ α × Response α)) :
    session.withMap 0 use = .ok (session, { result := .error .noMap }) := by
  unfold Session.withMap Session.map?
  rw [gone]
  rfl

theorem Session.maps_setMap {session : Session σ α} {only : Option (Map σ α)}
    (hosted : session.maps = [only]) (next : Map σ α) : (session.setMap 0 next).maps = [some next] := by
  rw [Session.setMap, hosted, List.set_cons_zero]

theorem Session.maps_dropMap {session : Session σ α} {only : Option (Map σ α)}
    (hosted : session.maps = [only]) : (session.dropMap 0).maps = [none] := by
  rw [Session.dropMap, hosted, List.set_cons_zero]

variable [DrawSource σ] [DrawSource τ]

namespace Map

variable {start a : Map σ α} {start' b : Map τ α}

/-! ### Series -/

theorem Pair.insertAt_ok (pair : Pair start start' a b) (memory : Memory) (series : Progression)
    (value : Nat → α) (places : List Nat) :
    ∃ a' b' reply reply', insertAt memory series value a places = .ok (a', reply) ∧
      insertAt memory series value b places = .ok (b', reply') ∧ Pair start start' a' b' ∧
      reply'.result = reply.result ∧ reply'.trace.bare = reply.trace.bare := by
  induction places generalizing a b with
  | nil => exact ⟨a, b, _, _, rfl, rfl, pair, rfl, rfl⟩
  | cons place places ih =>
    obtain ⟨mid, mid', reply, reply', inserted, inserted', pair', result, trace⟩ :=
      pair.insert_ok memory (series.key a.keySize place) (value place)
    obtain ⟨last, last', more, more', further, further', pair'', results, traces⟩ := ih pair'
    simp only [insertAt, pair.keySize, inserted, inserted', ok_bind, further, further', result, results,
      pure_eq_ok]
    refine ⟨last, last', _, _, rfl, rfl, pair'', rfl, ?_⟩
    rw [Trace.bare_append, Trace.bare_append, trace, traces]

theorem Pair.removeAt_ok (pair : Pair start start' a b) (series : Progression) (places : List Nat) :
    ∃ a' b' reply reply', removeAt series a places = .ok (a', reply) ∧
      removeAt series b places = .ok (b', reply') ∧ Pair start start' a' b' ∧
      reply'.result = reply.result ∧ reply'.trace.bare = reply.trace.bare := by
  induction places generalizing a b with
  | nil => exact ⟨a, b, _, _, rfl, rfl, pair, rfl, rfl⟩
  | cons place places ih =>
    obtain ⟨mid, mid', reply, reply', removed, removed', pair', result, trace⟩ :=
      pair.remove_ok (series.key a.keySize place)
    obtain ⟨last, last', more, more', further, further', pair'', results, traces⟩ := ih pair'
    simp only [removeAt, pair.keySize, removed, removed', ok_bind, further, further', result, results,
      pure_eq_ok]
    refine ⟨last, last', _, _, rfl, rfl, pair'', rfl, ?_⟩
    rw [Trace.bare_append, Trace.bare_append, trace, traces]

end Map

namespace Session

variable {start : Map σ α} {start' : Map τ α} {first : Session σ α} {second : Session τ α}

/-! ### Steps -/

/-- The sessions have come equally far: their maps are twins, or both are gone, and their cursors are at
the same positions. -/
structure Abreast (start : Map σ α) (start' : Map τ α) (first : Session σ α) (second : Session τ α) :
    Prop where
  maps : (∃ a b, first.maps = [some a] ∧ second.maps = [some b] ∧ Map.Pair start start' a b) ∨
    first.maps = [none] ∧ second.maps = [none]
  cursors : ∃ positions : List Position, first.cursors = positions.map (Cursor.mk start.id) ∧
    second.cursors = positions.map (Cursor.mk start'.id)

def Together (start : Map σ α) (start' : Map τ α) (outcome : Except Fault (Session σ α × Response α))
    (outcome' : Except Fault (Session τ α × Response α)) : Prop :=
  ∃ first second response response', outcome = .ok (first, response) ∧
    outcome' = .ok (second, response') ∧ Abreast start start' first second ∧
    response'.plain = response.plain

theorem Abreast.withMap (abreast : Abreast start start' first second)
    {use : Map σ α → Except Fault (Session σ α × Response α)}
    {use' : Map τ α → Except Fault (Session τ α × Response α)}
    (together : ∀ a b, first.maps = [some a] → second.maps = [some b] → Map.Pair start start' a b →
      Together start start' (use a) (use' b)) :
    Together start start' (first.withMap 0 use) (second.withMap 0 use') := by
  rcases abreast.maps with ⟨a, b, maps, maps', pair⟩ | ⟨gone, gone'⟩
  · rw [withMap_of_hosted maps, withMap_of_hosted maps']
    exact together a b maps maps' pair
  · rw [withMap_of_gone gone, withMap_of_gone gone']
    exact ⟨first, second, _, _, rfl, rfl, abreast, rfl⟩

theorem Abreast.withCursor (abreast : Abreast start start' first second) (number : Nat)
    {use : Cursor → Except Fault (Session σ α × Response α)}
    {use' : Cursor → Except Fault (Session τ α × Response α)}
    (together : ∀ position : Position, Together start start' (use ⟨start.id, position⟩)
      (use' ⟨start'.id, position⟩)) :
    Together start start' (first.withCursor number use) (second.withCursor number use') := by
  obtain ⟨positions, cursors, cursors'⟩ := abreast.cursors
  unfold Session.withCursor
  rw [cursors, cursors', List.getElem?_map, List.getElem?_map]
  cases positions[number]? with
  | none => exact ⟨first, second, _, _, rfl, rfl, abreast, rfl⟩
  | some position => exact together position

theorem Abreast.setMap (abreast : Abreast start start' first second) {a a' : Map σ α} {b b' : Map τ α}
    (maps : first.maps = [some a]) (maps' : second.maps = [some b]) (pair : Map.Pair start start' a' b') :
    Abreast start start' (first.setMap 0 a') (second.setMap 0 b') := by
  refine { maps := Or.inl ⟨a', b', ?_, ?_, pair⟩, cursors := abreast.cursors }
  · exact maps_setMap maps _
  · exact maps_setMap maps' _

theorem Abreast.dropMap (abreast : Abreast start start' first second) {a : Map σ α} {b : Map τ α}
    (maps : first.maps = [some a]) (maps' : second.maps = [some b]) :
    Abreast start start' (first.dropMap 0) (second.dropMap 0) := by
  refine { maps := Or.inr ⟨?_, ?_⟩, cursors := abreast.cursors }
  · exact maps_dropMap maps
  · exact maps_dropMap maps'

theorem Abreast.addCursor (abreast : Abreast start start' first second) (position : Position) :
    Abreast start start' (first.addCursor ⟨start.id, position⟩)
      (second.addCursor ⟨start'.id, position⟩) := by
  obtain ⟨positions, cursors, cursors'⟩ := abreast.cursors
  refine { maps := abreast.maps, cursors := ⟨positions ++ [position], ?_, ?_⟩ }
  · simp only [Session.addCursor, cursors, List.map_append, List.map_cons, List.map_nil]
  · simp only [Session.addCursor, cursors', List.map_append, List.map_cons, List.map_nil]

theorem Abreast.setCursor (abreast : Abreast start start' first second) (number : Nat)
    (position : Position) : Abreast start start' (first.setCursor number ⟨start.id, position⟩)
      (second.setCursor number ⟨start'.id, position⟩) := by
  obtain ⟨positions, cursors, cursors'⟩ := abreast.cursors
  refine { maps := abreast.maps, cursors := ⟨positions.set number position, ?_, ?_⟩ }
  · simp only [Session.setCursor, cursors, List.map_set]
  · simp only [Session.setCursor, cursors', List.map_set]

theorem Abreast.number (abreast : Abreast start start' first second) :
    second.cursors.length = first.cursors.length := by
  obtain ⟨positions, cursors, cursors'⟩ := abreast.cursors
  rw [cursors, cursors', List.length_map, List.length_map]

omit [DrawSource σ] [DrawSource τ] in
theorem plain_of {ε : Type} {reply reply' : Reply α (Except ε (Answer α))}
    (result : reply'.result = reply.result) (trace : reply'.trace.bare = reply.trace.bare) :
    reply'.plain = reply.plain := by
  simp only [Reply.plain, Reply.map, Reply.bare, result, trace]

omit [DrawSource σ] [DrawSource τ] in
theorem plain_mapError {ε δ : Type} (f : ε → δ) (reply : Reply α (Except ε (Answer α))) :
    (reply.map (Except.mapError f)).plain = reply.plain.map (Except.mapError f) := by
  obtain ⟨result, trace⟩ := reply
  cases result <;> rfl

theorem Abreast.step (abreast : Abreast start start' first second) {use : Use α}
    (not_height : use ≠ .query .height) :
    Together start start' (first.step use.command) (second.step use.command) := by
  cases use with
  | change change =>
    refine abreast.withMap fun a b maps maps' pair => ?_
    obtain ⟨a', b', reply, reply', made, made', pair', same⟩ := pair.apply_ok change
    obtain ⟨result, trace⟩ := Reply.mk.inj same
    refine ⟨_, _, _, _, by rw [made]; rfl, by rw [made']; rfl, abreast.setMap maps maps' pair', ?_⟩
    exact plain_of (congrArg (Except.mapError Refusal.error) result) trace
  | query query =>
    refine abreast.withMap fun a b maps maps' pair => ?_
    obtain ⟨reply, reply', answered, answered', result, trace⟩ :=
      pair.answer_ok fun height => not_height (congrArg Use.query height)
    refine ⟨_, _, _, _, by rw [answered]; rfl, by rw [answered']; rfl, abreast, ?_⟩
    exact plain_of (congrArg Except.ok result) trace
  | insertAll series value memory =>
    refine abreast.withMap fun a b maps maps' pair => ?_
    obtain ⟨a', b', reply, reply', made, made', pair', result, trace⟩ :=
      pair.insertAt_ok memory series value series.places
    refine ⟨_, _, _, _, by rw [Map.insertAll, made]; rfl, by rw [Map.insertAll, made']; rfl,
      abreast.setMap maps maps' pair', plain_of ?_ trace⟩
    simp only [Reply.map, result]
  | removeAll series =>
    refine abreast.withMap fun a b maps maps' pair => ?_
    obtain ⟨a', b', reply, reply', made, made', pair', result, trace⟩ :=
      pair.removeAt_ok series series.places
    refine ⟨_, _, _, _, by rw [Map.removeAll, made]; rfl, by rw [Map.removeAll, made']; rfl,
      abreast.setMap maps maps' pair', plain_of ?_ trace⟩
    simp only [Reply.map, result]
  | takeValues =>
    refine abreast.withMap fun a b maps maps' pair => ?_
    obtain ⟨values, taken, taken'⟩ := pair.takeValues_ok
    exact ⟨_, _, _, _, by rw [taken]; rfl, by rw [taken']; rfl, abreast.dropMap maps maps', rfl⟩
  | discard =>
    refine abreast.withMap fun a b maps maps' pair => ?_
    refine ⟨_, _, _, _, rfl, rfl, abreast.dropMap maps maps', ?_⟩
    rw [pair.discard_eq]
  | begin =>
    refine abreast.withMap fun a b maps maps' pair => ?_
    obtain ⟨position, begun, begun'⟩ := pair.begin_ok
    refine ⟨_, _, _, _, by rw [begun]; rfl, by rw [begun']; rfl, abreast.addCursor position, ?_⟩
    rw [abreast.number]
    rfl
  | call number call =>
    refine abreast.withMap fun a b maps maps' pair => abreast.withCursor number fun position => ?_
    obtain ⟨next, reply, reply', called, called', same⟩ := pair.call_ok position call
    refine ⟨_, _, _, _, by rw [called]; rfl, by rw [called']; rfl, abreast.setCursor number next, ?_⟩
    rw [plain_mapError, plain_mapError, same]
  | copyCursor number =>
    refine abreast.withCursor number fun position => ?_
    refine ⟨_, _, _, _, rfl, rfl, abreast.addCursor position, ?_⟩
    rw [abreast.number]
  | sameCursor number other =>
    refine abreast.withCursor number fun position => abreast.withCursor other fun position' => ?_
    have same : (Cursor.mk start'.id position == ⟨start'.id, position'⟩) =
        (Cursor.mk start.id position == ⟨start.id, position'⟩) := by
      simp [BEq.beq]
    refine ⟨first, second, _, _, rfl, rfl, abreast, ?_⟩
    rw [same]
  | isExhausted number =>
    refine abreast.withCursor number fun position => ?_
    exact ⟨first, second, _, _, rfl, rfl, abreast, rfl⟩

theorem Abreast.run (abreast : Abreast start start' first second) {uses : List (Use α)}
    (not_height : .query .height ∉ uses) :
    ∃ last last' responses responses', first.run (uses.map Use.command) = .ok (last, responses) ∧
      second.run (uses.map Use.command) = .ok (last', responses') ∧ Abreast start start' last last' ∧
      responses'.map Reply.plain = responses.map Reply.plain := by
  induction uses generalizing first second with
  | nil => exact ⟨first, second, [], [], rfl, rfl, abreast, rfl⟩
  | cons use uses ih =>
    obtain ⟨here, later⟩ := not_or.mp fun listed => not_height (List.mem_cons.mpr listed)
    obtain ⟨next, next', response, response', stepped, stepped', abreast', same⟩ :=
      abreast.step (Ne.symm here)
    obtain ⟨last, last', responses, responses', run, run', abreast'', all_same⟩ := ih abreast' later
    refine ⟨last, last', response :: responses, response' :: responses', run_of_step stepped run,
      run_of_step stepped' run', abreast'', ?_⟩
    rw [List.map_cons, List.map_cons, same, all_same]

theorem abreast_of_build {memory memory' : Memory} {blueprint blueprint' : Blueprint} {source : σ}
    {source' : τ} {id id' : Nat} {start : Map σ α} {start' : Map τ α}
    (built : Map.build memory blueprint source id = .ok start)
    (built' : Map.build memory' blueprint' source' id' = .ok start')
    (size : blueprint'.config.keySize = blueprint.config.keySize)
    (capacity : blueprint'.config.capacity = blueprint.config.capacity)
    (order : blueprint'.order = blueprint.order)
    (lawful : blueprint.order.IsTotalPreorder blueprint.config.keySize) :
    Abreast start start' (hosting start) (hosting start') := by
  obtain ⟨_, _, key_size, key_order⟩ := Map.build_holds built
  obtain ⟨_, _, key_size', key_order'⟩ := Map.build_holds built'
  have first := Map.build_ordered built (by rw [key_order, key_size]; exact lawful)
  have second := Map.build_ordered built' (by rw [key_order', key_size', order, size]; exact lawful)
  rw [capacity] at second
  have twins : Map.Twins start _ start' _ :=
    { first, second, order := by rw [key_order', key_order, order],
      size := by rw [key_size', key_size, size], bare := rfl }
  exact
    { maps := Or.inl ⟨start, start', rfl, rfl,
        { twins := ⟨_, _, twins⟩, draws := ⟨0, rfl, rfl⟩, ids := ⟨rfl, rfl⟩ }⟩,
      cursors := ⟨[], rfl, rfl⟩ }

/-- Two maps are built with the same key size, the same capacity and the same order, a total preorder, but
with any heights and any sources. The same commands to both get the same responses, but for comparisons,
heights and the ids of the maps, and leave the cursors at the same positions. Afterwards both maps are
gone, or they have the same entries in the same slots with the same generations, and as many draws were
taken from both sources. -/
theorem run_hides_heights {memory memory' : Memory} {blueprint blueprint' : Blueprint} {source : σ}
    {source' : τ} {id id' : Nat} {start : Map σ α} {start' : Map τ α}
    (built : Map.build memory blueprint source id = .ok start)
    (built' : Map.build memory' blueprint' source' id' = .ok start')
    (size : blueprint'.config.keySize = blueprint.config.keySize)
    (capacity : blueprint'.config.capacity = blueprint.config.capacity)
    (order : blueprint'.order = blueprint.order)
    (lawful : blueprint.order.IsTotalPreorder blueprint.config.keySize) {uses : List (Use α)}
    (not_height : .query .height ∉ uses) :
    ∃ first second responses responses',
      (hosting start).run (uses.map Use.command) = .ok (first, responses) ∧
      (hosting start').run (uses.map Use.command) = .ok (second, responses') ∧
      responses'.map Reply.plain = responses.map Reply.plain ∧
      second.cursors.map (·.position) = first.cursors.map (·.position) ∧
      ((first.map? 0 = none ∧ second.map? 0 = none) ∨ ∃ a b, first.map? 0 = some a ∧
        second.map? 0 = some b ∧ b.len = a.len ∧
        (∃ entries entries', a.Lists entries ∧ b.Lists entries' ∧
          entries'.map Entry.bare = entries.map Entry.bare) ∧
        ∃ draws, a.source = DrawSource.skip draws source ∧ b.source = DrawSource.skip draws source') := by
  have abreast := abreast_of_build built built' size capacity order lawful
  obtain ⟨first, second, responses, responses', run, run', ⟨maps, cursors⟩, same⟩ :=
    abreast.run not_height
  refine ⟨first, second, responses, responses', run, run', same, ?_, ?_⟩
  · obtain ⟨positions, here, there⟩ := cursors
    rw [here, there, List.map_map, List.map_map]
    rfl
  · unfold Session.map?
    rcases maps with ⟨a, b, here, there, pair⟩ | ⟨gone, gone'⟩
    · rw [here, there]
      obtain ⟨layout, layout', twins⟩ := pair.twins
      refine Or.inr ⟨a, b, rfl, rfl, twins.len, ⟨_, _, twins.first.lists, twins.second.lists,
        twins.entries_bare⟩, ?_⟩
      rw [← Map.build_source built, ← Map.build_source built']
      exact pair.draws
    · rw [gone, gone']
      exact Or.inl ⟨rfl, rfl⟩

def trial : List (Use Nat) :=
  [.change (.insert [2] 20 {}), .change (.insert [1] 10 { refuseAt := 2 }), .change (.insert [1] 10 {}),
    .begin, .call 0 .increment, .change (.remove [2]), .call 0 .value, .query .located]

/-- A map of one level and one of as many as there can be. -/
theorem run_hides_heights_extremes :
    ∃ (start start' : Map Script Nat) (first second : Session Script Nat)
        (responses responses' : List (Response Nat)),
      Map.build {} { config := { keySize := 1, maxHeight := .least } } { values := [] } 0 = .ok start ∧
      Map.build {} { config := { keySize := 1, maxHeight := .greatest } } { values := [0] } 7 = .ok start' ∧
      KeyOrder.ascend.IsTotalPreorder 1 ∧
      (hosting start).run (trial.map Use.command) = .ok (first, responses) ∧
      (hosting start').run (trial.map Use.command) = .ok (second, responses') ∧
      responses'.map Reply.plain = responses.map Reply.plain := by
  have built : (Map.build {} { config := { keySize := 1, maxHeight := .least } } { values := [] } 0 :
      Except Error (Map Script Nat)) = .ok _ := rfl
  have built' : (Map.build {} { config := { keySize := 1, maxHeight := .greatest } } { values := [0] } 7 :
      Except Error (Map Script Nat)) = .ok _ := rfl
  have lawful := KeyOrder.isTotalPreorder_ascend 1
  have not_height : Use.query .height ∉ trial := by simp [trial]
  obtain ⟨first, second, responses, responses', run, run', same, _⟩ :=
    run_hides_heights built built' rfl rfl rfl lawful not_height
  exact ⟨_, _, first, second, responses, responses', built, built', lawful, run, run', same⟩

end Session

end SkipList
