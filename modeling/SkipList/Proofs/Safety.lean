import SkipList.Proofs.Onward
import SkipList.Proofs.Run
import SkipList.Session

/-!
# Safety

No command of a session meets a fault, whatever the key orders, the heights, the draws and the refused
requests for memory: every map of a session holds a layout, and a map that holds one carries out every
call. Faults are raised in the middle of a call too, so this covers the arenas within an insertion, a
removal and a clearing.
-/

namespace SkipList

open Entry

variable {σ α : Type}

namespace Arena

/-- The predecessors that a search recorded reach above their levels, and on every level of the node that
was found they lead to it. -/
structure Guides (arena : Arena α) (levels : Nat) (splice : Splice) : Prop where
  reaches : ∀ level < levels, ∃ before tower, splice.path[level]? = some before ∧
    arena.tower before = .ok tower ∧ level < tower.length
  leads : ∀ slot ∈ splice.slot, ∃ node, arena.node slot = .ok node ∧ node.height ≤ levels ∧
    ∀ level < node.height, ∃ before, splice.path[level]? = some before ∧
      arena.next before level = .ok (some slot)

theorem Holds.reaches_pathTo {arena : Arena α} {levels : Nat} {layout : Layout α}
    (h : arena.Holds levels layout) {before after : List (Entry α)}
    (split : layout.entries = before ++ after) {level : Nat} (inside : level < levels) :
    ∃ last tower, (pathTo levels before)[level]? = some last ∧ arena.tower last = .ok tower ∧
      level < tower.length := by
  obtain ⟨tower, read, found⟩ := next_ok (h.next_endOn split inside)
  refine ⟨endOn level before, tower, ?_, read, (List.getElem?_eq_some_iff.mp found).1⟩
  rw [pathTo_getElem?, if_pos inside]

end Arena

namespace Map

variable {map : Map σ α} {layout : Layout α}

theorem Holds.guides (h : map.Holds layout) (key : Key) :
    ∃ splice, map.arena.splice map.order map.maxHeight.levels key = .ok splice ∧
      map.arena.Guides map.maxHeight.levels splice := by
  rcases h.splice_cases key with ⟨before, e, after, cuts, _, search⟩ | ⟨before, after, cuts, _, search⟩
  · have split := cuts.split
    have low := (h.arena.heights e (split ▸ List.mem_append_cons_self)).2
    refine ⟨_, search, fun level inside => h.arena.reaches_pathTo split inside, fun slot found => ?_⟩
    obtain rfl := Option.some.inj found
    refine ⟨_, Arena.node_of_occupied (h.arena.occupied before e after split), ?_, fun level tall => ?_⟩
    · rwa [node_height]
    · rw [node_height] at tall
      have inside := Nat.lt_of_lt_of_le tall low
      refine ⟨endOn level before, ?_, ?_⟩
      · rw [pathTo_getElem?, if_pos inside]
      · rw [h.arena.next_endOn split inside, nextOn_cons, if_pos tall]
  · exact ⟨_, search, fun level inside => h.arena.reaches_pathTo cuts.split inside, nofun⟩

variable [DrawSource σ]

theorem Holds.insertAt_ok (h : map.Holds layout) (memory : Memory) (series : Progression)
    (value : Nat → α) (places : List Nat) :
    ∃ next rest reply, insertAt memory series value map places = .ok (next, reply) ∧ next.Holds rest ∧
      next.id = map.id := by
  induction places generalizing map layout with
  | nil => exact ⟨map, layout, _, rfl, h, rfl⟩
  | cons place places ih =>
    obtain ⟨next, rest, reply, inserted, turn, holds⟩ :=
      h.inserts (series.key map.keySize place) (value place) memory
    obtain ⟨last, final, more, further, kept, id⟩ := ih holds
    refine ⟨last, final, ?total, ?run, kept, id.trans turn.frame.2.2.1⟩
    case run =>
      simp only [insertAt, inserted, ok_bind, further, pure_eq_ok]
      rfl

theorem Holds.removeAt_ok (h : map.Holds layout) (series : Progression) (places : List Nat) :
    ∃ next rest reply, removeAt series map places = .ok (next, reply) ∧ next.Holds rest ∧
      next.id = map.id := by
  induction places generalizing map layout with
  | nil => exact ⟨map, layout, _, rfl, h, rfl⟩
  | cons place places ih =>
    obtain ⟨next, rest, outcome, trace, removed, turn, holds⟩ :=
      h.remove_ok (series.key map.keySize place)
    obtain ⟨last, final, more, further, kept, id⟩ := ih holds
    refine ⟨last, final, ?total, ?run, kept, id.trans turn.frame.2.2.1⟩
    case run =>
      simp only [removeAt, removed, ok_bind, further, pure_eq_ok]
      rfl

end Map

namespace Session

/-- Every map of the session holds a layout. -/
def Sound (session : Session σ α) : Prop :=
  ∀ map, some map ∈ session.maps → ∃ layout, map.Holds layout

def Safe (outcome : Except Fault (Session σ α × Response α)) : Prop :=
  ∃ next response, outcome = .ok (next, response) ∧ next.Sound

variable {session : Session σ α}

/-! ### Changing a session -/

theorem Sound.map? (sound : session.Sound) {index : Nat} {map : Map σ α}
    (found : session.map? index = some map) : ∃ layout, map.Holds layout := by
  unfold Session.map? at found
  exact sound map (List.mem_of_getElem? (Option.join_eq_some_iff.mp found))

theorem Sound.setMap (sound : session.Sound) (index : Nat) {map : Map σ α} {layout : Layout α}
    (h : map.Holds layout) : (session.setMap index map).Sound := by
  intro other listed
  rcases List.mem_or_eq_of_mem_set listed with old | new
  · exact sound other old
  · obtain rfl := Option.some.inj new
    exact ⟨layout, h⟩

theorem Sound.dropMap (sound : session.Sound) (index : Nat) : (session.dropMap index).Sound := by
  intro other listed
  rcases List.mem_or_eq_of_mem_set listed with old | new
  · exact sound other old
  · nomatch new

theorem Sound.addMap (sound : session.Sound) {map : Option (Map σ α)}
    (holds : ∀ built ∈ map, ∃ layout, built.Holds layout) : (session.addMap map).Sound := by
  intro other listed
  rcases List.mem_append.mp listed with old | new
  · exact sound other old
  · exact holds other (List.mem_singleton.mp new).symm

theorem mapError_ok {ε δ β : Type} {x : Except ε β} {f : ε → δ} {b : β} (h : x.mapError f = .ok b) :
    x = .ok b := by
  cases x with
  | error _ => nomatch h
  | ok _ => exact congrArg Except.ok (Except.ok.inj h)

theorem buildMap_holds {request : BuildRequest σ} {id : Nat} {map : Map σ α}
    (built : buildMap request id = .ok map) : ∃ layout, map.Holds layout := by
  unfold buildMap at built
  obtain ⟨_, _, built⟩ := bind_ok built
  obtain ⟨_, _, built⟩ := bind_ok built
  exact ⟨_, (Map.build_holds (mapError_ok built)).1⟩

theorem Sound.build (sound : session.Sound) (request : BuildRequest σ) :
    (session.build request).1.Sound := by
  unfold Session.build
  cases built : buildMap (α := α) request session.nextId with
  | error refusal => exact sound.addMap nofun
  | ok map =>
    have added : (session.addMap (some map)).Sound := sound.addMap fun other same => by
      obtain rfl := Option.some.inj same
      exact buildMap_holds built
    exact added

/-! ### Steps -/

section Cases

variable {motive : Except Fault (Session σ α × Response α) → Prop}

theorem Sound.withMap_cases (sound : session.Sound) (index : Nat)
    {use : Map σ α → Except Fault (Session σ α × Response α)}
    (gone : motive (.ok (session, { result := .error .noMap })))
    (used : ∀ map layout, session.map? index = some map → map.Holds layout → motive (use map)) :
    motive (session.withMap index use) := by
  unfold Session.withMap
  cases found : session.map? index with
  | none => exact gone
  | some map =>
    obtain ⟨layout, h⟩ := sound.map? found
    exact used map layout found h

theorem withCursor_cases (session : Session σ α) (index : Nat)
    {use : Cursor → Except Fault (Session σ α × Response α)}
    (missing : motive (.ok (session, { result := .error .noCursor })))
    (used : ∀ cursor, session.cursors[index]? = some cursor → motive (use cursor)) :
    motive (session.withCursor index use) := by
  unfold Session.withCursor
  cases found : session.cursors[index]? with
  | none => exact missing
  | some cursor => exact used cursor found

end Cases

theorem Sound.withMap (sound : session.Sound) (index : Nat)
    {use : Map σ α → Except Fault (Session σ α × Response α)}
    (safe : ∀ map layout, map.Holds layout → Safe (use map)) : Safe (session.withMap index use) :=
  sound.withMap_cases index ⟨session, _, rfl, sound⟩ fun map layout _ h => safe map layout h

theorem Sound.withCursor (sound : session.Sound) (index : Nat)
    {use : Cursor → Except Fault (Session σ α × Response α)} (safe : ∀ cursor, Safe (use cursor)) :
    Safe (session.withCursor index use) :=
  session.withCursor_cases index ⟨session, _, rfl, sound⟩ fun cursor _ => safe cursor

variable [DrawSource σ]

theorem Sound.step (sound : session.Sound) (command : Command σ α) : Safe (session.step command) := by
  cases command with
  | build request => exact ⟨_, _, rfl, sound.build request⟩
  | change index change =>
    refine sound.withMap index fun map layout h => ?_
    obtain ⟨next, rest, reply, made, _, holds⟩ := h.apply_ok change
    exact ⟨_, _, by rw [made]; rfl, sound.setMap index holds⟩
  | query index query =>
    refine sound.withMap index fun map layout h => ?_
    have answered := h.answer_eq query
    exact ⟨_, _, by rw [answered]; rfl, sound⟩
  | insertAll index series value memory =>
    refine sound.withMap index fun map layout h => ?_
    obtain ⟨next, rest, reply, made, holds, _⟩ := h.insertAt_ok memory series value series.places
    exact ⟨_, _, by rw [Map.insertAll, made]; rfl, sound.setMap index holds⟩
  | removeAll index series =>
    refine sound.withMap index fun map layout h => ?_
    obtain ⟨next, rest, reply, made, holds, _⟩ := h.removeAt_ok series series.places
    exact ⟨_, _, by rw [Map.removeAll, made]; rfl, sound.setMap index holds⟩
  | takeValues index =>
    refine sound.withMap index fun map layout h => ?_
    exact ⟨_, _, by rw [h.takeValues_eq]; rfl, sound.dropMap index⟩
  | discard index => exact sound.withMap index fun map layout h => ⟨_, _, rfl, sound.dropMap index⟩
  | begin index =>
    refine sound.withMap index fun map layout h => ?_
    exact ⟨session.addCursor _, _, by rw [Cursor.begin_eq h]; rfl, sound⟩
  | call index number call =>
    refine sound.withMap index fun map layout h => sound.withCursor number fun cursor => ?_
    exact ⟨session.setCursor number _, _, by rw [Cursor.call_eq h]; rfl, sound⟩
  | copyCursor number => exact sound.withCursor number fun cursor => ⟨_, _, rfl, sound⟩
  | sameCursor number other =>
    exact sound.withCursor number fun cursor => sound.withCursor other fun second =>
      ⟨_, _, rfl, sound⟩
  | isExhausted number => exact sound.withCursor number fun cursor => ⟨_, _, rfl, sound⟩
  | cursorText number => exact sound.withCursor number fun cursor => ⟨_, _, rfl, sound⟩

theorem run_of_step {next last : Session σ α} {command : Command σ α} {commands : List (Command σ α)}
    {response : Response α} {responses : List (Response α)}
    (stepped : session.step command = .ok (next, response)) (run : next.run commands = .ok (last, responses)) :
    session.run (command :: commands) = .ok (last, response :: responses) := by
  simp only [Session.run, stepped, ok_bind, run, pure_eq_ok]

theorem run_cons {last : Session σ α} {command : Command σ α} {commands : List (Command σ α)}
    {responses : List (Response α)} (run : session.run (command :: commands) = .ok (last, responses)) :
    ∃ next response later, session.step command = .ok (next, response) ∧
      next.run commands = .ok (last, later) ∧ responses = response :: later := by
  unfold Session.run at run
  obtain ⟨⟨next, response⟩, stepped, run⟩ := bind_ok run
  obtain ⟨⟨final, later⟩, ran, same⟩ := bind_ok run
  obtain ⟨rfl, rfl⟩ := Prod.mk.inj (Except.ok.inj same)
  exact ⟨next, response, later, stepped, ran, rfl⟩

theorem Sound.run (sound : session.Sound) (commands : List (Command σ α)) :
    ∃ last responses, session.run commands = .ok (last, responses) ∧
      responses.length = commands.length ∧ last.Sound := by
  induction commands generalizing session with
  | nil => exact ⟨session, [], rfl, rfl, sound⟩
  | cons command commands ih =>
    obtain ⟨next, response, stepped, kept⟩ := sound.step command
    obtain ⟨last, responses, run, count, sound'⟩ := ih kept
    exact ⟨last, response :: responses, run_of_step stepped run, congrArg Nat.succ count, sound'⟩

/-- No fault is ever met. A session answers every run of commands, and in the maps that it leaves the way
to every key records predecessors that reach above their levels and lead to the node with that key on all
of its levels; drawing a height never fails either. -/
theorem run_safe (commands : List (Command σ α)) :
    ∃ session responses, ({} : Session σ α).run commands = .ok (session, responses) ∧
      responses.length = commands.length ∧
      (∀ map, some map ∈ session.maps →
        (∀ key, ∃ splice, map.arena.splice map.order map.maxHeight.levels key = .ok splice ∧
          map.arena.Guides map.maxHeight.levels splice) ∧
        ∀ (cursor : Cursor) (predicate : Key → Bool), ∃ reply, cursor.holds map predicate = .ok reply) ∧
      ∀ (bound : Height) (source : σ), ∃ height rest,
        bound.random source = .ok (height, rest) ∧ height.levels ≤ bound.levels := by
  have empty : ({} : Session σ α).Sound := nofun
  obtain ⟨session, responses, run, count, sound⟩ := empty.run commands
  refine ⟨session, responses, run, count, fun map listed => ?_, fun bound source => ?_⟩
  · obtain ⟨layout, h⟩ := sound map listed
    exact ⟨h.guides, fun cursor predicate => ⟨_, Cursor.holds_eq h cursor predicate⟩⟩
  · obtain ⟨height, drawn, low⟩ := bound.random_ok source
    exact ⟨height, _, drawn, low⟩

end Session

end SkipList
