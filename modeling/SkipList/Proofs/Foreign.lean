import Mathlib.Data.List.ReduceOption
import SkipList.Proofs.Safety

/-!
# Cursors on other maps

Every map that a session builds takes an id of its own, and a cursor keeps the id of the map that it was
begun on. So every other map refuses it, whatever the two maps hold.
-/

namespace SkipList

open Entry

variable {σ α : Type}

/-! ### Refusals -/

namespace Cursor

def Call.refused : Call → Except Error (Answer α)
  | .isValid => .ok (.flag false)
  | .walk => .ok (.walked [] (some .invalidatedCursor))
  | _ => .error .invalidatedCursor

/-- The map refuses the cursor, whatever it is asked. Nothing is compared or reported, no predicate is
asked, no slot is used, and the cursor stays as it is. -/
structure Foreign (cursor : Cursor) (map : Map σ α) : Prop where
  invalid : cursor.isValid map = { result := false }
  call : ∀ call : Call, cursor.call map call = .ok (cursor, { result := call.refused })
  holds : ∀ predicate, cursor.holds map predicate = .ok { result := .error .invalidatedCursor }
  unused : ∀ {β : Type} (use : Link → Except Fault β),
    cursor.withSlot map use = .ok { result := .error .invalidatedCursor }

variable {cursor : Cursor} {map : Map σ α} {layout : Layout α}

theorem foreign_of_ne (other : cursor.map ≠ map.id) : cursor.Foreign map := by
  have resolved : cursor.resolve map = { result := .error .invalidatedCursor } := if_pos other
  have unused {β : Type} (use : Link → Except Fault β) :
      cursor.withSlot map use = .ok { result := .error .invalidatedCursor } := by
    simp only [withSlot, resolved, pure_eq_ok]
  have entry : cursor.entry map = .ok { result := .error .invalidatedCursor } := unused map.entryAt?
  have key : cursor.key map = .ok { result := .error .invalidatedCursor } := by
    simp only [Cursor.key, entry, ok_bind, pure_eq_ok]
    rfl
  have satisfies (predicate : Key → Bool) :
      cursor.satisfies map predicate = .ok { result := .error .invalidatedCursor } := by
    simp only [Cursor.satisfies, key, ok_bind, pure_eq_ok]
    rfl
  refine { invalid := ?_, call := fun call => ?_, holds := fun predicate => ?_, unused }
  · simp only [isValid, resolved, Reply.map]
  · cases call with
    | key => simp only [Cursor.call, key, ok_bind, pure_eq_ok]; rfl
    | value => simp only [Cursor.call, Cursor.value, entry, ok_bind, pure_eq_ok]; rfl
    | entry => simp only [Cursor.call, entry, ok_bind, pure_eq_ok]; rfl
    | peekNext => simp only [Cursor.call, peekNext, unused, ok_bind, pure_eq_ok]; rfl
    | increment => simp only [Cursor.call, increment, unused, ok_bind, pure_eq_ok]; rfl
    | seek sought =>
      simp only [Cursor.call, seek, other, ne_eq, not_false_eq_true, if_true, ok_bind, pure_eq_ok]
      rfl
    | satisfies predicate => simp only [Cursor.call, satisfies, ok_bind, pure_eq_ok]; rfl
    | isValid => simp only [Cursor.call, isValid, resolved, pure_eq_ok]; rfl
    | walk => simp only [Cursor.call, walk, walkWithin, entry, ok_bind, pure_eq_ok]; rfl
  · simp only [Cursor.holds, satisfies, ok_bind, pure_eq_ok]
    rfl

theorem reacts_map (cursor : Cursor) (map : Map σ α) (layout : Layout α) (call : Call) :
    (cursor.reacts map layout call).1.map = cursor.map := by
  cases call with
  | increment =>
    simp only [reacts, moving, sees, Reply.map]
    cases (cursor.onward map.id layout.entries).result <;> rfl
  | seek key =>
    by_cases own : cursor.map = map.id
    · rw [reacts, if_neg (not_not.mpr own)]
      rfl
    · rw [reacts, if_pos own]
      rfl
  | walk =>
    simp only [reacts, walked, Reply.map]
    cases (cursor.onward map.id layout.entries).result <;> rfl
  | _ => rfl

end Cursor

/-! ### Ids -/

namespace Session

/-- The ids of the maps of a run and the maps that its cursors were begun on, by their numbers. A map that
could not be built has no id. -/
structure Register where
  ids : List (Option Nat) := []
  origins : List Nat := []

namespace Register

/-- The register after a command. A map that is built takes the least id that was never taken, one that could
not be built takes none, and a copy of a cursor comes from where the cursor comes from. -/
def after (register : Register) (command : Command σ α) (response : Response α) : Register :=
  match command, response.result with
  | .build _, .ok _ => { register with ids := register.ids ++ [some register.ids.reduceOption.length] }
  | .build _, .error _ => { register with ids := register.ids ++ [none] }
  | .begin index, .ok _ => { register with origins := register.origins ++ [index] }
  | .copyCursor number, .ok _ =>
    { register with origins := register.origins ++ register.origins[number]?.toList }
  | _, _ => register

def afterAll (register : Register) : List (Command σ α) → List (Response α) → Register
  | command :: commands, response :: responses =>
    (register.after command response).afterAll commands responses
  | _, _ => register

end Register

/-- The register is that of the session: the maps that were built have the ids from zero on, in order and
without a gap, and every cursor has the id of the map it was begun on. -/
structure Registered (session : Session σ α) (register : Register) : Prop where
  numbers : register.ids.length = session.maps.length
  built : register.ids.reduceOption = List.range session.nextId
  alive : ∀ index map, session.map? index = some map → register.ids[index]? = some (some map.id)
  counted : register.origins.length = session.cursors.length
  begun : ∀ (number : Nat) cursor, session.cursors[number]? = some cursor → ∃ origin : Nat,
    register.origins[number]? = some origin ∧ register.ids[origin]? = some (some cursor.map)

variable {session : Session σ α} {register : Register}

theorem index_of_id {ids : List (Option Nat)} (once : ids.reduceOption.Nodup) {i j id : Nat}
    (first : ids[i]? = some (some id)) (second : ids[j]? = some (some id)) : i = j := by
  induction ids generalizing i j with
  | nil => nomatch first
  | cons head rest ih =>
    have once_rest : rest.reduceOption.Nodup := by
      cases head with
      | none => exact once
      | some _ => exact (List.nodup_cons.mp once).2
    have apart : ∀ k : Nat, rest[k]? = some (some id) → head ≠ some id := by
      rintro k later rfl
      exact (List.nodup_cons.mp once).1 (List.reduceOption_mem_iff.mpr (List.mem_of_getElem? later))
    cases i with
    | zero =>
      cases j with
      | zero => rfl
      | succ j => exact absurd (Option.some.inj first) (apart j second)
    | succ i =>
      cases j with
      | zero => exact absurd (Option.some.inj second) (apart i first)
      | succ j => exact congrArg Nat.succ (ih once_rest first second)

theorem getElem?_concat_cases {γ : Type} {items : List γ} {item x : γ} {index : Nat}
    (found : (items ++ [item])[index]? = some x) :
    items[index]? = some x ∨ index = items.length ∧ x = item := by
  rw [List.getElem?_append] at found
  split at found
  · exact Or.inl found
  · rename_i past
    rw [List.getElem?_singleton] at found
    split at found
    · exact Or.inr ⟨by omega, (Option.some.inj found).symm⟩
    · nomatch found

theorem getElem?_append_of_some {γ : Type} {items more : List γ} {x : γ} {index : Nat}
    (found : items[index]? = some x) : (items ++ more)[index]? = some x :=
  (List.getElem?_append_left (List.getElem?_eq_some_iff.mp found).1).trans found

/-! ### Changing a session -/

theorem Registered.setMap (registered : session.Registered register) {index : Nat} {map next : Map σ α}
    (found : session.map? index = some map) (same : next.id = map.id) :
    (session.setMap index next).Registered register := by
  refine { registered with numbers := ?_, alive := ?_ }
  · exact registered.numbers.trans List.length_set.symm
  · intro other there listed
    simp only [map?, Session.setMap, List.getElem?_set] at listed
    split at listed
    · rename_i here
      split at listed
      · obtain rfl := Option.some.inj listed
        rw [← here, same]
        exact registered.alive index map found
      · nomatch listed
    · exact registered.alive other there listed

theorem Registered.dropMap (registered : session.Registered register) (index : Nat) :
    (session.dropMap index).Registered register := by
  refine { registered with numbers := ?_, alive := ?_ }
  · exact registered.numbers.trans List.length_set.symm
  · intro other there listed
    simp only [map?, Session.dropMap, List.getElem?_set] at listed
    split at listed
    · split at listed <;> nomatch listed
    · exact registered.alive other there listed

theorem Registered.setCursor (registered : session.Registered register) {number : Nat}
    {cursor moved : Cursor} (found : session.cursors[number]? = some cursor)
    (same : moved.map = cursor.map) : (session.setCursor number moved).Registered register := by
  refine { registered with counted := ?_, begun := ?_ }
  · exact registered.counted.trans List.length_set.symm
  · intro other there listed
    simp only [Session.setCursor, List.getElem?_set] at listed
    split at listed
    · rename_i here
      split at listed
      · obtain rfl := Option.some.inj listed
        rw [← here, same]
        exact registered.begun number cursor found
      · nomatch listed
    · exact registered.begun other there listed

theorem Registered.addCursor (registered : session.Registered register) {cursor : Cursor} {origin : Nat}
    (made : register.ids[origin]? = some (some cursor.map)) :
    (session.addCursor cursor).Registered { register with origins := register.origins ++ [origin] } := by
  refine { registered with counted := ?_, begun := ?_ }
  · simp only [Session.addCursor, List.length_append, List.length_singleton, registered.counted]
  · intro number there listed
    rcases getElem?_concat_cases listed with old | ⟨rfl, rfl⟩
    · obtain ⟨first, from_first, has⟩ := registered.begun number there old
      exact ⟨first, getElem?_append_of_some from_first, has⟩
    · exact ⟨origin, by rw [← registered.counted, List.getElem?_concat_length], made⟩

theorem buildMap_id {request : BuildRequest σ} {id : Nat} {map : Map σ α}
    (built : buildMap request id = .ok map) : map.id = id := by
  unfold buildMap at built
  obtain ⟨_, _, built⟩ := bind_ok built
  obtain ⟨_, _, built⟩ := bind_ok built
  exact Map.build_id (mapError_ok built)

theorem Registered.addMap (registered : session.Registered register) {map : Option (Map σ α)}
    {id : Option Nat} {nextId : Nat} (same : ∀ built ∈ map, id = some built.id)
    (built : (register.ids ++ [id]).reduceOption = List.range nextId) :
    ({ session.addMap map with nextId } : Session σ α).Registered
      { register with ids := register.ids ++ [id] } := by
  refine { built, counted := registered.counted, numbers := ?_, alive := ?_, begun := ?_ }
  · simp only [Session.addMap, List.length_append, List.length_singleton, registered.numbers]
  · intro index there listed
    rcases getElem?_concat_cases (Option.join_eq_some_iff.mp listed) with old | ⟨rfl, new⟩
    · exact getElem?_append_of_some (registered.alive index there (Option.join_eq_some_iff.mpr old))
    · rw [← registered.numbers, List.getElem?_concat_length, same there new.symm]
  · intro number cursor listed
    obtain ⟨origin, from_origin, has⟩ := registered.begun number cursor listed
    exact ⟨origin, from_origin, getElem?_append_of_some has⟩

theorem Registered.build (registered : session.Registered register) (request : BuildRequest σ) :
    (session.build request).1.Registered
      (register.after (.build request : Command σ α) (session.build request).2) := by
  have count : register.ids.reduceOption.length = session.nextId := by
    rw [registered.built, List.length_range]
  unfold Session.build
  cases built : buildMap (α := α) request session.nextId with
  | error refusal =>
    refine registered.addMap nofun ?_
    rw [List.reduceOption_append, registered.built]
    exact List.append_nil _
  | ok map =>
    refine registered.addMap (fun other same => ?_) ?_
    · obtain rfl := Option.some.inj same
      rw [buildMap_id built, count]
    · rw [List.reduceOption_append, count, registered.built, List.range_succ]
      rfl

/-! ### Steps -/

def Registers (register : Register) (command : Command σ α)
    (outcome : Except Fault (Session σ α × Response α)) : Prop :=
  ∃ next response, outcome = .ok (next, response) ∧ next.Registered (register.after command response)

theorem Registered.withMap (registered : session.Registered register) {command : Command σ α} {index : Nat}
    {use : Map σ α → Except Fault (Session σ α × Response α)} (sound : session.Sound)
    (refused : register.after command ({ result := .error .noMap } : Response α) = register)
    (used : ∀ map layout, session.map? index = some map → map.Holds layout →
      Registers register command (use map)) : Registers register command (session.withMap index use) :=
  sound.withMap_cases index ⟨session, _, rfl, refused.symm ▸ registered⟩ used

theorem Registered.withCursor (registered : session.Registered register) {command : Command σ α}
    {number : Nat} {use : Cursor → Except Fault (Session σ α × Response α)}
    (refused : register.after command ({ result := .error .noCursor } : Response α) = register)
    (used : ∀ cursor, session.cursors[number]? = some cursor → Registers register command (use cursor)) :
    Registers register command (session.withCursor number use) :=
  session.withCursor_cases number ⟨session, _, rfl, refused.symm ▸ registered⟩ used

variable [DrawSource σ]

theorem Registered.step (registered : session.Registered register) (sound : session.Sound)
    (command : Command σ α) : Registers register command (session.step command) := by
  cases command with
  | build request => exact ⟨_, _, rfl, registered.build request⟩
  | change index change =>
    refine registered.withMap sound rfl fun map layout found h => ?_
    obtain ⟨next, rest, reply, made, turn, _⟩ := h.apply_ok change
    exact ⟨_, _, by rw [made]; rfl, registered.setMap found turn.frame.2.2.1⟩
  | query index query =>
    refine registered.withMap sound rfl fun map layout found h => ?_
    have answered := h.answer_eq query
    exact ⟨_, _, by rw [answered]; rfl, registered⟩
  | insertAll index series value memory =>
    refine registered.withMap sound rfl fun map layout found h => ?_
    obtain ⟨next, rest, reply, made, _, id⟩ := h.insertAt_ok memory series value series.places
    exact ⟨_, _, by rw [Map.insertAll, made]; rfl, registered.setMap found id⟩
  | removeAll index series =>
    refine registered.withMap sound rfl fun map layout found h => ?_
    obtain ⟨next, rest, reply, made, _, id⟩ := h.removeAt_ok series series.places
    exact ⟨_, _, by rw [Map.removeAll, made]; rfl, registered.setMap found id⟩
  | takeValues index =>
    refine registered.withMap sound rfl fun map layout found h => ?_
    exact ⟨_, _, by rw [h.takeValues_eq]; rfl, registered.dropMap index⟩
  | discard index =>
    exact registered.withMap sound rfl fun map layout found h => ⟨_, _, rfl, registered.dropMap index⟩
  | begin index =>
    refine registered.withMap sound rfl fun map layout found h => ?_
    have made := registered.alive index map found
    exact ⟨session.addCursor _, _, by rw [Cursor.begin_eq h]; rfl, registered.addCursor made⟩
  | call index number call =>
    refine registered.withMap sound rfl fun map layout found h =>
      registered.withCursor rfl fun cursor there => ?_
    exact ⟨session.setCursor number _, _, by rw [Cursor.call_eq h]; rfl,
      registered.setCursor there (cursor.reacts_map map layout call)⟩
  | copyCursor number =>
    refine registered.withCursor rfl fun cursor there => ?_
    obtain ⟨origin, from_origin, has⟩ := registered.begun number cursor there
    refine ⟨session.addCursor cursor, _, rfl, ?_⟩
    show (session.addCursor cursor).Registered
      { register with origins := register.origins ++ register.origins[number]?.toList }
    rw [from_origin]
    exact registered.addCursor has
  | sameCursor number other =>
    exact registered.withCursor rfl fun cursor _ => registered.withCursor rfl fun second _ =>
      ⟨_, _, rfl, registered⟩
  | isExhausted number => exact registered.withCursor rfl fun cursor _ => ⟨_, _, rfl, registered⟩
  | cursorText number => exact registered.withCursor rfl fun cursor _ => ⟨_, _, rfl, registered⟩

theorem Registered.run (registered : session.Registered register) (sound : session.Sound)
    {commands : List (Command σ α)} {last : Session σ α} {responses : List (Response α)}
    (run : session.run commands = .ok (last, responses)) :
    last.Registered (register.afterAll commands responses) := by
  induction commands generalizing session register responses with
  | nil =>
    obtain ⟨rfl, rfl⟩ := Prod.mk.inj (Except.ok.inj run)
    exact registered
  | cons command commands ih =>
    obtain ⟨next, response, later, stepped, ran, rfl⟩ := run_cons run
    obtain ⟨_, _, stepped', registered'⟩ := registered.step sound command
    obtain ⟨_, _, stepped'', sound'⟩ := sound.step command
    rw [stepped] at stepped' stepped''
    obtain ⟨rfl, rfl⟩ := Prod.mk.inj (Except.ok.inj stepped')
    obtain ⟨rfl, rfl⟩ := Prod.mk.inj (Except.ok.inj stepped'')
    exact ih registered' sound' ran

theorem step_foreign {index number : Nat} {map : Map σ α} {cursor : Cursor}
    (found : session.map? index = some map) (there : session.cursors[number]? = some cursor)
    (foreign : cursor.Foreign map) (call : Cursor.Call) :
    session.step (.call index number call) =
      .ok (session, { result := call.refused.mapError .error }) := by
  have same : session.setCursor number cursor = session := by
    have kept : session.cursors.set number cursor = session.cursors := by
      obtain ⟨inside, rfl⟩ := List.getElem?_eq_some_iff.mp there
      exact List.set_getElem_self inside
    rw [Session.setCursor, kept]
  simp only [Session.step, Session.withMap, found, Session.withCursor, there, foreign.call, ok_bind, same,
    pure_eq_ok]
  rfl

/-- The maps of a session have ids of their own: those that were built are numbered from zero on, in order,
and one that could not be built takes no number. A cursor that was begun on one map, or copied from such a
cursor, is refused by every other map, wherever it stands and whatever has become of its own map. Nothing is
compared, no predicate is asked, nothing is reported, and the session goes on as if it had not been tried. -/
theorem foreign_refused (commands : List (Command σ α)) :
    ∃ session responses register, ({} : Session σ α).run commands = .ok (session, responses) ∧
      register = Register.afterAll {} commands responses ∧ session.Registered register ∧
      ∀ (number origin index : Nat) (map : Map σ α), register.origins[number]? = some origin →
        session.map? index = some map → index ≠ origin →
        ∃ cursor, session.cursors[number]? = some cursor ∧ cursor.Foreign map ∧
          ∀ call, session.step (.call index number call) =
              .ok (session, { result := call.refused.mapError .error }) ∧
            ∀ more, ∃ last later, session.run more = .ok (last, later) ∧
              session.run (.call index number call :: more) =
                .ok (last, { result := call.refused.mapError .error } :: later) := by
  have empty : ({} : Session σ α).Sound := nofun
  have unused : ({} : Session σ α).Registered {} :=
    { numbers := rfl, built := rfl, alive := nofun, counted := rfl, begun := nofun }
  obtain ⟨session, responses, run, _, sound⟩ := empty.run commands
  have registered := unused.run empty run
  refine ⟨session, responses, _, run, rfl, registered, ?_⟩
  intro number origin index map begun found other
  obtain ⟨cursor, there⟩ : ∃ cursor, session.cursors[number]? = some cursor := by
    have inside := (List.getElem?_eq_some_iff.mp begun).1
    rw [registered.counted] at inside
    exact ⟨_, List.getElem?_eq_getElem inside⟩
  obtain ⟨_, begun', own⟩ := registered.begun number cursor there
  obtain rfl := Option.some.inj (begun.symm.trans begun')
  have foreign : cursor.Foreign map := by
    -- the id of the cursor is that of the map it was begun on, and no two numbers share an id
    refine Cursor.foreign_of_ne fun same => other ?_
    have once : (Register.afterAll {} commands responses).ids.reduceOption.Nodup := by
      rw [registered.built]
      exact List.nodup_range
    rw [same] at own
    exact index_of_id once (registered.alive index map found) own
  refine ⟨cursor, there, foreign, fun call => ?_⟩
  have stepped := step_foreign found there foreign call
  refine ⟨stepped, fun more => ?_⟩
  obtain ⟨last, later, ran, _⟩ := sound.run more
  exact ⟨last, later, ran, run_of_step stepped ran⟩

def smallRequest : BuildRequest Script :=
  { settings := [.keySize 1, .maxHeight 2], order := .ascend, source := fun _ => .ok { values := [0] } }

def twinCommands : List (Command Script Nat) :=
  [.build smallRequest, .build { smallRequest with settings := [] }, .build smallRequest,
    .change 0 (.insert [5] 50 {}), .change 2 (.insert [5] 50 {}), .begin 0, .discard 0]

def twinSession : Session Script Nat :=
  { maps := [none, none, some
      { arena :=
          { slots := #[.head [some 1, some 1], .occupied 0 ⟨[5], 50, [none, none]⟩]
            free := none
            capacity := 4 }
        len := 1
        maxHeight := Map.sample.maxHeight
        keySize := 1
        id := 1
        source := { values := [0], used := 1 }
        order := .ascend }]
    cursors := [{ map := 0, position := .positioned ⟨1, 0⟩ }]
    nextId := 2 }

theorem twinSession_run : ∃ responses, ({} : Session Script Nat).run twinCommands = .ok (twinSession, responses) ∧
    Register.afterAll {} twinCommands responses = { ids := [some 0, none, some 1], origins := [0] } :=
  ⟨_, rfl, rfl⟩

/-- The cursor stands on a node that the second map has too, with the same entry, and is refused there. -/
theorem foreign_refused_twin :
    ∃ responses cursor map, ({} : Session Script Nat).run twinCommands = .ok (twinSession, responses) ∧
      twinSession.cursors = [cursor] ∧ cursor.position = .positioned ⟨1, 0⟩ ∧
      twinSession.maps = [none, none, some map] ∧ map.arena.resolve ⟨1, 0⟩ = some 1 ∧
      cursor.Foreign map := by
  obtain ⟨responses, run, register⟩ := twinSession_run
  obtain ⟨session, _, _, run', same, _, refused⟩ := foreign_refused twinCommands
  rw [run] at run'
  obtain ⟨rfl, rfl⟩ := Prod.mk.inj (Except.ok.inj run')
  rw [register] at same
  subst same
  obtain ⟨cursor, there, foreign, _⟩ := refused 0 0 2 _ rfl rfl (by decide)
  obtain rfl := Option.some.inj there
  exact ⟨responses, _, _, run, rfl, rfl, rfl, rfl, foreign⟩

end Session

end SkipList
