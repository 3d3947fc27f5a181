import SkipList.Proofs.Onward
import SkipList.Proofs.Ordered

/-!
# Journeys

A cursor that is moved on step by step while the map is changed in between. It comes to the keys in
strictly increasing order, each time to the next one that is stored, and at the end it has come to every
entry ahead of it that has stayed in the map, once.
-/

namespace SkipList

open Entry

variable {σ α : Type}

/-- The least of the keys above the given one, or none if no key is above it. -/
def KeyOrder.IsNext (order : KeyOrder) (key : Key) (keys : List Key) : Option Key → Prop
  | none => ∀ k ∈ keys, order.compare key k ≠ .lt
  | some next => next ∈ keys ∧ order.compare key next = .lt ∧
    ∀ k ∈ keys, order.compare key k = .lt → order.compare next k ≠ .gt

namespace Cursor

inductive Move (α : Type) where
  | change (change : Change α)
  | increment

/-- The map and the cursor after a journey, and the nodes that the cursor came to, each with its key. -/
structure Journey (σ α : Type) where
  map : Map σ α
  cursor : Cursor
  visits : List (NodeId × Key)

def sight (cursor : Cursor) (map : Map σ α) : Except Fault (Option (NodeId × Key)) := do
  let shown ← cursor.key map
  match cursor.position, shown.result with
  | .positioned node, .ok (some key) => return some (node, key)
  | _, _ => return none

/-- Makes the moves one after another. A step that is refused leaves the cursor where it is. -/
def travel [DrawSource σ] (map : Map σ α) (cursor : Cursor) :
    List (Move α) → Except Fault (Journey σ α)
  | [] => return { map, cursor, visits := [] }
  | .change change :: moves => do
    let (map, _) ← map.apply change
    travel map cursor moves
  | .increment :: moves => do
    let reply ← cursor.increment map
    match reply.result with
    | .error _ => travel map cursor moves
    | .ok next => do
      let visit ← next.sight map
      let journey ← travel map next moves
      return { journey with visits := visit.toList ++ journey.visits }

variable {cursor : Cursor} {map : Map σ α} {layout : Layout α}

/-! ### One step -/

theorem sight_onto (h : map.Holds layout) (own : cursor.map = map.id) {before after : List (Entry α)}
    (split : layout.entries = before ++ after) :
    (cursor.onto after).sight map = .ok (after.head?.map fun e => (e.id, e.key)) := by
  have here := onward_onto h own split
  simp only [sight, key_eq h, sees, here, Reply.map, Except.map, ok_bind]
  cases after with
  | nil => rfl
  | cons e rest => rfl

theorem increment_onto (h : map.Holds layout) (own : cursor.map = map.id)
    {before after : List (Entry α)} {e : Entry α} (split : layout.entries = before ++ e :: after)
    (position : cursor.position = .positioned e.id) :
    cursor.increment map = .ok { result := .ok (cursor.onto after) } := by
  rw [increment_eq h, sees, onward_entry h own split position]
  rfl

theorem isNext_of_split (h : map.Ordered layout) {before after : List (Entry α)} {e : Entry α}
    (split : layout.entries = before ++ e :: after) :
    map.order.IsNext e.key (layout.entries.map (·.key)) (after.head?.map (·.key)) := by
  cases after with
  | nil =>
    intro k listed above
    obtain ⟨x, member, rfl⟩ := List.mem_map.mp listed
    nomatch h.mem_after split member above
  | cons y rest =>
    have further : layout.entries = (before ++ [e]) ++ y :: rest := by rw [split, List.append_cons]
    have member : y ∈ layout.entries := further ▸ List.mem_append_cons_self
    refine ⟨List.mem_map_of_mem member, h.lt_after split y List.mem_cons_self, fun k listed above => ?_⟩
    obtain ⟨x, there, rfl⟩ := List.mem_map.mp listed
    rcases List.mem_cons.mp (h.mem_after split there above) with rfl | later
    · rw [h.self_eq there]
      nofun
    · rw [h.lt_after further x later]
      nofun

theorem entry_of_key (h : map.Holds layout) {here : Key}
    (shown : cursor.key map = .ok { result := .ok (some here) }) :
    ∃ before e after, cursor.map = map.id ∧ cursor.position = .positioned e.id ∧
      layout.entries = before ++ e :: after ∧ e.key = here := by
  rw [key_eq h, sees] at shown
  have shown := Except.ok.inj shown
  rcases onward_cases cursor map.id layout.entries with
    ⟨_, same⟩ | ⟨_, _, same⟩ | ⟨_, _, _, _, same⟩ | ⟨before, e, after, own, position, split, _, same⟩
  · rw [same] at shown; cases shown
  · rw [same] at shown; cases shown
  · rw [same] at shown; cases shown
  · rw [same] at shown
    have key := Option.some.inj (Except.ok.inj (Reply.mk.inj shown).1)
    exact ⟨before, e, after, own, position, split, key⟩

theorem increment_next (h : map.Ordered layout) {here : Key}
    (shown : cursor.key map = .ok { result := .ok (some here) }) :
    ∃ keys next moved, map.keys = .ok keys ∧ map.order.IsNext here keys next ∧
      cursor.peekNext map = .ok { result := .ok next } ∧
      cursor.increment map = .ok { result := .ok moved } ∧
      moved.key map = .ok { result := .ok next } ∧ moved.isExhausted = next.isNone := by
  obtain ⟨before, e, after, own, position, split, rfl⟩ := entry_of_key h.toHolds shown
  have further : layout.entries = (before ++ [e]) ++ after := by rw [split, List.append_cons]
  refine ⟨layout.entries.map (·.key), after.head?.map (·.key), cursor.onto after, ?_,
    isNext_of_split h split, ?_, increment_onto h.toHolds own split position, ?_, ?_⟩
  · simp only [Map.keys, h.toHolds.toList_eq, ok_bind, pure_eq_ok, List.map_map]
    rfl
  · rw [peekNext_eq h.toHolds, sees, onward_entry h.toHolds own split position]
    rfl
  · rw [key_eq h.toHolds, sees, onward_onto h.toHolds own further]
    rfl
  · cases after <;> rfl

/-! ### Later maps -/

structure Later (map : Map σ α) (layout : Layout α) (next : Map σ α) (rest : Layout α) : Prop where
  ordered : next.Ordered rest
  order : next.order = map.order
  id : next.id = map.id
  past : ∀ node, layout.Past node → rest.Past node

theorem Later.refl (h : map.Ordered layout) : Later map layout map layout :=
  { ordered := h, order := rfl, id := rfl, past := fun _ gone => gone }

theorem Later.trans {mid last : Map σ α} {between final : Layout α}
    (first : Later map layout mid between) (second : Later mid between last final) :
    Later map layout last final :=
  { ordered := second.ordered, order := second.order.trans first.order, id := second.id.trans first.id,
    past := fun node gone => second.past node (first.past node gone) }

variable [DrawSource σ]

theorem Later.of_turn {change : Change α} {next : Map σ α} {rest : Layout α}
    {reply : Reply α (Except Error (Answer α))} (turn : map.Turn layout change next rest reply)
    (ordered : next.Ordered rest) : Later map layout next rest := by
  obtain ⟨_, _, id, order⟩ := turn.frame
  exact { ordered, order, id, past := fun _ gone => turn.keeps_past gone }

/-! ### Journeys that go nowhere -/

theorem travel_stuck (h : map.Ordered layout) (own : cursor.map = map.id)
    (stuck : cursor.position = .exhausted ∨
      ∃ node, cursor.position = .positioned node ∧ layout.Past node) (moves : List (Move α)) :
    ∃ last final, travel map cursor moves = .ok { map := last, cursor, visits := [] } ∧
      Later map layout last final := by
  induction moves generalizing map layout with
  | nil => exact ⟨map, layout, rfl, .refl h⟩
  | cons move moves ih =>
    cases move with
    | change change =>
      obtain ⟨next, rest, reply, made, turn, ordered⟩ := h.apply_ok change
      have later := Later.of_turn turn ordered
      obtain ⟨last, final, travelled, after⟩ := ih ordered (own.trans later.id.symm) <| by
        rcases stuck with exhausted | ⟨node, position, past⟩
        · exact Or.inl exhausted
        · exact Or.inr ⟨node, position, later.past node past⟩
      refine ⟨last, final, ?_, later.trans after⟩
      simp only [travel, made, ok_bind, travelled]
    | increment =>
      obtain ⟨last, final, travelled, after⟩ := ih h own stuck
      refine ⟨last, final, ?_, after⟩
      rcases stuck with exhausted | ⟨node, position, past⟩
      · have moved : cursor.increment map = .ok { result := .ok cursor } := by
          rw [increment_eq h.toHolds, sees, onward_exhausted own exhausted]
          simp only [Reply.map, Except.map, List.tail_nil, onto_nil exhausted]
        have unseen := sight_onto h.toHolds own (List.append_nil layout.entries).symm
        rw [onto_nil exhausted] at unseen
        simp only [travel, moved, ok_bind, unseen, travelled, pure_eq_ok]
        rfl
      · have missing : ∀ e ∈ layout.entries, e.id ≠ node := by
          rintro e member rfl
          exact h.arena.not_past member past
        simp only [travel, increment_eq h.toHolds, sees, onward_gone own position missing, Reply.map,
          Except.map, ok_bind, travelled]

/-! ### Journeys from an entry -/

structure Course (order : KeyOrder) (size : Nat) (layout final : Layout α) (start : Key)
    (journey : Journey σ α) : Prop where
  rising : (start :: journey.visits.map Prod.snd).Pairwise (order.compare · · = .lt)
  fresh : ∀ visit ∈ journey.visits, ¬ layout.Past visit.1
  fit : ∀ visit ∈ journey.visits, visit.2.length = size
  known : ∀ visit ∈ journey.visits, ∀ x ∈ layout.entries, x.id = visit.1 → x.key = visit.2
  complete : journey.cursor.position = .exhausted → ∀ x ∈ layout.entries,
    order.compare start x.key = .lt → ¬ final.Past x.id → (journey.visits.map Prod.fst).count x.id = 1

omit [DrawSource σ] in
theorem Course.nil {order : KeyOrder} {size : Nat} {final : Layout α} {start : Key} {last : Map σ α}
    (none_ahead : cursor.position = .exhausted → ∀ x ∈ layout.entries, order.compare start x.key ≠ .lt) :
    Course order size layout final start { map := last, cursor, visits := [] } :=
  { rising := List.pairwise_singleton _ _, fresh := nofun, fit := nofun, known := nofun,
    complete := fun done x member above => absurd above (none_ahead done x member) }

omit [DrawSource σ] in
theorem Course.still {order : KeyOrder} {size : Nat} {final : Layout α} {start : Key} {last : Map σ α}
    {node : NodeId} (position : cursor.position = .positioned node) :
    Course order size layout final start { map := last, cursor, visits := [] } := by
  refine .nil fun done => ?_
  rw [position] at done
  nomatch done

theorem Course.before_change {order : KeyOrder} {size : Nat} {next : Map σ α} {rest final : Layout α}
    {start : Key} {journey : Journey σ α} {change : Change α} {reply : Reply α (Except Error (Answer α))}
    (h : map.Holds layout) (turn : map.Turn layout change next rest reply)
    (past : ∀ node, rest.Past node → final.Past node) (course : Course order size rest final start journey) :
    Course order size layout final start journey := by
  refine { rising := course.rising, fresh := fun visit listed gone => ?_, fit := course.fit,
           known := fun visit listed x member same => ?_, complete := fun done x member above stays => ?_ }
  · exact course.fresh visit listed (turn.keeps_past gone)
  · rcases turn.follows h member with ⟨_, gone⟩ | ⟨_, y, there, id, key⟩
    · exact absurd (same ▸ gone) (course.fresh visit listed)
    · exact key.symm.trans (course.known visit listed y there (id.trans same))
  · rcases turn.follows h member with ⟨_, gone⟩ | ⟨_, y, there, id, key⟩
    · exact absurd (past x.id gone) stays
    · rw [← id] at stays ⊢
      rw [← key] at above
      exact course.complete done y there above stays

omit [DrawSource σ] in
theorem Course.before_step (h : map.Ordered layout) {final : Layout α} {journey : Journey σ α}
    {before after : List (Entry α)} {e y : Entry α} (split : layout.entries = before ++ e :: y :: after)
    (course : Course map.order map.keySize layout final y.key journey) :
    Course map.order map.keySize layout final e.key
      { journey with visits := (y.id, y.key) :: journey.visits } := by
  have further : layout.entries = (before ++ [e]) ++ y :: after := by rw [split, List.append_cons]
  have here : y ∈ layout.entries := further ▸ List.mem_append_cons_self
  have there : e ∈ layout.entries := split ▸ List.mem_append_cons_self
  have less := h.lt_after split y List.mem_cons_self
  have above_y := (List.pairwise_cons.mp course.rising).1
  have not_again : y.id ∉ journey.visits.map Prod.fst := by
    intro again
    obtain ⟨visit, listed, same⟩ := List.mem_map.mp again
    have rises := above_y visit.2 (List.mem_map_of_mem listed)
    rw [← course.known visit listed y here same.symm, h.self_eq here] at rises
    nomatch rises
  have same_key {x : Entry α} (member : x ∈ layout.entries) (same : x.id = y.id) : x = y :=
    h.arena.eq_of_slot_eq member here (congrArg NodeId.index same)
  refine { rising := ?_, fresh := ?_, fit := ?_, known := ?_,
           complete := fun done x member above stays => ?_ }
  · refine List.pairwise_cons.mpr ⟨fun k listed => ?_, course.rising⟩
    rcases List.mem_cons.mp listed with rfl | later
    · exact less
    · obtain ⟨visit, seen, rfl⟩ := List.mem_map.mp later
      have more := above_y visit.2 (List.mem_map_of_mem seen)
      exact h.lawful.lt_of_lt_of_le (h.fit e there) (h.fit y here) (course.fit visit seen) less
        (by simp [more])
  · intro visit listed
    rcases List.mem_cons.mp listed with rfl | later
    · exact h.arena.not_past here
    · exact course.fresh visit later
  · intro visit listed
    rcases List.mem_cons.mp listed with rfl | later
    · exact h.fit y here
    · exact course.fit visit later
  · intro visit listed x member same
    rcases List.mem_cons.mp listed with rfl | later
    · rw [same_key member same]
    · exact course.known visit later x member same
  · rw [List.map_cons]
    rcases List.mem_cons.mp (h.mem_after split member above) with rfl | later
    · rw [List.count_cons_self, List.count_eq_zero.mpr not_again]
    · have beyond := h.lt_after further x later
      have apart : y.id ≠ x.id := by
        intro same
        rw [same_key member same.symm, h.self_eq here] at beyond
        nomatch beyond
      rw [List.count_cons_of_ne apart]
      exact course.complete done x member beyond stays

theorem travel_from (h : map.Ordered layout) (own : cursor.map = map.id) {e : Entry α}
    (member : e ∈ layout.entries) (position : cursor.position = .positioned e.id) (moves : List (Move α)) :
    ∃ journey final, travel map cursor moves = .ok journey ∧ Later map layout journey.map final ∧
      journey.cursor.map = map.id ∧ Course map.order map.keySize layout final e.key journey := by
  induction moves generalizing map layout cursor e with
  | nil => exact ⟨_, layout, rfl, .refl h, own, .still position⟩
  | cons move moves ih =>
    cases move with
    | change change =>
      obtain ⟨next, rest, reply, made, turn, ordered⟩ := h.apply_ok change
      have later := Later.of_turn turn ordered
      obtain ⟨_, size, _, _⟩ := turn.frame
      have own_next := own.trans later.id.symm
      rcases turn.follows h.toHolds member with ⟨_, gone⟩ | ⟨_, x, listed, same, key⟩
      · obtain ⟨last, final, travelled, after⟩ :=
          travel_stuck ordered own_next (Or.inr ⟨e.id, position, gone⟩) moves
        refine ⟨_, final, ?_, later.trans after, own, .still position⟩
        simp only [travel, made, ok_bind, travelled]
      · obtain ⟨journey, final, travelled, after, own_last, course⟩ :=
          ih ordered own_next listed (position.trans (by rw [same]))
        rw [key, later.order, size] at course
        refine ⟨journey, final, ?_, later.trans after, own_last.trans later.id,
          course.before_change h.toHolds turn after.past⟩
        simp only [travel, made, ok_bind, travelled]
    | increment =>
      obtain ⟨before, after, split⟩ := List.append_of_mem member
      have further : layout.entries = (before ++ [e]) ++ after := by rw [split, List.append_cons]
      have moved := increment_onto h.toHolds own split position
      have seen := sight_onto h.toHolds own further
      cases after with
      | nil =>
        obtain ⟨last, final, travelled, later⟩ :=
          travel_stuck h (show (cursor.onto ([] : List (Entry α))).map = map.id from own) (Or.inl rfl) moves
        refine ⟨{ map := last, cursor := cursor.onto ([] : List (Entry α)), visits := [] }, final, ?_,
          later, own, .nil fun _ x there above => ?_⟩
        · simp only [travel, moved, ok_bind, seen, travelled, pure_eq_ok]
          rfl
        · nomatch h.mem_after split there above
      | cons y rest =>
        have here : y ∈ layout.entries := further ▸ List.mem_append_cons_self
        obtain ⟨journey, final, travelled, later, own_last, course⟩ :=
          ih h (show (cursor.onto (y :: rest)).map = map.id from own) here rfl
        refine ⟨{ journey with visits := (y.id, y.key) :: journey.visits }, final, ?_, later, own_last,
          course.before_step h split⟩
        simp only [travel, moved, ok_bind, seen, travelled, pure_eq_ok]
        rfl

/-- A cursor on an entry of a map under a total preorder goes its way while the map is changed. Whenever
it stands on a key its next step leads to the least greater key that is stored then, or to the end if
there is none, and looking ahead shows as much. The keys it comes to are strictly increasing. If it gets to
the end, it has come once to every node that was ahead of it at first and is still in the map. -/
theorem travel_complete {map : Map σ α} (reached : map.Reached)
    (lawful : map.order.IsTotalPreorder map.keySize) {cursor : Cursor} {start : Key}
    (shown : cursor.key map = .ok { result := .ok (some start) }) (moves : List (Move α)) :
    ∃ journey, travel map cursor moves = .ok journey ∧
      (∀ here, journey.cursor.key journey.map = .ok { result := .ok (some here) } →
        ∃ keys next moved, journey.map.keys = .ok keys ∧ map.order.IsNext here keys next ∧
          journey.cursor.peekNext journey.map = .ok { result := .ok next } ∧
          journey.cursor.increment journey.map = .ok { result := .ok moved } ∧
          moved.key journey.map = .ok { result := .ok next } ∧ moved.isExhausted = next.isNone) ∧
      (start :: journey.visits.map Prod.snd).Pairwise (map.order.compare · · = .lt) ∧
      (journey.cursor.isExhausted = true → ∀ node slot key, map.arena.resolve node = some slot →
        map.arena.key slot = .ok key → map.order.compare start key = .lt →
        (journey.map.arena.resolve node).isSome = true →
        (journey.visits.map Prod.fst).count node = 1) := by
  obtain ⟨layout, h⟩ := reached.ordered lawful
  obtain ⟨before, e, after, own, position, split, rfl⟩ := entry_of_key h.toHolds shown
  obtain ⟨journey, final, travelled, later, _, course⟩ :=
    travel_from h own (split ▸ List.mem_append_cons_self) position moves
  refine ⟨journey, travelled, fun here shown => ?_, course.rising,
    fun done node slot key found stored above stays => ?_⟩
  · rw [← later.order]
    exact increment_next later.ordered shown
  · obtain ⟨x, member, rfl, rfl⟩ := h.arena.entry_of_resolve found
    obtain ⟨_, occupied⟩ := h.arena.occupied_of_mem member
    rw [Arena.key_of_occupied occupied] at stored
    obtain rfl := Except.ok.inj stored
    refine course.complete (beq_iff_eq.mp done) x member above fun gone => ?_
    rw [later.ordered.arena.resolve_past gone] at stays
    nomatch stays

/-- Two steps among changes: the entry that stays is come to, as is one that was put in ahead, and the
one that was taken out is not. -/
theorem travel_complete_among_changes :
    Map.sample.Reached ∧ ∃ journey,
      travel Map.sample { map := 0, position := .positioned ⟨1, 0⟩ }
          [.change (.remove [2]), .increment, .change (.insert [5] 50 {}), .increment, .increment] =
        .ok journey ∧
      journey.visits = [(⟨3, 0⟩, [3]), (⟨2, 1⟩, [5])] ∧ journey.cursor.isExhausted = true ∧
      (journey.visits.map Prod.fst).count ⟨3, 0⟩ = 1 := by
  have shown : ({ map := 0, position := .positioned ⟨1, 0⟩ } : Cursor).key Map.sample =
      .ok { result := .ok (some [1]) } := rfl
  obtain ⟨journey, travelled, _, _, complete⟩ :=
    travel_complete Map.sample_reached (KeyOrder.isTotalPreorder_ascend 1) shown
      [.change (.remove [2]), .increment, .change (.insert [5] 50 {}), .increment, .increment]
  have same := travelled
  obtain rfl := Except.ok.inj same
  exact ⟨Map.sample_reached, _, travelled, rfl, rfl, complete rfl ⟨3, 0⟩ 3 [3] rfl rfl rfl rfl⟩

end Cursor

end SkipList
