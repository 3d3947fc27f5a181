import Mathlib.Data.List.TakeWhile
import SkipList.Calls
import SkipList.Proofs.Identity
import SkipList.Proofs.Queries

/-!
# Cursors as lists

A cursor on a map that holds a layout, seen as the list of the entries from its node on. `call_eq` says
what every call through a cursor hands back and where it leaves the cursor, in terms of that list.
-/

namespace SkipList.Cursor

open Entry

variable {σ α β : Type}

def place : Option (Entry α) → Position
  | none => .exhausted
  | some e => .positioned e.id

/-- The entries from the cursor's node on, in the map of that id; none are left behind the last one. A
cursor whose node is not among the entries is refused. -/
def onward (cursor : Cursor) (map : Nat) (entries : List (Entry α)) :
    Reply α (Except Error (List (Entry α))) :=
  if cursor.map ≠ map then { result := .error .invalidatedCursor }
  else match cursor.position with
    | .exhausted => { result := .ok [] }
    | .positioned node =>
      match entries.dropWhile (·.id ≠ node) with
      | [] => { result := .error .invalidatedCursor, trace := { events := [.cursorRemoved node.index] } }
      | e :: after => { result := .ok (e :: after) }

/-- What is read off the entries from the cursor's node on. -/
def sees (cursor : Cursor) (map : Map σ α) (layout : Layout α) (read : List (Entry α) → β) :
    Reply α (Except Error β) :=
  (cursor.onward map.id layout.entries).map (Except.map read)

def onto (cursor : Cursor) (entries : List (Entry α)) : Cursor :=
  { cursor with position := place entries.head? }

variable {cursor : Cursor} {map : Map σ α} {layout : Layout α} {entries : List (Entry α)}

theorem onto_nil (position : cursor.position = .exhausted) : cursor.onto ([] : List (Entry α)) = cursor := by
  rw [onto, List.head?_nil, place, ← position]

theorem onto_cons {e : Entry α} (position : cursor.position = .positioned e.id) (after : List (Entry α)) :
    cursor.onto (e :: after) = cursor := by
  rw [onto, List.head?_cons, place, ← position]

/-! ### The node of a cursor -/

theorem onward_cases (cursor : Cursor) (map : Nat) (entries : List (Entry α)) :
    (cursor.map ≠ map ∧ cursor.onward map entries = { result := .error .invalidatedCursor }) ∨
    (cursor.map = map ∧ cursor.position = .exhausted ∧ cursor.onward map entries = { result := .ok [] }) ∨
    (∃ id, cursor.map = map ∧ cursor.position = .positioned id ∧ (∀ e ∈ entries, e.id ≠ id) ∧
      cursor.onward map entries =
        { result := .error .invalidatedCursor, trace := { events := [.cursorRemoved id.index] } }) ∨
    ∃ before e after, cursor.map = map ∧ cursor.position = .positioned e.id ∧
      entries = before ++ e :: after ∧ (∀ x ∈ before, x.id ≠ e.id) ∧
      cursor.onward map entries = { result := .ok (e :: after) } := by
  unfold onward
  by_cases own : cursor.map = map
  · rw [if_neg (not_not.mpr own)]
    cases position : cursor.position with
    | exhausted => exact Or.inr (Or.inl ⟨own, rfl, rfl⟩)
    | positioned id =>
      simp only
      have whole : entries.takeWhile (·.id ≠ id) ++ entries.dropWhile (·.id ≠ id) = entries :=
        List.takeWhile_append_dropWhile
      have skipped : ∀ x ∈ entries.takeWhile (·.id ≠ id), x.id ≠ id := fun x member => by
        simpa using List.mem_takeWhile_imp member
      cases rest : entries.dropWhile (·.id ≠ id) with
      | nil =>
        rw [rest, List.append_nil] at whole
        rw [whole] at skipped
        exact Or.inr (Or.inr (Or.inl ⟨id, own, rfl, skipped, rfl⟩))
      | cons e after =>
        have stopped := List.head?_dropWhile_not (·.id ≠ id) entries
        rw [rest] at stopped
        have here : e.id = id := by simpa using stopped
        subst here
        rw [rest] at whole
        exact Or.inr (Or.inr (Or.inr ⟨_, e, after, own, rfl, whole.symm, skipped, rfl⟩))
  · rw [if_pos own]
    exact Or.inl ⟨own, rfl⟩

theorem onward_silent (cursor : Cursor) (map : Nat) (entries : List (Entry α)) :
    (cursor.onward map entries).trace.compared = [] ∧ (cursor.onward map entries).trace.dropped = [] := by
  rcases onward_cases cursor map entries with
    ⟨_, same⟩ | ⟨_, _, same⟩ | ⟨_, _, _, _, same⟩ | ⟨_, _, _, _, _, _, _, same⟩
  all_goals
    rw [same]
    exact ⟨rfl, rfl⟩

theorem onward_suffix {map : Nat} {rest : List (Entry α)}
    (found : (cursor.onward map entries).result = .ok rest) : rest <:+ entries := by
  rcases onward_cases cursor map entries with
    ⟨_, same⟩ | ⟨_, _, same⟩ | ⟨_, _, _, _, same⟩ | ⟨before, e, after, _, _, split, _, same⟩
  · rw [same] at found; nomatch found
  · rw [same] at found
    obtain rfl := Except.ok.inj found
    exact List.nil_suffix
  · rw [same] at found; nomatch found
  · rw [same] at found
    obtain rfl := Except.ok.inj found
    exact ⟨before, split.symm⟩

theorem onward_onto (h : map.Holds layout) (own : cursor.map = map.id) {before after : List (Entry α)}
    (split : layout.entries = before ++ after) :
    (cursor.onto after).onward map.id layout.entries = { result := .ok after } := by
  cases after with
  | nil => exact if_neg (not_not.mpr own)
  | cons e after =>
    have skipped : ∀ x ∈ before, decide (x.id ≠ e.id) = true := by
      intro x member
      have distinct := h.arena.entries_nodup
      rw [split, List.map_append, List.map_cons] at distinct
      have apart := (List.nodup_append.mp distinct).2.2 x.slot (List.mem_map_of_mem member) e.slot
        List.mem_cons_self
      exact decide_eq_true fun same => apart (congrArg NodeId.index same)
    have rest : layout.entries.dropWhile (·.id ≠ e.id) = e :: after := by
      rw [split, List.dropWhile_append_of_pos skipped, List.dropWhile_cons_of_neg (by simp)]
    have same : (cursor.onto (e :: after)).map = map.id := own
    unfold onward
    rw [if_neg (not_not.mpr same)]
    simp only [onto, place, List.head?_cons, rest]

theorem onward_entry (h : map.Holds layout) (own : cursor.map = map.id) {before after : List (Entry α)}
    {e : Entry α} (split : layout.entries = before ++ e :: after)
    (position : cursor.position = .positioned e.id) :
    cursor.onward map.id layout.entries = { result := .ok (e :: after) } := by
  have found := onward_onto h own split
  rwa [onto_cons position] at found

theorem onward_exhausted {map : Nat} (own : cursor.map = map) (position : cursor.position = .exhausted) :
    cursor.onward map entries = { result := .ok [] } := by
  unfold onward
  rw [if_neg (not_not.mpr own), position]

theorem onward_gone {map : Nat} {id : NodeId} (own : cursor.map = map)
    (position : cursor.position = .positioned id) (gone : ∀ e ∈ entries, e.id ≠ id) :
    cursor.onward map entries =
      { result := .error .invalidatedCursor, trace := { events := [.cursorRemoved id.index] } } := by
  have rest : entries.dropWhile (·.id ≠ id) = [] :=
    List.dropWhile_eq_nil_iff.mpr fun e member => decide_eq_true (gone e member)
  unfold onward
  rw [if_neg (not_not.mpr own), position]
  simp only [rest]

theorem resolve_eq (h : map.Holds layout) (cursor : Cursor) :
    cursor.resolve map = cursor.sees map layout fun rest => rest.head?.map (·.slot) := by
  unfold sees resolve
  rcases onward_cases cursor map.id layout.entries with
    ⟨foreign, same⟩ | ⟨own, position, same⟩ | ⟨id, own, position, gone, same⟩ |
      ⟨before, e, after, own, position, split, _, same⟩
  · rw [same, if_pos foreign]
    rfl
  · rw [same, if_neg (not_not.mpr own), position]
    rfl
  · rw [same, if_neg (not_not.mpr own), position]
    have lost : map.arena.resolve id = none := by
      cases found : map.arena.resolve id with
      | none => rfl
      | some slot =>
        obtain ⟨e, member, here, _⟩ := h.arena.entry_of_resolve found
        exact absurd here (gone e member)
    simp only [lost]
    rfl
  · rw [same, if_neg (not_not.mpr own), position]
    have found := h.arena.resolve_entry (e := e) (split ▸ List.mem_append_cons_self)
    simp only [found]
    rfl

/-- A call that uses the slot of a cursor reads off what its use gives on each possible list. -/
theorem withSlot_eq (h : map.Holds layout) (cursor : Cursor) {use : Link → Except Fault β}
    {read : List (Entry α) → β}
    (used : ∀ rest, (cursor.onward map.id layout.entries).result = .ok rest →
      use (rest.head?.map (·.slot)) = .ok (read rest)) :
    cursor.withSlot map use = .ok (cursor.sees map layout read) := by
  simp only [withSlot, resolve_eq h, sees, Reply.map]
  cases found : (cursor.onward map.id layout.entries).result with
  | error error => rfl
  | ok rest => simp only [Except.map, used rest found, ok_bind, pure_eq_ok]

/-! ### Calls -/

theorem positionOf_eq (h : map.Holds layout) {link : Option (Entry α)}
    (listed : ∀ e ∈ link, e ∈ layout.entries) :
    map.positionOf (link.map (·.slot)) = .ok (place link) := by
  cases link with
  | none => rfl
  | some e =>
    obtain ⟨after, found⟩ := h.arena.occupied_of_mem (listed e rfl)
    simp only [Option.map_some, Map.positionOf, Arena.id_of_occupied found, ok_bind, pure_eq_ok]
    rfl

theorem mem_of_head? {rest : List (Entry α)} (suffix : rest <:+ entries) :
    ∀ e ∈ rest.head?, e ∈ entries :=
  fun _ first => suffix.mem (List.mem_of_mem_head? first)

theorem begin_eq (h : map.Holds layout) :
    map.begin = .ok { map := map.id, position := place layout.entries.head? } := by
  have listed := mem_of_head? (List.suffix_refl layout.entries)
  simp only [Map.begin, Map.firstSlot, h.arena.next_first map.maxHeight.one_le, ok_bind,
    positionOf_eq h listed, pure_eq_ok]

theorem entry_eq (h : map.Holds layout) (cursor : Cursor) :
    cursor.entry map = .ok (cursor.sees map layout fun rest => rest.head?.map pair) :=
  withSlot_eq h cursor fun _ found => h.entryAt?_eq (mem_of_head? (onward_suffix found))

theorem peekNext_eq (h : map.Holds layout) (cursor : Cursor) :
    cursor.peekNext map = .ok (cursor.sees map layout fun rest => rest.tail.head?.map (·.key)) := by
  refine withSlot_eq h cursor fun rest found => ?_
  have suffix := onward_suffix found
  cases rest with
  | nil => rfl
  | cons e after =>
    obtain ⟨before, split⟩ := suffix
    simp only [List.head?_cons, Option.map_some, h.arena.next_bottom split.symm, ok_bind, List.tail_cons]
    cases first : after.head? with
    | none => rfl
    | some x =>
      have listed : x ∈ layout.entries := split ▸
        List.mem_append_right _ (List.mem_cons_of_mem _ (List.mem_of_mem_head? first))
      obtain ⟨_, there⟩ := h.arena.occupied_of_mem listed
      simp only [Option.map_some, Arena.key_of_occupied there, ok_bind, pure_eq_ok]
      rfl

theorem increment_eq (h : map.Holds layout) (cursor : Cursor) :
    cursor.increment map = .ok (cursor.sees map layout fun rest => cursor.onto rest.tail) := by
  refine withSlot_eq h cursor fun rest found => ?_
  rcases onward_cases cursor map.id layout.entries with
    ⟨_, same⟩ | ⟨_, position, same⟩ | ⟨_, _, _, _, same⟩ | ⟨before, e, after, _, _, split, _, same⟩
  · rw [same] at found; nomatch found
  · rw [same] at found
    obtain rfl := Except.ok.inj found
    simp only [List.head?_nil, Option.map_none, pure_eq_ok, onto, List.tail_nil, place, ← position]
  · rw [same] at found; nomatch found
  · rw [same] at found
    obtain rfl := Except.ok.inj found
    have listed := mem_of_head? (show after <:+ layout.entries from
      ⟨before ++ [e], by rw [split, List.append_assoc]; rfl⟩)
    simp only [List.head?_cons, Option.map_some, h.arena.next_bottom split, ok_bind,
      positionOf_eq h listed, pure_eq_ok, onto, List.tail_cons]

theorem isValid_eq (h : map.Holds layout) (cursor : Cursor) :
    cursor.isValid map = (cursor.onward map.id layout.entries).map Except.isOk := by
  simp only [isValid, resolve_eq h, sees, Reply.map]
  cases (cursor.onward map.id layout.entries).result <;> rfl

theorem seek_eq (h : map.Holds layout) (own : cursor.map = map.id) (key : Key) :
    cursor.seek map key = .ok
      { result := .ok (cursor.onto (map.atLeast layout key))
        trace := { compared := map.comparisonsTo layout key } } := by
  have listed := mem_of_head? (Map.atLeast_suffix map layout key)
  simp only [seek, own, ne_eq, not_true, if_false, h.lowerBound_eq, positionOf_eq h listed, ok_bind,
    pure_eq_ok, onto]

theorem walkWithin_eq (h : map.Holds layout) (own : cursor.map = map.id) {before after : List (Entry α)}
    (split : layout.entries = before ++ after) {fuel : Nat} (enough : after.length < fuel) :
    walkWithin map fuel (cursor.onto after) = .ok
      { result :=
          { entries := after.map pair, refusal := none
            cursor := cursor.onto ([] : List (Entry α)) } } := by
  have here := onward_onto h own split
  induction after generalizing before fuel with
  | nil =>
    obtain ⟨fuel, rfl⟩ := Nat.exists_eq_add_one_of_ne_zero (Nat.ne_of_gt enough)
    simp only [walkWithin, entry_eq h, sees, here, Reply.map, Except.map, ok_bind, List.head?_nil,
      Option.map_none, pure_eq_ok, List.map_nil]
  | cons e rest ih =>
    obtain ⟨fuel, rfl⟩ := Nat.exists_eq_add_one_of_ne_zero (Nat.ne_of_gt (Nat.zero_lt_of_lt enough))
    have shorter : layout.entries = (before ++ [e]) ++ rest := by rw [split, List.append_cons]
    have further := ih shorter (Nat.lt_of_succ_lt_succ enough) (onward_onto h own shorter)
    have next : (cursor.onto (e :: rest)).onto rest = cursor.onto rest := rfl
    simp only [walkWithin, entry_eq h, increment_eq h, sees, here, Reply.map, Except.map, ok_bind,
      List.head?_cons, Option.map_some, List.tail_cons, next, further, pure_eq_ok, List.map_cons]
    rfl

def walked (cursor : Cursor) (map : Map σ α) (layout : Layout α) : Reply α (Walk α) :=
  (cursor.onward map.id layout.entries).map fun result => match result with
    | .error error => { entries := [], refusal := some error, cursor }
    | .ok rest =>
      { entries := rest.map pair, refusal := none, cursor := cursor.onto ([] : List (Entry α)) }

theorem walk_eq (h : map.Holds layout) (cursor : Cursor) :
    cursor.walk map = .ok (cursor.walked map layout) := by
  have bound {before after : List (Entry α)} (split : layout.entries = before ++ after) :
      after.length < map.arena.slots.size + 1 := Nat.lt_succ_of_lt (h.arena.after_lt_size split)
  rcases onward_cases cursor map.id layout.entries with
    ⟨_, same⟩ | ⟨own, position, same⟩ | ⟨id, own, _, _, same⟩ |
      ⟨before, e, after, own, position, split, _, same⟩
  · simp only [walk, walkWithin, entry_eq h, sees, walked, same, Reply.map, Except.map, ok_bind,
      pure_eq_ok]
  · have split : layout.entries = layout.entries ++ [] := (List.append_nil _).symm
    have done := walkWithin_eq h own split (bound split)
    rw [onto_nil position] at done
    simp only [walk, done, walked, same, Reply.map, List.map_nil, onto_nil position]
  · simp only [walk, walkWithin, entry_eq h, sees, walked, same, Reply.map, Except.map, ok_bind,
      pure_eq_ok]
  · have done := walkWithin_eq h own split (bound split)
    rw [onto_cons position] at done
    simp only [walk, done, walked, same, Reply.map]

/-- What a call through a cursor hands back, and the cursor after it. -/
def reacts (cursor : Cursor) (map : Map σ α) (layout : Layout α) :
    Call → Cursor × Reply α (Except Error (Answer α))
  | .key => cursor.staying .key (cursor.sees map layout fun rest => rest.head?.map (·.key))
  | .value => cursor.staying .value (cursor.sees map layout fun rest => rest.head?.map (·.value))
  | .entry => cursor.staying .entry (cursor.sees map layout fun rest => rest.head?.map pair)
  | .peekNext => cursor.staying .key (cursor.sees map layout fun rest => rest.tail.head?.map (·.key))
  | .increment => cursor.moving (cursor.sees map layout fun rest => cursor.onto rest.tail)
  | .seek key => cursor.moving <|
    if cursor.map ≠ map.id then { result := .error .invalidatedCursor }
    else
      { result := .ok (cursor.onto (map.atLeast layout key))
        trace := { compared := map.comparisonsTo layout key } }
  | .satisfies predicate =>
    cursor.staying .satisfied (cursor.sees map layout fun rest => rest.head?.map (predicate ·.key))
  | .isValid =>
    (cursor, (cursor.onward map.id layout.entries).map fun result => .ok (.flag result.isOk))
  | .walk =>
    ((cursor.walked map layout).result.cursor,
      (cursor.walked map layout).map fun walk => .ok (.walked walk.entries walk.refusal))

theorem sees_map {γ : Type} (cursor : Cursor) (map : Map σ α) (layout : Layout α)
    (read : List (Entry α) → β) (view : β → γ) :
    (cursor.sees map layout read).map (Except.map view) =
      cursor.sees map layout fun rest => view (read rest) := by
  simp only [sees, Reply.map]
  cases (cursor.onward map.id layout.entries).result <;> rfl

theorem key_eq (h : map.Holds layout) (cursor : Cursor) :
    cursor.key map = .ok (cursor.sees map layout fun rest => rest.head?.map (·.key)) := by
  simp only [Cursor.key, entry_eq h, ok_bind, pure_eq_ok, sees_map, Option.map_map]
  rfl

theorem satisfies_eq (h : map.Holds layout) (cursor : Cursor) (predicate : Key → Bool) :
    cursor.satisfies map predicate =
      .ok (cursor.sees map layout fun rest => rest.head?.map (predicate ·.key)) := by
  simp only [satisfies, key_eq h, ok_bind, pure_eq_ok, sees_map, Option.map_map]
  rfl

theorem holds_eq (h : map.Holds layout) (cursor : Cursor) (predicate : Key → Bool) :
    cursor.holds map predicate =
      .ok (cursor.sees map layout fun rest => (rest.head?.map (predicate ·.key)).getD false) := by
  simp only [Cursor.holds, satisfies_eq h, ok_bind, pure_eq_ok, sees_map]

theorem call_eq (h : map.Holds layout) (cursor : Cursor) (call : Call) :
    cursor.call map call = .ok (cursor.reacts map layout call) := by
  cases call with
  | key => simp only [Cursor.call, key_eq h, ok_bind, pure_eq_ok, reacts]
  | value =>
    simp only [Cursor.call, Cursor.value, entry_eq h, ok_bind, pure_eq_ok, sees_map, Option.map_map,
      reacts]
    rfl
  | entry => simp only [Cursor.call, entry_eq h, ok_bind, pure_eq_ok, reacts]
  | peekNext => simp only [Cursor.call, peekNext_eq h, ok_bind, pure_eq_ok, reacts]
  | increment => simp only [Cursor.call, increment_eq h, ok_bind, pure_eq_ok, reacts]
  | seek key =>
    by_cases own : cursor.map = map.id
    · simp only [Cursor.call, seek_eq h own, ok_bind, pure_eq_ok, reacts, own, ne_eq, not_true, if_false]
    · simp only [Cursor.call, seek, own, ne_eq, not_false_eq_true, if_true, ok_bind, pure_eq_ok, reacts]
  | satisfies predicate => simp only [Cursor.call, satisfies_eq h, ok_bind, pure_eq_ok, reacts]
  | isValid => simp only [Cursor.call, isValid_eq h, Reply.map, pure_eq_ok, reacts]
  | walk => simp only [Cursor.call, walk_eq h, ok_bind, pure_eq_ok, reacts]

end SkipList.Cursor
