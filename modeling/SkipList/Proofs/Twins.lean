import SkipList.Proofs.Bare
import SkipList.Proofs.Onward

/-!
# Twins

Two maps with the same order and the same layout but for the heights. They answer every query alike, every
cursor finds the same in both, and a change leaves twins and takes the same number of draws from both.
-/

namespace SkipList

open Entry

variable {σ τ α β : Type}

def Answer.plain : Answer α → Answer α
  | .moved cursor => .moved { cursor with map := 0 }
  | .begun index cursor => .begun index { cursor with map := 0 }
  | answer => answer

/-- The reply without the ids of maps, the comparisons and the heights. -/
def Reply.plain {ε : Type} (reply : Reply α (Except ε (Answer α))) : Reply α (Except ε (Answer α)) :=
  (reply.map (Except.map Answer.plain)).bare

theorem Entry.map_of_bare {first second : List (Entry α)} {read : Entry α → β}
    (same : second.map Entry.bare = first.map Entry.bare) (blind : ∀ e : Entry α, read e.bare = read e) :
    second.map read = first.map read :=
  map_of_views same blind blind

structure Cursor.Alike (id id' : Nat) (first second : Cursor × Reply α (Except Error (Answer α))) :
    Prop where
  own : first.1.map = id
  moved : second.1 = { first.1 with map := id' }
  reply : second.2.plain = first.2.plain

theorem Cursor.Alike.of_moved {id id' : Nat} {here there next next' : Position} (same : next' = next)
    (trace trace' : Trace α) (seen : trace'.bare = trace.bare) :
    Alike id id' ((Cursor.mk id here).moving { result := .ok (Cursor.mk id next), trace })
      ((Cursor.mk id' there).moving { result := .ok (Cursor.mk id' next'), trace := trace' }) := by
  subst same
  refine { own := rfl, moved := rfl, reply := ?_ }
  simp only [Reply.plain, Cursor.moving, Reply.map, Reply.bare, seen]
  rfl

namespace Map

/-- The maps hold layouts that differ in the heights only. -/
structure Twins (a : Map σ α) (layout : Layout α) (b : Map τ α) (layout' : Layout α) : Prop where
  first : a.Ordered layout
  second : b.Ordered layout'
  order : b.order = a.order
  size : b.keySize = a.keySize
  bare : layout'.bare = layout.bare

namespace Twins

variable {a : Map σ α} {b : Map τ α} {layout layout' : Layout α} {key : Key}

/-! ### Queries -/

theorem entries_bare (twins : Twins a layout b layout') :
    layout'.entries.map Entry.bare = layout.entries.map Entry.bare :=
  congrArg Layout.entries twins.bare

theorem len (twins : Twins a layout b layout') : b.len = a.len := by
  rw [← twins.second.bare_length, ← twins.first.bare_length, twins.bare]

theorem searchable_iff (twins : Twins a layout b layout') : b.Searchable key ↔ a.Searchable key := by
  unfold Searchable
  rw [twins.len, twins.size]

theorem found_pair (twins : Twins a layout b layout') (key : Key) :
    (b.found layout' key).map pair = (a.found layout key).map pair := by
  rw [twins.first.found_eq twins.first.lawful twins.first.sorted,
    twins.second.found_eq twins.second.lawful twins.second.sorted, twins.order, twins.size]
  unfold listing
  rw [map_of_bare twins.entries_bare fun e => rfl]

theorem atLeast_bare (twins : Twins a layout b layout') :
    (b.atLeast layout' key).map Entry.bare = (a.atLeast layout key).map Entry.bare := by
  unfold atLeast
  by_cases searchable : a.Searchable key
  · rw [if_pos searchable, if_pos (twins.searchable_iff.mpr searchable)]
    have fit := searchable.2
    have upper := (twins.first.cut_eq fit (Cuts.self a layout key)).2
    have upper' := (twins.second.cut_eq (fit.trans twins.size.symm) (Cuts.self b layout' key)).2
    rw [← upper, ← upper', ← Layout.bare_upper, ← Layout.bare_upper, twins.bare, twins.order]
  · rw [if_neg searchable, if_neg fun other => searchable (twins.searchable_iff.mp other)]

theorem remnant_eq (twins : Twins a layout b layout') {first second : List (Entry α)}
    (same : second.map Entry.bare = first.map Entry.bare) : b.remnant second = a.remnant first := by
  unfold remnant
  rw [twins.len, map_of_bare same fun e => rfl]

theorem reads_eq (twins : Twins a layout b layout') {query : Query α} (not_height : query ≠ .height) :
    b.reads layout' query = a.reads layout query := by
  have pairs : layout'.entries.map pair = layout.entries.map pair :=
    map_of_bare twins.entries_bare fun e => rfl
  have values : layout'.entries.map (·.value) = layout.entries.map (·.value) :=
    map_of_bare twins.entries_bare fun e => rfl
  cases query with
  | get key =>
    have value := congrArg (Option.map Prod.snd) (twins.found_pair key)
    simp only [Option.map_map] at value
    exact congrArg Answer.value value
  | contains key =>
    have there := congrArg Option.isSome (twins.found_pair key)
    simp only [Option.isSome_map] at there
    exact congrArg Answer.flag there
  | getEntry key => exact congrArg Answer.entry (twins.found_pair key)
  | len => exact congrArg Answer.number twins.len
  | isEmpty => simp only [reads, isEmpty, twins.len]
  | height => exact absurd rfl not_height
  | keySize => exact congrArg Answer.number twins.size
  | order => simp only [reads, twins.order]
  | first => simp only [reads, ← List.head?_map, pairs]
  | firstValue => simp only [reads, ← List.head?_map, values]
  | last => simp only [reads, ← List.getLast?_map, pairs]
  | keys => exact congrArg Answer.keys (map_of_bare twins.entries_bare fun e => rfl)
  | values => exact congrArg Answer.values values
  | entries => exact congrArg Answer.entries pairs
  | located => exact congrArg Answer.located (map_of_bare twins.entries_bare fun e => rfl)
  | debugText text => simp only [reads, pairs]
  | debugLines text => simp only [reads, pairs]
  | traverse view steps => simp only [reads, twins.remnant_eq twins.entries_bare]
  | traverseFrom key steps => simp only [reads, twins.remnant_eq twins.atLeast_bare]

theorem takeValues_eq (twins : Twins a layout b layout') : b.takeValues = a.takeValues := by
  rw [twins.first.toHolds.takeValues_eq, twins.second.toHolds.takeValues_eq,
    map_of_bare twins.entries_bare fun e => rfl]

theorem storedValues_eq (twins : Twins a layout b layout') :
    b.arena.storedValues = a.arena.storedValues := by
  have find (l : Layout α) (index : Nat) : (l.entries.find? (·.slot = index)).map (·.value) =
      (l.bare.entries.find? (·.slot = index)).map (·.value) := by
    rw [Layout.bare, List.find?_map, Option.map_map]
    rfl
  rw [twins.first.arena.storedValues_eq, twins.second.arena.storedValues_eq, ← Layout.bare_slots layout',
    ← Layout.bare_slots layout, twins.bare]
  congr 1
  funext index
  rw [find layout', find layout, twins.bare]

/-! ### Cursors -/

open Cursor

theorem onward_cases (twins : Twins a layout b layout') (position : Position) :
    (∃ trace, (Cursor.mk a.id position).onward a.id layout.entries =
        { result := .error .invalidatedCursor, trace } ∧
      (Cursor.mk b.id position).onward b.id layout'.entries =
        { result := .error .invalidatedCursor, trace }) ∨
    ∃ rest rest', (Cursor.mk a.id position).onward a.id layout.entries = { result := .ok rest } ∧
      (Cursor.mk b.id position).onward b.id layout'.entries = { result := .ok rest' } ∧
      rest'.map Entry.bare = rest.map Entry.bare := by
  unfold onward
  rw [if_neg (not_not.mpr rfl), if_neg (not_not.mpr rfl)]
  cases position with
  | exhausted => exact Or.inr ⟨[], [], rfl, rfl, rfl⟩
  | positioned node =>
    have drop (entries : List (Entry α)) : (entries.dropWhile (·.id ≠ node)).map Entry.bare =
        (entries.map Entry.bare).dropWhile (·.id ≠ node) := by
      rw [List.dropWhile_map]
      rfl
    have same := (drop layout'.entries).trans (twins.entries_bare ▸ (drop layout.entries).symm)
    simp only
    cases rest : layout.entries.dropWhile (·.id ≠ node) with
    | nil =>
      rw [rest, List.map_nil, List.map_eq_nil_iff] at same
      rw [same]
      exact Or.inl ⟨_, rfl, rfl⟩
    | cons e after =>
      cases rest' : layout'.entries.dropWhile (·.id ≠ node) with
      | nil =>
        rw [rest, rest'] at same
        nomatch same
      | cons e' after' =>
        rw [rest, rest'] at same
        exact Or.inr ⟨_, _, rfl, rfl, same⟩

theorem sees_eq (twins : Twins a layout b layout') (position : Position) {read : List (Entry α) → β}
    (blind : ∀ rest rest' : List (Entry α), rest'.map Entry.bare = rest.map Entry.bare →
      read rest' = read rest) :
    (Cursor.mk b.id position).sees b layout' read = (Cursor.mk a.id position).sees a layout read := by
  unfold sees
  rcases twins.onward_cases position with ⟨trace, here, here'⟩ | ⟨rest, rest', here, here', same⟩
  · rw [here, here']
  · rw [here, here']
    simp only [Reply.map, Except.map, blind rest rest' same]

theorem head?_map {rest rest' : List (Entry α)} {read : Entry α → β}
    (same : rest'.map Entry.bare = rest.map Entry.bare) (blind : ∀ e : Entry α, read e.bare = read e) :
    rest'.head?.map read = rest.head?.map read := by
  rw [← List.head?_map, ← List.head?_map, map_of_bare same blind]

theorem place_eq {rest rest' : List (Entry α)} (same : rest'.map Entry.bare = rest.map Entry.bare) :
    place rest'.head? = place rest.head? := by
  have blind (link : Option (Entry α)) : place link = place (link.map Entry.bare) := by
    cases link <;> rfl
  rw [blind, ← List.head?_map, same, List.head?_map, ← blind]

theorem reacts_alike (twins : Twins a layout b layout') (position : Position) (call : Call) :
    Alike a.id b.id ((Cursor.mk a.id position).reacts a layout call)
      ((Cursor.mk b.id position).reacts b layout' call) := by
  have staying {γ : Type} (answer : γ → Answer α) {read : List (Entry α) → γ}
      (blind : ∀ rest rest' : List (Entry α), rest'.map Entry.bare = rest.map Entry.bare →
        read rest' = read rest) :
      Alike a.id b.id
        ((Cursor.mk a.id position).staying answer ((Cursor.mk a.id position).sees a layout read))
        ((Cursor.mk b.id position).staying answer ((Cursor.mk b.id position).sees b layout' read)) := by
    rw [twins.sees_eq position blind]
    exact { own := rfl, moved := rfl, reply := rfl }
  cases call with
  | key => exact staying .key fun _ _ same => head?_map same fun e => rfl
  | value => exact staying .value fun _ _ same => head?_map same fun e => rfl
  | entry => exact staying .entry fun _ _ same => head?_map same fun e => rfl
  | peekNext =>
    refine staying .key fun rest rest' same => head?_map ?_ fun e => rfl
    rw [List.map_tail, same, List.map_tail]
  | satisfies predicate => exact staying .satisfied fun _ _ same => head?_map same fun e => rfl
  | increment =>
    rw [reacts, reacts, sees, sees]
    rcases twins.onward_cases position with ⟨trace, here, here'⟩ | ⟨rest, rest', here, here', same⟩
    · rw [here, here']
      exact { own := rfl, moved := rfl, reply := rfl }
    · rw [here, here']
      exact .of_moved (place_eq (by rw [List.map_tail, same, List.map_tail])) _ _ rfl
  | seek key =>
    rw [reacts, reacts, if_neg (not_not.mpr rfl), if_neg (not_not.mpr rfl)]
    exact .of_moved (place_eq twins.atLeast_bare) _ _ rfl
  | isValid =>
    rw [reacts, reacts]
    rcases twins.onward_cases position with ⟨trace, here, here'⟩ | ⟨rest, rest', here, here', _⟩
    · rw [here, here']
      exact { own := rfl, moved := rfl, reply := rfl }
    · rw [here, here']
      exact { own := rfl, moved := rfl, reply := rfl }
  | walk =>
    rw [reacts, reacts, walked, walked]
    rcases twins.onward_cases position with ⟨trace, here, here'⟩ | ⟨rest, rest', here, here', same⟩
    · rw [here, here']
      exact { own := rfl, moved := rfl, reply := rfl }
    · rw [here, here']
      simp only [Reply.map, map_of_bare same fun e => (rfl : pair e.bare = pair e)]
      exact { own := rfl, moved := rfl, reply := rfl }

end Twins

/-! ### Changes -/

variable [DrawSource σ] [DrawSource τ]

/-- The maps have come from two others by changes that left them twins and took as many draws from both. -/
structure Pair (start : Map σ α) (start' : Map τ α) (a : Map σ α) (b : Map τ α) : Prop where
  twins : ∃ layout layout', Twins a layout b layout'
  draws : ∃ draws, a.source = DrawSource.skip draws start.source ∧
    b.source = DrawSource.skip draws start'.source
  ids : a.id = start.id ∧ b.id = start'.id

variable {start a a' : Map σ α} {start' b b' : Map τ α} {layout layout' rest rest' : Layout α}

omit [DrawSource τ] in
theorem skip_skip (source : σ) (m n : Nat) :
    DrawSource.skip n (DrawSource.skip m source) = DrawSource.skip (n + m) source := by
  induction n with
  | zero => rw [Nat.zero_add, DrawSource.skip]
  | succ n ih => rw [DrawSource.skip, ih, Nat.succ_add, DrawSource.skip]

/-- The same change of twins leaves twins, is answered alike and takes as many draws. -/
theorem Pair.of_turns (pair : Pair start start' a b) (twins : Twins a layout b layout')
    {change : Change α} {reply reply' : Reply α (Except Error (Answer α))}
    (turn : Turn a layout change a' rest reply) (holds : a'.Holds rest)
    (turn' : Turn b layout' change b' rest' reply') (holds' : b'.Holds rest') :
    Pair start start' a' b' ∧ reply'.bare = reply.bare := by
  obtain ⟨draws, played, source⟩ := turn.play_eq twins.first
  obtain ⟨draws', played', source'⟩ := turn'.play_eq twins.second
  rw [twins.bare, twins.order, twins.size, played] at played'
  obtain ⟨same, shown, rfl⟩ := Layout.Play.mk.inj played'
  obtain ⟨_, size, id, order⟩ := turn.frame
  obtain ⟨_, size', id', order'⟩ := turn'.frame
  obtain ⟨before, from_start, from_start'⟩ := pair.draws
  refine ⟨{ twins := ⟨rest, rest', ?_⟩, draws := ⟨draws + before, ?_, ?_⟩, ids := ?_ }, shown.symm⟩
  · exact
      { first := twins.first.of_turn turn holds, second := twins.second.of_turn turn' holds',
        order := by rw [order', order, twins.order], size := by rw [size', size, twins.size],
        bare := same.symm }
  · rw [source, from_start, skip_skip]
  · rw [source', from_start', skip_skip]
  · exact ⟨id.trans pair.ids.1, id'.trans pair.ids.2⟩

theorem Pair.apply_ok (pair : Pair start start' a b) (change : Change α) :
    ∃ a' b' reply reply', a.apply change = .ok (a', reply) ∧ b.apply change = .ok (b', reply') ∧
      Pair start start' a' b' ∧ reply'.bare = reply.bare := by
  obtain ⟨layout, layout', twins⟩ := pair.twins
  obtain ⟨a', rest, reply, made, turn, holds⟩ := twins.first.toHolds.apply_ok change
  obtain ⟨b', rest', reply', made', turn', holds'⟩ := twins.second.toHolds.apply_ok change
  exact ⟨a', b', reply, reply', made, made', pair.of_turns twins turn holds turn' holds'⟩

theorem Pair.insert_ok (pair : Pair start start' a b) (memory : Memory) (key : Key) (value : α) :
    ∃ a' b' reply reply', a.insert memory key value = .ok (a', reply) ∧
      b.insert memory key value = .ok (b', reply') ∧ Pair start start' a' b' ∧
      reply'.result = reply.result ∧ reply'.trace.bare = reply.trace.bare := by
  obtain ⟨layout, layout', twins⟩ := pair.twins
  obtain ⟨a', rest, reply, inserted, turn, holds⟩ := twins.first.inserts key value memory
  obtain ⟨b', rest', reply', inserted', turn', holds'⟩ := twins.second.inserts key value memory
  obtain ⟨pair', shown⟩ := pair.of_turns twins turn holds turn' holds'
  obtain ⟨result, trace⟩ := Reply.mk.inj shown
  refine ⟨a', b', reply, reply', inserted, inserted', pair', ?_, trace⟩
  simp only [Reply.map] at result
  cases outcome : reply.result <;> cases outcome' : reply'.result <;>
    simp_all [Except.map]

theorem Pair.remove_ok (pair : Pair start start' a b) (key : Key) :
    ∃ a' b' reply reply', a.remove key = .ok (a', reply) ∧ b.remove key = .ok (b', reply') ∧
      Pair start start' a' b' ∧ reply'.result = reply.result ∧ reply'.trace.bare = reply.trace.bare := by
  obtain ⟨layout, layout', twins⟩ := pair.twins
  obtain ⟨a', rest, outcome, trace, removed, turn, holds⟩ := twins.first.toHolds.remove_ok key
  obtain ⟨b', rest', outcome', trace', removed', turn', holds'⟩ := twins.second.toHolds.remove_ok key
  obtain ⟨pair', shown⟩ := pair.of_turns twins turn holds turn' holds'
  obtain ⟨result, seen⟩ := Reply.mk.inj shown
  exact ⟨a', b', _, _, removed, removed', pair', Answer.removed.inj (Except.ok.inj result), seen⟩

theorem Pair.keySize (pair : Pair start start' a b) : b.keySize = a.keySize := by
  obtain ⟨_, _, twins⟩ := pair.twins
  exact twins.size

/-! ### Other calls -/

theorem Pair.answer_ok (pair : Pair start start' a b) {query : Query α} (not_height : query ≠ .height) :
    ∃ reply reply', a.answer query = .ok reply ∧ b.answer query = .ok reply' ∧
      reply'.result = reply.result ∧ reply'.trace.bare = reply.trace.bare := by
  obtain ⟨layout, layout', twins⟩ := pair.twins
  have answered := twins.first.toHolds.answer_eq query
  have answered' := twins.second.toHolds.answer_eq query
  exact ⟨_, _, answered, answered', twins.reads_eq not_height, rfl⟩

theorem Pair.takeValues_ok (pair : Pair start start' a b) :
    ∃ values, a.takeValues = .ok values ∧ b.takeValues = .ok values := by
  obtain ⟨layout, layout', twins⟩ := pair.twins
  have taken := twins.first.toHolds.takeValues_eq
  exact ⟨_, taken, twins.takeValues_eq.trans taken⟩

theorem Pair.discard_eq (pair : Pair start start' a b) : b.discard = a.discard := by
  obtain ⟨layout, layout', twins⟩ := pair.twins
  rw [discard, discard, twins.storedValues_eq]

theorem Pair.begin_ok (pair : Pair start start' a b) :
    ∃ position, a.begin = .ok ⟨start.id, position⟩ ∧ b.begin = .ok ⟨start'.id, position⟩ := by
  obtain ⟨layout, layout', twins⟩ := pair.twins
  have begun := Cursor.begin_eq twins.first.toHolds
  have begun' := Cursor.begin_eq twins.second.toHolds
  rw [pair.ids.1] at begun
  rw [pair.ids.2, Twins.place_eq twins.entries_bare] at begun'
  exact ⟨_, begun, begun'⟩

theorem Pair.call_ok (pair : Pair start start' a b) (position : Position) (call : Cursor.Call) :
    ∃ next reply reply', (Cursor.mk start.id position).call a call = .ok (⟨start.id, next⟩, reply) ∧
      (Cursor.mk start'.id position).call b call = .ok (⟨start'.id, next⟩, reply') ∧
      reply'.plain = reply.plain := by
  obtain ⟨layout, layout', twins⟩ := pair.twins
  have alike := twins.reacts_alike position call
  rw [pair.ids.1, pair.ids.2] at alike
  rw [Cursor.call_eq twins.first.toHolds, Cursor.call_eq twins.second.toHolds]
  cases reacts : (Cursor.mk start.id position).reacts a layout call with
  | mk next reply =>
    cases reacts' : (Cursor.mk start'.id position).reacts b layout' call with
    | mk next' reply' =>
      rw [reacts, reacts'] at alike
      obtain ⟨own, moved, same⟩ := alike
      obtain ⟨map, next⟩ := next
      obtain rfl := own
      exact ⟨next, reply, reply', rfl, by rw [show next' = _ from moved], same⟩

end Map

end SkipList
