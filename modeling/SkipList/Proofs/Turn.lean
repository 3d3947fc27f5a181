import SkipList.Calls
import SkipList.Proofs.Descent
import SkipList.Proofs.Heights
import SkipList.Proofs.Linking

/-!
# Turns

One change to a map that holds a layout. `Turn` lists every case: the next map, the next layout and the
reply. `apply_ok` says that a change never fails and takes one of the turns, under any key order.
-/

namespace SkipList.Map

open Entry

variable {σ α : Type}

/-- The map holds the layout, and counts its entries. -/
structure Holds (map : Map σ α) (layout : Layout α) : Prop where
  arena : map.arena.Holds map.maxHeight.levels layout
  len : map.len = layout.entries.length
  fit : ∀ e ∈ layout.entries, e.key.length = map.keySize

def way (map : Map σ α) (layout : Layout α) (key : Key) : Leg α :=
  Entry.way map.order key map.maxHeight.levels layout.entries

/-- The way down to a key passes `before` and leaves `after` ahead. -/
structure Cuts (map : Map σ α) (layout : Layout α) (key : Key) (before after : List (Entry α)) : Prop where
  passed : (map.way layout key).passed = before
  ahead : (map.way layout key).ahead = after

/-- The comparisons of inserting or removing a key. -/
def probes (map : Map σ α) (layout : Layout α) (key : Key) : List Comparison :=
  (map.way layout key).compared ++
    ((map.way layout key).ahead.head?.map (·.comparison map.order key 0)).toList

def found (map : Map σ α) (layout : Layout α) (key : Key) : Option (Entry α) :=
  if map.Searchable key then (map.way layout key).equal else none

def glances (map : Map σ α) (layout : Layout α) (key : Key) : List Comparison :=
  if map.Searchable key then glance map.order key map.maxHeight.levels layout.entries else []

/-- What a change does to a map that holds the layout: the next map, its layout and the reply. -/
inductive Turn [DrawSource σ] (map : Map σ α) (layout : Layout α) :
    Change α → Map σ α → Layout α → Reply α (Except Error (Answer α)) → Prop where
  | unfit {key : Key} {value : α} {memory : Memory} (unfit : key.length ≠ map.keySize) :
      Turn map layout (.insert key value memory) map layout
        { result := .error (.keySize map.keySize key.length), trace := { dropped := [value] } }
  | updated {key : Key} {value : α} {memory : Memory} {before after : List (Entry α)} {e : Entry α}
      {arena : Arena α} (fit : key.length = map.keySize) (cuts : map.Cuts layout key before (e :: after))
      (equal : map.order.compare e.key key = .eq) :
      Turn map layout (.insert key value memory) { map with arena }
        (layout.withEntries (before ++ { e with value } :: after))
        { result := .ok (.inserted (.updated e.value)), trace := { compared := map.probes layout key } }
  | inserted {key : Key} {value : α} {memory : Memory} {before after : List (Entry α)} {height : Height}
      {source : σ} {arena : Arena α} (fit : key.length = map.keySize)
      (cuts : map.Cuts layout key before after)
      (new : ∀ e ∈ after.head?, map.order.compare e.key key ≠ .eq)
      (drawn : map.maxHeight.random map.source = .ok (height, source))
      (permitted : layout.permit memory key height.levels = .ok ()) :
      Turn map layout (.insert key value memory) { map with arena, source, len := map.len + 1 }
        (layout.add before after height.levels key value)
        { result := .ok (.inserted .inserted)
          trace :=
            { compared := map.probes layout key
              events := [.spliced layout.place.1 height.levels (map.len + 1)] } }
  /-- Without memory or without a slot only the draw has been taken. -/
  | refused {key : Key} {value : α} {memory : Memory} {before after : List (Entry α)} {height : Height}
      {source : σ} {error : Error} (fit : key.length = map.keySize)
      (cuts : map.Cuts layout key before after)
      (new : ∀ e ∈ after.head?, map.order.compare e.key key ≠ .eq)
      (drawn : map.maxHeight.random map.source = .ok (height, source))
      (refused : layout.permit memory key height.levels = .error error) :
      Turn map layout (.insert key value memory) { map with source } layout
        { result := .error error
          trace := { compared := map.probes layout key, dropped := [value] } }
  | missed {key : Key} {before after : List (Entry α)} (cuts : map.Cuts layout key before after)
      (missing : map.Searchable key → ∀ e ∈ after.head?, map.order.compare e.key key ≠ .eq) :
      Turn map layout (.remove key) map layout
        { result := .ok (.removed .notFound)
          trace := { compared := if map.Searchable key then map.probes layout key else [] } }
  | removed {key : Key} {before after : List (Entry α)} {e : Entry α} {arena : Arena α}
      (searchable : map.Searchable key) (cuts : map.Cuts layout key before (e :: after))
      (equal : map.order.compare e.key key = .eq) :
      Turn map layout (.remove key) { map with arena, len := map.len - 1 } (layout.remove before e after)
        { result := .ok (.removed (.removed e.value))
          trace :=
            { compared := map.probes layout key
              events := [.unspliced e.slot e.height (map.len - 1)] } }
  /-- Erasing is removing and dropping the value. -/
  | erased {key : Key} {next : Map σ α} {rest : Layout α} {outcome : Removal α} {trace : Trace α}
      (removal : Turn map layout (.remove key) next rest { result := .ok (.removed outcome), trace }) :
      Turn map layout (.erase key) next rest
        { result := .ok (.flag outcome.isRemoved)
          trace := { trace with dropped := trace.dropped ++ outcome.value?.toList } }
  | unmodified {key : Key} {change : α → α} {compared : List Comparison}
      (start : compared <+: (map.way layout key).compared) (missing : map.found layout key = none) :
      Turn map layout (.modify key change) map layout
        { result := .ok (.value none), trace := { compared } }
  | modified {key : Key} {change : α → α} {before after : List (Entry α)} {e : Entry α}
      {arena : Arena α} {compared : List Comparison} (start : compared <+: (map.way layout key).compared)
      (split : layout.entries = before ++ e :: after) (found : map.found layout key = some e) :
      Turn map layout (.modify key change) { map with arena }
        (layout.withEntries (before ++ { e with value := change e.value } :: after))
        { result := .ok (.value (some (change e.value))), trace := { compared } }
  | cleared {arena : Arena α} :
      Turn map layout .clear { map with arena, len := 0 } layout.clear
        { result := .ok .done, trace := { dropped := layout.entries.map (·.value) } }

variable {map : Map σ α} {layout : Layout α} {key : Key} {before after : List (Entry α)}

/-! ### The place of a key -/

theorem Cuts.self (map : Map σ α) (layout : Layout α) (key : Key) :
    map.Cuts layout key (map.way layout key).passed (map.way layout key).ahead :=
  ⟨rfl, rfl⟩

theorem Cuts.unique {before' after' : List (Entry α)} (cuts : map.Cuts layout key before after)
    (other : map.Cuts layout key before' after') : before = before' ∧ after = after' :=
  ⟨cuts.passed.symm.trans other.passed, cuts.ahead.symm.trans other.ahead⟩

theorem Cuts.split (cuts : map.Cuts layout key before after) : layout.entries = before ++ after := by
  rw [← cuts.passed, ← cuts.ahead]
  exact (way_append _ _ _ _).symm

theorem way_ahead_suffix (map : Map σ α) (layout : Layout α) (key : Key) :
    (map.way layout key).ahead <:+ layout.entries :=
  ⟨_, (Cuts.self map layout key).split.symm⟩

theorem Cuts.last_lt (cuts : map.Cuts layout key before after) :
    ∀ e ∈ before.getLast?, map.order.compare e.key key = .lt := by
  intro e last
  rw [← cuts.passed] at last
  exact way_last e last

theorem Cuts.first_ne_lt (cuts : map.Cuts layout key before after) (h : map.Holds layout) :
    ∀ e ∈ after.head?, map.order.compare e.key key ≠ .lt := by
  intro e first
  rw [← cuts.ahead] at first
  exact way_stop map.maxHeight.one_le (fun x listed => (h.arena.heights x listed).1) e first

theorem Cuts.searchable (cuts : map.Cuts layout key before after) (h : map.Holds layout)
    (fit : key.length = map.keySize) {e : Entry α} (first : e ∈ after.head?) : map.Searchable key := by
  refine ⟨?_, fit⟩
  have some_ahead := List.length_pos_of_mem (List.mem_of_mem_head? first)
  rw [h.len, cuts.split, List.length_append]
  omega

theorem glances_prefix (map : Map σ α) (layout : Layout α) (key : Key) :
    map.glances layout key <+: (map.way layout key).compared := by
  unfold glances
  split
  · exact glance_prefix _ _ _ _
  · exact List.nil_prefix

theorem found_mem {e : Entry α} (found : map.found layout key = some e) :
    e ∈ layout.entries ∧ map.order.compare e.key key = .eq ∧ map.Searchable key := by
  unfold Map.found at found
  split at found
  · rename_i searchable
    obtain ⟨member, equal⟩ := way_equal e found
    exact ⟨member, equal, searchable⟩
  · nomatch found

namespace Holds

theorem splice_cases (h : map.Holds layout) (key : Key) :
    (∃ before e after, map.Cuts layout key before (e :: after) ∧ map.order.compare e.key key = .eq ∧
      map.arena.splice map.order map.maxHeight.levels key = .ok
        { path := pathTo map.maxHeight.levels before, slot := some e.slot,
          compared := map.probes layout key }) ∨
    (∃ before after, map.Cuts layout key before after ∧
      (∀ e ∈ after.head?, map.order.compare e.key key ≠ .eq) ∧
      map.arena.splice map.order map.maxHeight.levels key = .ok
        { path := pathTo map.maxHeight.levels before, slot := none,
          compared := map.probes layout key }) := by
  have search := h.arena.splice_eq map.maxHeight.one_le map.order key
  cases hits : hit map.order key (map.way layout key).ahead with
  | some e =>
    obtain ⟨⟨after, ahead⟩, equal⟩ := hit_eq_some_iff.mp hits
    refine Or.inl ⟨_, e, after, ⟨rfl, ahead⟩, equal, ?_⟩
    rw [search]
    unfold way at hits
    rw [hits]
    rfl
  | none =>
    refine Or.inr ⟨_, _, ⟨rfl, rfl⟩, fun e first equal => ?_, ?_⟩
    · have filtered := Option.filter_eq_none_iff.mp hits e first
      simp [equal] at filtered
    · rw [search]
      unfold way at hits
      rw [hits]
      rfl

theorem find_eq (h : map.Holds layout) (key : Key) :
    map.find key = .ok
      { slot := (map.found layout key).map (·.slot), compared := map.glances layout key } := by
  by_cases searchable : map.Searchable key
  · rw [Map.find, if_pos searchable, h.arena.find_eq, found, if_pos searchable, glances,
      if_pos searchable]
    rfl
  · rw [Map.find, if_neg searchable, found, if_neg searchable, glances, if_neg searchable]
    rfl

theorem written {e : Entry α} {value : α} {arena : Arena α} (h : map.Holds layout)
    (split : layout.entries = before ++ e :: after)
    (holds : arena.Holds map.maxHeight.levels
      (layout.withEntries (before ++ { e with value } :: after))) :
    ({ map with arena } : Map σ α).Holds (layout.withEntries (before ++ { e with value } :: after)) := by
  refine { arena := holds, len := ?_, fit := fun x listed => ?_ }
  · refine h.len.trans ?_
    simp only [split, Layout.withEntries, List.length_append, List.length_cons]
  · rcases mem_split.mp listed with rfl | other
    · exact h.fit e (split ▸ List.mem_append_cons_self)
    · exact h.fit x (split ▸ mem_split.mpr (Or.inr other))

/-! ### Every change -/

variable [DrawSource σ]

theorem insert_ok (h : map.Holds layout) (key : Key) (value : α) (memory : Memory) :
    ∃ next rest reply, map.apply (.insert key value memory) = .ok (next, reply) ∧
      Turn map layout (.insert key value memory) next rest reply ∧ next.Holds rest := by
  by_cases fit : key.length = map.keySize
  · rcases h.splice_cases key with ⟨before, e, after, cuts, equal, search⟩ | ⟨before, after, cuts, new, search⟩
    · have split := cuts.split
      obtain ⟨arena, written, holds⟩ := h.arena.setValue_ok split value
      refine ⟨{ map with arena }, _, _, ?_, .updated fit cuts equal, h.written split holds⟩
      simp only [apply, insert, fit, ne_eq, not_true, if_false, search, ok_bind,
        Arena.node_of_occupied (h.arena.occupied before e after split), written, pure_eq_ok]
      rfl
    · have split := cuts.split
      obtain ⟨height, drawn, low⟩ := map.maxHeight.random_ok map.source
      cases permitted : layout.permit memory key height.levels with
      | ok _ =>
        obtain ⟨arena, linked, holds⟩ := h.arena.link_ok split height.one_le low value permitted
        refine ⟨{ map with arena, source := _, len := map.len + 1 }, _, _, ?_,
          .inserted fit cuts new drawn permitted, ?_⟩
        · simp only [apply, insert, insertNew, fit, ne_eq, not_true, if_false, search, ok_bind, drawn,
            linked, pure_eq_ok]
          rfl
        · refine { arena := holds, len := ?_, fit := fun x listed => ?_ }
          · simp only [h.len, split, Layout.add, List.length_append, List.length_cons]
            omega
          · rcases mem_split.mp listed with rfl | old
            · exact fit
            · exact h.fit x (split ▸ old)
      | error error =>
        have refused := h.arena.link_refused split low value permitted
        refine ⟨{ map with source := _ }, layout, _, ?_, .refused fit cuts new drawn permitted,
          { arena := h.arena, len := h.len, fit := h.fit }⟩
        simp only [apply, insert, insertNew, fit, ne_eq, not_true, if_false, search, ok_bind, drawn,
          refused, pure_eq_ok]
        rfl
  · refine ⟨map, layout, _, ?_, .unfit fit, h⟩
    simp only [apply, insert, fit, ne_eq, not_false_eq_true, if_true, ok_bind, pure_eq_ok]
    rfl

theorem remove_ok (h : map.Holds layout) (key : Key) :
    ∃ next rest outcome trace, map.remove key = .ok (next, { result := outcome, trace }) ∧
      Turn map layout (.remove key) next rest { result := .ok (.removed outcome), trace } ∧
      next.Holds rest := by
  by_cases searchable : map.Searchable key
  · rcases h.splice_cases key with ⟨before, e, after, cuts, equal, search⟩ | ⟨before, after, cuts, new, search⟩
    · have split := cuts.split
      obtain ⟨arena, unlinked, holds⟩ := h.arena.unlink_ok split
      refine ⟨{ map with arena, len := map.len - 1 }, _, _, _, ?_, .removed searchable cuts equal, ?_⟩
      · simp only [remove, searchable, if_true, search, ok_bind, unlinked, pure_eq_ok, node_height]
        rfl
      · refine { arena := holds, len := ?_, fit := fun x listed => ?_ }
        · simp only [h.len, split, Layout.remove_entries, List.length_append, List.length_cons]
          omega
        · rw [Layout.remove_entries] at listed
          exact h.fit x (split ▸ mem_split.mpr (Or.inr listed))
    · refine ⟨map, layout, _, _, ?_, .missed cuts fun _ => new, h⟩
      simp only [remove, searchable, if_true, search, ok_bind, pure_eq_ok]
  · refine ⟨map, layout, _, _, ?_, .missed ⟨rfl, rfl⟩ fun sought => absurd sought searchable, h⟩
    simp only [remove, searchable, if_false, pure_eq_ok]

theorem modify_ok (h : map.Holds layout) (key : Key) (change : α → α) :
    ∃ next rest reply, map.apply (.modify key change) = .ok (next, reply) ∧
      Turn map layout (.modify key change) next rest reply ∧ next.Holds rest := by
  have search := h.find_eq key
  have start := glances_prefix map layout key
  cases found : map.found layout key with
  | none =>
    refine ⟨map, layout, _, ?_, .unmodified start found, h⟩
    simp only [apply, modify, search, found, ok_bind, Option.map_none, pure_eq_ok]
    rfl
  | some e =>
    obtain ⟨before, after, split⟩ := List.append_of_mem (found_mem found).1
    obtain ⟨arena, written, holds⟩ := h.arena.setValue_ok split (change e.value)
    refine ⟨{ map with arena }, _, _, ?_, .modified start split found, h.written split holds⟩
    simp only [apply, modify, search, found, ok_bind, Option.map_some,
      Arena.node_of_occupied (h.arena.occupied before e after split), Entry.node, written, pure_eq_ok]
    rfl

theorem clear_ok (h : map.Holds layout) :
    ∃ next rest reply, map.apply .clear = .ok (next, reply) ∧
      Turn map layout .clear next rest reply ∧ next.Holds rest := by
  obtain ⟨arena, drained, holds⟩ := h.arena.drain_ok map.maxHeight.one_le
  refine ⟨{ map with arena, len := 0 }, _, _, ?_, .cleared, { arena := holds, len := ?_, fit := ?_ }⟩
  · simp only [apply, clear, drain, drained, ok_bind, pure_eq_ok]
    rfl
  · simp
  · simp

theorem apply_ok (h : map.Holds layout) (change : Change α) :
    ∃ next rest reply, map.apply change = .ok (next, reply) ∧
      Turn map layout change next rest reply ∧ next.Holds rest := by
  cases change with
  | insert key value memory => exact h.insert_ok key value memory
  | remove key =>
    obtain ⟨next, rest, outcome, trace, done, turn, holds⟩ := h.remove_ok key
    refine ⟨next, rest, _, ?_, turn, holds⟩
    simp only [apply, done, ok_bind, pure_eq_ok]
    rfl
  | erase key =>
    obtain ⟨next, rest, outcome, trace, done, turn, holds⟩ := h.remove_ok key
    refine ⟨next, rest, _, ?_, .erased turn, holds⟩
    simp only [apply, erase, done, ok_bind, pure_eq_ok]
    rfl
  | modify key change => exact h.modify_ok key change
  | clear => exact h.clear_ok

theorem inserts (h : map.Holds layout) (key : Key) (value : α) (memory : Memory) :
    ∃ next rest reply, map.insert memory key value = .ok (next, reply) ∧
      Turn map layout (.insert key value memory) next rest (reply.map (Except.map Answer.inserted)) ∧
      next.Holds rest := by
  obtain ⟨next, rest, _, made, turn, holds⟩ := h.insert_ok key value memory
  obtain ⟨⟨_, reply⟩, inserted, same⟩ := bind_ok made
  obtain ⟨rfl, rfl⟩ := Prod.mk.inj (Except.ok.inj same)
  exact ⟨_, rest, reply, inserted, turn, holds⟩

end Holds

theorem Turn.frame [DrawSource σ] {change : Change α} {next : Map σ α} {rest : Layout α}
    {reply : Reply α (Except Error (Answer α))} (turn : Turn map layout change next rest reply) :
    next.maxHeight = map.maxHeight ∧ next.keySize = map.keySize ∧ next.id = map.id ∧
      next.order = map.order := by
  induction turn with
  | erased removal ih => exact ih
  | _ => exact ⟨rfl, rfl, rfl, rfl⟩

theorem Turn.layout_of_refused [DrawSource σ] {change : Change α} {next : Map σ α} {rest : Layout α}
    {reply : Reply α (Except Error (Answer α))} (turn : Turn map layout change next rest reply)
    {error : Error} (failed : reply.result = .error error) : rest = layout := by
  cases turn with
  | unfit _ => rfl
  | refused _ _ _ _ _ => rfl
  | _ => nomatch failed

end SkipList.Map
