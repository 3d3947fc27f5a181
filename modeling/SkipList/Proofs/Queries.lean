import SkipList.Proofs.Remnant
import SkipList.Calls

/-!
# Queries

What every query answers about a map that holds a layout. None of them fails, whatever the key order.
-/

namespace SkipList.Map

open Entry

variable {σ α : Type}

def atLeast (map : Map σ α) (layout : Layout α) (key : Key) : List (Entry α) :=
  if map.Searchable key then (map.way layout key).ahead else []

def comparisonsTo (map : Map σ α) (layout : Layout α) (key : Key) : List Comparison :=
  if map.Searchable key then (map.way layout key).compared else []

/-- The remnant of a traversal that has these entries ahead. -/
def remnant (map : Map σ α) (entries : List (Entry α)) : Remnant α :=
  { entries := entries.map placed, remaining := map.len }

def reads (map : Map σ α) (layout : Layout α) : Query α → Answer α
  | .get key => .value ((map.found layout key).map (·.value))
  | .contains key => .flag (map.found layout key).isSome
  | .getEntry key => .entry ((map.found layout key).map pair)
  | .len => .number map.len
  | .isEmpty => .flag map.isEmpty
  | .height => .number map.maxHeight.levels
  | .keySize => .number map.keySize
  | .order => .text map.order.label
  | .first => .entry (layout.entries.head?.map pair)
  | .firstValue => .value (layout.entries.head?.map (·.value))
  | .last => .entry (layout.entries.getLast?.map pair)
  | .keys => .keys (layout.entries.map (·.key))
  | .values => .values (layout.entries.map (·.value))
  | .entries => .entries (layout.entries.map pair)
  | .located => .located (layout.entries.map placed)
  | .debugText text => .text (Display.table ((layout.entries.map pair).map fun (key, value) =>
      (Display.list (key.map toString), text value)))
  | .debugLines text => .text (Display.ofLines (Display.tableLines ((layout.entries.map pair).map
      fun (key, value) => (Display.listLines (key.map toString), text value))))
  | .traverse view steps =>
    let start := map.remnant layout.entries
    .traversed view (Remnant.run view start start steps)
  | .traverseFrom key steps =>
    let start := map.remnant (map.atLeast layout key)
    .traversed .entries (Remnant.run .entries start start steps)

def looks (map : Map σ α) (layout : Layout α) : Query α → List Comparison
  | .get key | .contains key | .getEntry key => map.glances layout key
  | .traverseFrom key _ => map.comparisonsTo layout key
  | _ => []

variable {map : Map σ α} {layout : Layout α}

theorem atLeast_suffix (map : Map σ α) (layout : Layout α) (key : Key) :
    map.atLeast layout key <:+ layout.entries := by
  unfold atLeast
  split
  · exact way_ahead_suffix map layout key
  · exact List.nil_suffix

theorem remnant_within {entries : List (Entry α)} (suffix : entries <:+ layout.entries) :
    (map.remnant entries).Within layout := by
  obtain ⟨before, split⟩ := suffix
  exact ⟨before, entries, split.symm, rfl⟩

theorem remnant_traversal (map : Map σ α) (entries : List (Entry α)) (arena : Arena α) :
    (map.remnant entries).traversal arena =
      { arena, next := entries.head?.map (·.slot), remaining := map.len } := by
  simp only [remnant, Remnant.traversal, List.head?_map, Option.map_map]
  rfl

namespace Holds

theorem lowerBound_eq (h : map.Holds layout) (key : Key) :
    map.lowerBound key =
      .ok { slot := (map.atLeast layout key).head?.map (·.slot),
            compared := map.comparisonsTo layout key } := by
  unfold Map.lowerBound atLeast comparisonsTo
  by_cases searchable : map.Searchable key
  · simp only [searchable, if_true, h.arena.lowerBound_eq map.maxHeight.one_le]
    rfl
  · simp only [searchable, if_false, List.head?_nil, Option.map_none, pure_eq_ok]

theorem traverseFrom_eq (h : map.Holds layout) (key : Key) :
    map.traverseFrom key =
      .ok { result :=
              { arena := map.arena, next := (map.atLeast layout key).head?.map (·.slot), remaining := map.len }
            trace := { compared := map.comparisonsTo layout key } } := by
  simp only [traverseFrom, h.lowerBound_eq, ok_bind, pure_eq_ok]

theorem run_remnant (h : map.Holds layout) {entries : List (Entry α)}
    (suffix : entries <:+ layout.entries) (view : View) (steps : List Traversal.Step) :
    Traversal.run view
        { arena := map.arena, next := entries.head?.map (·.slot), remaining := map.len }
        { arena := map.arena, next := entries.head?.map (·.slot), remaining := map.len } steps =
      .ok (Remnant.run view (map.remnant entries) (map.remnant entries) steps) := by
  have within : (map.remnant entries).Within layout := remnant_within suffix
  rw [← remnant_traversal]
  exact Remnant.run_traversal h.arena within within view steps

/-- Every query is answered, from the entries alone; it drops nothing and reports nothing. -/
theorem answer_eq (h : map.Holds layout) (query : Query α) :
    map.answer query =
      .ok { result := map.reads layout query, trace := { compared := map.looks layout query } } := by
  cases query with
  | get key =>
    simp only [answer, get?, getEntry?, h.find_eq, ok_bind,
      h.entryAt?_eq fun e found => (found_mem found).1, pure_eq_ok, reads, looks, Reply.map,
      Option.map_map]
    rfl
  | contains key =>
    simp only [answer, contains, h.find_eq, ok_bind, Option.isSome_map, pure_eq_ok, reads, looks,
      Reply.map]
  | getEntry key =>
    simp only [answer, getEntry?, h.find_eq, ok_bind, h.entryAt?_eq fun e found => (found_mem found).1,
      pure_eq_ok, reads, looks, Reply.map]
  | len => rfl
  | isEmpty => rfl
  | height => rfl
  | keySize => rfl
  | order => rfl
  | first => simp only [answer, h.first?_eq, ok_bind, pure_eq_ok, reads, looks]
  | firstValue =>
    simp only [answer, firstValue?, h.first?_eq, ok_bind, pure_eq_ok, reads, looks, Option.map_map]
    rfl
  | last => simp only [answer, h.last?_eq, ok_bind, pure_eq_ok, reads, looks]
  | keys =>
    simp only [answer, keys, h.toList_eq, ok_bind, pure_eq_ok, reads, looks, List.map_map]
    rfl
  | values =>
    simp only [answer, values, h.toList_eq, ok_bind, pure_eq_ok, reads, looks, List.map_map]
    rfl
  | entries => simp only [answer, h.toList_eq, ok_bind, pure_eq_ok, reads, looks]
  | located =>
    simp only [answer, h.located_eq, ok_bind, pure_eq_ok, reads, looks]
    rfl
  | debugText text => simp only [answer, debugText, h.toList_eq, ok_bind, pure_eq_ok, reads, looks]
  | debugLines text => simp only [answer, debugLines, h.toList_eq, ok_bind, pure_eq_ok, reads, looks]
  | traverse view steps =>
    simp only [answer, h.traverse_eq, ok_bind, h.run_remnant List.suffix_rfl, pure_eq_ok, reads, looks]
  | traverseFrom key steps =>
    simp only [answer, h.traverseFrom_eq, ok_bind, pure_eq_ok,
      h.run_remnant (atLeast_suffix map layout key), reads, looks]

end Holds

end SkipList.Map
