import Mathlib.Tactic.TFAE
import SkipList.Proofs.Frame
import SkipList.Proofs.Onward

/-!
# Traversals

There are four ways through a map: iterating with a counter, stepping with a cursor, draining, and going
along the upper levels to the last entry. All of them follow the same entries, those along level 0, whatever
the key order.
-/

namespace SkipList.Map

open Entry

variable {σ α : Type}

/-- Every way through the map shows these entries in this order, and compares no key. -/
structure Presents (map : Map σ α) (entries : List (Key × α)) : Prop where
  listed : map.answer .entries = .ok { result := .entries entries }
  located : ∃ items, map.answer .located = .ok { result := .located items } ∧ items.map Prod.snd = entries
  /-- Stepping on yields one entry after another, and nothing behind the last one. -/
  yielded : ∃ start, map.traverse = .ok start ∧ ∀ n, ∃ after, start.nth? n = .ok (entries[n]?, after)
  paired : ∃ keys values, map.answer .keys = .ok { result := .keys keys } ∧
    map.answer .values = .ok { result := .values values } ∧ map.takeValues = .ok values ∧
    keys.length = values.length ∧ keys.zip values = entries
  walked : ∃ start finish, map.begin = .ok start ∧ finish.isExhausted = true ∧
    start.call map .walk = .ok (finish, { result := .ok (.walked entries none) })
  first : map.answer .first = .ok { result := .entry entries.head? }
  firstValue : map.answer .firstValue = .ok { result := .value (entries.head?.map Prod.snd) }
  last : map.answer .last = .ok { result := .entry entries.getLast? }

variable {map : Map σ α} {layout : Layout α}

theorem Holds.nth?_traverse (h : map.Holds layout) (n : Nat) : ∃ after,
    Traversal.nth? { arena := map.arena, next := layout.entries.head?.map (·.slot), remaining := map.len } n =
      .ok ((layout.entries.map pair)[n]?, after) := by
  have within : (map.remnant layout.entries).Within layout := remnant_within List.suffix_rfl
  refine ⟨((map.remnant layout.entries).drop (n + 1)).traversal map.arena, ?_⟩
  rw [← remnant_traversal, Remnant.nth?_traversal h.arena within]
  simp only [remnant, List.getElem?_map, Option.map_map]
  rfl

theorem Holds.walk_begin (h : map.Holds layout) : ∃ start finish, map.begin = .ok start ∧
    finish.isExhausted = true ∧
    start.call map .walk = .ok (finish, { result := .ok (.walked (layout.entries.map pair) none) }) := by
  have ahead := Cursor.onward_onto h (show (Cursor.mk map.id .exhausted).map = map.id from rfl)
    (List.nil_append layout.entries).symm
  refine ⟨Cursor.onto ⟨map.id, .exhausted⟩ layout.entries, Cursor.onto ⟨map.id, .exhausted⟩ ([] : List (Entry α)),
    Cursor.begin_eq h, rfl, ?_⟩
  simp only [Cursor.call_eq h, Cursor.reacts, Cursor.walked, ahead, Reply.map]
  rfl

theorem Holds.presents (h : map.Holds layout) : map.Presents (layout.entries.map pair) := by
  refine
    { listed := h.answer_eq .entries, located := ⟨_, h.answer_eq .located, ?_⟩,
      yielded := ⟨_, h.traverse_eq, h.nth?_traverse⟩,
      paired := ⟨_, _, h.answer_eq .keys, h.answer_eq .values, h.takeValues_eq, ?_, ?_⟩,
      walked := h.walk_begin, first := ?_, firstValue := ?_, last := ?_ }
  · rw [List.map_map]
    rfl
  · rw [List.length_map, List.length_map]
  · rw [List.zip_map']
    rfl
  · rw [h.answer_eq, reads, List.head?_map]
    rfl
  · rw [h.answer_eq, reads, List.head?_map, Option.map_map]
    rfl
  · rw [h.answer_eq, reads, List.getLast?_map]
    rfl

/-- Whatever the key order: the entries along level 0 are as many as the map counts, and iterating, pairing
the keys with the values, walking with a cursor and giving the map up all show them in that order. The first
entry and the last one, which is found along the upper levels, are the ends of that sequence. None of them
shows anything exactly when the map counts no entry. -/
theorem traversals_agree [DrawSource σ] {map : Map σ α} (reached : map.Reached) :
    ∃ entries : List (Entry α), map.Lists entries ∧ entries.length = map.len ∧
      map.Presents (entries.map pair) ∧
      [map.len = 0, map.isEmpty = true, map.toList = .ok [], map.takeValues = .ok [],
        map.first? = .ok none, map.last? = .ok none,
        ∃ start, map.begin = .ok start ∧ start.isExhausted = true].TFAE := by
  obtain ⟨layout, h⟩ := reached.holds
  refine ⟨layout.entries, h.lists, h.len.symm, h.presents, List.tfae_of_forall (layout.entries = []) _ ?_⟩
  rw [isEmpty, h.len, h.toList_eq, h.takeValues_eq, h.first?_eq, h.last?_eq, Cursor.begin_eq h]
  cases layout.entries with
  | nil => simp [Cursor.place, Cursor.isExhausted]
  | cons e rest => simp [Cursor.place, Cursor.isExhausted]

/-- Where every key compares greater than all others, the last entry that went in comes first, even though
its key is there already. -/
theorem traversals_agree_backwards :
    let map : Map Script Nat :=
      { arena :=
          { slots := #[.head [some 3, some 2], .occupied 0 ⟨[1], 10, [none]⟩,
              .occupied 0 ⟨[2], 20, [some 1, none]⟩, .occupied 0 ⟨[1], 30, [some 2]⟩]
            free := none
            capacity := 4 }
        len := 3
        maxHeight := sample.maxHeight
        keySize := 1
        id := 0
        source := { values := [0xFFFFFFFF, 0], used := 3 }
        order := .always "greater" .gt }
    map.Reached ∧ map.Presents [([1], 30), ([2], 20), ([1], 10)] := by
  intro map
  have reached : map.Reached := by
    refine ⟨{}, { config := { keySize := 1, maxHeight := { levels := 2 } }, order := .always "greater" .gt },
      { values := [0xFFFFFFFF, 0] }, 0,
      [.insert [1] 10 {}, .insert [2] 20 {}, .insert [1] 30 {}], ?replies, ?start, ?built, ?run⟩
    case built => rfl
    case run => rfl
  obtain ⟨entries, _, _, presents, _⟩ := traversals_agree reached
  have shown : map.answer .entries = .ok { result := .entries [([1], 30), ([2], 20), ([1], 10)] } := rfl
  rw [presents.listed] at shown
  have same : entries.map pair = [([1], 30), ([2], 20), ([1], 10)] := by
    simpa using shown
  rw [same] at presents
  exact ⟨reached, presents⟩

end SkipList.Map
