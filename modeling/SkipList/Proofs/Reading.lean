import SkipList.Proofs.Run
import SkipList.Traversal

/-!
# Reading a map

What the calls that leave a map as it is answer, in terms of its entries. The last entry is found by
walking each level to its end, and the entries in order by walking level 0.
-/

namespace SkipList

open Entry

variable {σ α : Type}

def Entry.pair (e : Entry α) : Key × α := (e.key, e.value)

namespace Arena.Holds

variable {arena : Arena α} {levels level : Nat} {layout : Layout α}

/-! ### The last entry -/

theorem lastOn_eq (h : arena.Holds levels layout) (inside : level < levels)
    {before after : List (Entry α)} (split : layout.entries = before ++ after) {fuel : Nat}
    (enough : after.length < fuel) :
    arena.lastOn level fuel (endOn level before) = .ok (endOn level layout.entries) := by
  induction after generalizing before fuel with
  | nil =>
    obtain ⟨fuel, rfl⟩ := Nat.exists_eq_add_one_of_ne_zero (Nat.ne_of_gt enough)
    rw [Arena.lastOn, h.next_endOn split inside]
    rw [split, List.append_nil]
    rfl
  | cons e rest ih =>
    have shorter : layout.entries = (before ++ [e]) ++ rest := by rw [split, List.append_cons]
    simp only [List.length_cons] at enough
    by_cases tall : level < e.height
    · obtain ⟨fuel, rfl⟩ := Nat.exists_eq_add_one_of_ne_zero (show fuel ≠ 0 by omega)
      have further := ih shorter (show rest.length < fuel by omega)
      rw [endOn_concat, if_pos tall] at further
      rw [Arena.lastOn, h.next_endOn split inside, nextOn_cons, if_pos tall]
      exact further
    · have further := ih shorter (show rest.length < fuel by omega)
      rw [endOn_concat, if_neg tall] at further
      exact further

theorem lastBelow_eq (h : arena.Holds levels layout) {before after : List (Entry α)}
    (inside : level < levels) (split : layout.entries = before ++ after) :
    arena.lastBelow (level + 1) (endOn level before) = .ok (endOn 0 layout.entries) := by
  induction level generalizing before after with
  | zero =>
    rw [lastBelow, h.lastOn_eq inside split (h.after_lt_size split)]
    rfl
  | succ level ih =>
    rw [lastBelow, h.lastOn_eq inside split (h.after_lt_size split)]
    rcases endOn_cases (level + 1) layout.entries with ⟨head, _⟩ | ⟨first, e, rest, parts, tall, _, here⟩
    · rw [head]
      exact ih (show level < levels by omega) (List.nil_append layout.entries).symm
    · have from_here := ih (show level < levels by omega)
        (show layout.entries = (first ++ [e]) ++ rest by rw [parts, List.append_cons])
      rw [endOn_concat, if_pos (show level < e.height by omega)] at from_here
      rw [here]
      exact from_here

theorem findLast_eq (h : arena.Holds levels layout) (some_level : 0 < levels) :
    arena.findLast levels = .ok (layout.entries.getLast?.map (·.slot)) := by
  obtain ⟨level, rfl⟩ := Nat.exists_eq_add_one_of_ne_zero (Nat.ne_of_gt some_level)
  have last := h.lastBelow_eq (Nat.lt_succ_self level) (List.nil_append layout.entries).symm
  rw [endOn_nil] at last
  simp only [findLast, last, ok_bind, pure_eq_ok]
  cases final : layout.entries.getLast? with
  | none => rw [List.getLast?_eq_none_iff.mp final, endOn_nil, if_pos rfl, Option.map_none]
  | some e =>
    obtain ⟨before, split⟩ := List.getLast?_eq_some_iff.mp final
    have member : e ∈ layout.entries := List.mem_of_getLast? final
    have tall : 0 < e.height := (h.heights e member).1
    rw [split, endOn_concat, if_pos tall, if_neg (h.slot_ne_head member), Option.map_some]

/-! ### Level 0 -/

theorem next_bottom (h : arena.Holds levels layout) {before after : List (Entry α)} {e : Entry α}
    (split : layout.entries = before ++ e :: after) :
    arena.next e.slot 0 = .ok (after.head?.map (·.slot)) := by
  have listed {x : Entry α} (later : x ∈ e :: after) : x ∈ layout.entries :=
    split ▸ List.mem_append_right _ later
  have tall : 0 < e.height := (h.heights e (listed List.mem_cons_self)).1
  rw [h.next_entry split tall, nextOn_zero]
  exact fun x later => (h.heights x (listed (List.mem_cons_of_mem _ later))).1

theorem locatedWithin_eq (h : arena.Holds levels layout) {before after : List (Entry α)}
    (split : layout.entries = before ++ after) (remaining : Nat) {fuel : Nat}
    (enough : after.length < fuel) :
    Traversal.locatedWithin fuel { arena, next := after.head?.map (·.slot), remaining } =
      .ok (after.map fun e => (e.slot, e.pair),
        { arena, next := none, remaining := remaining - after.length }) := by
  induction after generalizing before remaining fuel with
  | nil =>
    obtain ⟨fuel, rfl⟩ := Nat.exists_eq_add_one_of_ne_zero (Nat.ne_of_gt enough)
    rfl
  | cons e rest ih =>
    obtain ⟨fuel, rfl⟩ := Nat.exists_eq_add_one_of_ne_zero (Nat.ne_of_gt (Nat.zero_lt_of_lt enough))
    have shorter : layout.entries = (before ++ [e]) ++ rest := by rw [split, List.append_cons]
    simp only [List.length_cons] at enough
    have further := ih shorter (remaining - 1) (show rest.length < fuel by omega)
    have fewer : remaining - 1 - rest.length = remaining - (rest.length + 1) := by omega
    rw [fewer] at further
    simp only [Traversal.locatedWithin, Traversal.next?, List.head?_cons, Option.map_some,
      node_of_occupied (h.occupied before e rest split), h.next_bottom split, ok_bind, pure_eq_ok,
      further, List.map_cons, List.length_cons]
    rfl

/-! ### The stored values -/

theorem filterMap_range {γ δ : Type} (f : γ → Option δ) (items : List γ) :
    (List.range items.length).filterMap (fun index => items[index]?.bind f) = items.filterMap f := by
  induction items with
  | nil => rfl
  | cons x rest ih =>
    rw [List.length_cons, List.range_succ_eq_map, List.filterMap_cons, List.filterMap_map,
      List.filterMap_cons, ← ih]
    rfl

/-- The stored values are those of the entries, in the order of their slots. -/
theorem storedValues_eq (h : arena.Holds levels layout) :
    arena.storedValues = (List.range (layout.slots.length + 1)).filterMap fun index =>
      (layout.entries.find? (·.slot = index)).map (·.value) := by
  unfold storedValues
  rw [← filterMap_range, Array.length_toList, ← h.size_eq]
  refine List.filterMap_congr fun index _ => ?_
  rw [Array.getElem?_toList]
  cases found : layout.entries.find? (·.slot = index) with
  | some e =>
    have here : e.slot = index := by simpa using List.find?_some found
    obtain ⟨after, occupied⟩ := h.occupied_of_mem (List.mem_of_find?_eq_some found)
    rw [← here, occupied]
    rfl
  | none =>
    cases stored : arena.slots[index]? with
    | none => rfl
    | some slot =>
      cases slot with
      | occupied generation node =>
        obtain ⟨before, e, after, split, here, _⟩ := h.entry_of_occupied stored
        have apart := List.find?_eq_none.mp found e (split ▸ List.mem_append_cons_self)
        simp [here] at apart
      | _ => rfl

end Arena.Holds

namespace Map.Holds

variable {map : Map σ α} {layout : Layout α}

/-! ### Answers -/

theorem entryAt?_eq (h : map.Holds layout) {link : Option (Entry α)}
    (listed : ∀ e ∈ link, e ∈ layout.entries) :
    map.entryAt? (link.map (·.slot)) = .ok (link.map pair) := by
  cases link with
  | none => rfl
  | some e =>
    obtain ⟨after, found⟩ := h.arena.occupied_of_mem (listed e rfl)
    simp only [Option.map_some, entryAt?, entryAt, Arena.node_of_occupied found, ok_bind, pure_eq_ok]
    rfl

theorem first?_eq (h : map.Holds layout) : map.first? = .ok (layout.entries.head?.map pair) := by
  simp only [first?, firstSlot, h.arena.next_first map.maxHeight.one_le, ok_bind]
  exact h.entryAt?_eq fun e first => List.mem_of_mem_head? first

theorem last?_eq (h : map.Holds layout) : map.last? = .ok (layout.entries.getLast?.map pair) := by
  simp only [last?, lastSlot, h.arena.findLast_eq map.maxHeight.one_le, ok_bind]
  exact h.entryAt?_eq fun e last => List.mem_of_getLast? last

theorem traverse_eq (h : map.Holds layout) : map.traverse = .ok
    { arena := map.arena, next := layout.entries.head?.map (·.slot), remaining := map.len } := by
  simp only [traverse, firstSlot, h.arena.next_first map.maxHeight.one_le, ok_bind, pure_eq_ok]

/-- A traversal that begins on one of the entries shows all from there on. -/
theorem located_from (h : map.Holds layout) {entries : List (Entry α)} (suffix : entries <:+ layout.entries) :
    Traversal.located { arena := map.arena, next := entries.head?.map (·.slot), remaining := map.len } =
      .ok (entries.map fun e => (e.slot, e.pair),
        { arena := map.arena, next := none, remaining := map.len - entries.length }) := by
  obtain ⟨before, split⟩ := suffix
  have bound := h.arena.after_lt_size split.symm
  exact h.arena.locatedWithin_eq split.symm map.len
    (show entries.length < map.arena.slots.size + 1 by omega)

theorem located_eq (h : map.Holds layout) :
    map.located = .ok (layout.entries.map fun e => (e.slot, e.pair)) := by
  simp only [located, h.traverse_eq, ok_bind, h.located_from List.suffix_rfl, pure_eq_ok]

theorem toList_eq (h : map.Holds layout) : map.toList = .ok (layout.entries.map pair) := by
  simp only [toList, h.traverse_eq, ok_bind, Traversal.rest, h.located_from List.suffix_rfl,
    pure_eq_ok, List.map_map]
  rfl

theorem takeValues_eq (h : map.Holds layout) :
    map.takeValues = .ok (layout.entries.map (·.value)) := by
  obtain ⟨arena, drained, _⟩ := h.arena.drain_ok map.maxHeight.one_le
  simp only [takeValues, drain, drained, ok_bind, pure_eq_ok]

end Map.Holds

end SkipList
