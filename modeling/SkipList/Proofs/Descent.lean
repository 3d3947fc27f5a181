import SkipList.Proofs.Layout
import SkipList.Proofs.Way

/-!
# Descents through an arena

The searches of an arena that holds a layout are the searches through its list of entries, and none of
them meets a fault. The fuel of a walk is never used up: it is the size of the arena, and a walk passes
each entry at most once.
-/

namespace SkipList.Arena.Holds

open Entry

variable {α : Type} {arena : Arena α} {levels : Nat} {layout : Layout α}

theorem compareAt_eq (h : arena.Holds levels layout) (order : KeyOrder) (sought : Key) (level : Nat)
    {e : Entry α} (member : e ∈ layout.entries) :
    arena.compareAt order sought level e.slot = .ok (e.comparison order sought level) := by
  obtain ⟨after, found⟩ := h.occupied_of_mem member
  simp only [compareAt, key_of_occupied found, ok_bind, pure_eq_ok]
  rfl

theorem after_lt_size (h : arena.Holds levels layout) {before after : List (Entry α)}
    (split : layout.entries = before ++ after) : after.length < arena.slots.size := by
  have bound := h.entries_lt_size
  rw [split, List.length_append] at bound
  omega

theorem walk_eq (h : arena.Holds levels layout) (order : KeyOrder) (sought : Key) {level : Nat}
    (inside : level < levels) {before after : List (Entry α)} (split : layout.entries = before ++ after)
    {fuel : Nat} (enough : after.length < fuel) :
    arena.walk order sought level fuel (endOn level before) = .ok
      { last := endOn level (before ++ (leg order sought level after).passed)
        equal := (leg order sought level after).equal.map (·.slot)
        compared := (leg order sought level after).compared } := by
  induction after generalizing before fuel with
  | nil =>
    obtain ⟨fuel, rfl⟩ := Nat.exists_eq_add_one_of_ne_zero (Nat.ne_of_gt enough)
    rw [walk, h.next_endOn split inside]
    simp [leg]
  | cons e rest ih =>
    have shorter : layout.entries = (before ++ [e]) ++ rest := by rw [split, List.append_cons]
    have fewer : rest.length < fuel := Nat.lt_of_succ_lt enough
    by_cases tall : level < e.height
    · obtain ⟨fuel, rfl⟩ := Nat.exists_eq_add_one_of_ne_zero (Nat.ne_of_gt (Nat.zero_lt_of_lt enough))
      have member : e ∈ layout.entries := split ▸ List.mem_append_cons_self
      have here : endOn level (before ++ [e]) = e.slot := by rw [endOn_concat, if_pos tall]
      have further := ih shorter (Nat.lt_of_succ_lt_succ enough)
      rw [here] at further
      rw [walk, h.next_endOn split inside, nextOn_cons, if_pos tall]
      simp only [ok_bind, h.compareAt_eq order sought level member]
      rw [leg, if_pos tall, comparison]
      cases answer : order.compare e.key sought with
      | lt => simp [further]
      | eq => simp
      | gt => simp
    · have same : endOn level (before ++ [e]) = endOn level before := by rw [endOn_concat, if_neg tall]
      have further := ih shorter fewer
      rw [same] at further
      rw [further]
      rcases leg_cons order sought level e rest with
        ⟨high, _⟩ | ⟨high, _⟩ | ⟨_, empty, skipped⟩ | ⟨_, _, passed⟩
      · exact absurd high tall
      · exact absurd high tall
      · rw [skipped, empty, List.append_nil, List.append_nil, same]
      · rw [passed, List.append_assoc]
        rfl

theorem descendBelow_eq (h : arena.Holds levels layout) (order : KeyOrder) (sought : Key) {below : Nat}
    (inside : below ≤ levels) {before after : List (Entry α)} (split : layout.entries = before ++ after)
    (stands : ∀ e ∈ before.getLast?, below ≤ e.height) :
    arena.descendBelow order sought below (endOn (below - 1) before) = .ok
      { last := endOn 0 (before ++ (way order sought below after).passed)
        path := pathTo below (before ++ (way order sought below after).passed)
        compared := (way order sought below after).compared } := by
  induction below generalizing before after with
  | zero => simp [descendBelow, way, pathTo]
  | succ level ih =>
    have on := h.walk_eq order sought inside split (h.after_lt_size split)
    have rest : layout.entries = (before ++ (leg order sought level after).passed) ++
        (leg order sought level after).ahead := by
      rw [List.append_assoc, leg_append, split]
    have stands' := leg_stands order sought after stands
    have further := ih (Nat.le_of_succ_le inside) rest fun e last => Nat.le_of_lt (stands' e last)
    rw [endOn_of_getLast? stands' (Nat.sub_le level 1)] at further
    -- No lower level passes an entry of this level, so this level ends where its walk stopped.
    have recorded : endOn level (before ++ (leg order sought level after).passed) =
        endOn level (before ++ ((leg order sought level after).passed ++
          (way order sought level (leg order sought level after).ahead).passed)) := by
      rw [← List.append_assoc, endOn_append_low _ (way_low leg_stop)]
    rw [descendBelow, Nat.add_sub_cancel, on]
    simp only [ok_bind, further, pure_eq_ok]
    rw [way, pathTo_succ, ← recorded, List.append_assoc]

theorem descend_eq (h : arena.Holds levels layout) (order : KeyOrder) (sought : Key) :
    arena.descend order levels sought = .ok
      { last := endOn 0 (way order sought levels layout.entries).passed
        path := pathTo levels (way order sought levels layout.entries).passed
        compared := (way order sought levels layout.entries).compared } :=
  h.descendBelow_eq order sought (Nat.le_refl levels) (List.nil_append _).symm (by simp)

theorem next_way (h : arena.Holds levels layout) (some_level : 0 < levels) (order : KeyOrder)
    (sought : Key) :
    arena.next (endOn 0 (way order sought levels layout.entries).passed) 0 =
      .ok ((way order sought levels layout.entries).ahead.head?.map (·.slot)) := by
  rw [h.next_endOn (way_append order sought levels layout.entries).symm some_level, nextOn_zero]
  intro e member
  refine (h.heights e ?_).1
  rw [← way_append order sought levels layout.entries]
  exact List.mem_append_right _ member

theorem lowerBound_eq (h : arena.Holds levels layout) (some_level : 0 < levels) (order : KeyOrder)
    (sought : Key) :
    arena.lowerBound order levels sought = .ok
      { slot := (way order sought levels layout.entries).ahead.head?.map (·.slot)
        compared := (way order sought levels layout.entries).compared } := by
  simp only [lowerBound, h.descend_eq, ok_bind, h.next_way some_level, pure_eq_ok]

theorem splice_eq (h : arena.Holds levels layout) (some_level : 0 < levels) (order : KeyOrder)
    (sought : Key) :
    arena.splice order levels sought = .ok
      { path := pathTo levels (way order sought levels layout.entries).passed
        slot := (hit order sought (way order sought levels layout.entries).ahead).map (·.slot)
        compared := (way order sought levels layout.entries).compared ++
          ((way order sought levels layout.entries).ahead.head?.map
            (·.comparison order sought 0)).toList } := by
  simp only [splice, h.descend_eq, ok_bind, h.next_way some_level, hit]
  cases first : (way order sought levels layout.entries).ahead.head? with
  | none => simp
  | some e =>
    have member : e ∈ layout.entries := by
      rw [← way_append order sought levels layout.entries]
      exact List.mem_append_right _ (List.mem_of_mem_head? first)
    simp only [Option.map_some, h.compareAt_eq order sought 0 member, ok_bind, pure_eq_ok,
      Option.toList_some, Option.filter_some, comparison, decide_eq_true_eq]
    by_cases equal : order.compare e.key sought = .eq <;> simp [equal]

/-- The search for a key alone may stop on any level; it finds what the whole descent meets first. -/
theorem findBelow_eq (h : arena.Holds levels layout) (order : KeyOrder) (sought : Key) {below : Nat}
    (inside : below ≤ levels) {before after : List (Entry α)} (split : layout.entries = before ++ after)
    (stands : ∀ e ∈ before.getLast?, below ≤ e.height) :
    arena.findBelow order sought below (endOn (below - 1) before) = .ok
      { slot := (way order sought below after).equal.map (·.slot)
        compared := glance order sought below after } := by
  induction below generalizing before after with
  | zero => rfl
  | succ level ih =>
    have on := h.walk_eq order sought inside split (h.after_lt_size split)
    have rest : layout.entries = (before ++ (leg order sought level after).passed) ++
        (leg order sought level after).ahead := by
      rw [List.append_assoc, leg_append, split]
    have stands' := leg_stands order sought after stands
    have further := ih (Nat.le_of_succ_le inside) rest fun e last => Nat.le_of_lt (stands' e last)
    rw [endOn_of_getLast? stands' (Nat.sub_le level 1)] at further
    rw [findBelow, Nat.add_sub_cancel, on, way, glance]
    cases met : (leg order sought level after).equal with
    | none => simp [further]
    | some e => simp

theorem find_eq (h : arena.Holds levels layout) (order : KeyOrder) (sought : Key) :
    arena.find order levels sought = .ok
      { slot := (way order sought levels layout.entries).equal.map (·.slot)
        compared := glance order sought levels layout.entries } :=
  h.findBelow_eq order sought (Nat.le_refl levels) (List.nil_append _).symm (by simp)

end SkipList.Arena.Holds
