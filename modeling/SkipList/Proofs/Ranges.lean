import SkipList.Proofs.Comparisons
import SkipList.Proofs.Cursors

/-!
# Ranges

The entries from a key on, along level 0: what a traversal from the key shows, and what a cursor that is
sought to the key walks along. Under a total preorder they are the entries that do not come before the key.
-/

namespace SkipList

open Entry

variable {σ α : Type}

/-- The cursor stands on the first of these items, or behind the last entry if there is none, and a walk
from there shows them all. -/
structure Cursor.Faces (cursor : Cursor) (map : Map σ α) (items : List (Nat × Key × α)) : Prop where
  slot : cursor.resolve map = { result := .ok (items.head?.map Prod.fst) }
  entry : cursor.call map .entry = .ok (cursor, { result := .ok (.entry (items.head?.map Prod.snd)) })
  exhausted : cursor.isExhausted = items.isEmpty
  walk : cursor.call map .walk =
    .ok ({ map := map.id, position := .exhausted }, { result := .ok (.walked (items.map Prod.snd) none) })

namespace Map

variable {map : Map σ α} {layout : Layout α} {key : Key} {before after : List (Entry α)}

/-! ### The entries from a key on -/

namespace Ordered

theorem passed_lt (h : map.Ordered layout) (fit : key.length = map.keySize)
    (cuts : map.Cuts layout key before after) : ∀ x ∈ before, map.order.compare x.key key = .lt := by
  intro x member
  rw [← (h.cut_eq fit cuts).1] at member
  simpa using List.mem_takeWhile_imp member

theorem ahead_not_lt (h : map.Ordered layout) (fit : key.length = map.keySize)
    (cuts : map.Cuts layout key before after) : ∀ x ∈ after, map.order.compare x.key key ≠ .lt := by
  intro x member less
  have split := cuts.split
  have stop := cuts.first_ne_lt h.toHolds
  cases after with
  | nil => nomatch member
  | cons e later =>
    have not_less := stop e rfl
    rcases List.mem_cons.mp member with rfl | further
    · exact not_less less
    · -- an entry behind the first one ahead cannot compare less without it
      have fit_e := h.fit e (split ▸ List.mem_append_cons_self)
      have fit_x := h.fit x (split ▸ List.mem_append_right _ member)
      have e_lt_x := h.lt_after split x further
      exact not_less (h.lawful.lt_of_lt_of_le fit_e fit_x fit e_lt_x (by simp [less]))

theorem atLeast_eq_filter (h : map.Ordered layout) (fit : key.length = map.keySize) :
    map.atLeast layout key = layout.entries.filter (map.order.compare ·.key key ≠ .lt) := by
  have cuts := Cuts.self map layout key
  have none_before : (map.way layout key).passed.filter (map.order.compare ·.key key ≠ .lt) = [] :=
    List.filter_eq_nil_iff.mpr fun x member => by simp [h.passed_lt fit cuts x member]
  have all_after : (map.way layout key).ahead.filter (map.order.compare ·.key key ≠ .lt) =
      (map.way layout key).ahead :=
    List.filter_eq_self.mpr fun x member => decide_eq_true (h.ahead_not_lt fit cuts x member)
  rw [cuts.split, List.filter_append, none_before, all_after, List.nil_append]
  by_cases searchable : map.Searchable key
  · exact if_pos searchable
  · rw [atLeast, if_neg searchable, h.way_of_unsearchable fit searchable]

end Ordered

theorem atLeast_of_unfit (unfit : key.length ≠ map.keySize) : map.atLeast layout key = [] :=
  if_neg fun searchable => unfit searchable.2

/-! ### A cursor that is sought -/

theorem Holds.faces (h : map.Holds layout) {cursor : Cursor} (own : cursor.map = map.id)
    {entries : List (Entry α)} (suffix : entries <:+ layout.entries) :
    (cursor.onto entries).Faces map (entries.map placed) := by
  obtain ⟨before, split⟩ := suffix
  have here := Cursor.onward_onto h own split.symm
  refine { slot := ?_, entry := ?_, exhausted := ?_, walk := ?_ }
  · rw [Cursor.resolve_eq h, Cursor.sees, here, List.head?_map, Option.map_map]
    rfl
  · rw [Cursor.call_eq h, Cursor.reacts, Cursor.sees, here, List.head?_map, Option.map_map]
    rfl
  · cases entries with
    | nil => rfl
    | cons e after => rfl
  · rw [Cursor.call_eq h, Cursor.reacts, Cursor.walked, here, List.map_map, ← own]
    rfl

/-- However a map has come about: a traversal from a key shows the last of the entries, none if the key has
another length, and under a total preorder all those that do not compare less than the key. A cursor of the
map can be sought to the key from wherever it stands, also from a node that is gone; it comes to the first
of these entries, or behind the last one if there is none, and a walk from there shows the same entries. -/
theorem traverseFrom_seek {map : Map σ α} [DrawSource σ] (reached : map.Reached) (key : Key) :
    ∃ all items start ends trace, map.located = .ok all ∧
      map.traverseFrom key = .ok { result := start, trace } ∧
      start.located = .ok (items, ends) ∧ ends.next = none ∧ items <:+ all ∧
      (key.length ≠ map.keySize → items = []) ∧
      (map.order.IsTotalPreorder map.keySize → key.length = map.keySize →
        items = all.filter fun (_, stored, _) => map.order.compare stored key ≠ .lt) ∧
      ∀ cursor : Cursor, cursor.map = map.id → ∃ moved,
        cursor.call map (.seek key) = .ok (moved, { result := .ok (.moved moved), trace }) ∧
          moved.Faces map items := by
  obtain ⟨layout, h⟩ := reached.holds
  have suffix := atLeast_suffix map layout key
  refine ⟨layout.entries.map placed, (map.atLeast layout key).map placed, _, _,
    { compared := map.comparisonsTo layout key }, h.located_eq, ?_, h.located_from suffix, rfl, ?_,
    fun unfit => ?_, fun lawful fit => ?_, fun cursor own => ⟨cursor.onto (map.atLeast layout key), ?_, ?_⟩⟩
  · simp only [traverseFrom, h.lowerBound_eq, ok_bind, pure_eq_ok]
  · exact suffix.map placed
  · rw [atLeast_of_unfit unfit, List.map_nil]
  · rw [(reached.ordered_of_holds h lawful).atLeast_eq_filter fit, List.filter_map]
    rfl
  · rw [Cursor.call_eq h, Cursor.reacts, if_neg (not_not.mpr own)]
    rfl
  · exact h.faces own suffix

/-- A cursor whose node is gone is sought to the key `[2]`. -/
theorem traverseFrom_seek_sample :
    sample.Reached ∧ sample.order.IsTotalPreorder sample.keySize ∧
      (({ map := 0, position := .positioned ⟨2, 7⟩ } : Cursor).isValid sample).result = false ∧
      ∃ start ends trace moved, sample.traverseFrom [2] = .ok { result := start, trace } ∧
        start.located = .ok ([(2, [2], 20), (3, [3], 30)], ends) ∧
        ({ map := 0, position := .positioned ⟨2, 7⟩ } : Cursor).call sample (.seek [2]) =
          .ok (moved, { result := .ok (.moved moved), trace }) ∧
        moved.Faces sample [(2, [2], 20), (3, [3], 30)] := by
  have lawful : sample.order.IsTotalPreorder sample.keySize := KeyOrder.isTotalPreorder_ascend 1
  obtain ⟨all, items, start, ends, trace, whole, ranged, shown, _, _, _, same, sought⟩ :=
    traverseFrom_seek sample_reached [2]
  obtain rfl := Except.ok.inj (whole.symm.trans (show sample.located = .ok _ from rfl))
  obtain rfl := same lawful rfl
  obtain ⟨moved, called, faces⟩ := sought { map := 0, position := .positioned ⟨2, 7⟩ } rfl
  exact ⟨sample_reached, lawful, rfl, start, ends, trace, moved, ranged, shown, called, faces⟩

end Map

end SkipList
