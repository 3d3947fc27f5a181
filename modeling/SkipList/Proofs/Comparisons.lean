import SkipList.Proofs.Bare
import SkipList.Proofs.Frame
import SkipList.Proofs.Onward

/-!
# Comparisons

Which comparisons each call makes, and that the three searches for a key agree: `find`, which may stop on
any level, `lowerBound`, which goes all the way down, and `splice`, which also records its way. That they
lead to the same node needs a total preorder; that they make the same comparisons does not.
-/

namespace SkipList

open Entry

variable {σ α : Type}

theorem Entry.way_nil (order : KeyOrder) (sought : Key) (levels : Nat) :
    way order sought levels ([] : List (Entry α)) =
      { passed := [], ahead := [], equal := none, compared := [] } := by
  induction levels with
  | zero => rfl
  | succ level ih => simp only [way, leg, ih, List.append_nil, Option.none_or]

namespace Map

def compares (map : Map σ α) (layout : Layout α) : Change α → List Comparison
  | .insert key _ _ => if key.length = map.keySize then map.probes layout key else []
  | .remove key | .erase key => if map.Searchable key then map.probes layout key else []
  | .modify key _ => map.glances layout key
  | .clear => []

structure Searches (map : Map σ α) (key : Key) (early low : Search) (path : Splice) : Prop where
  find : map.find key = .ok early
  lowerBound : map.lowerBound key = .ok low
  splice : map.arena.splice map.order map.maxHeight.levels key = .ok path

/-- Each call with the key makes the comparisons of one of its searches. -/
structure Shares [DrawSource σ] (map : Map σ α) (key : Key) (early low : Search) (path : Splice) :
    Prop where
  look : ∀ query, query = .get key ∨ query = .contains key ∨ query = .getEntry key →
    ∃ reply, map.answer query = .ok reply ∧ reply.trace.compared = early.compared
  modify : ∀ change, ∃ next reply, map.apply (.modify key change) = .ok (next, reply) ∧
    reply.trace.compared = early.compared
  traverseFrom : ∀ steps, ∃ reply, map.answer (.traverseFrom key steps) = .ok reply ∧
    reply.trace.compared = low.compared
  seek : ∀ cursor : Cursor, cursor.map = map.id → ∃ moved reply,
    cursor.call map (.seek key) = .ok (moved, reply) ∧ reply.trace.compared = low.compared
  insert : ∀ value memory, ∃ next reply, map.apply (.insert key value memory) = .ok (next, reply) ∧
    reply.trace.compared = path.compared
  remove : ∀ change, change = .remove key ∨ change = .erase key →
    ∃ next reply, map.apply change = .ok (next, reply) ∧ reply.trace.compared = path.compared

variable {map next : Map σ α} {layout rest : Layout α} {key : Key}

/-! ### A key of the right length -/

theorem Holds.entries_of_unsearchable (h : map.Holds layout) (fit : key.length = map.keySize)
    (unsearchable : ¬ map.Searchable key) : layout.entries = [] := by
  apply List.eq_nil_of_length_eq_zero
  rw [← h.len]
  exact not_not.mp fun some_entry => unsearchable ⟨some_entry, fit⟩

theorem Holds.way_of_unsearchable (h : map.Holds layout) (fit : key.length = map.keySize)
    (unsearchable : ¬ map.Searchable key) :
    map.way layout key = { passed := [], ahead := [], equal := none, compared := [] } := by
  rw [way, h.entries_of_unsearchable fit unsearchable, way_nil]

theorem Holds.lowerBound_way (h : map.Holds layout) (fit : key.length = map.keySize) :
    map.lowerBound key =
      .ok { slot := (map.way layout key).ahead.head?.map (·.slot),
            compared := (map.way layout key).compared } := by
  rw [h.lowerBound_eq, atLeast, comparisonsTo]
  by_cases searchable : map.Searchable key
  · rw [if_pos searchable, if_pos searchable]
  · rw [if_neg searchable, if_neg searchable, h.way_of_unsearchable fit searchable]

theorem Holds.found_way (h : map.Holds layout) (fit : key.length = map.keySize) :
    map.found layout key = (map.way layout key).equal := by
  by_cases searchable : map.Searchable key
  · exact if_pos searchable
  · rw [found, if_neg searchable, h.way_of_unsearchable fit searchable]

theorem Holds.removal_probes (h : map.Holds layout) (fit : key.length = map.keySize) :
    (if map.Searchable key then map.probes layout key else []) = map.probes layout key := by
  by_cases searchable : map.Searchable key
  · exact if_pos searchable
  · rw [if_neg searchable, probes, h.way_of_unsearchable fit searchable]
    rfl

theorem Holds.splice_way (h : map.Holds layout) (key : Key) :
    map.arena.splice map.order map.maxHeight.levels key = .ok
      { path := pathTo map.maxHeight.levels (map.way layout key).passed
        slot := (hit map.order key (map.way layout key).ahead).map (·.slot)
        compared := map.probes layout key } :=
  h.arena.splice_eq map.maxHeight.one_le map.order key

theorem Holds.hit_iff (h : map.Holds layout) {ahead : List (Entry α)}
    (listed : ∀ e ∈ ahead.head?, e ∈ layout.entries) (slot : Nat) :
    (hit map.order key ahead).map (·.slot) = some slot ↔ ahead.head?.map (·.slot) = some slot ∧
      ∃ stored, map.arena.key slot = .ok stored ∧ map.order.compare stored key = .eq := by
  cases first : ahead.head? with
  | none => simp [hit, first]
  | some e =>
    obtain ⟨after, found⟩ := h.arena.occupied_of_mem (listed e first)
    have stored : map.arena.key e.slot = .ok e.key := Arena.key_of_occupied found
    rw [hit, first, Option.filter_some, Option.map_some, Option.some.injEq]
    constructor
    · intro met
      split at met
      · rename_i equal
        obtain rfl := Option.some.inj met
        exact ⟨rfl, e.key, stored, of_decide_eq_true equal⟩
      · cases met
    · rintro ⟨rfl, other, there, equal⟩
      obtain rfl := Except.ok.inj (stored.symm.trans there)
      rw [if_pos (decide_eq_true equal)]
      rfl

theorem Ordered.found_hit (h : map.Ordered layout) (fit : key.length = map.keySize) :
    map.found layout key = hit map.order key (map.way layout key).ahead := by
  have upper := (h.cut_eq fit (Cuts.self map layout key)).2
  cases found : map.found layout key with
  | some e =>
    obtain ⟨member, equal, _⟩ := found_mem found
    obtain ⟨before, after, split⟩ := List.append_of_mem member
    rw [← upper, (h.cut_of_equal fit split equal).2]
    exact (hit_eq_some_iff.mpr ⟨⟨after, rfl⟩, equal⟩).symm
  | none =>
    rw [h.found_way fit] at found
    exact (way_equal_none map.maxHeight.one_le (fun e listed => (h.arena.heights e listed).1) found).symm

variable [DrawSource σ]

theorem Reached.ordered_of_holds (reached : map.Reached) (h : map.Holds layout)
    (lawful : map.order.IsTotalPreorder map.keySize) : map.Ordered layout := by
  obtain ⟨other, ordered⟩ := reached.ordered lawful
  have same : other.entries = layout.entries := ordered.lists.unique h.lists
  have sorted := ordered.sorted
  rw [listing, same] at sorted
  exact { toHolds := h, lawful, sorted }

/-! ### The comparisons of a call -/

theorem Holds.modify_compared (h : map.Holds layout) {change : α → α}
    {reply : Reply α (Except Error (Answer α))} (made : map.apply (.modify key change) = .ok (next, reply)) :
    reply.trace.compared = map.glances layout key := by
  -- the turn leaves open which comparisons were made, so the call itself is opened
  simp only [apply, modify, h.find_eq, ok_bind] at made
  cases found : map.found layout key with
  | none =>
    rw [found] at made
    obtain ⟨_, rfl⟩ := Prod.mk.inj (Except.ok.inj made)
    rfl
  | some e =>
    rw [found] at made
    obtain ⟨_, reached, made⟩ := bind_ok made
    obtain ⟨_, _, reached⟩ := bind_ok reached
    obtain ⟨_, _, reached⟩ := bind_ok reached
    obtain rfl := Except.ok.inj reached
    obtain ⟨_, rfl⟩ := Prod.mk.inj (Except.ok.inj made)
    rfl

theorem Holds.apply_compared (h : map.Holds layout) {change : Change α}
    {reply : Reply α (Except Error (Answer α))} (made : map.apply change = .ok (next, reply)) :
    reply.trace.compared = map.compares layout change := by
  obtain ⟨rest, turn, _⟩ := h.turn made
  cases turn with
  | unfit unfit => exact (if_neg unfit).symm
  | updated fit _ _ => exact (if_pos fit).symm
  | inserted fit _ _ _ _ => exact (if_pos fit).symm
  | refused fit _ _ _ _ => exact (if_pos fit).symm
  | missed _ _ => rfl
  | removed searchable _ _ => exact (if_pos searchable).symm
  | erased removal =>
    cases removal with
    | missed _ _ => rfl
    | removed searchable _ _ => exact (if_pos searchable).symm
  | unmodified _ _ => exact h.modify_compared made
  | modified _ _ _ => exact h.modify_compared made
  | cleared => rfl

theorem Holds.shares (h : map.Holds layout) (fit : key.length = map.keySize) {early low : Search}
    {path : Splice} (searches : map.Searches key early low path) : map.Shares key early low path := by
  have glances : early.compared = map.glances layout key :=
    congrArg Search.compared (Except.ok.inj (searches.find.symm.trans (h.find_eq key)))
  have downward : low.compared = map.comparisonsTo layout key :=
    congrArg Search.compared (Except.ok.inj (searches.lowerBound.symm.trans (h.lowerBound_eq key)))
  have probes : path.compared = map.probes layout key :=
    congrArg Splice.compared (Except.ok.inj (searches.splice.symm.trans (h.splice_way key)))
  have changed (change : Change α) {compared : List Comparison}
      (same : compared = map.compares layout change) :
      ∃ next reply, map.apply change = .ok (next, reply) ∧ reply.trace.compared = compared := by
    obtain ⟨next, _, reply, made, _⟩ := h.apply_ok change
    exact ⟨next, reply, made, (h.apply_compared made).trans same.symm⟩
  refine
    { look := fun query named => ⟨_, h.answer_eq query, ?_⟩,
      modify := fun change => changed (.modify key change) glances,
      traverseFrom := fun steps => ⟨_, h.answer_eq _, downward.symm⟩,
      seek := fun cursor own => ⟨_, _, Cursor.call_eq h cursor _, ?_⟩,
      insert := fun value memory => changed (.insert key value memory) ?_,
      remove := fun change named => changed change ?_ }
  · rcases named with rfl | rfl | rfl <;> exact glances.symm
  · rw [if_neg (not_not.mpr own)]
    exact downward.symm
  · exact probes.trans (if_pos fit).symm
  · rcases named with rfl | rfl <;> exact probes.trans (h.removal_probes fit).symm

/-- The three searches for a key of the right length agree. The one that may stop early makes the first
comparisons of the one that goes all the way down, and the one that records its way makes all of them and
then compares the node that was reached, if there is one; the last slot that it records on level 0 leads to
that node. Under a total preorder the first and the last find the same node, the one that was reached if
its key is equal, and otherwise none. -/
theorem searches_agree {map : Map σ α} (reached : map.Reached) {key : Key}
    (fit : key.length = map.keySize) :
    ∃ early low path, map.Searches key early low path ∧ map.Shares key early low path ∧
      early.compared <+: low.compared ∧
      (low.slot = none → path.compared = low.compared) ∧
      (∀ slot, low.slot = some slot → ∃ comparison,
        map.arena.compareAt map.order key 0 slot = .ok comparison ∧
        path.compared = low.compared ++ [comparison]) ∧
      (∃ before, path.path[0]? = some before ∧ map.arena.next before 0 = .ok low.slot) ∧
      (map.order.IsTotalPreorder map.keySize → early.slot = path.slot ∧
        ∀ slot, path.slot = some slot ↔ low.slot = some slot ∧
          ∃ stored, map.arena.key slot = .ok stored ∧ map.order.compare stored key = .eq) := by
  obtain ⟨layout, h⟩ := reached.holds
  have searches : map.Searches key _ _ _ :=
    { find := h.find_eq key, lowerBound := h.lowerBound_way fit, splice := h.splice_way key }
  have ahead : (map.way layout key).ahead <:+ layout.entries :=
    ⟨_, (Cuts.self map layout key).split.symm⟩
  refine ⟨_, _, _, searches, h.shares fit searches, glances_prefix map layout key, fun missing => ?_,
    fun slot there => ?_, ?_, fun lawful => ⟨?_, fun slot => ?_⟩⟩
  · rw [Option.map_eq_none_iff] at missing
    rw [probes, missing]
    exact List.append_nil _
  · obtain ⟨e, first, rfl⟩ := Option.map_eq_some_iff.mp there
    have listed : e ∈ layout.entries := Cursor.mem_of_head? ahead e first
    refine ⟨_, h.arena.compareAt_eq map.order key 0 listed, ?_⟩
    rw [probes, first]
    rfl
  · refine ⟨endOn 0 (map.way layout key).passed, ?_, h.arena.next_way map.maxHeight.one_le _ _⟩
    exact (pathTo_getElem? _ _ _).trans (if_pos map.maxHeight.one_le)
  · rw [(reached.ordered_of_holds h lawful).found_hit fit]
  · exact h.hit_iff (fun e first => Cursor.mem_of_head? ahead e first) slot

/-- The key `[1]` is found on the upper level by the search that may stop there, after one comparison; the
others go on down and make two and three. -/
theorem searches_agree_sample :
    sample.Reached ∧ [1].length = sample.keySize ∧ ∃ early low path,
      sample.Searches [1] early low path ∧
      (early.slot = some 1 ∧ low.slot = some 1 ∧ path.slot = some 1) ∧
      early.compared.length = 1 ∧ low.compared.length = 2 ∧ path.compared.length = 3 := by
  have fit : ([1] : Key).length = sample.keySize := rfl
  obtain ⟨early, low, path, searches, _, _, _, last, _, same⟩ := searches_agree sample_reached fit
  have found : early.slot = path.slot := (same (KeyOrder.isTotalPreorder_ascend 1)).1
  obtain rfl := Except.ok.inj (searches.find.symm.trans (show sample.find [1] = .ok _ from rfl))
  obtain rfl := Except.ok.inj (searches.lowerBound.symm.trans (show sample.lowerBound [1] = .ok _ from rfl))
  obtain ⟨_, _, all⟩ := last 1 rfl
  exact ⟨sample_reached, rfl, _, _, _, searches, ⟨rfl, rfl, found.symm⟩, rfl, rfl, by rw [all]; rfl⟩

end Map

end SkipList
