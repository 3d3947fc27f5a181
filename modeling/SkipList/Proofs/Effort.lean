import Mathlib.Data.List.Perm.Subperm
import SkipList.Proofs.Comparisons

/-!
# The effort of a search

How many comparisons a search makes, under any key order. An entry that compares less is passed, and no
entry is passed twice; each level ends with at most one comparison that is not less.
-/

namespace SkipList

open Entry

variable {σ α : Type}

/-- The comparisons of a way down through these levels of a map with these slots along level 0. -/
structure Descending (slots : List Nat) (levels : Nat) (compared : List Comparison) : Prop where
  stored : ∀ c ∈ compared, c.slot ∈ slots
  below : ∀ c ∈ compared, c.level < levels
  ahead : ((compared.filter (·.answer = .lt)).map (slots.idxOf ·.slot)).Pairwise (· < ·)
  /-- At most one comparison of each level is not less. -/
  down : ((compared.filter (·.answer ≠ .lt)).map (·.level)).Pairwise (· > ·)

theorem Descending.of_prefix {slots : List Nat} {levels : Nat} {compared start : List Comparison}
    (descending : Descending slots levels compared) (first : start <+: compared) :
    Descending slots levels start := by
  have part := first.sublist
  refine { stored := ?_, below := ?_, ahead := ?_, down := ?_ }
  · intro c member
    exact descending.stored c (part.mem member)
  · intro c member
    exact descending.below c (part.mem member)
  · exact descending.ahead.sublist ((part.filter _).map _)
  · exact descending.down.sublist ((part.filter _).map _)

namespace Entry

variable {order : KeyOrder} {sought : Key} {level levels : Nat} {entries : List (Entry α)}

/-! ### One level -/

theorem leg_compared_lt (order : KeyOrder) (sought : Key) (level : Nat) (entries : List (Entry α)) :
    (leg order sought level entries).compared.filter (·.answer = .lt) =
      ((leg order sought level entries).passed.filter (level < ·.height)).map
        (·.comparison order sought level) := by
  have passed : ∀ c ∈ ((leg order sought level entries).passed.filter (level < ·.height)).map
      (·.comparison order sought level), decide (c.answer = .lt) = true := by
    intro c compared
    obtain ⟨e, member, rfl⟩ := List.mem_map.mp compared
    obtain ⟨member, tall⟩ := List.mem_filter.mp member
    exact decide_eq_true (leg_lt e member (of_decide_eq_true tall))
  rw [leg_compared_eq, List.filter_append, List.filter_eq_self.mpr passed]
  cases found : (leg order sought level entries).ahead.find? (level < ·.height) with
  | none => exact List.append_nil _
  | some e =>
    have stopped : (e.comparison order sought level).answer ≠ .lt := leg_stop e found
    simp [stopped]

theorem leg_compared_ne_lt (order : KeyOrder) (sought : Key) (level : Nat) (entries : List (Entry α)) :
    (leg order sought level entries).compared.filter (·.answer ≠ .lt) =
      (((leg order sought level entries).ahead.find? (level < ·.height)).map
        (·.comparison order sought level)).toList := by
  have passed : ∀ c ∈ ((leg order sought level entries).passed.filter (level < ·.height)).map
      (·.comparison order sought level), ¬ decide (c.answer ≠ .lt) = true := by
    intro c compared
    obtain ⟨e, member, rfl⟩ := List.mem_map.mp compared
    obtain ⟨member, tall⟩ := List.mem_filter.mp member
    have less : (e.comparison order sought level).answer = .lt := leg_lt e member (of_decide_eq_true tall)
    simp [less]
  rw [leg_compared_eq, List.filter_append, List.filter_eq_nil_iff.mpr passed, List.nil_append]
  cases found : (leg order sought level entries).ahead.find? (level < ·.height) with
  | none => rfl
  | some e =>
    have stopped : (e.comparison order sought level).answer ≠ .lt := leg_stop e found
    simp [stopped]

/-! ### All levels -/

/-- What compares less is passed, in the order of the entries. -/
theorem way_compared_lt (order : KeyOrder) (sought : Key) (levels : Nat) (entries : List (Entry α)) :
    (((way order sought levels entries).compared.filter (·.answer = .lt)).map (·.slot)).Sublist
      ((way order sought levels entries).passed.map (·.slot)) := by
  induction levels generalizing entries with
  | zero => exact List.Sublist.refl _
  | succ level ih =>
    rw [way, List.filter_append, List.map_append, List.map_append, leg_compared_lt, List.map_map]
    exact ((List.filter_sublist).map _).append (ih _)

theorem way_compared_ne_lt (order : KeyOrder) (sought : Key) (levels : Nat) (entries : List (Entry α)) :
    (((way order sought levels entries).compared.filter (·.answer ≠ .lt)).map (·.level)).Pairwise
      (· > ·) := by
  induction levels generalizing entries with
  | zero => exact List.Pairwise.nil
  | succ level ih =>
    rw [way, List.filter_append, List.map_append, leg_compared_ne_lt]
    refine List.pairwise_append.mpr ⟨?_, ih _, ?_⟩
    · cases (leg order sought level entries).ahead.find? (level < ·.height) with
      | none => exact List.Pairwise.nil
      | some _ => exact List.pairwise_singleton _ _
    · intro high stopped low later
      obtain ⟨c, here, rfl⟩ := List.mem_map.mp stopped
      obtain ⟨e, _, rfl⟩ := Option.map_eq_some_iff.mp (Option.mem_toList.mp here)
      obtain ⟨c, compared, rfl⟩ := List.mem_map.mp later
      exact (way_compared_mem c (List.mem_filter.mp compared).1).1

theorem way_ahead_of_compared : ∀ c ∈ (way order sought levels entries).compared, c.answer ≠ .lt →
    (way order sought levels entries).ahead ≠ [] := by
  induction levels generalizing entries with
  | zero => intro c compared; nomatch compared
  | succ level ih =>
    intro c compared stopped
    rw [way] at compared ⊢
    rcases List.mem_append.mp compared with here | below
    · have listed : c ∈ (leg order sought level entries).compared.filter (·.answer ≠ .lt) :=
        List.mem_filter.mpr ⟨here, decide_eq_true stopped⟩
      rw [leg_compared_ne_lt] at listed
      obtain ⟨e, found, rfl⟩ := Option.map_eq_some_iff.mp (Option.mem_toList.mp listed)
      have tall : level < e.height := by simpa using List.find?_some found
      have member := List.mem_of_find?_eq_some found
      rw [← way_append order sought level (leg order sought level entries).ahead] at member
      rcases List.mem_append.mp member with passed | ahead
      · exact absurd tall (way_low leg_stop e passed)
      · exact List.ne_nil_of_mem ahead
    · exact ih c below stopped

theorem length_le_of_decreasing {bound : Nat} {numbers : List Nat} (down : numbers.Pairwise (· > ·))
    (below : ∀ n ∈ numbers, n < bound) : numbers.length ≤ bound := by
  have once : numbers.Nodup := down.imp fun greater => Nat.ne_of_gt greater
  have inside : numbers ⊆ List.range bound := fun n member => List.mem_range.mpr (below n member)
  simpa using (List.subperm_of_subset once inside).length_le

theorem length_compared (compared : List Comparison) :
    compared.length = (compared.filter (·.answer = .lt)).length +
      (compared.filter (·.answer ≠ .lt)).length := by
  rw [List.length_eq_length_filter_add (·.answer = .lt)]
  simp only [ne_eq, decide_not]

/-- There is one comparison at most for each entry and for each level, but never as many as that. -/
theorem way_compared_length (some_level : 0 < levels) :
    (way order sought levels entries).compared.length ≤ entries.length + levels - 1 := by
  have less := (way_compared_lt order sought levels entries).length_le
  have whole := congrArg List.length (way_append order sought levels entries)
  have parts := length_compared (way order sought levels entries).compared
  rw [List.length_map, List.length_map] at less
  rw [List.length_append] at whole
  -- a comparison that is not less leaves an entry ahead that never compares less
  cases stops : (way order sought levels entries).compared.filter (·.answer ≠ .lt) with
  | nil =>
    rw [stops, List.length_nil] at parts
    omega
  | cons c later =>
    have listed : c ∈ (way order sought levels entries).compared.filter (·.answer ≠ .lt) :=
      stops ▸ List.mem_cons_self
    obtain ⟨compared, stopped⟩ := List.mem_filter.mp listed
    have left := List.length_pos_of_ne_nil (way_ahead_of_compared c compared (of_decide_eq_true stopped))
    have below : ∀ level ∈ ((way order sought levels entries).compared.filter (·.answer ≠ .lt)).map (·.level),
        level < levels := by
      intro level listed
      obtain ⟨c, compared, rfl⟩ := List.mem_map.mp listed
      exact (way_compared_mem c (List.mem_filter.mp compared).1).1
    have few := length_le_of_decreasing (way_compared_ne_lt order sought levels entries) below
    rw [List.length_map] at few
    omega

end Entry

theorem pairwise_idxOf {slots part : List Nat} (once : slots.Nodup) (inside : part.Sublist slots) :
    (part.map (slots.idxOf ·)).Pairwise (· < ·) := by
  have all : slots.Pairwise fun first second => slots.idxOf first < slots.idxOf second := by
    refine List.pairwise_iff_getElem.mpr fun i j hi hj less => ?_
    rwa [once.idxOf_getElem i hi, once.idxOf_getElem j hj]
  exact List.pairwise_map.mpr (all.sublist inside)

theorem Arena.Holds.walk_ends {arena : Arena α} {levels level : Nat} {layout : Layout α}
    (h : arena.Holds levels layout) (order : KeyOrder) (sought : Key) (inside : level < levels) {fuel : Nat}
    (enough : layout.entries.length < fuel) {last : Nat} (on : last = Arena.headSlot ∨
      last ∈ layout.entries.map (·.slot) ∧ level < arena.heightAt last) :
    ∃ stop, arena.walk order sought level fuel last = .ok stop := by
  rcases on with rfl | ⟨listed, tall⟩
  · exact ⟨_, h.walk_eq order sought inside (List.nil_append _).symm enough⟩
  · obtain ⟨e, member, rfl⟩ := List.mem_map.mp listed
    rw [h.heightAt_eq member] at tall
    obtain ⟨before, after, split⟩ := List.append_of_mem member
    have parts : layout.entries = (before ++ [e]) ++ after := by rw [split, List.append_cons]
    have fewer := congrArg List.length split
    rw [List.length_append, List.length_cons] at fewer
    have ends := h.walk_eq order sought inside parts (show after.length < fuel by omega)
    rw [endOn_concat, if_pos tall] at ends
    exact ⟨_, ends⟩

namespace Map

variable {map : Map σ α} {layout : Layout α} {key : Key}

theorem Holds.descending (h : map.Holds layout) (key : Key) :
    Descending (layout.entries.map (·.slot)) map.maxHeight.levels (map.way layout key).compared := by
  refine { stored := ?_, below := ?_, ahead := ?_, down := way_compared_ne_lt _ _ _ _ }
  · intro c compared
    obtain ⟨_, e, member, same⟩ := way_compared_mem c compared
    rw [same]
    exact List.mem_map_of_mem member
  · intro c compared
    exact (way_compared_mem c compared).1
  · have part := way_compared_lt map.order key map.maxHeight.levels layout.entries
    have inside : ((map.way layout key).passed.map (·.slot)).Sublist (layout.entries.map (·.slot)) := by
      rw [(Cuts.self map layout key).split, List.map_append]
      exact List.sublist_append_left _ _
    have ahead := pairwise_idxOf h.arena.entries_nodup (part.trans inside)
    rwa [List.map_map] at ahead

theorem Holds.first_not_lt (h : map.Holds layout) (key : Key) :
    ∀ c ∈ ((map.way layout key).ahead.head?.map (·.comparison map.order key 0)).toList, c.answer ≠ .lt := by
  intro c compared
  obtain ⟨e, first, rfl⟩ := Option.map_eq_some_iff.mp (Option.mem_toList.mp compared)
  exact (Cuts.self map layout key).first_ne_lt h e first

variable [DrawSource σ]

/-- Whatever the key order, a search for a key of the right length ends. The nodes that compare less lie
farther and farther along level 0, and each level makes at most one comparison that is not less; the search
that records its way makes one more at its end. So in a map of `len` entries and `height` levels a search
makes at most `len + height - 1` comparisons, the last one `len + height`, and none if there is no entry. -/
theorem comparisons_bounded {map : Map σ α} (reached : map.Reached) {key : Key}
    (fit : key.length = map.keySize) :
    ∃ slots early low path, map.Linked slots ∧ map.Searches key early low path ∧
      map.Shares key early low path ∧
      Descending slots map.maxHeight.levels early.compared ∧
      Descending slots map.maxHeight.levels low.compared ∧
      (∃ last, path.compared = low.compared ++ last ∧ last.length ≤ 1 ∧ ∀ c ∈ last, c.answer ≠ .lt) ∧
      early.compared.length ≤ map.len + map.maxHeight.levels - 1 ∧
      low.compared.length ≤ map.len + map.maxHeight.levels - 1 ∧
      path.compared.length ≤ map.len + map.maxHeight.levels ∧
      (map.len = 0 → early.compared = [] ∧ low.compared = [] ∧ path.compared = []) ∧
      ∀ level < map.maxHeight.levels, ∀ fuel > map.len, ∀ last,
        (last = Arena.headSlot ∨ last ∈ slots ∧ level < map.arena.heightAt last) →
          ∃ stop, map.arena.walk map.order key level fuel last = .ok stop := by
  obtain ⟨layout, h⟩ := reached.holds
  have some_level := map.maxHeight.one_le
  have searches : map.Searches key _ _ _ :=
    { find := h.find_eq key, lowerBound := h.lowerBound_way fit, splice := h.splice_way key }
  have descending := h.descending key
  have start := glances_prefix map layout key
  have bound : (map.way layout key).compared.length ≤ map.len + map.maxHeight.levels - 1 := by
    rw [h.len]
    exact way_compared_length some_level
  have one : (((map.way layout key).ahead.head?.map (·.comparison map.order key 0)).toList).length ≤ 1 :=
    Option.length_toList_le
  refine ⟨_, _, _, _, h.linked, searches, h.shares fit searches, descending.of_prefix start, descending,
    ⟨_, rfl, one, h.first_not_lt key⟩, start.length_le.trans bound, bound, ?_, fun empty => ?_,
    fun level inside fuel enough last on => ?_⟩
  · change (map.probes layout key).length ≤ _
    rw [probes, List.length_append]
    omega
  · have unsearchable : ¬ map.Searchable key := fun searchable => searchable.1 empty
    have nowhere := h.way_of_unsearchable fit unsearchable
    rw [nowhere] at start
    exact ⟨List.prefix_nil.mp start, congrArg Leg.compared nowhere, by rw [probes, nowhere]; rfl⟩
  · exact h.arena.walk_ends map.order key inside (h.len ▸ enough) on

/-- The search for `[3]` makes as many comparisons as there can be: 4 on the way down and one more where
the way is recorded. -/
theorem comparisons_bounded_sample :
    sample.Reached ∧ ([3] : Key).length = sample.keySize ∧ ∃ early low path,
      sample.Searches [3] early low path ∧
      low.compared.length = 4 ∧ sample.len + sample.maxHeight.levels - 1 = 4 ∧
      path.compared.length = 5 ∧ sample.len + sample.maxHeight.levels = 5 := by
  have fit : ([3] : Key).length = sample.keySize := rfl
  obtain ⟨_, early, low, path, _, searches, _⟩ := comparisons_bounded sample_reached fit
  obtain rfl := Except.ok.inj (searches.lowerBound.symm.trans (show sample.lowerBound [3] = .ok _ from rfl))
  obtain rfl := Except.ok.inj (searches.splice.symm.trans
    (show sample.arena.splice sample.order sample.maxHeight.levels [3] = .ok _ from rfl))
  exact ⟨sample_reached, rfl, _, _, _, searches, rfl, rfl, rfl, rfl⟩

end Map

end SkipList
