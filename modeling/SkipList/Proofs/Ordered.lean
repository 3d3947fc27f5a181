import SkipList.Proofs.Refinement

/-!
# Ordered maps

A map under a total preorder of its keys: the entries are strictly increasing along level 0, and every
change keeps them so.
-/

namespace SkipList

open Entry Listing

variable {σ α : Type}

namespace Map

/-- The map holds the layout, its order is a total preorder, and its entries are strictly increasing. -/
structure Ordered (map : Map σ α) (layout : Layout α) : Prop extends Map.Holds map layout where
  lawful : map.order.IsTotalPreorder map.keySize
  sorted : Sorted map.order (listing layout)

namespace Ordered

variable {map : Map σ α} {layout : Layout α} {before after : List (Entry α)} {e : Entry α}

theorem self_eq (h : map.Ordered layout) (member : e ∈ layout.entries) :
    map.order.compare e.key e.key = .eq :=
  h.lawful.refl e.key (h.fit e member)

theorem lt_after (h : map.Ordered layout) (split : layout.entries = before ++ e :: after) :
    ∀ x ∈ after, map.order.compare e.key x.key = .lt := by
  have sorted := h.sorted
  rw [listing, split, List.map_append, List.map_cons] at sorted
  intro x member
  exact (sorted_cons.mp (sorted_append.mp sorted).2.1).1 x.pair (List.mem_map_of_mem member)

theorem gt_before (h : map.Ordered layout) (split : layout.entries = before ++ e :: after) :
    ∀ x ∈ before, map.order.compare e.key x.key = .gt := by
  have sorted := h.sorted
  rw [listing, split, List.map_append, List.map_cons] at sorted
  intro x member
  rw [h.lawful.gt_iff (h.fit e (split ▸ List.mem_append_cons_self))
    (h.fit x (split ▸ List.mem_append_left _ member))]
  exact (sorted_append.mp sorted).2.2 x.pair (List.mem_map_of_mem member) e.pair List.mem_cons_self

theorem mem_after (h : map.Ordered layout) (split : layout.entries = before ++ e :: after) {x : Entry α}
    (member : x ∈ layout.entries) (above : map.order.compare e.key x.key = .lt) : x ∈ after := by
  have listed := member
  rw [split] at listed
  rcases List.mem_append.mp listed with earlier | here
  · rw [h.gt_before split x earlier] at above
    nomatch above
  · rcases List.mem_cons.mp here with rfl | later
    · rw [h.self_eq member] at above
      nomatch above
    · exact later

variable [DrawSource σ]

theorem of_turn (h : map.Ordered layout) {change : Change α} {next : Map σ α} {rest : Layout α}
    {reply : Reply α (Except Error (Answer α))} (turn : Turn map layout change next rest reply)
    (holds : next.Holds rest) : next.Ordered rest := by
  obtain ⟨_, size, _, order⟩ := turn.frame
  refine { toHolds := holds, lawful := ?_, sorted := ?_ }
  · rw [order, size]
    exact h.lawful
  · rw [order]
    exact turn.sorted h.toHolds h.lawful h.sorted

theorem apply_ok (h : map.Ordered layout) (change : Change α) :
    ∃ next rest reply, map.apply change = .ok (next, reply) ∧
      Turn map layout change next rest reply ∧ next.Ordered rest := by
  obtain ⟨next, rest, reply, made, turn, holds⟩ := h.toHolds.apply_ok change
  exact ⟨next, rest, reply, made, turn, h.of_turn turn holds⟩

theorem applyAll_ok (h : map.Ordered layout) (changes : List (Change α)) :
    ∃ next rest replies, map.applyAll changes = .ok (next, replies) ∧ next.Ordered rest := by
  induction changes generalizing map layout with
  | nil => exact ⟨map, layout, [], rfl, h⟩
  | cons change changes ih =>
    obtain ⟨next, rest, reply, made, _, ordered⟩ := h.apply_ok change
    obtain ⟨last, final, replies, run, ordered⟩ := ih ordered
    exact ⟨last, final, reply :: replies, applyAll_of_apply made run, ordered⟩

theorem serveAll_frame (h : map.Ordered layout) {requests : List (Request α)} {next : Map σ α}
    {answers : List (Except Error (Answer α))} (run : map.serveAll requests = .ok (next, answers)) :
    next.order = map.order ∧ next.keySize = map.keySize := by
  induction requests generalizing map layout answers with
  | nil =>
    obtain ⟨rfl, _⟩ := Prod.mk.inj (Except.ok.inj run)
    exact ⟨rfl, rfl⟩
  | cons request requests ih =>
    obtain ⟨mid, rest, answer, served, holds, sorted, order, size, _⟩ :=
      h.toHolds.serve_eq h.lawful h.sorted request
    rw [serveAll, served, ok_bind] at run
    obtain ⟨⟨last, later⟩, ran, same⟩ := bind_ok run
    obtain ⟨rfl, _⟩ := Prod.mk.inj (Except.ok.inj same)
    have ordered : mid.Ordered rest :=
      { toHolds := holds, lawful := order ▸ size ▸ h.lawful, sorted := order ▸ sorted }
    obtain ⟨order', size'⟩ := ih ordered ran
    exact ⟨order'.trans order, size'.trans size⟩

theorem serveAll_ok (h : map.Ordered layout) (requests : List (Request α)) :
    ∃ next rest answers, map.serveAll requests = .ok (next, answers) ∧ next.Ordered rest ∧
      next.order = map.order ∧ next.keySize = map.keySize ∧
      (NoShortage answers →
        (listing layout).serveAll map.order map.keySize requests = (listing rest, answers)) := by
  obtain ⟨next, rest, answers, run, kept, sorted, same⟩ := h.toHolds.serveAll_eq h.lawful h.sorted requests
  obtain ⟨order, size⟩ := h.serveAll_frame run
  refine ⟨next, rest, answers, run, { toHolds := kept, lawful := ?_, sorted := ?_ }, order, size, same⟩
  · rw [order, size]
    exact h.lawful
  · rw [order]
    exact sorted

end Ordered

theorem build_ordered {memory : Memory} {blueprint : Blueprint} {source : σ} {id : Nat} {map : Map σ α}
    (built : Map.build memory blueprint source id = .ok map)
    (lawful : map.order.IsTotalPreorder map.keySize) :
    map.Ordered (newLayout α blueprint.config.capacity) :=
  { toHolds := (build_holds built).1, lawful, sorted := List.Pairwise.nil }

theorem Reached.ordered [DrawSource σ] {map : Map σ α} (reached : map.Reached)
    (lawful : map.order.IsTotalPreorder map.keySize) : ∃ layout, map.Ordered layout := by
  obtain ⟨_, _, _, _, changes, _, start, built, run⟩ := reached
  obtain ⟨holds, _⟩ := build_holds built
  obtain ⟨_, _, _, done, _, _, size, _, order⟩ := holds.applyAll_ok changes
  rw [run] at done
  obtain ⟨rfl, _⟩ := Prod.mk.inj (Except.ok.inj done)
  rw [order, size] at lawful
  obtain ⟨_, rest, _, done, ordered⟩ := (build_ordered built lawful).applyAll_ok changes
  rw [run] at done
  obtain ⟨rfl, _⟩ := Prod.mk.inj (Except.ok.inj done)
  exact ⟨rest, ordered⟩

end Map

end SkipList
