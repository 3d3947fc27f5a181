import SkipList.Draws.Source
import SkipList.Proofs.Run

/-!
# The structure of a map

Whatever happens to a map, it is a skip list: level 0 leads through every node once, and each level
above leads through the nodes that are tall enough, in the same order. No law of the key order is used.
-/

namespace SkipList

variable {σ α : Type}

namespace Arena

/-- The links of a level lead from a link through these slots to the end. -/
inductive Chain (arena : Arena α) (level : Nat) : Link → List Nat → Prop where
  | nil : Chain arena level none []
  | cons {slot : Nat} {link : Link} {slots : List Nat} (next : arena.next slot level = .ok link)
      (rest : Chain arena level link slots) : Chain arena level (some slot) (slot :: slots)

/-- A level leads from the head through these slots to the end. -/
def Visits (arena : Arena α) (level : Nat) (slots : List Nat) : Prop :=
  ∃ link, arena.next headSlot level = .ok link ∧ arena.Chain level link slots

def Live (arena : Arena α) (slot : Nat) (node : Node α) : Prop :=
  ∃ generation, arena.slots[slot]? = some (.occupied generation node)

/-- The height of the node in the slot; a slot without a node takes part in no level. -/
def heightAt (arena : Arena α) (slot : Nat) : Nat :=
  match arena.slots[slot]? with
  | some (.occupied _ node) => node.height
  | _ => 0

end Arena

/-- The map is a skip list with these slots along level 0. -/
structure Map.Linked (map : Map σ α) (slots : List Nat) : Prop where
  head : ∃ tower, map.arena.slots[Arena.headSlot]? = some (.head tower) ∧
    tower.length = map.maxHeight.levels
  bottom : map.arena.Visits 0 slots
  once : slots.Nodup
  live : ∀ slot, slot ∈ slots ↔ ∃ node, map.arena.Live slot node
  len : slots.length = map.len
  heights : ∀ slot node, map.arena.Live slot node →
    1 ≤ node.height ∧ node.height ≤ map.maxHeight.levels
  keys : ∀ slot node, map.arena.Live slot node → node.key.length = map.keySize
  levels : ∀ level < map.maxHeight.levels,
    map.arena.Visits level (slots.filter (level < map.arena.heightAt ·))

namespace Arena.Holds

open Entry

variable {arena : Arena α} {levels level : Nat} {layout : Layout α}

theorem heightAt_eq (h : arena.Holds levels layout) {e : Entry α} (member : e ∈ layout.entries) :
    arena.heightAt e.slot = e.height := by
  obtain ⟨after, found⟩ := h.occupied_of_mem member
  simp only [heightAt, found, node_height]

theorem chain (h : arena.Holds levels layout) (before after : List (Entry α))
    (split : layout.entries = before ++ after) :
    arena.Chain level (nextOn level after) ((after.filter (level < ·.height)).map (·.slot)) := by
  induction after generalizing before with
  | nil => exact .nil
  | cons e rest ih =>
    have further := ih (before ++ [e]) (by rw [split, List.append_cons])
    rw [nextOn_cons, List.filter_cons]
    by_cases tall : level < e.height
    · simp only [tall, if_true, decide_true, List.map_cons]
      exact .cons (h.next_entry split tall) further
    · simp only [tall, if_false, decide_false]
      exact further

theorem visits (h : arena.Holds levels layout) (inside : level < levels) :
    arena.Visits level ((layout.entries.map (·.slot)).filter (level < arena.heightAt ·)) := by
  have kept : (layout.entries.map (·.slot)).filter (level < arena.heightAt ·) =
      (layout.entries.filter (level < ·.height)).map (·.slot) := by
    rw [List.filter_map]
    congr 1
    apply List.filter_congr
    intro e member
    simp only [Function.comp_apply, h.heightAt_eq member]
  rw [kept]
  exact ⟨_, h.next_endOn (List.nil_append _).symm inside, h.chain [] _ rfl⟩

end Arena.Holds

namespace Map

theorem Holds.linked {map : Map σ α} {layout : Layout α} (h : map.Holds layout) :
    map.Linked (layout.entries.map (·.slot)) := by
  have entry {slot : Nat} {node : Node α} (live : map.arena.Live slot node) :
      ∃ e ∈ layout.entries, e.slot = slot ∧ e.height = node.height ∧ e.key = node.key := by
    obtain ⟨generation, found⟩ := live
    obtain ⟨before, e, after, split, here, _, rfl⟩ := h.arena.entry_of_occupied found
    exact ⟨e, split ▸ List.mem_append_cons_self, here,
      (Entry.node_height e after).symm, rfl⟩
  have bottom := h.arena.visits map.maxHeight.one_le
  have all : (layout.entries.map (·.slot)).filter (0 < map.arena.heightAt ·) =
      layout.entries.map (·.slot) := by
    apply List.filter_eq_self.mpr
    intro slot listed
    obtain ⟨e, member, rfl⟩ := List.mem_map.mp listed
    have tall : 0 < e.height := (h.arena.heights e member).1
    simpa [h.arena.heightAt_eq member] using tall
  rw [all] at bottom
  refine
    { head := ⟨_, h.arena.head, Entry.towerTo_length _ _⟩, bottom := bottom,
      once := h.arena.entries_nodup, live := fun slot => ⟨fun listed => ?_, fun ⟨node, live⟩ => ?_⟩,
      len := ?_, heights := fun slot node live => ?_, keys := fun slot node live => ?_,
      levels := fun level inside => h.arena.visits inside }
  · obtain ⟨e, member, rfl⟩ := List.mem_map.mp listed
    obtain ⟨after, found⟩ := h.arena.occupied_of_mem member
    exact ⟨e.node after, e.generation, found⟩
  · obtain ⟨e, member, rfl, _⟩ := entry live
    exact List.mem_map_of_mem member
  · rw [List.length_map, h.len]
  · obtain ⟨e, member, _, height, _⟩ := entry live
    rw [← height]
    exact h.arena.heights e member
  · obtain ⟨e, member, _, _, key⟩ := entry live
    rw [← key]
    exact h.fit e member

/-- After any changes to a new map, whatever its key order and its draws and whichever requests for
memory are refused, the map is a skip list. -/
theorem run_linked [DrawSource σ] {memory : Memory} {blueprint : Blueprint} {source : σ} {id : Nat}
    {start : Map σ α} (built : Map.build memory blueprint source id = .ok start)
    (changes : List (Change α)) :
    ∃ map replies slots, start.applyAll changes = .ok (map, replies) ∧ map.Linked slots ∧
      map.maxHeight = blueprint.config.maxHeight ∧ map.keySize = blueprint.config.keySize ∧
      map.order = blueprint.order := by
  obtain ⟨holds, height, size, order⟩ := build_holds built
  obtain ⟨map, layout, replies, run, kept, height', size', _, order'⟩ := holds.applyAll_ok changes
  exact ⟨map, replies, _, run, kept.linked, height'.trans height, size'.trans size,
    order'.trans order⟩

/-- A blueprint whose order obeys no law: every key comes before every other one and before itself. -/
def alwaysLess : Blueprint :=
  { config := { keySize := 1, maxHeight := .greatest }, order := .always "less" .lt }

theorem run_linked_alwaysLess :
    ∃ start : Map Script Nat, Map.build {} alwaysLess { values := [0, 7] } 0 = .ok start ∧
      ∃ map replies slots, start.applyAll
          [.insert [1] 10 {}, .insert [2] 20 {}, .insert [3] 30 { refuseAt := 2 }, .remove [1]] =
            .ok (map, replies) ∧
        map.Linked slots ∧ map.maxHeight = .greatest ∧ map.keySize = 1 ∧
        map.order = .always "less" .lt := by
  refine ⟨_, rfl, ?_⟩
  exact run_linked (show Map.build {} alwaysLess _ 0 = .ok _ from rfl) _

end Map

end SkipList
