import SkipList.Proofs.Atomicity
import SkipList.Proofs.Recycling

/-!
# Undoing an insertion

Removing a key that has just been inserted. The descent to the key goes as it did before, as far as the new
entry, so every link is set back to what it was. What is left of the visit is a vacant slot on top of the
stack, one generation later than before or new, and a source that is one draw further.
-/

namespace SkipList

open Entry

variable {σ α : Type}

/-! ### The slot of a visitor -/

def Layout.visit (layout : Layout α) : Layout α :=
  { layout.reserve with vacant := (layout.place.1, layout.place.2 + 1) :: layout.vacant.tail }

theorem Layout.remove_add {layout : Layout α} {before after : List (Entry α)}
    (split : layout.entries = before ++ after) (early : layout.place.2 < Arena.lastGeneration)
    (height : Nat) (key : Key) (value : α) :
    (layout.add before after height key value).remove before (layout.newEntry height key value) after =
      layout.visit := by
  have early' : (layout.newEntry height key value).generation < Arena.lastGeneration := early
  rw [remove, vacate, if_pos early']
  simp only [add, withEntries, take, reserve, newEntry, visit, split]

namespace Arena

/-- The arena after a node has been stored in it and released again. -/
inductive Visited (arena : Arena α) : Arena α → Prop where
  | reused {index generation : Nat} {next : Link} (free : arena.free = some index)
      (vacant : arena.slots[index]? = some (.vacant generation next)) :
      Visited arena (arena.setSlot index (.vacant (generation + 1) next))
  | fresh (full : arena.free = none) :
      Visited arena
        { arena.grow with
          slots := arena.slots.push (.vacant 1 none)
          free := some arena.slots.size }

/-- Each vacant slot has a generation left for after its next occupant. -/
def Renewable (arena : Arena α) : Prop :=
  ∀ (index generation : Nat) (next : Link), arena.slots[index]? = some (.vacant generation next) →
    generation < lastGeneration

theorem ext_slots {arena other : Arena α} (slots : ∀ index : Nat, arena.slots[index]? = other.slots[index]?)
    (free : arena.free = other.free) (capacity : arena.capacity = other.capacity) : arena = other := by
  obtain ⟨slots₁, _, _⟩ := arena
  obtain ⟨slots₂, _, _⟩ := other
  obtain rfl : slots₁ = slots₂ := Array.ext_getElem? slots
  obtain rfl := free
  obtain rfl := capacity
  rfl

variable {arena other : Arena α} {levels : Nat} {layout : Layout α}

theorem Holds.visit_kept (h : arena.Holds levels layout) (h' : other.Holds levels layout.visit)
    {index : Nat} (apart : index ≠ layout.place.1) : other.slots[index]? = arena.slots[index]? := by
  -- every place of the one layout, but that of the visitor, has the same contents in the other
  by_cases inside : index < other.slots.size
  · rcases List.mem_cons.mp (h'.mem_places.mpr inside) with rfl | listed
    · rw [h'.head, h.head]
      rfl
    · rcases Layout.mem_slots.mp listed with ⟨e, member, rfl⟩ | ⟨place, member, rfl⟩ | gone
      · obtain ⟨before, after, split⟩ := List.append_of_mem member
        rw [h'.occupied before e after split, h.occupied before e after split]
      · rcases List.mem_cons.mp member with rfl | member
        · exact absurd rfl apart
        · obtain ⟨before, after, split⟩ := List.append_of_mem member
          rw [h'.vacant (_ :: before) place after (congrArg (_ :: ·) split)]
          cases stack : layout.vacant with
          | nil =>
            rw [stack] at split
            exact absurd split (by simp)
          | cons top rest =>
            rw [stack] at split
            exact (h.vacant (top :: before) place after (stack.trans (congrArg (top :: ·) split))).symm
      · rw [h'.retired _ gone, h.retired _ gone]
  · have size := h.size_eq
    have size' := h'.size_eq
    simp only [Layout.slots, Layout.visit, Layout.reserve, List.length_append, List.length_map,
      List.length_cons, List.length_tail] at size size'
    rw [Array.getElem?_eq_none (by omega), Array.getElem?_eq_none (by omega)]

theorem Visited.kept (visited : arena.Visited other) {index : Nat}
    (used : arena.kind? index = some .head ∨ arena.kind? index = some .occupied) :
    other.slots[index]? = arena.slots[index]? := by
  cases visited with
  | reused _ vacant =>
    refine setSlot_other _ ?_
    rintro rfl
    simp [kind?, vacant, Slot.kind] at used
  | fresh _ =>
    have inside : index < arena.slots.size := used.elim inside_of_kind? inside_of_kind?
    rw [Array.getElem?_push, if_neg (Nat.ne_of_lt inside)]

theorem Stores.place_early (h : arena.Stores [] layout) (renewable : arena.Renewable) :
    layout.place.2 < lastGeneration := by
  rw [Layout.place]
  cases stack : layout.vacant with
  | nil => exact Nat.succ_pos _
  | cons top rest => exact renewable _ _ _ (h.vacant [] top rest stack)

theorem Holds.visited_fresh (h : arena.Holds levels layout) (h' : other.Holds levels layout.visit)
    (empty : layout.vacant = []) : other =
      { arena.grow with slots := arena.slots.push (.vacant 1 none), free := some arena.slots.size } := by
  have place := h.place_of_nil empty
  have here := h'.vacant [] _ _ rfl
  rw [place, empty] at here
  refine ext_slots (fun index => ?_) ?_ ?_
  · rw [Array.getElem?_push]
    split
    · rename_i last
      rw [last]
      exact here
    · rename_i apart
      exact h.visit_kept h' (place ▸ apart)
  · rw [h'.free, Layout.visit, place]
    rfl
  · rw [h'.capacity, h.grow_capacity (h.free_of_nil empty)]
    rfl

theorem Holds.visited_reused {top : Nat × Nat} {rest : List (Nat × Nat)} (h : arena.Holds levels layout)
    (h' : other.Holds levels layout.visit) (stack : layout.vacant = top :: rest) :
    other = arena.setSlot top.1 (.vacant (top.2 + 1) (Layout.top rest)) := by
  have place := Layout.place_of_cons stack
  have here := h'.vacant [] _ _ rfl
  rw [place, stack] at here
  have not_full : ¬ layout.Full := fun full => List.cons_ne_nil top rest (stack.symm.trans full.1)
  refine ext_slots (fun index => ?_) ?_ ?_
  · by_cases last : index = top.1
    · rw [last, setSlot_self _ (h.vacant [] top rest stack)]
      exact here
    · rw [setSlot_other _ last, h.visit_kept h' (place ▸ last)]
  · rw [h'.free, Layout.visit, place]
    exact (h.free_of_cons stack).symm
  · rw [h'.capacity, Layout.visit, Layout.reserve, if_neg not_full]
    exact h.capacity.symm

theorem Holds.visited (h : arena.Holds levels layout) (h' : other.Holds levels layout.visit) :
    arena.Visited other := by
  cases stack : layout.vacant with
  | nil =>
    rw [h.visited_fresh h' stack]
    exact .fresh (h.free_of_nil stack)
  | cons top rest =>
    rw [h.visited_reused h' stack]
    exact .reused (h.free_of_cons stack) (h.vacant [] top rest stack)

end Arena

/-- The pool after a node has come and gone, in an arena of that size: its slot is on top of the stack. -/
def Pool.visit (pool : Pool) (size : Nat) : Pool :=
  match pool.released with
  | [] => { pool with released := [⟨size, 0⟩] }
  | last :: older => { pool with released := ⟨last.index, last.generation + 1⟩ :: older }

theorem Pool.Fits.visit {pool : Pool} {layout : Layout α} (fits : pool.Fits layout) :
    (pool.visit (layout.slots.length + 1)).Fits layout.visit := by
  obtain ⟨released, retired⟩ := pool
  have stack := fits.vacant
  unfold Pool.visit Layout.visit Layout.place
  rw [stack]
  cases released with
  | nil => exact { vacant := rfl, retired := fits.retired }
  | cons last older => exact { vacant := rfl, retired := fits.retired }

namespace Map

variable {map mid : Map σ α} {layout rest : Layout α} {key : Key}

theorem Cuts.add {before after : List (Entry α)} (cuts : map.Cuts layout key before after)
    (height : Nat) (value : α) (same : map.order.compare key key = .eq) :
    map.Cuts (layout.add before after height key value) key before
      (layout.newEntry height key value :: after) := by
  have answer : map.order.compare (layout.newEntry height key value).key key ≠ .lt := by
    change map.order.compare key key ≠ .lt
    rw [same]
    nofun
  have passed : (map.way (layout.add before after height key value) key).passed = before := by
    obtain ⟨rfl, rfl⟩ := cuts
    exact way_insert answer _ _
  refine ⟨passed, ?_⟩
  have whole := (Cuts.self map (layout.add before after height key value) key).split
  rw [passed] at whole
  exact (List.append_cancel_left whole).symm

variable [DrawSource σ]

theorem Turn.of_inserted {value : α} {memory : Memory} {reply : Reply α (Except Error (Answer α))}
    (turn : Turn map layout (.insert key value memory) mid rest reply)
    (new : reply.result = .ok (.inserted .inserted)) :
    key.length = map.keySize ∧ ∃ before after height arena, map.Cuts layout key before after ∧
      mid = { map.afterDraw with arena, len := map.len + 1 } ∧
      rest = layout.add before after height key value := by
  cases turn with
  | inserted fit cuts _ drawn _ =>
    obtain rfl := Height.random_source drawn
    exact ⟨fit, _, _, _, _, cuts, rfl, rfl⟩
  | _ => simp at new

theorem Holds.remove_cut {before after : List (Entry α)} {e : Entry α} (h : map.Holds layout)
    (fit : key.length = map.keySize) (cuts : map.Cuts layout key before (e :: after))
    (equal : map.order.compare e.key key = .eq) :
    ∃ arena trace, map.remove key =
        .ok ({ map with arena, len := map.len - 1 }, { result := .removed e.value, trace }) ∧
      arena.Holds map.maxHeight.levels (layout.remove before e after) := by
  obtain ⟨next, rest, outcome, trace, removed, turn, holds⟩ := h.remove_ok key
  cases turn with
  | missed found missing =>
    obtain ⟨_, rfl⟩ := cuts.unique found
    exact absurd equal (missing (cuts.searchable h fit rfl) e rfl)
  | removed _ found _ =>
    obtain ⟨rfl, same⟩ := cuts.unique found
    obtain ⟨rfl, rfl⟩ := List.cons.inj same
    exact ⟨_, _, removed, holds.arena⟩

/-- Whatever the key order says of other keys: removing a key that has just been inserted gives its value back
and takes back every link. The head and all entries have the slots, generations and links that they had; the
slot of the visitor is on top of the stack of vacant ones, one generation later or new; and otherwise only the
source has moved, by one draw. -/
theorem remove_undoes_insert {map mid : Map σ α} {memory : Memory} {key : Key} {value : α}
    {reply : Reply α (Except Error (Insertion α))} (reached : map.Reached)
    (renewable : map.arena.Renewable) (same : map.order.compare key key = .eq)
    (inserted : map.insert memory key value = .ok (mid, reply)) (new : reply.result = .ok .inserted) :
    ∃ arena trace, mid.remove key =
        .ok ({ map.afterDraw with arena }, { result := .removed value, trace }) ∧
      map.arena.Visited arena ∧
      (∀ index, map.arena.kind? index = some .head ∨ map.arena.kind? index = some .occupied →
        arena.slots[index]? = map.arena.slots[index]?) ∧
      ∃ entries pool, map.Lists entries ∧ ({ map.afterDraw with arena } : Map σ α).Lists entries ∧
        map.arena.Accounts map.len pool ∧ arena.Accounts map.len (pool.visit map.arena.slots.size) := by
  obtain ⟨layout, pool, h, fits⟩ := reached.fits
  obtain ⟨next, rest, _, made, turn, holds⟩ := h.inserts key value memory
  rw [inserted] at made
  obtain ⟨rfl, rfl⟩ := Prod.mk.inj (Except.ok.inj made)
  obtain ⟨fit, before, after, height, arena, cuts, rfl, rfl⟩ := turn.of_inserted (by rw [Reply.map, new]; rfl)
  have early : layout.place.2 < Arena.lastGeneration := h.arena.place_early renewable
  -- the descent for the removal passes what the one for the insertion passed, and meets the new entry
  have place := cuts.add height value same
  obtain ⟨released, trace, removed, holds'⟩ := holds.remove_cut fit ⟨place.passed, place.ahead⟩ same
  rw [Layout.remove_add cuts.split early] at holds'
  have back : ({ map.afterDraw with arena := released } : Map σ α).Holds layout.visit :=
    { arena := holds', len := h.len, fit := h.fit }
  have visited := h.arena.visited holds'
  refine ⟨released, trace, removed, visited, fun index => visited.kept, layout.entries, pool, h.lists,
    back.lists, h.accounts fits, ?_⟩
  rw [h.arena.size_eq]
  exact back.accounts fits.visit

def queue : Map Script Nat :=
  { arena :=
      { slots := #[.head [some 2, none], .vacant 1 none, .occupied 0 ⟨[2], 20, [none]⟩]
        free := some 1
        capacity := 4 }
    len := 1
    maxHeight := sample.maxHeight
    keySize := 1
    id := 0
    source := { values := [0, 0xFFFFFFFF], used := 2 }
    order := ⟨"queue", fun a b => if a = b then .eq else .lt⟩ }

/-- The key takes the slot that was used before and gives it back one generation later. -/
theorem remove_undoes_insert_reused :
    queue.Reached ∧ ∃ mid reply trace, queue.insert {} [3] 30 = .ok (mid, reply) ∧
      mid.located = .ok [(2, [2], 20), (1, [3], 30)] ∧
      mid.remove [3] = .ok ({ queue.afterDraw with arena := queue.arena.setSlot 1 (.vacant 2 none) },
        { result := .removed 30, trace }) := by
  have reached : queue.Reached := by
    refine ⟨{}, { config := { keySize := 1, maxHeight := { levels := 2 } }, order := queue.order },
      { values := [0, 0xFFFFFFFF] }, 0, [.insert [1] 10 {}, .insert [2] 20 {}, .remove [1]],
      ?replies, ?start, ?built, ?run⟩
    case built => rfl
    case run => rfl
  have renewable : queue.arena.Renewable := by
    intro index generation next found
    match index with
    | 0 | 2 => simp [queue] at found
    | 1 =>
      obtain ⟨rfl, _⟩ := Slot.vacant.inj (Option.some.inj found)
      decide
    | _ + 3 => nomatch found
  obtain ⟨⟨mid, reply⟩, inserted⟩ : ∃ done, queue.insert {} [3] 30 = .ok done := ⟨_, rfl⟩
  have new : reply.result = .ok .inserted := by
    obtain ⟨_, rfl⟩ := Prod.mk.inj (Except.ok.inj inserted)
    rfl
  have located : mid.located = .ok [(2, [2], 20), (1, [3], 30)] := by
    obtain ⟨rfl, _⟩ := Prod.mk.inj (Except.ok.inj inserted)
    rfl
  obtain ⟨arena, trace, removed, visited, _⟩ := remove_undoes_insert reached renewable rfl inserted new
  have same : arena = queue.arena.setSlot 1 (.vacant 2 none) := by
    cases visited with
    | reused free vacant =>
      obtain rfl := Option.some.inj free
      obtain ⟨rfl, rfl⟩ := Slot.vacant.inj (Option.some.inj vacant)
      rfl
    | fresh full => nomatch full
  rw [same] at removed
  exact ⟨reached, mid, reply, trace, inserted, located, removed⟩

end Map

end SkipList
