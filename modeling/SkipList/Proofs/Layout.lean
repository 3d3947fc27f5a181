import Mathlib.Data.List.Nodup
import SkipList.Arena
import SkipList.Proofs.Entry

/-!
# Layouts

A layout says what an arena holds: the entries along level 0, the stack of free slots and the retired
slots. `Arena.Holds` relates an arena to its layout; an arena that holds a layout is determined by it,
slot by slot and link by link.
-/

namespace SkipList

variable {α β : Type}

@[simp] theorem ok_bind {γ : Type} (a : α) (f : α → Except γ β) : (Except.ok a >>= f) = f a := rfl

@[simp] theorem error_bind {γ : Type} (error : α) (f : β → Except α γ) :
    ((Except.error error : Except α β) >>= f) = .error error := rfl

@[simp] theorem pure_eq_ok {γ : Type} (a : α) : (pure a : Except γ α) = .ok a := rfl

theorem bind_ok {γ : Type} {x : Except γ α} {f : α → Except γ β} {b : β} (h : (x >>= f) = .ok b) :
    ∃ a, x = .ok a ∧ f a = .ok b := by
  cases x with
  | error _ => nomatch h
  | ok a => exact ⟨a, rfl, h⟩

/-- The contents of an arena. -/
structure Layout (α : Type) where
  entries : List (Entry α)
  /-- The free slots, each with the generation of its next occupant; the first is used first. -/
  vacant : List (Nat × Nat)
  retired : List Nat
  capacity : Nat

namespace Layout

def top (vacant : List (Nat × Nat)) : Link := vacant.head?.map Prod.fst

@[simp] theorem top_nil : top [] = none := rfl

@[simp] theorem top_cons (place : Nat × Nat) (rest : List (Nat × Nat)) :
    top (place :: rest) = some place.1 := rfl

def slots (layout : Layout α) : List Nat :=
  layout.entries.map (·.slot) ++ (layout.vacant.map Prod.fst ++ layout.retired)

variable {layout : Layout α}

theorem mem_slots {slot : Nat} : slot ∈ layout.slots ↔
    (∃ e ∈ layout.entries, e.slot = slot) ∨ (∃ place ∈ layout.vacant, place.1 = slot) ∨
      slot ∈ layout.retired := by
  simp [slots]

theorem entry_mem_slots {e : Entry α} (member : e ∈ layout.entries) : e.slot ∈ layout.slots :=
  mem_slots.mpr (Or.inl ⟨e, member, rfl⟩)

theorem vacant_mem_slots {place : Nat × Nat} (member : place ∈ layout.vacant) : place.1 ∈ layout.slots :=
  mem_slots.mpr (Or.inr (Or.inl ⟨place, member, rfl⟩))

theorem retired_mem_slots {slot : Nat} (member : slot ∈ layout.retired) : slot ∈ layout.slots :=
  mem_slots.mpr (Or.inr (Or.inr member))

end Layout

namespace Arena

/-- Every slot of the layout has its contents: an entry has the links that the entries after it lay
down, and a free slot leads to the next one. -/
structure Shows (arena : Arena α) (layout : Layout α) : Prop where
  occupied : ∀ before e after, layout.entries = before ++ e :: after →
    arena.slots[e.slot]? = some (.occupied e.generation (e.node after))
  vacant : ∀ before place after, layout.vacant = before ++ place :: after →
    arena.slots[place.1]? = some (.vacant place.2 (Layout.top after))
  retired : ∀ slot ∈ layout.retired, arena.slots[slot]? = some .retired

/-- The arena stores the layout. The slots in `loose` are in use by nodes that no entry stands for. -/
structure Stores (arena : Arena α) (loose : List Nat) (layout : Layout α) : Prop
    extends Shows arena layout where
  free : arena.free = Layout.top layout.vacant
  places : (headSlot :: (loose ++ layout.slots)).Perm (List.range arena.slots.size)
  capacity : arena.capacity = layout.capacity
  room : arena.slots.size ≤ arena.capacity

structure Holds (arena : Arena α) (levels : Nat) (layout : Layout α) : Prop
    extends Stores arena [] layout where
  head : arena.slots[headSlot]? = some (.head (Entry.towerTo levels layout.entries))
  heights : ∀ e ∈ layout.entries, 1 ≤ e.height ∧ e.height ≤ levels

/-! ### Reading a slot -/

section Reading

variable {arena : Arena α} {index : Nat}

theorem slot_of_getElem? {slot : Slot α} (h : arena.slots[index]? = some slot) :
    arena.slot index = .ok slot := by
  simp only [Arena.slot, h]

theorem getElem?_of_slot {slot : Slot α} (h : arena.slot index = .ok slot) :
    arena.slots[index]? = some slot := by
  unfold Arena.slot at h
  split at h
  · rename_i same
    rw [same, Except.ok.inj h]
  · nomatch h

theorem node_of_occupied {generation : Nat} {node : Node α}
    (h : arena.slots[index]? = some (.occupied generation node)) : arena.node index = .ok node := by
  simp only [Arena.node, slot_of_getElem? h, ok_bind, pure_eq_ok]

theorem key_of_occupied {generation : Nat} {node : Node α}
    (h : arena.slots[index]? = some (.occupied generation node)) : arena.key index = .ok node.key := by
  simp only [Arena.key, node_of_occupied h, ok_bind, pure_eq_ok]

theorem id_of_occupied {generation : Nat} {node : Node α}
    (h : arena.slots[index]? = some (.occupied generation node)) :
    arena.id index = .ok ⟨index, generation⟩ := by
  simp only [Arena.id, slot_of_getElem? h, ok_bind, pure_eq_ok]

theorem id_eq_ok_iff {id : NodeId} {slot : Nat} : arena.id slot = .ok id ↔
    slot = id.index ∧ ∃ node, arena.slots[id.index]? = some (.occupied id.generation node) := by
  constructor
  · intro shown
    unfold Arena.id at shown
    obtain ⟨contents, read, shown⟩ := bind_ok shown
    cases contents with
    | occupied generation node =>
      obtain rfl := Except.ok.inj shown
      exact ⟨rfl, node, getElem?_of_slot read⟩
    | head _ => nomatch shown
    | vacant _ _ => nomatch shown
    | retired => nomatch shown
  · rintro ⟨rfl, node, found⟩
    exact id_of_occupied found

theorem resolve_eq_some_iff {id : NodeId} {slot : Nat} : arena.resolve id = some slot ↔
    slot = id.index ∧ ∃ node, arena.slots[id.index]? = some (.occupied id.generation node) := by
  constructor
  · intro shown
    unfold Arena.resolve at shown
    split at shown
    · rename_i generation node found
      split at shown
      · rename_i same
        obtain rfl := Option.some.inj shown
        exact ⟨rfl, node, same ▸ found⟩
      · nomatch shown
    · nomatch shown
  · rintro ⟨rfl, node, found⟩
    simp only [Arena.resolve, found, if_true]

theorem tower_of_occupied {generation : Nat} {node : Node α}
    (h : arena.slots[index]? = some (.occupied generation node)) : arena.tower index = .ok node.tower := by
  simp only [Arena.tower, slot_of_getElem? h, ok_bind, pure_eq_ok]

theorem tower_of_head {tower : List Link} (h : arena.slots[index]? = some (.head tower)) :
    arena.tower index = .ok tower := by
  simp only [Arena.tower, slot_of_getElem? h, ok_bind, pure_eq_ok]

theorem tower_ok {tower : List Link} (h : arena.tower index = .ok tower) :
    arena.slots[index]? = some (.head tower) ∨
    ∃ generation node, arena.slots[index]? = some (.occupied generation node) ∧ node.tower = tower := by
  unfold Arena.tower at h
  obtain ⟨slot, read, h⟩ := bind_ok h
  have found := getElem?_of_slot read
  cases slot with
  | head links =>
    obtain rfl := Except.ok.inj h
    exact Or.inl found
  | occupied generation node =>
    obtain rfl := Except.ok.inj h
    exact Or.inr ⟨generation, node, found, rfl⟩
  | vacant _ _ => nomatch h
  | retired => nomatch h

theorem next_ok {level : Nat} {link : Link} (h : arena.next index level = .ok link) :
    ∃ tower, arena.tower index = .ok tower ∧ tower[level]? = some link := by
  unfold Arena.next at h
  obtain ⟨tower, read, h⟩ := bind_ok h
  refine ⟨tower, read, ?_⟩
  split at h
  · rename_i same
    rw [same, Except.ok.inj h]
  · nomatch h

theorem next_of_tower {tower : List Link} {level : Nat} {link : Link} (h : arena.tower index = .ok tower)
    (at_level : tower[level]? = some link) : arena.next index level = .ok link := by
  simp only [Arena.next, h, ok_bind, at_level, pure_eq_ok]

@[simp] theorem setSlot_size (arena : Arena α) (index : Nat) (slot : Slot α) :
    (arena.setSlot index slot).slots.size = arena.slots.size :=
  Array.size_setIfInBounds

theorem setSlot_self {old : Slot α} (slot : Slot α) (found : arena.slots[index]? = some old) :
    (arena.setSlot index slot).slots[index]? = some slot :=
  Array.getElem?_setIfInBounds_self_of_lt (Array.getElem?_eq_some_iff.mp found).1

theorem setSlot_other {other : Nat} (slot : Slot α) (apart : other ≠ index) :
    (arena.setSlot index slot).slots[other]? = arena.slots[other]? :=
  Array.getElem?_setIfInBounds_ne apart.symm

end Reading

/-! ### The places of a layout -/

/-- What a layout shows depends on its own slots only. -/
theorem Shows.of_agree {arena changed : Arena α} {layout rest : Layout α} (h : arena.Shows layout)
    (entries : rest.entries <:+ layout.entries) (vacant : rest.vacant <:+ layout.vacant)
    (retired : rest.retired ⊆ layout.retired)
    (agree : ∀ slot ∈ rest.slots, changed.slots[slot]? = arena.slots[slot]?) : changed.Shows rest := by
  refine { occupied := fun before e after split => ?_, vacant := fun before place after split => ?_,
           retired := fun slot member => ?_ }
  · have member : e ∈ rest.entries := split ▸ List.mem_append_cons_self
    obtain ⟨first, whole⟩ := entries
    rw [agree _ (Layout.entry_mem_slots member)]
    exact h.occupied (first ++ before) e after (by rw [← whole, split, List.append_assoc])
  · have member : place ∈ rest.vacant := split ▸ List.mem_append_cons_self
    obtain ⟨first, whole⟩ := vacant
    rw [agree _ (Layout.vacant_mem_slots member)]
    exact h.vacant (first ++ before) place after (by rw [← whole, split, List.append_assoc])
  · rw [agree slot (Layout.retired_mem_slots member)]
    exact h.retired slot (retired member)

namespace Stores

variable {arena : Arena α} {loose : List Nat} {layout : Layout α}

theorem nodup (h : arena.Stores loose layout) : (headSlot :: (loose ++ layout.slots)).Nodup :=
  h.places.nodup_iff.mpr List.nodup_range

theorem mem_places (h : arena.Stores loose layout) {index : Nat} :
    index ∈ headSlot :: (loose ++ layout.slots) ↔ index < arena.slots.size := by
  rw [h.places.mem_iff, List.mem_range]

theorem slot_lt_size (h : arena.Stores loose layout) {slot : Nat} (listed : slot ∈ layout.slots) :
    slot < arena.slots.size :=
  h.mem_places.mp (List.mem_cons_of_mem _ (List.mem_append_right _ listed))

theorem entries_nodup (h : arena.Stores loose layout) : (layout.entries.map (·.slot)).Nodup :=
  h.nodup.sublist ((List.sublist_append_left _ _).trans
    ((List.sublist_append_right _ _).trans (List.sublist_cons_self _ _)))

theorem slot_ne_head (h : arena.Stores loose layout) {e : Entry α} (member : e ∈ layout.entries) :
    e.slot ≠ headSlot := by
  intro same
  have listed : e.slot ∈ loose ++ layout.slots :=
    List.mem_append_right _ (Layout.entry_mem_slots member)
  exact (List.nodup_cons.mp h.nodup).1 (same ▸ listed)

theorem eq_of_slot_eq (h : arena.Stores loose layout) {x y : Entry α} (hx : x ∈ layout.entries)
    (hy : y ∈ layout.entries) (same : x.slot = y.slot) : x = y :=
  List.inj_on_of_nodup_map h.entries_nodup hx hy same

theorem occupied_of_mem (h : arena.Stores loose layout) {e : Entry α} (member : e ∈ layout.entries) :
    ∃ after, arena.slots[e.slot]? = some (.occupied e.generation (e.node after)) := by
  obtain ⟨before, after, split⟩ := List.append_of_mem member
  exact ⟨after, h.occupied before e after split⟩

theorem entries_lt_size (h : arena.Stores loose layout) : layout.entries.length < arena.slots.size := by
  have same := h.places.length_eq
  simp only [List.length_cons, List.length_append, Layout.slots, List.length_map, List.length_range] at same
  omega

end Stores

/-! ### Following links -/

namespace Holds

variable {arena : Arena α} {levels : Nat} {layout : Layout α}

theorem next_endOn (h : arena.Holds levels layout) {before after : List (Entry α)} {level : Nat}
    (split : layout.entries = before ++ after) (inside : level < levels) :
    arena.next (Entry.endOn level before) level = .ok (Entry.nextOn level after) := by
  obtain ⟨head, low⟩ | ⟨first, e, rest, parts, tall, low, here⟩ := Entry.endOn_cases level before
  · rw [head]
    refine next_of_tower (tower_of_head h.head) ?_
    rw [Entry.towerTo_getElem?, if_pos inside, split, Entry.nextOn_append,
      Entry.nextOn_eq_none_iff.mpr low, Option.none_or]
  · have whole : layout.entries = first ++ e :: (rest ++ after) := by
      rw [split, parts, List.append_assoc, List.cons_append]
    rw [here]
    refine next_of_tower (tower_of_occupied (h.occupied first e (rest ++ after) whole)) ?_
    rw [Entry.node, Entry.towerTo_getElem?, if_pos tall, Entry.nextOn_append,
      Entry.nextOn_eq_none_iff.mpr low, Option.none_or]

theorem next_entry (h : arena.Holds levels layout) {before after : List (Entry α)} {e : Entry α}
    {level : Nat} (split : layout.entries = before ++ e :: after) (tall : level < e.height) :
    arena.next e.slot level = .ok (Entry.nextOn level after) := by
  refine next_of_tower (tower_of_occupied (h.occupied before e after split)) ?_
  rw [Entry.node, Entry.towerTo_getElem?, if_pos tall]

theorem next_first (h : arena.Holds levels layout) (some_level : 0 < levels) :
    arena.next headSlot 0 = .ok (layout.entries.head?.map (·.slot)) := by
  have next := h.next_endOn (List.nil_append layout.entries).symm some_level
  rwa [Entry.endOn_nil, Entry.nextOn_zero fun e listed => (h.heights e listed).1] at next

theorem entry_of_occupied (h : arena.Holds levels layout) {slot generation : Nat} {node : Node α}
    (found : arena.slots[slot]? = some (.occupied generation node)) :
    ∃ before e after, layout.entries = before ++ e :: after ∧ e.slot = slot ∧
      e.generation = generation ∧ e.node after = node := by
  obtain ⟨inside, _⟩ := Array.getElem?_eq_some_iff.mp found
  rcases List.mem_cons.mp (h.mem_places.mpr inside) with rfl | listed
  · rw [h.head] at found
    nomatch found
  · rcases Layout.mem_slots.mp listed with ⟨e, member, rfl⟩ | ⟨place, member, rfl⟩ | gone
    · obtain ⟨before, after, split⟩ := List.append_of_mem member
      rw [h.occupied before e after split] at found
      obtain ⟨rfl, rfl⟩ := Slot.occupied.inj (Option.some.inj found)
      exact ⟨before, e, after, split, rfl, rfl, rfl⟩
    · obtain ⟨before, after, split⟩ := List.append_of_mem member
      rw [h.vacant before place after split] at found
      nomatch found
    · rw [h.retired slot gone] at found
      nomatch found

end Holds

end Arena

end SkipList
