import SkipList.Proofs.Layout

/-!
# Storing and releasing

What reserving, storing and releasing do to the layout of an arena. `place` is the slot and the
generation that the next node gets; `take` and `vacate` are what storing and releasing do to the stack
of free slots.
-/

namespace SkipList

variable {α : Type}

namespace Memory

variable {memory : Memory} {number bytes : Nat}

theorem request_eq_ok (grants : memory.Grants number bytes) : memory.request number bytes = .ok () := by
  rw [request, if_pos grants]

theorem request_error {error : Error} (failed : memory.request number bytes = .error error) :
    error = .allocation .refused ∧ ¬ memory.Grants number bytes := by
  unfold request at failed
  split at failed
  · nomatch failed
  · rename_i refuses
    exact ⟨(Except.error.inj failed).symm, refuses⟩

theorem request_eq_ok_iff : memory.request number bytes = .ok () ↔ memory.Grants number bytes := by
  refine ⟨fun granted => ?_, request_eq_ok⟩
  by_contra refuses
  rw [request, if_neg refuses] at granted
  nomatch granted

end Memory

namespace Layout

/-- The slot of the next node and its generation. -/
def place (layout : Layout α) : Nat × Nat :=
  layout.vacant.head?.getD (layout.slots.length + 1, 0)

/-- The next node needs a slot that there is no memory for. -/
def Full (layout : Layout α) : Prop :=
  layout.vacant = [] ∧ layout.capacity ≤ layout.slots.length + 1

instance (layout : Layout α) : Decidable layout.Full :=
  inferInstanceAs (Decidable (_ ∧ _))

/-- The next node needs a slot, and no number is left for another one. -/
def Spent (layout : Layout α) : Prop :=
  layout.vacant = [] ∧ Arena.slotLimit ≤ layout.slots.length + 1

instance (layout : Layout α) : Decidable layout.Spent :=
  inferInstanceAs (Decidable (_ ∧ _))

/-- Whether the next node can have its slot; memory for more slots is the request `number`. -/
def allot (layout : Layout α) (memory : Memory) (number : Nat) : Except Error Unit :=
  if layout.Spent then .error .full
  else if layout.Full then memory.request number (2 * layout.capacity * memory.slotBytes)
  else .ok ()

def reserve (layout : Layout α) : Layout α :=
  { layout with capacity := if layout.Full then 2 * layout.capacity else layout.capacity }

def take (layout : Layout α) : Layout α :=
  { layout with vacant := layout.vacant.tail }

def vacate (layout : Layout α) (slot generation : Nat) : Layout α :=
  if generation < Arena.lastGeneration then
    { layout with vacant := (slot, generation + 1) :: layout.vacant }
  else { layout with retired := slot :: layout.retired }

@[simp] theorem reserve_entries (layout : Layout α) : layout.reserve.entries = layout.entries := rfl

@[simp] theorem reserve_place (layout : Layout α) : layout.reserve.place = layout.place := rfl

@[simp] theorem take_entries (layout : Layout α) : layout.take.entries = layout.entries := rfl

@[simp] theorem vacate_entries (layout : Layout α) (slot generation : Nat) :
    (layout.vacate slot generation).entries = layout.entries := by
  unfold vacate; split <;> rfl

theorem allot_eq_ok_iff {layout : Layout α} {memory : Memory} {number : Nat} :
    layout.allot memory number = .ok () ↔ ¬ layout.Spent ∧
      (layout.Full → memory.Grants number (2 * layout.capacity * memory.slotBytes)) := by
  unfold allot
  by_cases spent : layout.Spent
  · simp [spent]
  · by_cases full : layout.Full
    · simp only [spent, full, if_true, if_false, not_false_eq_true, true_and, true_imp_iff,
        Memory.request_eq_ok_iff]
    · simp [spent, full]

theorem allot_error {layout : Layout α} {memory : Memory} {number : Nat} {error : Error}
    (refused : layout.allot memory number = .error error) :
    (error = .full ∧ layout.Spent) ∨ (error = .allocation .refused ∧ ¬ layout.Spent ∧ layout.Full ∧
      ¬ memory.Grants number (2 * layout.capacity * memory.slotBytes)) := by
  unfold allot at refused
  split at refused
  · rename_i spent
    exact Or.inl ⟨(Except.error.inj refused).symm, spent⟩
  · rename_i left
    split at refused
    · rename_i full
      obtain ⟨rfl, refuses⟩ := Memory.request_error refused
      exact Or.inr ⟨rfl, left, full, refuses⟩
    · nomatch refused

theorem place_of_cons {layout : Layout α} {top : Nat × Nat} {rest : List (Nat × Nat)}
    (stack : layout.vacant = top :: rest) : layout.place = top := by
  rw [place, stack]
  rfl

theorem vacate_slots (layout : Layout α) (slot generation : Nat) :
    (layout.vacate slot generation).slots.Perm (slot :: layout.slots) := by
  unfold vacate
  split
  · exact List.perm_middle
  · unfold slots
    rw [← List.append_assoc, ← List.append_assoc]
    exact List.perm_middle

end Layout

namespace Arena

variable {arena : Arena α} {layout : Layout α}

/-! ### New arenas -/

theorem create_holds {memory : Memory} {levels nodes : Nat}
    (h : Arena.create memory levels nodes = .ok arena) :
    arena.Holds levels { entries := [], vacant := [], retired := [], capacity := firstCapacity nodes } := by
  unfold Arena.create at h
  obtain ⟨_, _, h⟩ := bind_ok h
  obtain ⟨_, _, h⟩ := bind_ok h
  obtain rfl := Except.ok.inj h
  refine
    { occupied := fun _ _ _ split => ?_, free := rfl, vacant := fun _ _ _ split => ?_,
      retired := by simp, places := ?_, capacity := rfl, room := ?_, head := ?_,
      heights := by simp }
  · exact absurd split (by simp)
  · exact absurd split (by simp)
  · exact List.Perm.refl _
  · simp only [firstCapacity, List.size_toArray, List.length_cons, List.length_nil]
    omega
  · rw [Entry.towerTo_nil]
    rfl

/-! ### The size of an arena -/

theorem Stores.size_eq (h : arena.Stores [] layout) : arena.slots.size = layout.slots.length + 1 := by
  have same := h.places.length_eq
  simpa using same.symm

theorem Stores.place_of_nil (h : arena.Stores [] layout) (empty : layout.vacant = []) :
    layout.place = (arena.slots.size, 0) := by
  rw [Layout.place, empty, h.size_eq]
  rfl

theorem Stores.free_of_nil {loose : List Nat} (h : arena.Stores loose layout)
    (empty : layout.vacant = []) : arena.free = none := by
  rw [h.free, empty]
  rfl

theorem Stores.free_of_cons {loose : List Nat} {top : Nat × Nat} {rest : List (Nat × Nat)}
    (h : arena.Stores loose layout) (stack : layout.vacant = top :: rest) : arena.free = some top.1 := by
  rw [h.free, stack]
  rfl

theorem Stores.full_iff (h : arena.Stores [] layout) :
    layout.Full ↔ arena.free = none ∧ ¬ arena.HasRoom := by
  have size := h.size_eq
  have capacity := h.capacity
  unfold Layout.Full HasRoom
  rw [h.free, capacity, size, Nat.not_lt]
  cases layout.vacant with
  | nil => simp
  | cons place rest => simp

theorem Stores.spent_iff (h : arena.Stores [] layout) :
    layout.Spent ↔ arena.free = none ∧ slotLimit ≤ arena.slots.size := by
  unfold Layout.Spent
  rw [h.free, h.size_eq]
  cases layout.vacant with
  | nil => simp
  | cons place rest => simp

theorem Stores.not_full_reserve (h : arena.Stores [] layout) : ¬ layout.reserve.Full := by
  have size := h.size_eq
  have room := h.room
  have capacity := h.capacity
  rintro ⟨empty, small⟩
  unfold Layout.reserve at empty small
  by_cases full : layout.Full
  · simp only [full, if_true] at small
    have same : layout.slots.length + 1 ≤ layout.capacity := by omega
    have listed : ({ layout with capacity := 2 * layout.capacity } : Layout α).slots = layout.slots := rfl
    rw [listed] at small
    omega
  · simp only [full, if_false] at small
    exact full ⟨empty, small⟩

/-! ### Reserving -/

theorem Stores.reserve_eq (h : arena.Stores [] layout) (memory : Memory) (number : Nat) :
    arena.reserve memory number =
      (layout.allot memory number).map fun _ => { arena with capacity := layout.reserve.capacity } := by
  have capacity := h.capacity
  unfold Arena.reserve Layout.allot Layout.reserve
  by_cases spent : layout.Spent
  · obtain ⟨empty, none_left⟩ := h.spent_iff.mp spent
    simp only [empty, none_left, spent, if_true]
    rfl
  · rw [if_neg spent]
    by_cases full : layout.Full
    · obtain ⟨empty, no_room⟩ := h.full_iff.mp full
      have left : ¬ slotLimit ≤ arena.slots.size := fun none_left => spent (h.spent_iff.mpr ⟨empty, none_left⟩)
      simp only [empty, left, no_room, full, if_true, if_false, grow, capacity]
      cases memory.request number (2 * layout.capacity * memory.slotBytes) with
      | error _ => rfl
      | ok _ => rfl
    · have same : ({ arena with capacity := layout.capacity } : Arena α) = arena := by rw [← capacity]
      simp only [full, if_false, same]
      cases empty : arena.free with
      | some _ => rfl
      | none =>
        have left : ¬ slotLimit ≤ arena.slots.size := fun none_left => spent (h.spent_iff.mpr ⟨empty, none_left⟩)
        have room : arena.HasRoom := Decidable.of_not_not fun none => full (h.full_iff.mpr ⟨empty, none⟩)
        simp only [left, room, if_false, if_true]
        rfl

theorem Stores.reserve_stores (h : arena.Stores [] layout) :
    ({ arena with capacity := layout.reserve.capacity } : Arena α).Stores [] layout.reserve := by
  refine { occupied := h.occupied, free := h.free, vacant := h.vacant, retired := h.retired,
           places := h.places, capacity := rfl, room := ?_ }
  have room := h.room
  rw [h.capacity] at room
  refine Nat.le_trans room ?_
  simp only [Layout.reserve]
  split <;> omega

theorem Stores.grow_capacity (h : arena.Stores [] layout) (empty : arena.free = none) :
    arena.grow.capacity = layout.reserve.capacity := by
  unfold grow Layout.reserve
  by_cases room : arena.HasRoom
  · have not_full : ¬ layout.Full := fun full => (h.full_iff.mp full).2 room
    rw [if_pos room, if_neg not_full, h.capacity]
  · rw [if_neg room, if_pos (h.full_iff.mpr ⟨empty, room⟩), ← h.capacity]

/-! ### Storing -/

/-- What storing a node does: it takes the next place, and all else stays. -/
structure Stored (arena stored : Arena α) (layout : Layout α) (node : Node α) : Prop where
  stores : stored.Stores [layout.place.1] layout.take
  found : stored.slots[layout.place.1]? = some (.occupied layout.place.2 node)
  other : ∀ index, index ≠ layout.place.1 → stored.slots[index]? = arena.slots[index]?

theorem Stores.insert_fresh (h : arena.Stores [] layout) (not_full : ¬ layout.Full)
    (not_spent : ¬ layout.Spent) (empty : layout.vacant = []) (node : Node α) :
    ∃ stored, arena.insert node = .ok (stored, layout.place.1) ∧ arena.Stored stored layout node := by
  have no_free := h.free_of_nil empty
  have room : arena.HasRoom :=
    Decidable.of_not_not fun none => not_full (h.full_iff.mpr ⟨no_free, none⟩)
  have small : ¬ slotLimit ≤ arena.slots.size :=
    fun none_left => not_spent (h.spent_iff.mpr ⟨no_free, none_left⟩)
  have kept : arena.grow = arena := if_pos room
  have place := h.place_of_nil empty
  have taken : layout.take = layout := by
    obtain ⟨entries, vacant, retired, capacity⟩ := layout
    obtain rfl := empty
    rfl
  have other (index : Nat) (apart : index ≠ arena.slots.size) :
      (arena.slots.push (.occupied 0 node))[index]? = arena.slots[index]? := by
    rw [Array.getElem?_push, if_neg apart]
  refine ⟨{ arena with slots := arena.slots.push (.occupied 0 node) }, ?_, ?_⟩
  · simp only [Arena.insert, no_free, small, if_false, kept, pure_eq_ok, place]
  · refine { stores := ?_, found := ?_, other := ?_ }
    · rw [place, taken]
      have shows : Shows { arena with slots := arena.slots.push (.occupied 0 node) } layout :=
        h.toShows.of_agree (List.suffix_refl _) (List.suffix_refl _) (List.Subset.refl _)
          fun slot listed => other slot (Nat.ne_of_lt (h.slot_lt_size listed))
      refine { toShows := shows, free := h.free, places := ?_, capacity := h.capacity, room := ?_ }
      · rw [Array.size_push, List.range_succ]
        exact ((List.Perm.swap _ _ _).trans (h.places.cons _)).trans
          (List.perm_append_singleton _ _).symm
      · rw [Array.size_push]
        exact room
    · rw [place, Array.getElem?_push, if_pos rfl]
    · rw [place]
      exact other

theorem Stores.insert_reused (h : arena.Stores [] layout) {place : Nat × Nat} {rest : List (Nat × Nat)}
    (stack : layout.vacant = place :: rest) (node : Node α) :
    ∃ stored, arena.insert node = .ok (stored, layout.place.1) ∧ arena.Stored stored layout node := by
  have next := Layout.place_of_cons stack
  have free := h.free_of_cons stack
  have found := h.vacant [] place rest stack
  obtain ⟨inside, _⟩ := Array.getElem?_eq_some_iff.mp found
  have other (index : Nat) (apart : index ≠ place.1) :
      (arena.slots.setIfInBounds place.1 (.occupied place.2 node))[index]? = arena.slots[index]? :=
    Array.getElem?_setIfInBounds_ne apart.symm
  have places : (headSlot :: ([place.1] ++ layout.take.slots)).Perm (List.range arena.slots.size) := by
    refine List.Perm.trans (List.Perm.cons _ ?_) h.places
    simp only [Layout.slots, Layout.take, stack, List.tail_cons, List.map_cons, List.cons_append,
      List.nil_append]
    exact List.perm_middle.symm
  have apart : place.1 ∉ layout.take.slots := by
    have nodup := places.nodup_iff.mpr List.nodup_range
    exact (List.nodup_cons.mp (List.nodup_cons.mp nodup).2).1
  refine ⟨{ arena.setSlot place.1 (.occupied place.2 node) with free := Layout.top rest }, ?_, ?_⟩
  · simp only [Arena.insert, free, slot_of_getElem? found, ok_bind, pure_eq_ok, next]
  · refine { stores := ?_, found := ?_, other := ?_ }
    · rw [next]
      have shorter : layout.take.vacant <:+ layout.vacant := List.tail_suffix _
      have shows : Shows { arena.setSlot place.1 (.occupied place.2 node) with free := Layout.top rest }
          layout.take :=
        h.toShows.of_agree (List.suffix_refl _) shorter (List.Subset.refl _)
          fun slot listed => other slot fun same => apart (same ▸ listed)
      refine { toShows := shows, free := ?_, places := ?_, capacity := h.capacity, room := ?_ }
      · rw [Layout.take, stack]
        rfl
      · simpa only [setSlot, Array.size_setIfInBounds] using places
      · simpa only [setSlot, Array.size_setIfInBounds] using h.room
    · rw [next]
      exact Array.getElem?_setIfInBounds_self_of_lt inside
    · rw [next]
      exact other

theorem Stores.insert_ok (h : arena.Stores [] layout) (not_full : ¬ layout.Full)
    (not_spent : ¬ layout.Spent) (node : Node α) :
    ∃ stored, arena.insert node = .ok (stored, layout.place.1) ∧ arena.Stored stored layout node := by
  cases stack : layout.vacant with
  | nil => exact h.insert_fresh not_full not_spent stack node
  | cons place rest => exact h.insert_reused stack node

/-! ### Releasing -/

theorem Stores.setSlot_shows {slot : Nat} (h : arena.Stores [slot] layout) (contents : Slot α) :
    (arena.setSlot slot contents).Shows layout := by
  have apart : slot ∉ layout.slots := (List.nodup_cons.mp (List.nodup_cons.mp h.nodup).2).1
  exact h.toShows.of_agree (List.suffix_refl _) (List.suffix_refl _) (List.Subset.refl _)
    fun index listed => setSlot_other _ fun same => apart (same ▸ listed)

theorem Stores.release_ok {slot generation : Nat} {node : Node α} (h : arena.Stores [slot] layout)
    (found : arena.slots[slot]? = some (.occupied generation node)) :
    ∃ released, arena.release slot = .ok (released, node) ∧
      released.Stores [] (layout.vacate slot generation) ∧
      ∀ index, index ≠ slot → released.slots[index]? = arena.slots[index]? := by
  have places : (headSlot :: ([] ++ (layout.vacate slot generation).slots)).Perm
      (List.range arena.slots.size) :=
    ((layout.vacate_slots slot generation).cons _).trans h.places
  unfold Layout.vacate at places ⊢
  by_cases early : generation < lastGeneration
  · simp only [early, if_true] at places ⊢
    have shows := h.setSlot_shows (.vacant (generation + 1) arena.free)
    refine ⟨{ arena.setSlot slot (.vacant (generation + 1) arena.free) with free := some slot },
      ?_, ?_, fun _ apart => setSlot_other _ apart⟩
    · simp only [Arena.release, slot_of_getElem? found, ok_bind, early, if_true, pure_eq_ok]
    · refine
        { occupied := shows.occupied, retired := shows.retired,
          vacant := fun before place after split => ?_, free := rfl, places := ?_,
          capacity := h.capacity, room := ?_ }
      · cases before with
        | nil =>
          obtain ⟨rfl, rfl⟩ := List.cons.inj split
          rw [← h.free]
          exact setSlot_self _ found
        | cons first before => exact shows.vacant before place after (List.cons.inj split).2
      · rwa [setSlot_size]
      · rw [setSlot_size]
        exact h.room
  · simp only [early, if_false] at places ⊢
    have shows := h.setSlot_shows .retired
    refine ⟨arena.setSlot slot .retired, ?_, ?_, fun _ apart => setSlot_other _ apart⟩
    · simp only [Arena.release, slot_of_getElem? found, ok_bind, early, if_false, pure_eq_ok]
    · refine
        { occupied := shows.occupied, vacant := shows.vacant, retired := fun index member => ?_,
          free := h.free, places := ?_, capacity := h.capacity, room := ?_ }
      · obtain rfl | member := List.mem_cons.mp member
        · exact setSlot_self _ found
        · exact shows.retired index member
      · rwa [setSlot_size]
      · rw [setSlot_size]
        exact h.room

end Arena

end SkipList
