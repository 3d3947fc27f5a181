import SkipList.Proofs.Room

/-!
# Preallocation

A new node takes a new slot only when no other one is vacant. So as long as no slot is retired, there are
as many slots behind the head as the map ever had entries at once, and only an insertion that goes beyond
that number can need memory for slots.
-/

namespace SkipList

open Entry

variable {σ α : Type}

namespace Map

/-- The largest number of entries that the map has on its way through the changes. -/
def peak [DrawSource σ] (map : Map σ α) : List (Change α) → Except Fault Nat
  | [] => return map.len
  | change :: changes => do
    let (next, _) ← map.apply change
    return max map.len (← next.peak changes)

/-- The map has as many entries as it ever had, and they and the head take up all slots that there is
memory for. -/
def Brims (map : Map σ α) (peak : Nat) : Prop :=
  map.len = peak ∧ map.len + 1 = map.arena.capacity

instance (map : Map σ α) (peak : Nat) : Decidable (map.Brims peak) :=
  inferInstanceAs (Decidable (_ ∧ _))

end Map

def Arena.Unretired (arena : Arena α) : Prop :=
  ∀ index : Nat, arena.slots[index]? ≠ some .retired

/-- The change, where there is no more memory for slots; the first two requests of an insertion fare as they
did. -/
def Change.cramped : Change α → Change α
  | .insert key value memory =>
    .insert key value
      (if memory.refuseAt = 1 ∨ memory.refuseAt = 2 then memory else { memory with refuseAt := 3 })
  | change => change

/-! ### Requests for slots -/

namespace Layout

variable {layout : Layout α} {memory : Memory}

theorem allot_cramped (kept : layout.Full → layout.allot memory 3 ≠ .ok ()) :
    layout.allot { memory with refuseAt := 3 } 3 = layout.allot memory 3 := by
  unfold allot at kept ⊢
  by_cases spent : layout.Spent
  · rw [if_pos spent, if_pos spent]
  · by_cases full : layout.Full
    · simp only [spent, full, if_true, if_false, true_imp_iff] at kept ⊢
      cases third : memory.request 3 (2 * layout.capacity * memory.slotBytes) with
      | ok _ => exact absurd third kept
      | error _ =>
        obtain ⟨rfl, _⟩ := Memory.request_error third
        exact if_neg fun grants => grants.1 rfl
    · rw [if_neg full, if_neg full]

theorem permit_cramped {key : Key} {height : Nat} (late : ¬ (memory.refuseAt = 1 ∨ memory.refuseAt = 2))
    (kept : layout.Full → layout.permit memory key height ≠ .ok ()) :
    layout.permit { memory with refuseAt := 3 } key height = layout.permit memory key height := by
  obtain ⟨not_first, not_second⟩ := not_or.mp late
  have same {number : Nat} (early : number ≠ 3) (other : number ≠ memory.refuseAt) (bytes : Nat) :
      Memory.request { memory with refuseAt := 3 } number bytes = memory.request number bytes := by
    simp only [Memory.request, Memory.Grants, ne_eq, early, other, not_false_eq_true, true_and]
  unfold permit at kept ⊢
  rw [same (by decide) (Ne.symm not_first), same (by decide) (Ne.symm not_second)]
  cases first : memory.request 1 key.length with
  | error _ => rfl
  | ok _ =>
    cases second : memory.request 2 (height * Memory.linkBytes) with
    | error _ => rfl
    | ok _ =>
      rw [first, second] at kept
      exact allot_cramped kept

end Layout

namespace Arena

variable {arena : Arena α} {levels : Nat} {layout : Layout α}

theorem Stores.of_reserve (h : arena.Stores [] layout) {memory : Memory} {number : Nat}
    {reserved : Arena α} (done : arena.reserve memory number = .ok reserved) :
    reserved.Stores [] layout.reserve ∧ ¬ layout.reserve.Spent := by
  rw [h.reserve_eq] at done
  cases allotted : layout.allot memory number with
  | error _ =>
    rw [allotted] at done
    nomatch done
  | ok _ =>
    rw [allotted] at done
    obtain rfl := Except.ok.inj done
    exact ⟨h.reserve_stores, (Layout.allot_eq_ok_iff.mp allotted).1⟩

/-- Linking in depends on the memory only by whether the node is permitted. -/
theorem Holds.link_congr (h : arena.Holds levels layout) {before after : List (Entry α)}
    (split : layout.entries = before ++ after) {height : Nat} (short : height ≤ levels) {key : Key}
    {memory other : Memory} (same : layout.permit memory key height = layout.permit other key height)
    (value : α) : arena.link memory (pathTo levels before) height key value =
      arena.link other (pathTo levels before) height key value := by
  cases permitted : layout.permit memory key height with
  | ok _ =>
    obtain ⟨first, second, third⟩ := Layout.permit_eq_ok_iff.mp permitted
    obtain ⟨first', second', third'⟩ := Layout.permit_eq_ok_iff.mp (same.symm.trans permitted)
    simp only [link, first, first', second, second', h.reserve_eq, third, third']
  | error _ =>
    rw [h.link_refused split short value permitted, h.link_refused split short value (same.symm.trans permitted)]

end Arena

namespace Map

variable {map next : Map σ α} {layout : Layout α}

theorem Holds.retired_eq_nil (h : map.Holds layout) (unretired : map.arena.Unretired) :
    layout.retired = [] :=
  List.eq_nil_iff_forall_not_mem.mpr fun slot listed => unretired slot (h.arena.retired slot listed)

theorem Holds.new_of_splice (h : map.Holds layout) {key : Key} {search : Splice}
    (spliced : map.arena.splice map.order map.maxHeight.levels key = .ok search)
    (missing : search.slot = none) : ∃ before after, map.Cuts layout key before after ∧
      ∀ e ∈ after.head?, map.order.compare e.key key ≠ .eq := by
  rcases h.splice_cases key with ⟨_, _, _, _, _, found⟩ | ⟨before, after, cuts, new, _⟩
  · rw [spliced] at found
    obtain rfl := Except.ok.inj found
    nomatch missing
  · exact ⟨before, after, cuts, new⟩

theorem Holds.brims_iff {peak : Nat} (h : map.Holds layout) (no_retired : layout.retired = [])
    (size : layout.slots.length = peak) : map.Brims peak ↔ layout.Full := by
  have count := layout.length_slots
  rw [no_retired, List.length_nil] at count
  have whole := h.arena.size_eq
  have room := h.arena.room
  have empty : layout.vacant = [] ↔ layout.vacant.length = 0 := List.length_eq_zero_iff.symm
  unfold Brims Layout.Full
  rw [empty, h.len, ← h.arena.capacity]
  omega

variable [DrawSource σ] {change : Change α} {reply : Reply α (Except Error (Answer α))}

theorem Holds.apply_cramped (h : map.Holds layout) (made : map.apply change = .ok (next, reply))
    (kept : layout.Full → reply.result ≠ .ok (.inserted .inserted)) :
    map.apply change.cramped = .ok (next, reply) := by
  cases change with
  | remove _ | erase _ | modify _ _ | clear => exact made
  | insert key value memory =>
    by_cases early : memory.refuseAt = 1 ∨ memory.refuseAt = 2
    · rw [Change.cramped, if_pos early]
      exact made
    rw [Change.cramped, if_neg early]
    by_cases fit : key.length = map.keySize
    · rcases h.splice_cases key with
        ⟨before, e, after, cuts, equal, search⟩ | ⟨before, after, cuts, new, search⟩
      · simp only [apply, insert, fit, ne_eq, not_true, if_false, search, ok_bind] at made ⊢
        exact made
      · obtain ⟨height, drawn, low⟩ := map.maxHeight.random_ok map.source
        -- in a full arena the node was refused already, in any other one it asks for no slot
        have refused : layout.Full → layout.permit memory key height.levels ≠ .ok () := by
          intro full permitted
          obtain ⟨rest, turn, _⟩ := h.turn made
          rcases turn.of_new fit cuts new drawn with ⟨_, inserted, _⟩ | ⟨error, refused, _⟩
          · exact kept full inserted
          · rw [refused] at permitted
            cases permitted
        have linked := h.arena.link_congr cuts.split low (Layout.permit_cramped early refused).symm value
        simp only [apply, insert, insertNew, fit, ne_eq, not_true, if_false, search, ok_bind, drawn,
          linked] at made ⊢
        exact made
    · simp only [apply, insert, fit, ne_eq, not_false_eq_true, if_true] at made ⊢
      exact made

/-! ### The peak -/

theorem len_le_peak {changes : List (Change α)} {peak : Nat} (high : map.peak changes = .ok peak) :
    map.len ≤ peak := by
  cases changes with
  | nil => exact Nat.le_of_eq (Except.ok.inj high)
  | cons change changes =>
    obtain ⟨_, _, high⟩ := bind_ok high
    obtain ⟨later, _, high⟩ := bind_ok high
    obtain rfl := Except.ok.inj high
    exact Nat.le_max_left _ _

theorem peak_of_apply {changes : List (Change α)} {peak : Nat} (made : map.apply change = .ok (next, reply))
    (later : next.peak changes = .ok peak) : map.peak (change :: changes) = .ok (max map.len peak) := by
  simp only [Map.peak, made, ok_bind, later, pure_eq_ok]

theorem peak_cons {changes : List (Change α)} {peak : Nat} (made : map.apply change = .ok (next, reply))
    (high : map.peak (change :: changes) = .ok peak) :
    ∃ later, next.peak changes = .ok later ∧ max map.len later = peak := by
  simp only [Map.peak, made, ok_bind] at high
  obtain ⟨later, there, same⟩ := bind_ok high
  exact ⟨later, there, Except.ok.inj same⟩

/-- Along a run no slot is given up, and if none is retired there are no more than the peak calls for. -/
theorem Holds.applyAll_sized (h : map.Holds layout) (changes : List (Change α)) :
    ∃ last final replies peak, map.applyAll changes = .ok (last, replies) ∧ last.Holds final ∧
      map.peak changes = .ok peak ∧ layout.retired <:+ final.retired ∧
      (final.retired = [] → final.slots.length = max layout.slots.length peak) := by
  induction changes generalizing map layout with
  | nil =>
    refine ⟨map, layout, [], map.len, rfl, h, rfl, List.suffix_rfl, fun _ => ?_⟩
    have count := layout.length_slots
    have len := h.len
    omega
  | cons change changes ih =>
    obtain ⟨next, rest, reply, made, turn, holds⟩ := h.apply_ok change
    obtain ⟨last, final, replies, peak, run, kept, high, retired, size⟩ := ih holds
    refine ⟨last, final, reply :: replies, _, applyAll_of_apply made run, kept, peak_of_apply made high,
      turn.retired.trans retired, fun unretired => ?_⟩
    have none : rest.retired = [] := List.suffix_nil.mp (unretired ▸ retired)
    have step := turn.length_slots
    rw [none, List.length_nil] at step
    have total := size unretired
    have count := layout.length_slots
    have len := h.len
    have len' := holds.len
    have low := len_le_peak high
    omega

theorem Holds.retired_eq_nil_before {changes : List (Change α)} {last : Map σ α}
    {replies : List (Reply α (Except Error (Answer α)))} (h : map.Holds layout)
    (run : map.applyAll changes = .ok (last, replies))
    (unretired : last.arena.Unretired) : layout.retired = [] := by
  obtain ⟨_, final, _, _, run', holds, _, retired, _⟩ := h.applyAll_sized changes
  rw [run] at run'
  obtain ⟨rfl, _⟩ := Prod.mk.inj (Except.ok.inj run')
  exact List.suffix_nil.mp (holds.retired_eq_nil unretired ▸ retired)

theorem Holds.applyAll_cramped {bound : Nat} {changes : List (Change α)} {last : Map σ α}
    {replies : List (Reply α (Except Error (Answer α)))} {peak : Nat} (h : map.Holds layout)
    (capacity : map.arena.capacity = bound + 1) (run : map.applyAll changes = .ok (last, replies))
    (unretired : last.arena.Unretired)
    (high : map.peak changes = .ok peak) (low : peak ≤ bound) :
    last.arena.capacity = bound + 1 ∧ map.applyAll (changes.map Change.cramped) = .ok (last, replies) := by
  induction changes generalizing map layout replies peak with
  | nil =>
    obtain ⟨rfl, rfl⟩ := Prod.mk.inj (Except.ok.inj run)
    exact ⟨capacity, rfl⟩
  | cons change changes ih =>
    have no_retired := h.retired_eq_nil_before run unretired
    obtain ⟨next, reply, later, made, ran, rfl⟩ := applyAll_cons run
    obtain ⟨further, onward, rfl⟩ := peak_cons made high
    obtain ⟨rest, turn, holds⟩ := h.turn made
    have kept : layout.Full → reply.result ≠ .ok (.inserted .inserted) := by
      -- a full arena already holds as many entries as the bound allows
      rintro ⟨empty, full⟩ new
      have grown := turn.len_of_inserted new
      have within := len_le_peak onward
      have count := layout.length_slots
      simp only [empty, no_retired, List.length_nil] at count
      have len := h.len
      rw [h.arena.capacity] at capacity
      omega
    have same := h.arena.capacity.symm.trans capacity
    have capacity' : next.arena.capacity = bound + 1 :=
      holds.arena.capacity.trans ((turn.capacity kept).trans same)
    obtain ⟨last_capacity, cramped⟩ :=
      ih holds capacity' ran onward (Nat.le_trans (Nat.le_max_right _ _) low)
    exact ⟨last_capacity, applyAll_of_apply (h.apply_cramped made kept) cramped⟩

/-! ### What is provided -/

/-- The slots of a map that has had `peak` entries at once and no more, and the memory for them. -/
structure Provided (map : Map σ α) (peak : Nat) : Prop where
  size : map.arena.slots.size = 1 + peak
  room : map.arena.slots.size ≤ map.arena.capacity
  spent : map.IsSpent ↔ map.len = peak ∧ Arena.slotLimit ≤ peak + 1
  /-- As long as numbers are left for slots, reserving asks for memory, once and for twice the slots, exactly
  when the map brims. -/
  reserve : ∀ memory number, map.arena.reserve memory number =
    if map.IsSpent then .error .full
    else if map.Brims peak then do
      memory.request number (2 * map.arena.capacity * memory.slotBytes)
      return { map.arena with capacity := 2 * map.arena.capacity }
    else .ok map.arena
  store : ∀ memory number reserved node, map.arena.reserve memory number = .ok reserved →
    ∃ stored slot, reserved.insert node = .ok (stored, slot) ∧ stored.slots.size ≤ reserved.capacity ∧
      stored.capacity = reserved.capacity
  /-- A new key that gets its copy and its tower needs memory for slots exactly when the map brims. -/
  insert : ∀ memory key value search, key.length = map.keySize →
    map.arena.splice map.order map.maxHeight.levels key = .ok search → search.slot = none →
    memory.Grants 1 key.length → memory.refuseAt ≠ 2 →
    ∃ next reply, map.apply (.insert key value memory) = .ok (next, reply) ∧
      if map.IsSpent then reply.result = .error .full ∧ next = map.afterDraw
      else if map.Brims peak ∧ ¬ memory.Grants 3 (2 * map.arena.capacity * memory.slotBytes) then
        reply.result = .error (.allocation .refused) ∧ next = map.afterDraw
      else reply.result = .ok (.inserted .inserted) ∧
        next.arena.capacity = if map.Brims peak then 2 * map.arena.capacity else map.arena.capacity
  steady : ∀ change next reply, map.apply change = .ok (next, reply) →
    (map.Brims peak → reply.result ≠ .ok (.inserted .inserted)) →
    next.arena.capacity = map.arena.capacity

theorem Holds.provided {peak : Nat} (h : map.Holds layout) (no_retired : layout.retired = [])
    (size : layout.slots.length = peak) : map.Provided peak := by
  have brims := h.brims_iff no_retired size
  refine { size := ?_, room := h.arena.room, spent := ?_, reserve := fun memory number => ?_,
           store := fun memory number reserved node done => ?_,
           insert := fun memory key value search fit spliced missing key_granted second => ?_,
           steady := fun change next reply made kept => ?_ }
  · rw [h.arena.size_eq, size, Nat.add_comm]
  · have count := layout.length_slots
    rw [no_retired, List.length_nil] at count
    have empty : layout.vacant = [] ↔ layout.vacant.length = 0 := List.length_eq_zero_iff.symm
    rw [h.isSpent_iff, Layout.Spent, empty, h.len]
    omega
  · simp only [h.arena.reserve_eq, Layout.allot, Layout.reserve, h.isSpent_iff, brims, h.arena.capacity]
    by_cases spent : layout.Spent
    · simp only [spent, if_true]
      rfl
    · by_cases full : layout.Full
      · simp only [spent, full, if_true, if_false]
        cases memory.request number (2 * layout.capacity * memory.slotBytes) <;> rfl
      · simp only [spent, full, if_false, ← h.arena.capacity]
        rfl
  · obtain ⟨stores, left⟩ := h.arena.of_reserve done
    obtain ⟨stored, inserted, s⟩ := stores.insert_ok h.arena.not_full_reserve left node
    have capacity : stored.capacity = reserved.capacity := s.stores.capacity.trans stores.capacity.symm
    exact ⟨stored, _, inserted, capacity ▸ s.stores.room, capacity⟩
  · obtain ⟨next, rest, reply, made, turn, holds⟩ := h.insert_ok key value memory
    obtain ⟨before, after, cuts, new⟩ := h.new_of_splice spliced missing
    obtain ⟨height, drawn, _⟩ := map.maxHeight.random_ok map.source
    have permit : layout.permit memory key height.levels = layout.allot memory 3 := by
      rw [Layout.permit, Memory.request_eq_ok key_granted,
        Memory.request_eq_ok ⟨second.symm, height.bytes_le memory⟩]
      rfl
    refine ⟨next, reply, made, ?_⟩
    simp only [brims, h.isSpent_iff, h.arena.capacity]
    rcases turn.of_new fit cuts new drawn with ⟨permitted, inserted, rfl⟩ | ⟨error, refused, rfl, rfl⟩
    · obtain ⟨left, granted⟩ := Layout.allot_eq_ok_iff.mp (permit.symm.trans permitted)
      rw [if_neg left, if_neg fun both => both.2 (granted both.1)]
      exact ⟨inserted, holds.arena.capacity⟩
    · rw [permit] at refused
      rcases Layout.allot_error refused with ⟨rfl, spent⟩ | ⟨rfl, left, full, refuses⟩
      · rw [if_pos spent]
        exact ⟨rfl, rfl⟩
      · rw [if_neg left, if_pos ⟨full, refuses⟩]
        exact ⟨rfl, rfl⟩
  · obtain ⟨rest, turn, holds⟩ := h.turn made
    rw [brims] at kept
    rw [holds.arena.capacity, turn.capacity kept, h.arena.capacity]

end Map

end SkipList
