import SkipList.Proofs.Atomicity

/-!
# Room for new keys

A new node takes a new slot only when no other one is vacant, so a change makes at most one slot more. A new
key is short of room only when one of its requests for memory is refused or when the numbers of slots run out:
a run whose requests are all granted, and that is shorter than the numbers reach, is answered without any
shortage.
-/

namespace SkipList

open Entry

variable {σ α : Type}

/-! ### The number of slots -/

namespace Layout

variable {layout : Layout α}

theorem length_slots (layout : Layout α) : layout.slots.length =
    layout.entries.length + (layout.vacant.length + layout.retired.length) := by
  simp only [slots, List.length_append, List.length_map]

@[simp] theorem vacate_capacity (layout : Layout α) (slot generation : Nat) :
    (layout.vacate slot generation).capacity = layout.capacity := by
  unfold vacate; split <;> rfl

theorem vacate_retired (layout : Layout α) (slot generation : Nat) :
    layout.retired <:+ (layout.vacate slot generation).retired := by
  unfold vacate
  split
  · exact List.suffix_rfl
  · exact List.suffix_cons _ _

theorem length_vacate_slots (layout : Layout α) (slot generation : Nat) :
    (layout.vacate slot generation).slots.length = layout.slots.length + 1 :=
  (layout.vacate_slots slot generation).length_eq

@[simp] theorem vacateAll_capacity (layout : Layout α) (entries : List (Entry α)) :
    (layout.vacateAll entries).capacity = layout.capacity := by
  induction entries generalizing layout with
  | nil => rfl
  | cons e rest ih => rw [vacateAll, ih, vacate_capacity]

theorem vacateAll_retired (layout : Layout α) (entries : List (Entry α)) :
    layout.retired <:+ (layout.vacateAll entries).retired := by
  induction entries generalizing layout with
  | nil => exact List.suffix_rfl
  | cons e rest ih => exact (layout.vacate_retired _ _).trans (ih _)

theorem length_vacateAll_slots (layout : Layout α) (entries : List (Entry α)) :
    (layout.vacateAll entries).slots.length = layout.slots.length + entries.length := by
  induction entries generalizing layout with
  | nil => rfl
  | cons e rest ih =>
    rw [vacateAll, ih, length_vacate_slots, List.length_cons]
    omega

theorem length_remove_slots {before after : List (Entry α)} {e : Entry α}
    (split : layout.entries = before ++ e :: after) :
    (layout.remove before e after).slots.length = layout.slots.length := by
  rw [remove, length_vacate_slots]
  exact (loosen_slots split).length_eq

theorem length_clear_slots (layout : Layout α) : layout.clear.slots.length = layout.slots.length := by
  rw [clear, length_vacateAll_slots, length_slots, length_slots layout]
  simp only [withEntries, List.length_nil]
  omega

theorem remove_retired (layout : Layout α) (before : List (Entry α)) (e : Entry α)
    (after : List (Entry α)) : layout.retired <:+ (layout.remove before e after).retired :=
  vacate_retired (layout.withEntries (before ++ after)) _ _

theorem clear_retired (layout : Layout α) : layout.retired <:+ layout.clear.retired :=
  vacateAll_retired (layout.withEntries []) _

@[simp] theorem add_vacant (layout : Layout α) (before after : List (Entry α)) (height : Nat) (key : Key)
    (value : α) : (layout.add before after height key value).vacant = layout.vacant.tail := rfl

@[simp] theorem add_retired (layout : Layout α) (before after : List (Entry α)) (height : Nat) (key : Key)
    (value : α) : (layout.add before after height key value).retired = layout.retired := rfl

theorem length_add_entries {before after : List (Entry α)} (split : layout.entries = before ++ after)
    (height : Nat) (key : Key) (value : α) :
    (layout.add before after height key value).entries.length = layout.entries.length + 1 := by
  rw [split]
  simp only [add, List.length_append, List.length_cons]
  omega

end Layout

namespace Map

variable [DrawSource σ] {map next : Map σ α} {layout rest : Layout α} {change : Change α}
  {reply : Reply α (Except Error (Answer α))}

theorem Turn.retired (turn : Turn map layout change next rest reply) : layout.retired <:+ rest.retired := by
  induction turn with
  | removed _ _ _ => exact layout.remove_retired _ _ _
  | cleared => exact layout.clear_retired
  | erased _ ih => exact ih
  | _ => exact List.suffix_rfl

/-- No slot is given up, and a new one is made only for a new entry that finds no other. -/
theorem Turn.grows (turn : Turn map layout change next rest reply) :
    rest.slots.length = layout.slots.length ∨
      (reply.result = .ok (.inserted .inserted) ∧ rest.slots.length = layout.slots.length + 1 ∧
        rest.vacant = []) := by
  induction turn with
  | unfit _ | refused _ _ _ _ _ | missed _ _ | unmodified _ _ => exact Or.inl rfl
  | updated _ cuts _ => exact Or.inl (congrArg List.length (Layout.write_slots cuts.split _))
  | modified _ split _ => exact Or.inl (congrArg List.length (Layout.write_slots split _))
  | @inserted key value _ _ _ height _ _ _ cuts _ _ _ =>
    have entries := Layout.length_add_entries cuts.split height.levels key value
    have count := layout.length_slots
    rw [Layout.length_slots, Layout.add_vacant, Layout.add_retired, entries]
    cases stack : layout.vacant with
    | nil =>
      rw [stack] at count
      exact Or.inr ⟨rfl, by rw [count]; simp only [List.tail_nil, List.length_nil]; omega, rfl⟩
    | cons place others =>
      rw [stack, List.length_cons] at count
      exact Or.inl (by rw [count, List.tail_cons]; omega)
  | removed _ cuts _ => exact Or.inl (Layout.length_remove_slots cuts.split)
  | erased _ ih =>
    rcases ih with same | ⟨inserted, _⟩
    · exact Or.inl same
    · nomatch inserted
  | cleared => exact Or.inl layout.length_clear_slots

theorem Turn.length_slots (turn : Turn map layout change next rest reply) :
    rest.slots.length = max layout.slots.length (rest.entries.length + rest.retired.length) := by
  have count := rest.length_slots
  rcases turn.grows with same | ⟨_, more, empty⟩
  · omega
  · rw [empty, List.length_nil] at count
    omega

theorem Turn.len_of_inserted (turn : Turn map layout change next rest reply)
    (new : reply.result = .ok (.inserted .inserted)) : next.len = map.len + 1 := by
  cases turn with
  | inserted _ _ _ _ _ => rfl
  | _ => simp at new

theorem Turn.capacity (turn : Turn map layout change next rest reply)
    (kept : layout.Full → reply.result ≠ .ok (.inserted .inserted)) : rest.capacity = layout.capacity := by
  induction turn with
  | inserted _ _ _ _ _ => exact if_neg fun full => kept full rfl
  | removed _ _ _ => exact Layout.vacate_capacity _ _ _
  | cleared => exact Layout.vacateAll_capacity _ _
  | erased _ ih => exact ih fun _ => nofun
  | _ => rfl

end Map

/-! ### Shortages -/

/-- No request is refused in a map with keys of that size and at most that many slots. -/
structure Memory.Suffices (memory : Memory) (keySize slots : Nat) : Prop where
  willing : memory.refuseAt = 0
  keys : keySize ≤ memory.blockLimit
  slots : 2 * slots * memory.slotBytes ≤ memory.blockLimit

def Change.Supplied (keySize slots : Nat) : Change α → Prop
  | .insert _ _ memory => memory.Suffices keySize slots
  | _ => True

namespace Layout

variable {layout : Layout α} {memory : Memory} {key : Key}

theorem permit_shortage {height : Nat} {error : Error} (refused : layout.permit memory key height = .error error) :
    error.isShortage = true := by
  rcases permit_error refused with ⟨rfl, _⟩ | ⟨rfl, _⟩ <;> rfl

theorem permit_eq_ok {slots : Nat} (enough : memory.Suffices key.length slots)
    (few : layout.slots.length < slots) (numbered : layout.slots.length + 1 < Arena.slotLimit) (height : Height) :
    layout.permit memory key height.levels = .ok () := by
  obtain ⟨willing, keys, all⟩ := enough
  have granted {number bytes : Nat} (positive : number ≠ 0) (small : bytes ≤ memory.blockLimit) :
      memory.Grants number bytes := ⟨willing ▸ positive, small⟩
  refine permit_eq_ok_iff.mpr ⟨Memory.request_eq_ok (granted (by decide) keys),
    Memory.request_eq_ok (granted (by decide) (height.bytes_le memory)), allot_eq_ok_iff.mpr ⟨?_, ?_⟩⟩
  · rintro ⟨_, none_left⟩
    omega
  · rintro ⟨_, small⟩
    refine granted (by decide) (Nat.le_trans (Nat.mul_le_mul_right _ ?_) all)
    omega

end Layout

namespace Map

variable [DrawSource σ] {map next : Map σ α} {layout rest : Layout α} {change : Change α}
  {reply : Reply α (Except Error (Answer α))} {slots : Nat}

theorem Turn.spent (turn : Turn map layout change next rest reply) (full : reply.result = .error .full) :
    layout.Spent := by
  cases turn with
  | refused _ _ _ _ refused =>
    obtain rfl := Except.error.inj full
    rcases Layout.permit_error refused with ⟨_, spent⟩ | ⟨other, _⟩
    · exact spent
    · nomatch other
  | _ => nomatch full

/-- A change for which memory and numbers suffice is not short of room. -/
theorem Turn.granted (turn : Turn map layout change next rest reply)
    (supplied : change.Supplied map.keySize slots) (few : layout.slots.length < slots)
    (numbered : layout.slots.length + 1 < Arena.slotLimit) {error : Error} (short : error.isShortage = true) :
    reply.result ≠ .error error := by
  cases turn with
  | unfit _ =>
    rintro ⟨⟩
    nomatch short
  | refused fit _ _ _ refused =>
    rw [Layout.permit_eq_ok (fit ▸ supplied) few numbered] at refused
    nomatch refused
  | _ => nofun

end Map

end SkipList
