import SkipList.Cursor
import SkipList.Proofs.Run

/-!
# Atomicity

A call that is refused leaves the map as it was. Only inserting a new key asks for memory: once for the
key, once for the tower and, when there is no place left, once for the slots. Its draw comes before the
first of these requests, so a refusal leaves the source one draw further and nothing else changed.
-/

namespace SkipList.Map

open Entry

variable {σ α : Type}

/-- No slot is free, and there is no memory for another one. -/
def IsFull (map : Map σ α) : Prop :=
  map.arena.free = none ∧ map.arena.slots.size = map.arena.capacity

instance (map : Map σ α) : Decidable map.IsFull :=
  inferInstanceAs (Decidable (_ ∧ _))

/-- No slot is free, and no number is left for another one. -/
def IsSpent (map : Map σ α) : Prop :=
  map.arena.free = none ∧ Arena.slotLimit ≤ map.arena.slots.size

instance (map : Map σ α) : Decidable map.IsSpent :=
  inferInstanceAs (Decidable (_ ∧ _))

/-- How often inserting a new key asks for memory. -/
def requests (map : Map σ α) : Nat := if map.IsFull then 3 else 2

def afterDraw [DrawSource σ] (map : Map σ α) : Map σ α :=
  { map with source := (DrawSource.next map.source).2 }

def refusal (error : Error) (compared : List Comparison) (value : α) :
    Reply α (Except Error (Answer α)) :=
  { result := .error error, trace := { compared, dropped := [value] } }

variable {map : Map σ α} {layout : Layout α} {key : Key}

theorem Holds.isFull_iff (h : map.Holds layout) : map.IsFull ↔ layout.Full := by
  have room := h.arena.room
  rw [h.arena.full_iff]
  unfold IsFull Arena.HasRoom
  constructor
  · rintro ⟨empty, same⟩
    exact ⟨empty, by omega⟩
  · rintro ⟨empty, none⟩
    exact ⟨empty, by omega⟩

theorem Holds.isSpent_iff (h : map.Holds layout) : map.IsSpent ↔ layout.Spent :=
  h.arena.spent_iff.symm

theorem Holds.permit_eq (h : map.Holds layout) {memory : Memory} (small : key.length ≤ memory.blockLimit)
    (growable : map.IsFull → 2 * map.arena.capacity * memory.slotBytes ≤ memory.blockLimit)
    (left : ¬ map.IsSpent) (height : Height) (n : Nat) :
    layout.permit { memory with refuseAt := n } key height.levels =
      if 1 ≤ n ∧ n ≤ map.requests then .error (.allocation .refused) else .ok () := by
  have tower := height.bytes_le memory
  rw [h.isFull_iff, h.arena.capacity] at growable
  rw [h.isSpent_iff] at left
  have asked : map.requests = if layout.Full then 3 else 2 := by simp only [requests, h.isFull_iff]
  have first : Memory.Grants { memory with refuseAt := n } 1 key.length ↔ 1 ≠ n := and_iff_left small
  have second : Memory.Grants { memory with refuseAt := n } 2 (height.levels * Memory.linkBytes) ↔ 2 ≠ n :=
    and_iff_left tower
  unfold Layout.permit Layout.allot Memory.request
  simp only [first, second, left, asked, if_false]
  by_cases full : layout.Full
  · have third : Memory.Grants { memory with refuseAt := n } 3 (2 * layout.capacity * memory.slotBytes) ↔
        3 ≠ n := and_iff_left (growable full)
    simp only [full, third, if_true]
    split_ifs <;> first | rfl | omega
  · simp only [full, if_false]
    split_ifs <;> first | rfl | omega

variable [DrawSource σ]

theorem Turn.of_new {value : α} {memory : Memory} {before after : List (Entry α)} {height : Height}
    {source : σ} {next : Map σ α} {rest : Layout α} {reply : Reply α (Except Error (Answer α))}
    (turn : Turn map layout (.insert key value memory) next rest reply) (fit : key.length = map.keySize)
    (cuts : map.Cuts layout key before after) (new : ∀ e ∈ after.head?, map.order.compare e.key key ≠ .eq)
    (drawn : map.maxHeight.random map.source = .ok (height, source)) :
    (layout.permit memory key height.levels = .ok () ∧ reply.result = .ok (.inserted .inserted) ∧
      rest = layout.add before after height.levels key value) ∨
    (∃ error, layout.permit memory key height.levels = .error error ∧
      reply = refusal error (map.probes layout key) value ∧ next = map.afterDraw) := by
  cases turn with
  | unfit unfit => exact absurd fit unfit
  | updated _ found equal =>
    obtain ⟨_, rfl⟩ := cuts.unique found
    exact absurd equal (new _ rfl)
  | inserted _ found _ drawn' permitted =>
    rw [drawn] at drawn'
    obtain ⟨rfl, rfl⟩ := Prod.mk.inj (Except.ok.inj drawn')
    obtain ⟨rfl, rfl⟩ := found.unique cuts
    exact Or.inl ⟨permitted, rfl, rfl⟩
  | refused _ _ _ drawn' refused =>
    rw [drawn] at drawn'
    obtain ⟨rfl, rfl⟩ := Prod.mk.inj (Except.ok.inj drawn')
    obtain rfl := Height.random_source drawn
    exact Or.inr ⟨_, refused, rfl, rfl⟩

theorem Holds.insert_new (h : map.Holds layout) (fit : key.length = map.keySize) (value : α)
    {before after : List (Entry α)} (cuts : map.Cuts layout key before after)
    (new : ∀ e ∈ after.head?, map.order.compare e.key key ≠ .eq) {memory : Memory}
    (small : key.length ≤ memory.blockLimit)
    (growable : map.IsFull → 2 * map.arena.capacity * memory.slotBytes ≤ memory.blockLimit)
    (left : ¬ map.IsSpent) (n : Nat) :
    (1 ≤ n ∧ n ≤ map.requests → map.apply (.insert key value { memory with refuseAt := n }) =
      .ok (map.afterDraw, refusal (.allocation .refused) (map.probes layout key) value)) ∧
    (¬ (1 ≤ n ∧ n ≤ map.requests) → ∃ next trace,
      map.apply (.insert key value { memory with refuseAt := n }) =
        .ok (next, { result := .ok (.inserted .inserted), trace })) := by
  obtain ⟨next, rest, ⟨result, trace⟩, made, turn, _⟩ := h.insert_ok key value { memory with refuseAt := n }
  obtain ⟨height, drawn, _⟩ := map.maxHeight.random_ok map.source
  have permit := h.permit_eq small growable left height n
  rcases turn.of_new fit cuts new drawn with ⟨permitted, inserted, _⟩ | ⟨error, refused, answered, rfl⟩
  · obtain rfl := inserted
    refine ⟨fun within => ?_, fun _ => ⟨next, trace, made⟩⟩
    rw [permit, if_pos within] at permitted
    nomatch permitted
  · rw [answered] at made
    by_cases within : 1 ≤ n ∧ n ≤ map.requests
    · rw [permit, if_pos within] at refused
      obtain rfl := Except.error.inj refused
      exact ⟨fun _ => made, fun outside => absurd within outside⟩
    · rw [permit, if_neg within] at refused
      nomatch refused

theorem Holds.insert_found (h : map.Holds layout) (fit : key.length = map.keySize) (value : α)
    {before after : List (Entry α)} {e : Entry α} (cuts : map.Cuts layout key before (e :: after))
    (equal : map.order.compare e.key key = .eq) (memory : Memory) :
    ∃ arena, map.apply (.insert key value memory) =
      .ok ({ map with arena },
        { result := .ok (.inserted (.updated e.value)), trace := { compared := map.probes layout key } }) := by
  obtain ⟨next, rest, reply, made, turn, _⟩ := h.insert_ok key value memory
  cases turn with
  | unfit unfit => exact absurd fit unfit
  | updated _ found _ =>
    obtain ⟨rfl, _⟩ := List.cons.inj (cuts.unique found).2
    exact ⟨_, made⟩
  | inserted _ found new _ _ =>
    obtain ⟨_, rfl⟩ := cuts.unique found
    exact absurd equal (new e rfl)
  | refused _ found new _ _ =>
    obtain ⟨_, rfl⟩ := cuts.unique found
    exact absurd equal (new e rfl)

theorem Turn.eq_of_not_removed {change : Change α} {next : Map σ α} {rest : Layout α}
    {reply : Reply α (Except Error (Answer α))} (turn : Turn map layout change next rest reply)
    (missed : reply.result = .ok (.removed .notFound) ∨ reply.result = .ok (.flag false)) :
    next = map := by
  cases turn with
  | missed _ _ => rfl
  | erased removal =>
    cases removal with
    | missed _ _ => rfl
    | removed _ _ _ => simp [Removal.isRemoved] at missed
  | _ => simp at missed

/-- A refused call leaves the map as it was. Inserting a new key is refused exactly when one of its
requests for memory is the one that fails; it has then taken one draw and dropped the new value, and all
goes on as if only the draw had been taken. A known key is updated without any request. A key of another
length, and one that is not there to be removed, change nothing at all. -/
theorem refusal_atomic {map : Map σ α} (reached : map.Reached) (key : Key) (value : α) :
    (key.length ≠ map.keySize → ∀ memory, map.apply (.insert key value memory) =
      .ok (map,
        { result := .error (.keySize map.keySize key.length), trace := { dropped := [value] } })) ∧
    (key.length = map.keySize → ∃ search,
      map.arena.splice map.order map.maxHeight.levels key = .ok search ∧
      (∀ slot, search.slot = some slot → ∃ node, map.arena.node slot = .ok node ∧
        ∀ memory, ∃ arena, map.apply (.insert key value memory) =
          .ok ({ map with arena },
            { result := .ok (.inserted (.updated node.value))
              trace := { compared := search.compared } })) ∧
      (search.slot = none → ∀ memory : Memory, key.length ≤ memory.blockLimit →
        (map.IsFull → 2 * map.arena.capacity * memory.slotBytes ≤ memory.blockLimit) → ¬ map.IsSpent → ∀ n,
          (1 ≤ n ∧ n ≤ map.requests →
            map.apply (.insert key value { memory with refuseAt := n }) =
              .ok (map.afterDraw, refusal (.allocation .refused) search.compared value) ∧
            ∀ changes, ∃ last replies, map.afterDraw.applyAll changes = .ok (last, replies) ∧
              map.applyAll (.insert key value { memory with refuseAt := n } :: changes) =
                .ok (last, refusal (.allocation .refused) search.compared value :: replies)) ∧
          (¬ (1 ≤ n ∧ n ≤ map.requests) → ∃ next trace,
            map.apply (.insert key value { memory with refuseAt := n }) =
              .ok (next, { result := .ok (.inserted .inserted), trace })))) ∧
    (∀ change next reply, map.apply change = .ok (next, reply) →
      reply.result = .ok (.removed .notFound) ∨ reply.result = .ok (.flag false) → next = map) ∧
    ∀ cursor : Cursor, cursor.resolve map.afterDraw = cursor.resolve map := by
  obtain ⟨layout, h⟩ := reached.holds
  refine ⟨fun unfit memory => ?_, fun fit => ?_, fun change next reply made missed => ?_, fun _ => rfl⟩
  · obtain ⟨next, rest, reply, made, turn, _⟩ := h.insert_ok key value memory
    cases turn with
    | unfit _ => exact made
    | updated fit _ _ => exact absurd fit unfit
    | inserted fit _ _ _ _ => exact absurd fit unfit
    | refused fit _ _ _ _ => exact absurd fit unfit
  · rcases h.splice_cases key with ⟨before, e, after, cuts, equal, search⟩ | ⟨before, after, cuts, new, search⟩
    · refine ⟨_, search, fun slot found => ?_, fun missing => absurd missing (Option.some_ne_none _)⟩
      obtain rfl := Option.some.inj found
      exact ⟨_, Arena.node_of_occupied (h.arena.occupied before e after cuts.split),
        h.insert_found fit value cuts equal⟩
    · refine ⟨_, search, fun slot found => absurd found.symm (Option.some_ne_none _),
        fun _ memory small growable left n => ?_⟩
      obtain ⟨fails, succeeds⟩ := h.insert_new fit value cuts new small growable left n
      refine ⟨fun within => ⟨fails within, fun changes => ?_⟩, succeeds⟩
      have after_draw : map.afterDraw.Holds layout := { arena := h.arena, len := h.len, fit := h.fit }
      obtain ⟨last, _, replies, run, _⟩ := after_draw.applyAll_ok changes
      exact ⟨last, replies, run, applyAll_of_apply (fails within) run⟩
  · obtain ⟨rest, turn, _⟩ := h.turn made
    exact turn.eq_of_not_removed missed

/-- With no place left the third request is one too, and a fourth one is never made. -/
theorem refusal_atomic_full :
    sample.Reached ∧ sample.IsFull ∧ (∃ compared, sample.apply (.insert [4] 40 { refuseAt := 3 }) =
        .ok (sample.afterDraw, refusal (.allocation .refused) compared 40)) ∧
      (∃ next trace, sample.apply (.insert [4] 40 { refuseAt := 4 }) =
        .ok (next, { result := .ok (.inserted .inserted), trace })) ∧
      ∃ arena trace, sample.apply (.insert [2] 40 { refuseAt := 1 }) =
        .ok ({ sample with arena }, { result := .ok (.inserted (.updated 20)), trace }) := by
  have full : sample.IsFull := by decide
  have limit : 2 * sample.arena.capacity * ({} : Memory).slotBytes ≤ ({} : Memory).blockLimit := by decide
  have left : ¬ sample.IsSpent := by decide
  refine ⟨sample_reached, full, ?_⟩
  obtain ⟨_, inserts, _⟩ := refusal_atomic sample_reached [4] 40
  obtain ⟨search, spliced, _, new⟩ := inserts rfl
  have missing : search.slot = none := by
    obtain rfl := Except.ok.inj spliced
    rfl
  have small : ([4] : Key).length ≤ ({} : Memory).blockLimit := by decide
  obtain ⟨fails, _⟩ := (new missing {} small (fun _ => limit) left 3).1 (by decide)
  have granted := (new missing {} small (fun _ => limit) left 4).2 (by decide)
  obtain ⟨_, updates, _⟩ := refusal_atomic sample_reached [2] 40
  obtain ⟨search, spliced, known, _⟩ := updates rfl
  obtain rfl := Except.ok.inj spliced
  obtain ⟨node, there, updated⟩ := known 2 rfl
  obtain rfl := Except.ok.inj there
  obtain ⟨arena, made⟩ := updated { refuseAt := 1 }
  exact ⟨⟨_, fails⟩, granted, arena, _, made⟩

end SkipList.Map
