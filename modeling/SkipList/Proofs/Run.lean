import SkipList.Draws.Source
import SkipList.Proofs.Turn

/-!
# Runs

A history of changes never fails, and a map that comes about by one holds a layout.
-/

namespace SkipList.Map

variable {σ α : Type}

def newLayout (α : Type) (nodes : Nat) : Layout α :=
  { entries := [], vacant := [], retired := [], capacity := Arena.firstCapacity nodes }

/-- The map has come about by changes to a new one. -/
def Reached [DrawSource σ] (map : Map σ α) : Prop :=
  ∃ memory blueprint source id changes replies, ∃ start : Map σ α,
    Map.build memory blueprint source id = .ok start ∧ start.applyAll changes = .ok (map, replies)

theorem build_ok {memory : Memory} {blueprint : Blueprint} {source : σ} {id : Nat} {map : Map σ α}
    (built : Map.build memory blueprint source id = .ok map) : ∃ arena,
      Arena.create memory blueprint.config.maxHeight.levels blueprint.config.capacity = .ok arena ∧
      map =
        { arena, len := 0, maxHeight := blueprint.config.maxHeight, keySize := blueprint.config.keySize, id,
          source, order := blueprint.order } := by
  unfold Map.build at built
  simp only at built
  split at built
  · nomatch built
  · obtain ⟨arena, created, built⟩ := bind_ok built
    exact ⟨arena, created, (Except.ok.inj built).symm⟩

theorem build_holds {memory : Memory} {blueprint : Blueprint} {source : σ} {id : Nat} {map : Map σ α}
    (built : Map.build memory blueprint source id = .ok map) :
    map.Holds (newLayout α blueprint.config.capacity) ∧ map.maxHeight = blueprint.config.maxHeight ∧
      map.keySize = blueprint.config.keySize ∧ map.order = blueprint.order := by
  obtain ⟨arena, created, rfl⟩ := build_ok built
  exact ⟨{ arena := Arena.create_holds created, len := rfl, fit := by simp [newLayout] }, rfl, rfl, rfl⟩

theorem build_source {memory : Memory} {blueprint : Blueprint} {source : σ} {id : Nat} {map : Map σ α}
    (built : Map.build memory blueprint source id = .ok map) : map.source = source := by
  obtain ⟨_, _, rfl⟩ := build_ok built
  rfl

theorem build_id {memory : Memory} {blueprint : Blueprint} {source : σ} {id : Nat} {map : Map σ α}
    (built : Map.build memory blueprint source id = .ok map) : map.id = id := by
  obtain ⟨_, _, rfl⟩ := build_ok built
  rfl

/-- Only a key size of zero, or memory that is refused for the slots or for the head, is in the way of a map. -/
theorem exists_build_iff {memory : Memory} {blueprint : Blueprint} {source : σ} {id : Nat} :
    (∃ map : Map σ α, Map.build memory blueprint source id = .ok map) ↔
      blueprint.config.keySize ≠ 0 ∧
        memory.Grants 1 (Arena.firstCapacity blueprint.config.capacity * memory.slotBytes) ∧
        memory.refuseAt ≠ 2 := by
  constructor
  · rintro ⟨map, built⟩
    unfold Map.build at built
    simp only at built
    split at built
    · nomatch built
    · rename_i sized
      obtain ⟨arena, created, _⟩ := bind_ok built
      obtain ⟨_, slots, created⟩ := bind_ok created
      obtain ⟨_, head, _⟩ := bind_ok created
      exact ⟨sized, Memory.request_eq_ok_iff.mp slots, (Memory.request_eq_ok_iff.mp head).1.symm⟩
  · rintro ⟨sized, slots, willing⟩
    have slots := Memory.request_eq_ok slots
    have head := Memory.request_eq_ok ⟨willing.symm, blueprint.config.maxHeight.bytes_le memory⟩
    simp only [Map.build, sized, if_false, Arena.create, slots, head, ok_bind]
    exact ⟨_, rfl⟩

example : (Map.build { blockLimit := 1 <<< 40, towers_fit := by decide }
    { config := { keySize := 1, capacity := 0xFFFFFFFE } } ({ values := [] } : Script) 0 :
    Except Error (Map Script Nat)).isOk = true := rfl

variable [DrawSource σ] {map : Map σ α} {layout : Layout α}

theorem Holds.turn (h : map.Holds layout) {change : Change α} {next : Map σ α}
    {reply : Reply α (Except Error (Answer α))} (made : map.apply change = .ok (next, reply)) :
    ∃ rest, Turn map layout change next rest reply ∧ next.Holds rest := by
  obtain ⟨_, rest, _, done, turn, holds⟩ := h.apply_ok change
  rw [made] at done
  obtain ⟨rfl, rfl⟩ := Prod.mk.inj (Except.ok.inj done)
  exact ⟨rest, turn, holds⟩

theorem applyAll_of_apply {next last : Map σ α} {change : Change α} {changes : List (Change α)}
    {reply : Reply α (Except Error (Answer α))} {replies : List (Reply α (Except Error (Answer α)))}
    (made : map.apply change = .ok (next, reply)) (run : next.applyAll changes = .ok (last, replies)) :
    map.applyAll (change :: changes) = .ok (last, reply :: replies) := by
  simp only [applyAll, made, ok_bind, run, pure_eq_ok]

theorem applyAll_cons {next : Map σ α} {change : Change α} {changes : List (Change α)}
    {replies : List (Reply α (Except Error (Answer α)))} (run : map.applyAll (change :: changes) = .ok (next, replies)) :
    ∃ mid reply later, map.apply change = .ok (mid, reply) ∧
      mid.applyAll changes = .ok (next, later) ∧ replies = reply :: later := by
  unfold applyAll at run
  obtain ⟨⟨mid, reply⟩, made, run⟩ := bind_ok run
  obtain ⟨⟨last, later⟩, ran, same⟩ := bind_ok run
  obtain ⟨rfl, rfl⟩ := Prod.mk.inj (Except.ok.inj same)
  exact ⟨mid, reply, later, made, ran, rfl⟩

theorem Holds.applyAll_ok (h : map.Holds layout) (changes : List (Change α)) :
    ∃ next rest replies, map.applyAll changes = .ok (next, replies) ∧ next.Holds rest ∧
      next.maxHeight = map.maxHeight ∧ next.keySize = map.keySize ∧ next.id = map.id ∧
      next.order = map.order := by
  induction changes generalizing map layout with
  | nil => exact ⟨map, layout, [], rfl, h, rfl, rfl, rfl, rfl⟩
  | cons change changes ih =>
    obtain ⟨next, rest, reply, made, turn, holds⟩ := h.apply_ok change
    obtain ⟨last, final, replies, run, kept, height, size, id, order⟩ := ih holds
    obtain ⟨height', size', id', order'⟩ := turn.frame
    exact ⟨last, final, reply :: replies, applyAll_of_apply made run, kept, height.trans height',
      size.trans size', id.trans id', order.trans order'⟩

theorem Reached.holds (reached : map.Reached) : ∃ layout, map.Holds layout := by
  obtain ⟨_, _, _, _, changes, _, start, built, run⟩ := reached
  obtain ⟨_, rest, _, done, holds, _⟩ := (build_holds built).1.applyAll_ok changes
  rw [run] at done
  obtain ⟨rfl, _⟩ := Prod.mk.inj (Except.ok.inj done)
  exact ⟨rest, holds⟩

/-- A map of three entries that has no place for a fourth one. -/
def sample : Map Script Nat :=
  { arena :=
      { slots := #[.head [some 1, some 1], .occupied 0 ⟨[1], 10, [some 2, some 3]⟩,
          .occupied 0 ⟨[2], 20, [some 3]⟩, .occupied 0 ⟨[3], 30, [none, none]⟩]
        free := none
        capacity := 4 }
    len := 3
    maxHeight := { levels := 2 }
    keySize := 1
    id := 0
    source := { values := [0, 0xFFFFFFFF], used := 3 }
    order := .ascend }

theorem sample_reached : sample.Reached := by
  refine ⟨{}, { config := { keySize := 1, maxHeight := { levels := 2 } } },
    { values := [0, 0xFFFFFFFF] }, 0, [.insert [1] 10 {}, .insert [2] 20 {}, .insert [3] 30 {}],
    ?replies, ?start, ?built, ?run⟩
  case built => rfl
  case run => rfl

end SkipList.Map
