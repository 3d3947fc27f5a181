import Mathlib.Data.List.Basic
import SkipList.Calls
import SkipList.Proofs.Way

/-!
# Numbering nodes

What is left of answers, traces and entries without slots, generations and the ids of maps. To tell entries
apart all the same, they are numbered in the order in which their nodes were born; a search goes the same
way among the numbered entries and makes the same comparisons, but for the slots.
-/

namespace SkipList

variable {α β : Type}

def Comparison.nameless (comparison : Comparison) : Comparison := { comparison with slot := 0 }

def Event.nameless : Event → Event
  | .spliced _ height len => .spliced 0 height len
  | .unspliced _ height len => .unspliced 0 height len
  | .cursorRemoved _ => .cursorRemoved 0

def Trace.nameless (trace : Trace α) : Trace α :=
  { trace with
    compared := trace.compared.map Comparison.nameless
    events := trace.events.map Event.nameless }

def Traversal.StepAnswer.nameless : StepAnswer α → StepAnswer α
  | .text _ => .text ""
  | answer => answer

def Position.nameless : Position → Position
  | .positioned _ => .positioned ⟨0, 0⟩
  | .exhausted => .exhausted

def Cursor.nameless (cursor : Cursor) : Cursor := { map := 0, position := cursor.position.nameless }

/-- The answer without slots, generations and ids of maps. -/
def Answer.nameless : Answer α → Answer α
  | .located places => .located (places.map fun (_, pair) => (0, pair))
  | .traversed view answers => .traversed view (answers.map Traversal.StepAnswer.nameless)
  | .moved cursor => .moved cursor.nameless
  | .begun index cursor => .begun index cursor.nameless
  | answer => answer

def Reply.nameless {ε : Type} (reply : Reply α (Except ε (Answer α))) : Reply α (Except ε (Answer α)) :=
  { result := reply.result.map Answer.nameless, trace := reply.trace.nameless }

namespace Entry

def nameless (e : Entry α) : Entry α := { e with slot := 0, generation := 0 }

/-- The entry with the number of its node among those that were born. -/
def numbered (births : List NodeId) (e : Entry α) : Entry α :=
  { e with slot := births.idxOf e.id, generation := 0 }

variable {births births' : List NodeId}

theorem map_of_numbered {first second : List (Entry α)} {read : Entry α → β}
    (same : second.map (numbered births') = first.map (numbered births))
    (blind : ∀ births, ∀ e : Entry α, read (e.numbered births) = read e) :
    second.map read = first.map read :=
  map_of_views same (blind births) (blind births')

theorem numbered_append {e : Entry α} (listed : e.id ∈ births) (more : List NodeId) :
    e.numbered (births ++ more) = e.numbered births := by
  rw [numbered, numbered, List.idxOf_append_of_mem listed]

theorem numbered_new {e : Entry α} (new : e.id ∉ births) :
    e.numbered (births ++ [e.id]) = { e with slot := births.length, generation := 0 } := by
  rw [numbered, List.idxOf_append_of_notMem new, List.idxOf_cons_self, Nat.add_zero]

theorem numbered_slot_inj {e x : Entry α} (listed : e.id ∈ births)
    (same : (x.numbered births).slot = (e.numbered births).slot) : x.id = e.id :=
  ((List.idxOf_inj listed).mp same.symm).symm

structure SameWay (births : List NodeId) (on on' : Leg α) : Prop where
  passed : on'.passed = on.passed.map (numbered births)
  ahead : on'.ahead = on.ahead.map (numbered births)
  equal : on'.equal = on.equal.map (numbered births)
  compared : on'.compared.map Comparison.nameless = on.compared.map Comparison.nameless

variable (order : KeyOrder) (sought : Key) (births : List NodeId)

variable {order sought} in
theorem hit_of_equal {e : Entry α} (equal : order.compare e.key sought = .eq)
    {after : List (Entry α)} : hit order sought (e :: after) = some e :=
  hit_eq_some_iff.mpr ⟨⟨after, rfl⟩, equal⟩

variable {order sought} in
theorem hit_of_missing {ahead : List (Entry α)}
    (missing : ∀ e ∈ ahead.head?, order.compare e.key sought ≠ .eq) : hit order sought ahead = none :=
  Option.filter_eq_none_iff.mpr fun e first => by simpa using missing e first

theorem hit_numbered (ahead : List (Entry α)) :
    hit order sought (ahead.map (numbered births)) = (hit order sought ahead).map (numbered births) := by
  rw [hit, hit, List.head?_map, Option.filter_map]
  rfl

theorem leg_numbered (level : Nat) (entries : List (Entry α)) :
    SameWay births (leg order sought level entries)
      (leg order sought level (entries.map (numbered births))) := by
  induction entries with
  | nil => exact ⟨rfl, rfl, rfl, rfl⟩
  | cons e rest ih =>
    rw [List.map_cons]
    by_cases tall : level < e.height
    · have tall' : level < (e.numbered births).height := tall
      by_cases less : order.compare e.key sought = .lt
      · have less' : order.compare (e.numbered births).key sought = .lt := less
        rw [leg, leg, if_pos tall, if_pos tall', if_pos less, if_pos less']
        exact
          { passed := congrArg (e.numbered births :: ·) ih.passed, ahead := ih.ahead, equal := ih.equal,
            compared := congrArg ((e.comparison order sought level).nameless :: ·) ih.compared }
      · have less' : order.compare (e.numbered births).key sought ≠ .lt := less
        rw [leg, leg, if_pos tall, if_pos tall', if_neg less, if_neg less']
        refine { passed := rfl, ahead := rfl, equal := ?_, compared := rfl }
        by_cases equal : order.compare e.key sought = .eq
        · have equal' : order.compare (e.numbered births).key sought = .eq := equal
          simp only [equal, equal', if_true, Option.map_some]
        · have equal' : order.compare (e.numbered births).key sought ≠ .eq := equal
          simp only [equal, equal', if_false, Option.map_none]
    · have tall' : ¬ level < (e.numbered births).height := tall
      -- a low entry is passed only if the leg passes one behind it
      rw [leg, leg, if_neg tall, if_neg tall']
      cases passed : (leg order sought level rest).passed with
      | nil =>
        have empty := ih.passed
        rw [passed, List.map_nil] at empty
        simp only [empty]
        exact { passed := rfl, ahead := rfl, equal := ih.equal, compared := ih.compared }
      | cons x xs =>
        have more := ih.passed
        rw [passed, List.map_cons] at more
        simp only [more]
        exact { passed := rfl, ahead := ih.ahead, equal := ih.equal, compared := ih.compared }

theorem way_numbered (levels : Nat) (entries : List (Entry α)) :
    SameWay births (way order sought levels entries)
      (way order sought levels (entries.map (numbered births))) := by
  induction levels generalizing entries with
  | zero => exact ⟨rfl, rfl, rfl, rfl⟩
  | succ level ih =>
    have here := leg_numbered order sought births level entries
    have below := ih (leg order sought level entries).ahead
    rw [way, way, here.ahead]
    refine { passed := ?_, ahead := below.ahead, equal := ?_, compared := ?_ }
    · rw [here.passed, below.passed, List.map_append]
    · simp only [here.equal, below.equal]
      cases (leg order sought level entries).equal <;> rfl
    · simp only [List.map_append, here.compared, below.compared]

theorem glance_numbered (levels : Nat) (entries : List (Entry α)) :
    (glance order sought levels (entries.map (numbered births))).map Comparison.nameless =
      (glance order sought levels entries).map Comparison.nameless := by
  induction levels generalizing entries with
  | zero => rfl
  | succ level ih =>
    have here := leg_numbered order sought births level entries
    rw [glance, glance, here.ahead]
    simp only [List.map_append, here.compared, here.equal, Option.isSome_map]
    split
    · rfl
    · rw [ih]

end Entry

end SkipList
