import SkipList.Proofs.Reading
import SkipList.Traversal

/-!
# Remnants

A traversal seen as the list of the entries that are still to come. `run_traversal` says that a program of
steps answers from that list and from the counter; the arena is only where the entries are read.
-/

namespace SkipList

open Entry

variable {α : Type}

def Entry.placed (e : Entry α) : Nat × Key × α := (e.slot, e.pair)

/-- The entries still to come, each with its slot, and the counter. -/
structure Remnant (α : Type) where
  entries : List (Nat × Key × α)
  remaining : Nat

namespace Remnant

def traversal (remnant : Remnant α) (arena : Arena α) : Traversal α :=
  { arena, next := remnant.entries.head?.map Prod.fst, remaining := remnant.remaining }

/-- The traversal without its arena, which its bounds and its text do not need. -/
def bare (remnant : Remnant α) : Traversal α :=
  remnant.traversal { slots := #[], free := none, capacity := 0 }

def drop (remnant : Remnant α) (n : Nat) : Remnant α :=
  { entries := remnant.entries.drop n
    remaining := remnant.remaining - min n remnant.entries.length }

def finish (remnant : Remnant α) : Remnant α :=
  remnant.drop remnant.entries.length

def step (view : View) (here saved : Remnant α) :
    Traversal.Step → Traversal.StepAnswer α × Remnant α × Remnant α
  | .next => (.item (here.entries[0]?.map Prod.snd), here.drop 1, saved)
  | .bounds => (.bounds here.bare.bounds.1 here.bare.bounds.2, here, saved)
  | .debugText => (.text (here.bare.debugText view), here, saved)
  | .save => (.saved, here, here)
  | .restore => (.restored, saved, saved)
  | .rest => (.items (here.entries.map Prod.snd), here.finish, saved)
  | .last => (.item (here.entries.map Prod.snd).getLast?, here.finish, saved)
  | .count => (.count here.entries.length, here.finish, saved)
  | .nth n => (.item (here.entries[n]?.map Prod.snd), here.drop (n + 1), saved)

def run (view : View) : (here saved : Remnant α) → List Traversal.Step → List (Traversal.StepAnswer α)
  | _, _, [] => []
  | here, saved, first :: steps =>
    let (answer, here, saved) := step view here saved first
    answer :: run view here saved steps

/-- The remnant is what a place in the layout has ahead. -/
def Within (remnant : Remnant α) (layout : Layout α) : Prop :=
  ∃ before after, layout.entries = before ++ after ∧ remnant.entries = after.map placed

variable {remnant here saved : Remnant α} {layout : Layout α} {arena : Arena α} {levels : Nat}

theorem Within.drop (within : remnant.Within layout) (n : Nat) : (remnant.drop n).Within layout := by
  obtain ⟨before, after, split, same⟩ := within
  refine ⟨before ++ after.take n, after.drop n, ?_, ?_⟩
  · rw [List.append_assoc, List.take_append_drop, split]
  · rw [Remnant.drop, same, List.map_drop]

theorem drop_drop {x : Nat × Key × α} {rest : List (Nat × Key × α)} (some_left : remnant.entries = x :: rest)
    (n : Nat) : (remnant.drop 1).drop n = remnant.drop (n + 1) := by
  obtain ⟨entries, remaining⟩ := remnant
  obtain rfl := some_left
  simp only [Remnant.drop, List.drop_succ_cons, List.drop_zero, List.length_cons, mk.injEq, true_and]
  omega

/-! ### Single calls -/

theorem next?_of_nil (empty : remnant.entries = []) : (remnant.traversal arena).next? = .ok none := by
  simp only [traversal, empty, List.head?_nil, Option.map_none, Traversal.next?, pure_eq_ok]

theorem next?_of_cons (h : arena.Holds levels layout) (within : remnant.Within layout)
    {x : Nat × Key × α} {rest : List (Nat × Key × α)} (some_left : remnant.entries = x :: rest) :
    (remnant.traversal arena).next? = .ok (some (x.2, (remnant.drop 1).traversal arena)) := by
  obtain ⟨before, after, split, same⟩ := within
  rw [some_left] at same
  cases after with
  | nil => nomatch same
  | cons e after =>
    obtain ⟨rfl, rfl⟩ := List.cons.inj same
    simp only [traversal, some_left, List.head?_cons, Option.map_some, Traversal.next?, placed,
      Arena.node_of_occupied (h.occupied before e after split), h.next_bottom split, ok_bind,
      pure_eq_ok, Remnant.drop, List.length_cons, List.drop_succ_cons, List.drop_zero, List.head?_map,
      Option.map_map]
    have one : min 1 ((after.map placed).length + 1) = 1 := by omega
    rw [one]
    rfl

theorem nth?_traversal (h : arena.Holds levels layout) (within : remnant.Within layout) (n : Nat) :
    (remnant.traversal arena).nth? n =
      .ok (remnant.entries[n]?.map Prod.snd, (remnant.drop (n + 1)).traversal arena) := by
  induction n generalizing remnant with
  | zero =>
    cases left : remnant.entries with
    | nil =>
      simp only [Traversal.nth?, next?_of_nil left, ok_bind, pure_eq_ok]
      simp [traversal, Remnant.drop, left]
    | cons x rest =>
      simp only [Traversal.nth?, next?_of_cons h within left, ok_bind, pure_eq_ok]
      rfl
  | succ n ih =>
    cases left : remnant.entries with
    | nil =>
      simp only [Traversal.nth?, next?_of_nil left, ok_bind, pure_eq_ok]
      simp [traversal, Remnant.drop, left]
    | cons x rest =>
      simp only [Traversal.nth?, next?_of_cons h within left, ok_bind, ih (within.drop 1),
        drop_drop left]
      simp [Remnant.drop, left]

theorem rest_traversal (h : arena.Holds levels layout) (within : remnant.Within layout) :
    (remnant.traversal arena).rest = .ok (remnant.entries.map Prod.snd, remnant.finish.traversal arena) := by
  obtain ⟨before, after, split, same⟩ := within
  have start : remnant.traversal arena =
      { arena, next := after.head?.map (·.slot), remaining := remnant.remaining } := by
    simp only [traversal, same, List.head?_map, Option.map_map]
    rfl
  have enough : after.length < arena.slots.size + 1 := Nat.lt_succ_of_lt (h.after_lt_size split)
  rw [start]
  simp only [Traversal.rest, Traversal.located, h.locatedWithin_eq split _ enough, ok_bind, pure_eq_ok]
  simp [traversal, finish, Remnant.drop, same, Function.comp_def, placed]

/-! ### Programs -/

theorem step_traversal (h : arena.Holds levels layout) (within : here.Within layout)
    (safe : saved.Within layout) (view : View) (instruction : Traversal.Step) :
    ∃ answer later kept, step view here saved instruction = (answer, later, kept) ∧
      Traversal.step view (here.traversal arena) (saved.traversal arena) instruction =
        .ok (answer, later.traversal arena, kept.traversal arena) ∧
      later.Within layout ∧ kept.Within layout := by
  cases instruction with
  | next =>
    refine ⟨_, _, _, rfl, ?_, within.drop 1, safe⟩
    simp only [Traversal.step, nth?_traversal h within, ok_bind, pure_eq_ok]
  | bounds => exact ⟨_, _, _, rfl, rfl, within, safe⟩
  | debugText => exact ⟨_, _, _, rfl, rfl, within, safe⟩
  | save => exact ⟨_, _, _, rfl, rfl, within, within⟩
  | restore => exact ⟨_, _, _, rfl, rfl, safe, safe⟩
  | rest =>
    refine ⟨_, _, _, rfl, ?_, within.drop _, safe⟩
    simp only [Traversal.step, rest_traversal h within, ok_bind, pure_eq_ok]
  | last =>
    refine ⟨_, _, _, rfl, ?_, within.drop _, safe⟩
    simp only [Traversal.step, rest_traversal h within, ok_bind, pure_eq_ok]
  | count =>
    refine ⟨_, _, _, rfl, ?_, within.drop _, safe⟩
    simp only [Traversal.step, rest_traversal h within, ok_bind, pure_eq_ok, List.length_map]
  | nth n =>
    refine ⟨_, _, _, rfl, ?_, within.drop _, safe⟩
    simp only [Traversal.step, nth?_traversal h within, ok_bind, pure_eq_ok]

/-- A program of steps on a traversal answers as on the list of the entries still to come. -/
theorem run_traversal (h : arena.Holds levels layout) (within : here.Within layout)
    (safe : saved.Within layout) (view : View) (steps : List Traversal.Step) :
    Traversal.run view (here.traversal arena) (saved.traversal arena) steps =
      .ok (run view here saved steps) := by
  induction steps generalizing here saved with
  | nil => rfl
  | cons first steps ih =>
    obtain ⟨answer, later, kept, taken, done, inside, held⟩ := step_traversal h within safe view first
    simp only [Traversal.run, done, ok_bind, ih inside held, pure_eq_ok, run, taken]

end Remnant

end SkipList
