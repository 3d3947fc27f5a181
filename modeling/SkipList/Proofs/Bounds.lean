import SkipList.Proofs.Queries

/-!
# Bounds of a traversal

A traversal counts from the length of the map, wherever on level 0 it begins. Its counter exceeds the entries
still to come by as many as it began behind, and no step, clone or return to a clone changes that surplus.
-/

namespace SkipList

open Entry

variable {σ α : Type}

namespace Traversal

inductive Yields : Traversal α → List (Key × α) → Prop where
  | done {traversal : Traversal α} (stopped : traversal.next? = .ok none) : Yields traversal []
  | item {traversal after : Traversal α} {entry : Key × α} {items : List (Key × α)}
      (came : traversal.next? = .ok (some (entry, after))) (more : Yields after items) :
      Yields traversal (entry :: items)

theorem Yields.unique {traversal : Traversal α} {items others : List (Key × α)}
    (yields : traversal.Yields items) (again : traversal.Yields others) : items = others := by
  induction yields generalizing others with
  | done stopped =>
    cases again with
    | done _ => rfl
    | item came _ => nomatch stopped.symm.trans came
  | item came _ ih =>
    cases again with
    | done stopped => nomatch came.symm.trans stopped
    | item came' more =>
      obtain ⟨rfl, rfl⟩ := Prod.mk.inj (Option.some.inj (Except.ok.inj (came.symm.trans came')))
      rw [ih more]

/-- The present place and the remembered one after a program of steps. -/
def drive (view : View) : (here saved : Traversal α) → List Step →
    Except Fault (Traversal α × Traversal α)
  | here, saved, [] => return (here, saved)
  | here, saved, first :: steps => do
    let (_, here, saved) ← step view here saved first
    drive view here saved steps

/-- The bounds are right about the items still to come, and the counter has one to give for each. -/
structure Truthful (traversal : Traversal α) (items : List (Key × α)) : Prop where
  yields : traversal.Yields items
  least : traversal.bounds.1 ≤ items.length
  greatest : items.length ≤ traversal.bounds.2
  one_iff : traversal.bounds.1 = 1 ↔ 0 < items.length
  greatest_of_none : items.length = 0 → traversal.bounds.2 = 0
  counted : ∀ entry after, traversal.next? = .ok (some (entry, after)) →
    traversal.remaining = after.remaining + 1

end Traversal

namespace Remnant

variable {remnant here saved : Remnant α} {layout : Layout α} {arena : Arena α} {levels surplus : Nat}

/-- The counter exceeds the entries still to come by that many. -/
def Exceeds (remnant : Remnant α) (surplus : Nat) : Prop :=
  remnant.remaining = remnant.entries.length + surplus

theorem Exceeds.drop (exceeds : remnant.Exceeds surplus) (n : Nat) : (remnant.drop n).Exceeds surplus := by
  unfold Exceeds at exceeds ⊢
  simp only [Remnant.drop, List.length_drop]
  omega

theorem Exceeds.step (exceeds : here.Exceeds surplus) (safe : saved.Exceeds surplus) (view : View)
    (instruction : Traversal.Step) : (Remnant.step view here saved instruction).2.1.Exceeds surplus ∧
      (Remnant.step view here saved instruction).2.2.Exceeds surplus := by
  cases instruction with
  | next => exact ⟨exceeds.drop 1, safe⟩
  | bounds => exact ⟨exceeds, safe⟩
  | debugText => exact ⟨exceeds, safe⟩
  | save => exact ⟨exceeds, exceeds⟩
  | restore => exact ⟨safe, safe⟩
  | rest | last | count => exact ⟨exceeds.drop _, safe⟩
  | nth n => exact ⟨exceeds.drop (n + 1), safe⟩

theorem drive_traversal (h : arena.Holds levels layout) (within : here.Within layout)
    (safe : saved.Within layout) (exceeds : here.Exceeds surplus) (exceeds' : saved.Exceeds surplus)
    (view : View) (steps : List Traversal.Step) : ∃ later kept : Remnant α,
      Traversal.drive view (here.traversal arena) (saved.traversal arena) steps =
        .ok (later.traversal arena, kept.traversal arena) ∧
      (later.Within layout ∧ later.Exceeds surplus) ∧ kept.Within layout ∧ kept.Exceeds surplus := by
  induction steps generalizing here saved with
  | nil => exact ⟨here, saved, rfl, ⟨within, exceeds⟩, safe, exceeds'⟩
  | cons first steps ih =>
    obtain ⟨answer, later, kept, taken, done, inside, held⟩ := step_traversal h within safe view first
    have exceed := exceeds.step exceeds' view first
    rw [taken] at exceed
    obtain ⟨final, last, drove, ends⟩ := ih inside held exceed.1 exceed.2
    exact ⟨final, last, by simp only [Traversal.drive, done, ok_bind, drove], ends⟩

theorem yields_traversal (h : arena.Holds levels layout) (within : remnant.Within layout) :
    (remnant.traversal arena).Yields (remnant.entries.map Prod.snd) := by
  obtain ⟨entries, remaining⟩ := remnant
  induction entries generalizing remaining with
  | nil => exact .done (next?_of_nil rfl)
  | cons x rest ih => exact .item (next?_of_cons h within rfl) (ih _ (within.drop 1))

theorem truthful_traversal (h : arena.Holds levels layout) (within : remnant.Within layout)
    (exceeds : remnant.Exceeds surplus) :
    (remnant.traversal arena).Truthful (remnant.entries.map Prod.snd) := by
  have yields := yields_traversal h within
  have counter : remnant.remaining = remnant.entries.length + surplus := exceeds
  cases left : remnant.entries with
  | nil =>
    rw [left] at yields
    have bounds : (remnant.traversal arena).bounds = (0, 0) := by
      simp only [Traversal.bounds, traversal, left, List.head?_nil, Option.map_none]
    refine { yields, least := ?_, greatest := ?_, one_iff := ?_, greatest_of_none := ?_, counted := ?_ }
    · simp only [bounds, List.map_nil, List.length_nil, Nat.le_refl]
    · simp only [bounds, List.map_nil, List.length_nil, Nat.le_refl]
    · simp [bounds]
    · simp [bounds]
    · intro entry after came
      rw [next?_of_nil left] at came
      cases came
  | cons x rest =>
    rw [left] at yields
    rw [left, List.length_cons] at counter
    have bounds : (remnant.traversal arena).bounds = (1, remnant.remaining) := by
      simp only [Traversal.bounds, traversal, left, List.head?_cons, Option.map_some]
    refine { yields, least := ?_, greatest := ?_, one_iff := ?_, greatest_of_none := ?_, counted := ?_ }
    · simp [bounds]
    · simp only [bounds, List.length_map, List.length_cons, counter]
      omega
    · simp [bounds]
    · simp
    · intro entry after came
      rw [next?_of_cons h within left] at came
      obtain ⟨-, rfl⟩ := Prod.mk.inj (Option.some.inj (Except.ok.inj came))
      simp only [traversal, Remnant.drop, left, List.length_cons, counter]
      omega

theorem bounds_traversal (exceeds : remnant.Exceeds 0) :
    (remnant.traversal arena).bounds.2 = (remnant.entries.map Prod.snd).length := by
  have counter : remnant.remaining = remnant.entries.length := exceeds
  cases left : remnant.entries with
  | nil => simp only [Traversal.bounds, traversal, left, List.head?_nil, Option.map_none, List.map_nil,
      List.length_nil]
  | cons x rest =>
    simp only [Traversal.bounds, traversal, left, List.head?_cons, Option.map_some, counter,
      List.length_map]

end Remnant

namespace Map

variable {map : Map σ α} {layout : Layout α}

theorem Holds.remnant_exceeds (h : map.Holds layout) {before after : List (Entry α)}
    (split : layout.entries = before ++ after) : (map.remnant after).Exceeds before.length := by
  simp only [Remnant.Exceeds, remnant, h.len, split, List.length_append, List.length_map]
  omega

/-- Whatever the key order, a traversal is truthful about the number of items still to come, at every place
that it and its clones come to: at least one if and only if there are any, and at most as many as it has
counted. What traverses all entries counts exactly; what begins at a key counts the entries before it as
well, but the counter never has to go below zero. -/
theorem bounds_truthful [DrawSource σ] (reached : map.Reached) :
    (∃ start, map.traverse = .ok start ∧ ∀ view steps, ∃ here saved,
      start.drive view start steps = .ok (here, saved) ∧
      (∃ items, here.Truthful items ∧ here.bounds.2 = items.length) ∧
      ∃ items, saved.Truthful items ∧ saved.bounds.2 = items.length) ∧
    ∀ key, ∃ start, map.traverseFrom key = .ok start ∧ ∀ view steps, ∃ here saved,
      start.result.drive view start.result steps = .ok (here, saved) ∧
      (∃ items, here.Truthful items) ∧ ∃ items, saved.Truthful items := by
  obtain ⟨layout, h⟩ := reached.holds
  constructor
  · refine ⟨_, h.traverse_eq, fun view steps => ?_⟩
    have within : (map.remnant layout.entries).Within layout := remnant_within List.suffix_rfl
    have exceeds := h.remnant_exceeds (List.nil_append layout.entries).symm
    obtain ⟨here, saved, drove, ⟨inside, even⟩, safe, even'⟩ :=
      Remnant.drive_traversal h.arena within within exceeds exceeds view steps
    rw [← remnant_traversal]
    exact ⟨_, _, drove, ⟨_, Remnant.truthful_traversal h.arena inside even, Remnant.bounds_traversal even⟩,
      _, Remnant.truthful_traversal h.arena safe even', Remnant.bounds_traversal even'⟩
  · intro key
    obtain ⟨before, split⟩ := atLeast_suffix map layout key
    refine ⟨_, h.traverseFrom_eq key, fun view steps => ?_⟩
    have within : (map.remnant (map.atLeast layout key)).Within layout := remnant_within ⟨before, split⟩
    have exceeds := h.remnant_exceeds split.symm
    obtain ⟨here, saved, drove, ⟨inside, exceeds⟩, safe, exceeds'⟩ :=
      Remnant.drive_traversal h.arena within within exceeds exceeds view steps
    rw [← remnant_traversal]
    exact ⟨_, _, drove, ⟨_, Remnant.truthful_traversal h.arena inside exceeds⟩,
      _, Remnant.truthful_traversal h.arena safe exceeds'⟩

/-- From the second key on there are two entries, and up to three are announced. A clone that stays behind
still announces them when the last one has come. -/
theorem bounds_truthful_midway :
    let start : Traversal Nat := { arena := sample.arena, next := some 2, remaining := 3 }
    sample.Reached ∧ (∃ trace, sample.traverseFrom [2] = .ok { result := start, trace }) ∧
      start.Truthful [([2], 20), ([3], 30)] ∧ start.bounds = (1, 3) ∧
      ∃ here, start.drive .entries start [.save, .next, .nth 0] = .ok (here, start) ∧
        here.Truthful [] ∧ here.bounds = (0, 0) := by
  intro start
  have shown : sample.traverseFrom [2] = .ok { result := start, trace := { compared := _ } } := rfl
  obtain ⟨_, began, truthful⟩ := (bounds_truthful sample_reached).2 [2]
  obtain rfl := Except.ok.inj (began.symm.trans shown)
  obtain ⟨_, _, drove, ⟨items, here_truthful⟩, items', truthful'⟩ := truthful .entries [.save, .next, .nth 0]
  obtain ⟨rfl, rfl⟩ := Prod.mk.inj (Except.ok.inj drove)
  obtain rfl := here_truthful.yields.unique (.done rfl)
  obtain rfl := truthful'.yields.unique (.item rfl (.item rfl (.done rfl)))
  exact ⟨sample_reached, ⟨_, shown⟩, truthful', rfl, _, rfl, here_truthful, rfl⟩

end Map

end SkipList
