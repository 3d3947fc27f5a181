import SkipList.Proofs.Comparisons

/-!
# What the order is asked

Every comparison asks the order about a key that is stored and the key that is sought, both of the map's
key size. The recorded comparisons are all that a call needs of the order: another order that gives the
same answers to them makes the call the same.
-/

namespace SkipList

open Entry

variable {σ α : Type}

def Change.key? : Change α → Option Key
  | .insert key _ _ | .remove key | .erase key | .modify key _ => some key
  | .clear => none

def Query.key? : Query α → Option Key
  | .get key | .contains key | .getEntry key | .traverseFrom key _ => some key
  | _ => none

def Cursor.Call.key? : Cursor.Call → Option SkipList.Key
  | .seek sought => some sought
  | _ => none

/-- The function gives the recorded answers. -/
def Answers (compare : Key → Key → Ordering) (compared : List Comparison) : Prop :=
  ∀ c ∈ compared, compare c.stored c.sought = c.answer

namespace Map

/-- The map with another comparison under the same name. -/
def reorder (map : Map σ α) (compare : Key → Key → Ordering) : Map σ α :=
  { map with order := { map.order with compare } }

/-- These are comparisons of the map's keys with the key that a call is given, all of the key size. -/
structure Confined (map : Map σ α) (keys : List Key) (given : Option Key) (compared : List Comparison) :
    Prop where
  stored : ∀ c ∈ compared, c.stored ∈ keys ∧ c.stored.length = map.keySize
  sought : ∀ c ∈ compared, given = some c.sought ∧ c.sought.length = map.keySize
  answer : ∀ c ∈ compared, c.answer = map.order.compare c.stored c.sought
  silent : (∀ key ∈ given, key.length ≠ map.keySize) → compared = []

end Map

/-! ### Orders that answer alike -/

theorem Answers.left {compare : Key → Key → Ordering} {first second : List Comparison}
    (answers : Answers compare (first ++ second)) : Answers compare first :=
  fun c compared => answers c (List.mem_append_left _ compared)

theorem Answers.right {compare : Key → Key → Ordering} {first second : List Comparison}
    (answers : Answers compare (first ++ second)) : Answers compare second :=
  fun c compared => answers c (List.mem_append_right _ compared)

namespace Entry

variable {order other : KeyOrder} {sought : Key} {entries : List (Entry α)}

theorem comparison_congr {e : Entry α} {level : Nat}
    (same : other.compare e.key sought = order.compare e.key sought) :
    e.comparison other sought level = e.comparison order sought level := by
  rw [comparison, comparison, same]

theorem leg_congr {level : Nat} (answers : Answers other.compare (leg order sought level entries).compared) :
    leg other sought level entries = leg order sought level entries := by
  -- only the entries that reach the level are asked about, so the others need no answer
  induction entries with
  | nil => rfl
  | cons e rest ih =>
    rcases leg_cons order sought level e rest with
      ⟨tall, less, same⟩ | ⟨tall, not_less, same⟩ | ⟨low, empty, same⟩ | ⟨low, some_passed, same⟩
    · rw [same] at answers ⊢
      have here : other.compare e.key sought = order.compare e.key sought :=
        answers _ List.mem_cons_self
      have there := ih fun c compared => answers c (List.mem_cons_of_mem _ compared)
      rw [leg, if_pos tall, if_pos (here.trans less), there, comparison_congr here]
    · rw [same] at answers ⊢
      have here : other.compare e.key sought = order.compare e.key sought :=
        answers _ List.mem_cons_self
      rw [leg, if_pos tall, if_neg (here ▸ not_less), here, comparison_congr here]
    · rw [same] at answers ⊢
      rw [leg, if_neg low, ih answers]
      simp only [empty]
    · rw [same] at answers ⊢
      rw [leg, if_neg low, ih answers]
      cases passed : (leg order sought level rest).passed with
      | nil => exact absurd passed some_passed
      | cons x later => rfl

theorem way_congr {levels : Nat} (answers : Answers other.compare (way order sought levels entries).compared) :
    way other sought levels entries = way order sought levels entries := by
  induction levels generalizing entries with
  | zero => rfl
  | succ level ih =>
    rw [way] at answers
    simp only [way, leg_congr answers.left, ih answers.right]

theorem glance_congr {levels : Nat} (answers : Answers other.compare (glance order sought levels entries)) :
    glance other sought levels entries = glance order sought levels entries ∧
      (way other sought levels entries).equal = (way order sought levels entries).equal := by
  induction levels generalizing entries with
  | zero => exact ⟨rfl, rfl⟩
  | succ level ih =>
    rw [glance] at answers
    simp only [glance, way, leg_congr answers.left]
    cases met : (leg order sought level entries).equal with
    | some e =>
      -- the search stops here and asks nothing of the levels below
      exact ⟨rfl, rfl⟩
    | none =>
      have below := answers.right
      rw [met] at below
      obtain ⟨same, found⟩ := ih below
      simp only [Option.isSome_none, Bool.false_eq_true, if_false, same, Option.none_or, found, and_self]

end Entry

namespace Map

variable {map next : Map σ α} {layout : Layout α} {key : Key} {compare : Key → Key → Ordering}

@[simp] theorem reorder_arena (map : Map σ α) (compare : Key → Key → Ordering) :
    (map.reorder compare).arena = map.arena := rfl

@[simp] theorem reorder_maxHeight (map : Map σ α) (compare : Key → Key → Ordering) :
    (map.reorder compare).maxHeight = map.maxHeight := rfl

@[simp] theorem reorder_keySize (map : Map σ α) (compare : Key → Key → Ordering) :
    (map.reorder compare).keySize = map.keySize := rfl

@[simp] theorem reorder_source (map : Map σ α) (compare : Key → Key → Ordering) :
    (map.reorder compare).source = map.source := rfl

theorem searchable_reorder : (map.reorder compare).Searchable key ↔ map.Searchable key :=
  Iff.rfl

theorem Holds.reorder (h : map.Holds layout) (compare : Key → Key → Ordering) :
    (map.reorder compare).Holds layout :=
  { arena := h.arena, len := h.len, fit := h.fit }

/-! ### The searches -/

theorem lookup_reorder (answers : Answers compare (map.glances layout key)) :
    (map.reorder compare).found layout key = map.found layout key ∧
      (map.reorder compare).glances layout key = map.glances layout key := by
  unfold found glances
  by_cases searchable : map.Searchable key
  · have there : (map.reorder compare).Searchable key := searchable
    rw [glances, if_pos searchable] at answers
    have alike : Answers (map.reorder compare).order.compare
      (glance map.order key map.maxHeight.levels layout.entries) := answers
    obtain ⟨same, equal⟩ := glance_congr alike
    rw [if_pos searchable, if_pos there, if_pos searchable, if_pos there]
    exact ⟨equal, same⟩
  · have there : ¬ (map.reorder compare).Searchable key := searchable
    rw [if_neg searchable, if_neg there, if_neg searchable, if_neg there]
    exact ⟨rfl, rfl⟩

theorem atLeast_reorder (answers : Answers compare (map.comparisonsTo layout key)) :
    (map.reorder compare).atLeast layout key = map.atLeast layout key ∧
      (map.reorder compare).comparisonsTo layout key = map.comparisonsTo layout key := by
  unfold atLeast comparisonsTo
  by_cases searchable : map.Searchable key
  · have there : (map.reorder compare).Searchable key := searchable
    rw [comparisonsTo, if_pos searchable] at answers
    have same : (map.reorder compare).way layout key = map.way layout key := way_congr answers
    rw [if_pos searchable, if_pos there, if_pos searchable, if_pos there, same]
    exact ⟨rfl, rfl⟩
  · have there : ¬ (map.reorder compare).Searchable key := searchable
    rw [if_neg searchable, if_neg there, if_neg searchable, if_neg there]
    exact ⟨rfl, rfl⟩

theorem Holds.find_reorder (h : map.Holds layout) (answers : Answers compare (map.glances layout key)) :
    (map.reorder compare).find key = map.find key := by
  obtain ⟨found, glances⟩ := lookup_reorder answers
  rw [h.find_eq, (h.reorder compare).find_eq, found, glances]

theorem Holds.splice_reorder (h : map.Holds layout) (answers : Answers compare (map.probes layout key)) :
    map.arena.splice (map.reorder compare).order map.maxHeight.levels key =
      map.arena.splice map.order map.maxHeight.levels key := by
  have same : (map.reorder compare).way layout key = map.way layout key := way_congr answers.left
  have here := (h.reorder compare).splice_way key
  refine here.trans ?_
  rw [h.splice_way key]
  unfold probes
  rw [same]
  cases first : (map.way layout key).ahead.head? with
  | none =>
    unfold hit
    rw [first]
    rfl
  | some e =>
    have last : e.comparison map.order key 0 ∈ map.probes layout key := by
      rw [probes, first]
      exact List.mem_append_right _ List.mem_cons_self
    have answer : (map.reorder compare).order.compare e.key key = map.order.compare e.key key :=
      answers _ last
    unfold hit
    rw [first, Option.filter_some, Option.filter_some, Option.map_some, Option.map_some, answer,
      comparison_congr answer]
    rfl

/-! ### Queries and cursors -/

theorem Holds.answer_reorder (h : map.Holds layout) {query : Query α}
    (answers : Answers compare (map.looks layout query)) :
    (map.reorder compare).answer query = map.answer query := by
  rw [h.answer_eq, (h.reorder compare).answer_eq]
  cases query with
  | get key | contains key | getEntry key =>
    obtain ⟨found, glances⟩ := lookup_reorder answers
    rw [reads, reads, looks, looks, found, glances]
  | traverseFrom key steps =>
    obtain ⟨ahead, compared⟩ := atLeast_reorder answers
    rw [reads, reads, looks, looks, ahead, compared]
    rfl
  | _ => rfl

theorem Holds.call_reorder (h : map.Holds layout) {cursor : Cursor} {call : Cursor.Call}
    (answers : Answers compare (cursor.reacts map layout call).2.trace.compared) :
    cursor.call (map.reorder compare) call = cursor.call map call := by
  rw [Cursor.call_eq h, Cursor.call_eq (h.reorder compare)]
  cases call with
  | seek key =>
    rw [Cursor.reacts] at answers ⊢
    by_cases own : cursor.map = map.id
    · rw [if_neg (not_not.mpr own)] at answers
      have alike : Answers compare (map.comparisonsTo layout key) := answers
      obtain ⟨ahead, compared⟩ := atLeast_reorder alike
      rw [Cursor.reacts, ahead, compared]
      rfl
    · have foreign : cursor.map ≠ (map.reorder compare).id := own
      rw [Cursor.reacts, if_pos own, if_pos foreign]
  | _ => rfl

/-! ### The keys that are compared -/

theorem Confined.nil {keys : List Key} {given : Option Key} : map.Confined keys given [] :=
  { stored := nofun, sought := nofun, answer := nofun, silent := fun _ => rfl }

theorem Confined.ite {keys : List Key} {given : Option Key} {compared : List Comparison} {made : Prop}
    [Decidable made] (confined : made → map.Confined keys given compared) :
    map.Confined keys given (if made then compared else []) := by
  split
  · exact confined ‹_›
  · exact .nil

theorem Holds.confined (h : map.Holds layout) (fit : key.length = map.keySize)
    {compared : List Comparison} (each : ∀ c ∈ compared, ∃ e ∈ layout.entries,
      c = e.comparison map.order key c.level) :
    map.Confined (layout.entries.map (·.key)) (some key) compared := by
  refine { stored := ?_, sought := ?_, answer := ?_, silent := ?_ }
  · intro c member
    obtain ⟨e, listed, same⟩ := each c member
    rw [same]
    exact ⟨List.mem_map_of_mem listed, h.fit e listed⟩
  · intro c member
    obtain ⟨e, _, same⟩ := each c member
    rw [same]
    exact ⟨rfl, fit⟩
  · intro c member
    obtain ⟨e, _, same⟩ := each c member
    rw [same]
    rfl
  · intro unfit
    exact absurd fit (unfit key rfl)

theorem way_each (map : Map σ α) (layout : Layout α) (key : Key) :
    ∀ c ∈ (map.way layout key).compared, ∃ e ∈ layout.entries, c = e.comparison map.order key c.level :=
  fun c compared => (way_compared_mem c compared).2

theorem Holds.confined_probes (h : map.Holds layout) (fit : key.length = map.keySize) :
    map.Confined (layout.entries.map (·.key)) (some key) (map.probes layout key) := by
  refine h.confined fit fun c member => ?_
  rcases List.mem_append.mp member with down | last
  · exact way_each map layout key c down
  · obtain ⟨e, first, rfl⟩ := Option.map_eq_some_iff.mp (Option.mem_toList.mp last)
    exact ⟨e, Cursor.mem_of_head? (way_ahead_suffix map layout key) e first, rfl⟩

theorem Holds.confined_glances (h : map.Holds layout) (key : Key) :
    map.Confined (layout.entries.map (·.key)) (some key) (map.glances layout key) := by
  refine .ite fun searchable => h.confined searchable.2 fun c member => ?_
  have first := glance_prefix map.order key map.maxHeight.levels layout.entries
  exact way_each map layout key c (first.mem member)

theorem Holds.confined_comparisonsTo (h : map.Holds layout) (key : Key) :
    map.Confined (layout.entries.map (·.key)) (some key) (map.comparisonsTo layout key) :=
  .ite fun searchable => h.confined searchable.2 (way_each map layout key)

theorem Holds.confined_compares (h : map.Holds layout) (change : Change α) :
    map.Confined (layout.entries.map (·.key)) change.key? (map.compares layout change) := by
  cases change with
  | insert key _ _ => exact .ite fun fit => h.confined_probes fit
  | remove key | erase key => exact .ite fun searchable => h.confined_probes searchable.2
  | modify key _ => exact h.confined_glances key
  | clear => exact .nil

theorem Holds.confined_looks (h : map.Holds layout) (query : Query α) :
    map.Confined (layout.entries.map (·.key)) query.key? (map.looks layout query) := by
  cases query with
  | get key | contains key | getEntry key => exact h.confined_glances key
  | traverseFrom key _ => exact h.confined_comparisonsTo key
  | _ => exact .nil

theorem Holds.confined_reacts (h : map.Holds layout) (cursor : Cursor) (call : Cursor.Call) :
    map.Confined (layout.entries.map (·.key)) call.key?
      (cursor.reacts map layout call).2.trace.compared := by
  cases call with
  | seek key =>
    rw [Cursor.reacts]
    split
    · exact .nil
    · exact h.confined_comparisonsTo key
  | _ =>
    have silent := (cursor.onward_silent map.id layout.entries).1
    exact silent.symm ▸ .nil

/-! ### Changes -/

theorem Holds.remove_reorder (h : map.Holds layout) {reply : Reply α (Removal α)}
    (answers : Answers compare (if map.Searchable key then map.probes layout key else []))
    (made : map.remove key = .ok (next, reply)) :
    (map.reorder compare).remove key = .ok (next.reorder compare, reply) := by
  by_cases searchable : map.Searchable key
  · simp only [remove, searchable, if_true] at made
    simp only [remove, searchable_reorder, searchable, if_true]
    rw [if_pos searchable] at answers
    obtain ⟨splice, search, made⟩ := bind_ok made
    have search' := (h.splice_reorder answers).trans search
    simp only [reorder_arena, reorder_maxHeight, search', ok_bind]
    cases found : splice.slot with
    | some slot =>
      simp only [found] at made
      obtain ⟨⟨arena, node⟩, unlinked, made⟩ := bind_ok made
      obtain ⟨rfl, rfl⟩ := Prod.mk.inj (Except.ok.inj made)
      simp only [unlinked, ok_bind]
      rfl
    | none =>
      simp only [found] at made
      obtain ⟨rfl, rfl⟩ := Prod.mk.inj (Except.ok.inj made)
      rfl
  · simp only [remove, searchable, if_false] at made
    simp only [remove, searchable_reorder, searchable, if_false]
    obtain ⟨rfl, rfl⟩ := Prod.mk.inj (Except.ok.inj made)
    rfl

theorem Holds.modify_reorder (h : map.Holds layout) {change : α → α} {reply : Reply α (Option α)}
    (answers : Answers compare (map.glances layout key))
    (made : map.modify key change = .ok (next, reply)) :
    (map.reorder compare).modify key change = .ok (next.reorder compare, reply) := by
  unfold modify at made
  obtain ⟨search, found, made⟩ := bind_ok made
  simp only [modify, h.find_reorder answers, found, ok_bind]
  cases there : search.slot with
  | none =>
    simp only [there] at made
    obtain ⟨rfl, rfl⟩ := Prod.mk.inj (Except.ok.inj made)
    rfl
  | some slot =>
    simp only [there] at made
    obtain ⟨node, read, made⟩ := bind_ok made
    obtain ⟨arena, written, made⟩ := bind_ok made
    obtain ⟨rfl, rfl⟩ := Prod.mk.inj (Except.ok.inj made)
    simp only [reorder_arena, read, ok_bind, written]
    rfl

variable [DrawSource σ]

theorem insertNew_reorder {memory : Memory} {path : List Nat} {value : α} {outcome : Except Error Event}
    (made : map.insertNew memory path key value = .ok (next, outcome)) :
    (map.reorder compare).insertNew memory path key value = .ok (next.reorder compare, outcome) := by
  unfold insertNew at made
  obtain ⟨⟨height, source⟩, drawn, made⟩ := bind_ok made
  obtain ⟨⟨arena, linked⟩, link, made⟩ := bind_ok made
  simp only [insertNew, reorder_maxHeight, reorder_source, reorder_arena, drawn, ok_bind, link]
  cases linked with
  | error _ | ok _ =>
    obtain ⟨rfl, rfl⟩ := Prod.mk.inj (Except.ok.inj made)
    rfl

theorem Holds.insert_reorder (h : map.Holds layout) {memory : Memory} {value : α}
    {reply : Reply α (Except Error (Insertion α))}
    (answers : Answers compare (map.compares layout (.insert key value memory)))
    (made : map.insert memory key value = .ok (next, reply)) :
    (map.reorder compare).insert memory key value = .ok (next.reorder compare, reply) := by
  by_cases fit : key.length = map.keySize
  · simp only [insert, fit, ne_eq, not_true, if_false] at made
    simp only [insert, reorder_keySize, fit, ne_eq, not_true, if_false]
    rw [compares, if_pos fit] at answers
    obtain ⟨splice, search, made⟩ := bind_ok made
    have search' := (h.splice_reorder answers).trans search
    simp only [reorder_arena, reorder_maxHeight, search', ok_bind]
    cases found : splice.slot with
    | some slot =>
      simp only [found] at made
      obtain ⟨node, read, made⟩ := bind_ok made
      obtain ⟨arena, written, made⟩ := bind_ok made
      obtain ⟨rfl, rfl⟩ := Prod.mk.inj (Except.ok.inj made)
      simp only [read, ok_bind, written]
      rfl
    | none =>
      simp only [found] at made
      obtain ⟨⟨last, outcome⟩, inserted, made⟩ := bind_ok made
      simp only [insertNew_reorder inserted, ok_bind]
      cases outcome with
      | error _ | ok _ =>
        obtain ⟨rfl, rfl⟩ := Prod.mk.inj (Except.ok.inj made)
        rfl
  · simp only [insert, fit, ne_eq, not_false_eq_true, if_true] at made
    simp only [insert, reorder_keySize, fit, ne_eq, not_false_eq_true, if_true]
    obtain ⟨rfl, rfl⟩ := Prod.mk.inj (Except.ok.inj made)
    rfl

theorem Holds.apply_reorder (h : map.Holds layout) {change : Change α}
    {reply : Reply α (Except Error (Answer α))} (answers : Answers compare (map.compares layout change))
    (made : map.apply change = .ok (next, reply)) :
    (map.reorder compare).apply change = .ok (next.reorder compare, reply) := by
  cases change with
  | insert key value memory =>
    obtain ⟨⟨last, outcome⟩, inserted, made⟩ := bind_ok made
    obtain ⟨rfl, rfl⟩ := Prod.mk.inj (Except.ok.inj made)
    simp only [apply, h.insert_reorder answers inserted, ok_bind]
    rfl
  | remove key =>
    obtain ⟨⟨last, outcome⟩, removed, made⟩ := bind_ok made
    obtain ⟨rfl, rfl⟩ := Prod.mk.inj (Except.ok.inj made)
    simp only [apply, h.remove_reorder answers removed, ok_bind]
    rfl
  | erase key =>
    obtain ⟨⟨last, outcome⟩, erased, made⟩ := bind_ok made
    obtain ⟨⟨_, removal⟩, removed, erased⟩ := bind_ok erased
    obtain ⟨rfl, rfl⟩ := Prod.mk.inj (Except.ok.inj erased)
    obtain ⟨rfl, rfl⟩ := Prod.mk.inj (Except.ok.inj made)
    simp only [apply, erase, h.remove_reorder answers removed, ok_bind]
    rfl
  | modify key change =>
    obtain ⟨⟨last, outcome⟩, modified, made⟩ := bind_ok made
    obtain ⟨rfl, rfl⟩ := Prod.mk.inj (Except.ok.inj made)
    simp only [apply, h.modify_reorder answers modified, ok_bind]
    rfl
  | clear =>
    obtain ⟨⟨last, outcome⟩, cleared, made⟩ := bind_ok made
    obtain ⟨⟨_, values⟩, drained, cleared⟩ := bind_ok cleared
    obtain ⟨⟨arena, _⟩, emptied, drained⟩ := bind_ok drained
    obtain ⟨rfl, rfl⟩ := Prod.mk.inj (Except.ok.inj drained)
    obtain ⟨rfl, rfl⟩ := Prod.mk.inj (Except.ok.inj cleared)
    obtain ⟨rfl, rfl⟩ := Prod.mk.inj (Except.ok.inj made)
    simp only [apply, clear, drain, reorder_arena, emptied, ok_bind]
    rfl

theorem Holds.applyAll_reorder (h : map.Holds layout)
    (same : ∀ a b : Key, a.length = map.keySize → b.length = map.keySize →
      compare a b = map.order.compare a b) (changes : List (Change α)) :
    ∃ next replies, map.applyAll changes = .ok (next, replies) ∧
      (map.reorder compare).applyAll changes = .ok (next.reorder compare, replies) := by
  induction changes generalizing map layout with
  | nil => exact ⟨map, [], rfl, rfl⟩
  | cons change changes ih =>
    obtain ⟨next, rest, reply, made, turn, holds⟩ := h.apply_ok change
    obtain ⟨_, size, _, order⟩ := turn.frame
    have confined := h.confined_compares change
    have answers : Answers compare (map.compares layout change) := fun c member =>
      (same _ _ (confined.stored c member).2 (confined.sought c member).2).trans
        (confined.answer c member).symm
    obtain ⟨last, replies, run, run'⟩ := ih holds (by rw [size, order]; exact same)
    exact ⟨last, reply :: replies, applyAll_of_apply made run,
      applyAll_of_apply (h.apply_reorder answers made) run'⟩

/-- Whatever the key order and however the map has come about: every comparison of a call is of a key that
the map holds when the call begins with the key that the call is given, both of the key size. A call with a
key of another length, or with none, makes no comparison. These comparisons are all that a call knows of the
order: under any function that gives the same answers to them it does and hands back the same. So a whole
history of changes goes the same under functions that differ only on keys of other lengths. -/
theorem comparisons_confined {map : Map σ α} (reached : map.Reached) :
    ∃ keys, map.keys = .ok keys ∧ (∀ key ∈ keys, key.length = map.keySize) ∧
      (∀ change, ∃ next reply, map.apply change = .ok (next, reply) ∧
        map.Confined keys change.key? reply.trace.compared ∧
        ∀ compare, Answers compare reply.trace.compared →
          (map.reorder compare).apply change = .ok (next.reorder compare, reply)) ∧
      (∀ query, ∃ reply, map.answer query = .ok reply ∧
        map.Confined keys query.key? reply.trace.compared ∧
        ∀ compare, Answers compare reply.trace.compared → (map.reorder compare).answer query = .ok reply) ∧
      (∀ (cursor : Cursor) call, ∃ moved reply, cursor.call map call = .ok (moved, reply) ∧
        map.Confined keys call.key? reply.trace.compared ∧
        ∀ compare, Answers compare reply.trace.compared →
          cursor.call (map.reorder compare) call = .ok (moved, reply)) ∧
      (∀ compare, (map.reorder compare).begin = map.begin ∧
        (map.reorder compare).takeValues = map.takeValues ∧ (map.reorder compare).discard = map.discard ∧
        ∀ (cursor : Cursor) predicate,
          cursor.holds (map.reorder compare) predicate = cursor.holds map predicate) ∧
      ∀ compare, (∀ a b : Key, a.length = map.keySize → b.length = map.keySize →
          compare a b = map.order.compare a b) →
        ∀ changes, ∃ next replies, map.applyAll changes = .ok (next, replies) ∧
          (map.reorder compare).applyAll changes = .ok (next.reorder compare, replies) := by
  obtain ⟨layout, h⟩ := reached.holds
  refine ⟨layout.entries.map (·.key), ?_, fun key listed => ?_, fun change => ?_, fun query => ?_,
    fun cursor call => ?_, fun compare => ⟨rfl, ?_, rfl, fun _ _ => rfl⟩,
    fun compare same changes => h.applyAll_reorder same changes⟩
  · simp only [keys, h.toList_eq, ok_bind, pure_eq_ok, List.map_map]
    rfl
  · obtain ⟨e, member, rfl⟩ := List.mem_map.mp listed
    exact h.fit e member
  · obtain ⟨next, _, reply, made, _⟩ := h.apply_ok change
    have compared := h.apply_compared made
    refine ⟨next, reply, made, ?_, fun compare answers => ?_⟩
    · rw [compared]
      exact h.confined_compares change
    · rw [compared] at answers
      exact h.apply_reorder answers made
  · refine ⟨_, h.answer_eq query, h.confined_looks query, fun compare answers => ?_⟩
    exact (h.answer_reorder answers).trans (h.answer_eq query)
  · refine ⟨_, _, Cursor.call_eq h cursor call, h.confined_reacts cursor call, fun compare answers => ?_⟩
    exact (h.call_reorder answers).trans (Cursor.call_eq h cursor call)
  · exact (h.reorder compare).takeValues_eq.trans h.takeValues_eq.symm

/-- A function that is wrong about every key of another length does as well as the order itself. -/
theorem comparisons_confined_sample :
    sample.Reached ∧ ∃ next replies,
      (sample.reorder fun a b => if a.length = 1 ∧ b.length = 1 then KeyOrder.lexicographic a b else .eq).applyAll
        [.insert [2, 5] 40 {}, .remove [2], .erase [], .insert [0] 50 {}] = .ok (next, replies) ∧
      sample.applyAll [.insert [2, 5] 40 {}, .remove [2], .erase [], .insert [0] 50 {}] =
        .ok ({ next with order := .ascend }, replies) ∧
      replies.map (·.trace.compared.map (·.stored)) = [[], [[1], [3], [2], [2]], [], [[1], [1], [1]]] := by
  obtain ⟨_, _, _, _, _, _, _, alike⟩ := comparisons_confined sample_reached
  obtain ⟨next, replies, run, run'⟩ := alike
    (fun a b => if a.length = 1 ∧ b.length = 1 then KeyOrder.lexicographic a b else .eq)
    (fun a b one one' => if_pos ⟨one, one'⟩)
    [.insert [2, 5] 40 {}, .remove [2], .erase [], .insert [0] 50 {}]
  refine ⟨sample_reached, _, replies, run', ?_, ?_⟩
  · obtain ⟨rfl, rfl⟩ := Prod.mk.inj (Except.ok.inj run)
    rfl
  · obtain ⟨rfl, rfl⟩ := Prod.mk.inj (Except.ok.inj run)
    rfl

end Map

end SkipList
