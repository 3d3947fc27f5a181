import SkipList.Proofs.Structure

/-!
# One entry at a time

Inserting adds one entry or changes the value of one, and removing takes one out; every other entry keeps
its slot, its generation, its height, its key and its value. Where the entry goes in or comes out is
known from the comparisons alone, so no law of the key order is used.
-/

namespace SkipList

open Entry

variable {σ α : Type}

/-- The comparisons show this answer for the entry's key and the sought one. -/
def Entry.Met (order : KeyOrder) (key : Key) (compared : List Comparison) (answer : Ordering)
    (e : Entry α) : Prop :=
  order.compare e.key key = answer ∧ ∃ level, e.comparison order key level ∈ compared

/-- The entry is in its slot, with its generation, its key, its value and as many links as it is high. -/
def Arena.Keeps (arena : Arena α) (e : Entry α) : Prop :=
  ∃ tower, tower.length = e.height ∧
    arena.slots[e.slot]? = some (.occupied e.generation { key := e.key, value := e.value, tower })

namespace Map

structure Lists (map : Map σ α) (entries : List (Entry α)) : Prop where
  visits : map.arena.Visits 0 (entries.map (·.slot))
  keeps : ∀ e ∈ entries, map.arena.Keeps e

/-- What inserting a value under a key does to the entries. -/
inductive Inserts (order : KeyOrder) (key : Key) (value : α) (compared : List Comparison) :
    List (Entry α) → Except Error (Insertion α) → List (Entry α) → Prop where
  | inserted {before after : List (Entry α)} {e : Entry α} (new_key : e.key = key)
      (new_value : e.value = value) (last : ∀ x ∈ before.getLast?, x.Met order key compared .lt)
      (first : ∀ x ∈ after.head?, x.Met order key compared .gt) :
      Inserts order key value compared (before ++ after) (.ok .inserted) (before ++ e :: after)
  | updated {before after : List (Entry α)} {e : Entry α} (met : e.Met order key compared .eq) :
      Inserts order key value compared (before ++ e :: after) (.ok (.updated e.value))
        (before ++ { e with value } :: after)
  | refused {entries : List (Entry α)} {error : Error} :
      Inserts order key value compared entries (.error error) entries

inductive Removes (order : KeyOrder) (key : Key) (compared : List Comparison) :
    List (Entry α) → Removal α → List (Entry α) → Prop where
  | removed {before after : List (Entry α)} {e : Entry α} (met : e.Met order key compared .eq) :
      Removes order key compared (before ++ e :: after) (.removed e.value) (before ++ after)
  | missed {entries : List (Entry α)} : Removes order key compared entries .notFound entries

/-! ### The entries of a map -/

theorem chain_unique {arena : Arena α} {level : Nat} {link : Link} {first second : List Nat}
    (leads : arena.Chain level link first) (leads' : arena.Chain level link second) : first = second := by
  induction leads generalizing second with
  | nil => cases leads' with | nil => rfl
  | @cons slot _ _ next _ ih =>
    cases leads' with
    | cons next' rest' =>
      rw [next] at next'
      obtain rfl := Except.ok.inj next'
      exact congrArg (slot :: ·) (ih rest')

theorem keeps_unique {arena : Arena α} {x y : Entry α} (keeps : arena.Keeps x) (keeps' : arena.Keeps y)
    (same : x.slot = y.slot) : x = y := by
  obtain ⟨tower, height, found⟩ := keeps
  obtain ⟨tower', height', found'⟩ := keeps'
  rw [same, found'] at found
  obtain ⟨generation, node⟩ := Slot.occupied.inj (Option.some.inj found)
  obtain ⟨key, value, rfl⟩ := Node.mk.inj node
  have high := height.symm.trans height'
  cases x
  cases y
  simp only at same generation key value high
  rw [same, generation, key, value, high]

theorem Lists.unique {map : Map σ α} {first second : List (Entry α)} (lists : map.Lists first)
    (lists' : map.Lists second) : first = second := by
  obtain ⟨link, start, leads⟩ := lists.visits
  obtain ⟨_, start', leads'⟩ := lists'.visits
  rw [start] at start'
  obtain rfl := Except.ok.inj start'
  have slots := chain_unique leads leads'
  refine List.ext_getElem (by simpa using congrArg List.length slots) fun i inside inside' => ?_
  have here := congrArg (·[i]?) slots
  have same : first[i].slot = second[i].slot := by simpa [inside, inside'] using here
  exact keeps_unique (lists.keeps _ (List.getElem_mem inside)) (lists'.keeps _ (List.getElem_mem inside'))
    same

variable {map next : Map σ α} {layout rest : Layout α} {key : Key}

theorem Holds.lists (h : map.Holds layout) : map.Lists layout.entries := by
  refine { visits := h.linked.bottom, keeps := fun e member => ?_ }
  obtain ⟨after, found⟩ := h.arena.occupied_of_mem member
  exact ⟨towerTo e.height after, towerTo_length _ _, found⟩

/-! ### What was compared -/

theorem Cuts.last_met {before after : List (Entry α)} (cuts : map.Cuts layout key before after) :
    ∀ e ∈ before.getLast?, e.Met map.order key (map.probes layout key) .lt := by
  intro e last
  refine ⟨cuts.last_lt e last, ?_⟩
  rw [← cuts.passed] at last
  obtain ⟨level, compared⟩ := way_last_compared e last
  exact ⟨level, List.mem_append_left _ compared⟩

theorem Cuts.first_met {before after : List (Entry α)} (cuts : map.Cuts layout key before after) :
    ∀ e ∈ after.head?, e.Met map.order key (map.probes layout key) (map.order.compare e.key key) := by
  intro e first
  rw [← cuts.ahead] at first
  refine ⟨rfl, 0, List.mem_append_right _ ?_⟩
  rw [Option.mem_def.mp first]
  exact List.mem_singleton.mpr rfl

theorem Cuts.first_gt {before after : List (Entry α)} (cuts : map.Cuts layout key before after)
    (h : map.Holds layout) (new : ∀ e ∈ after.head?, map.order.compare e.key key ≠ .eq) :
    ∀ e ∈ after.head?, e.Met map.order key (map.probes layout key) .gt := by
  intro e first
  have met := cuts.first_met e first
  have not_less := cuts.first_ne_lt h e first
  have not_equal := new e first
  cases answer : map.order.compare e.key key with
  | lt => exact absurd answer not_less
  | eq => exact absurd answer not_equal
  | gt => rwa [answer] at met

variable [DrawSource σ]

theorem Turn.inserts_one {value : α} {memory : Memory} {reply : Reply α (Except Error (Insertion α))}
    (turn : Turn map layout (.insert key value memory) next rest (reply.map (Except.map Answer.inserted)))
    (h : map.Holds layout) :
    Inserts map.order key value reply.trace.compared layout.entries reply.result rest.entries := by
  obtain ⟨result, trace⟩ := reply
  generalize shown : Reply.map (Except.map Answer.inserted) ⟨result, trace⟩ = reply at turn
  cases turn with
  | unfit unfit =>
    obtain ⟨outcome, rfl⟩ := Reply.mk.inj shown
    cases result with
    | error _ => exact .refused
    | ok _ => nomatch outcome
  | refused fit cuts new drawn refuses =>
    obtain ⟨outcome, rfl⟩ := Reply.mk.inj shown
    cases result with
    | error _ => exact .refused
    | ok _ => nomatch outcome
  | @updated _ _ _ before after e arena fit cuts equal =>
    obtain ⟨outcome, rfl⟩ := Reply.mk.inj shown
    cases result with
    | error _ => nomatch outcome
    | ok _ =>
      obtain rfl := Answer.inserted.inj (Except.ok.inj outcome)
      rw [cuts.split]
      have met := cuts.first_met e rfl
      rw [equal] at met
      exact .updated met
  | inserted fit cuts new drawn grants =>
    obtain ⟨outcome, rfl⟩ := Reply.mk.inj shown
    cases result with
    | error _ => nomatch outcome
    | ok _ =>
      obtain rfl := Answer.inserted.inj (Except.ok.inj outcome)
      rw [cuts.split]
      exact .inserted rfl rfl cuts.last_met (cuts.first_gt h new)

theorem Turn.removes_one {outcome : Removal α} {trace : Trace α}
    (turn : Turn map layout (.remove key) next rest { result := .ok (.removed outcome), trace }) :
    Removes map.order key trace.compared layout.entries outcome rest.entries := by
  cases turn with
  | missed _ _ => exact .missed
  | @removed _ _ _ e _ searchable cuts equal =>
    rw [cuts.split, Layout.remove_entries]
    have met := cuts.first_met e rfl
    rw [equal] at met
    exact .removed met

/-- Whatever the key order: a map that has come about by its own operations has one list of entries, and
inserting adds one entry to it, between entries that compare less and greater, or changes the value of one
that compares equal, or changes nothing; removing takes one entry out that compares equal, or changes
nothing. -/
theorem changes_one_entry {map : Map σ α} (reached : map.Reached) : ∃ entries, map.Lists entries ∧
    (∀ other, map.Lists other → other = entries) ∧
    (∀ memory key value, ∃ next reply rest, map.insert memory key value = .ok (next, reply) ∧
      next.Lists rest ∧
      Inserts map.order key value reply.trace.compared entries reply.result rest) ∧
    ∀ key, ∃ next reply rest, map.remove key = .ok (next, reply) ∧ next.Lists rest ∧
      Removes map.order key reply.trace.compared entries reply.result rest := by
  obtain ⟨layout, h⟩ := reached.holds
  refine ⟨layout.entries, h.lists, fun other lists => lists.unique h.lists,
    fun memory key value => ?_, fun key => ?_⟩
  · obtain ⟨next, rest, reply, inserted, turn, holds⟩ := h.inserts key value memory
    exact ⟨next, reply, rest.entries, inserted, holds.lists, turn.inserts_one h⟩
  · obtain ⟨next, rest, outcome, trace, removed, turn, holds⟩ := h.remove_ok key
    exact ⟨next, _, rest.entries, removed, holds.lists, turn.removes_one⟩

def lawless : Map Script Nat :=
  { arena :=
      { slots := #[.head [some 1, some 1], .occupied 0 ⟨[2], 20, [some 2, none]⟩,
          .occupied 0 ⟨[1], 10, [none]⟩]
        free := none
        capacity := 4 }
    len := 2
    maxHeight := sample.maxHeight
    keySize := 1
    id := 0
    source := { values := [0, 0xFFFFFFFF], used := 2 }
    order := .always "less" .lt }

/-- A key that is there goes in once more, behind all entries, as every entry compares less. -/
theorem changes_one_entry_lawless :
    lawless.Reached ∧ lawless.located = .ok [(1, [2], 20), (2, [1], 10)] ∧
      ∃ entries, lawless.Lists entries ∧ ∃ next reply e, lawless.insert {} [1] 30 = .ok (next, reply) ∧
        next.Lists (entries ++ [e]) ∧ e.key = [1] ∧ e.value = 30 := by
  have reached : lawless.Reached := by
    refine ⟨{}, { config := { keySize := 1, maxHeight := { levels := 2 } }, order := .always "less" .lt },
      { values := [0, 0xFFFFFFFF] }, 0, [.insert [2] 20 {}, .insert [1] 10 {}], ?replies, ?start, ?built,
      ?run⟩
    case built => rfl
    case run => rfl
  obtain ⟨entries, lists, _, inserts, _⟩ := changes_one_entry reached
  obtain ⟨next, reply, rest, inserted, lists', effect⟩ := inserts {} [1] 30
  have answer : reply.result = .ok .inserted := by
    obtain ⟨_, rfl⟩ := Prod.mk.inj (Except.ok.inj inserted)
    rfl
  rw [answer] at effect
  refine ⟨reached, rfl, entries, lists, next, reply, ?_⟩
  cases effect with
  | @inserted before after e new_key new_value _ first =>
    cases after with
    | nil =>
      rw [List.append_nil]
      exact ⟨e, inserted, lists', new_key, new_value⟩
    | cons x _ => nomatch (first x rfl).1

end Map

end SkipList
