import SkipList.Descent
import SkipList.Proofs.Entry

/-!
# Ways through a list

A descent seen on the list of entries instead of on the links. `leg` is a walk along one level and `way`
a descent through all of them. No law of the order is used: a descent never passes the entry at which it
stopped on a level above, because the same comparison gives the same answer again (`way_low`).
-/

namespace SkipList

/-- How a search divides the entries, the first entry it met that has the key, and its comparisons. -/
structure Leg (α : Type) where
  passed : List (Entry α)
  ahead : List (Entry α)
  equal : Option (Entry α)
  compared : List Comparison

namespace Entry

variable {α : Type} (order : KeyOrder) (sought : Key)

def comparison (level : Nat) (e : Entry α) : Comparison :=
  { level, slot := e.slot, stored := e.key, sought, answer := order.compare e.key sought }

/-- The walk along one level. Entries that are too low are passed only on the way to one that is not. -/
def leg (level : Nat) : List (Entry α) → Leg α
  | [] => { passed := [], ahead := [], equal := none, compared := [] }
  | e :: rest =>
    let on := leg level rest
    if level < e.height then
      if order.compare e.key sought = .lt then
        { on with
          passed := e :: on.passed
          compared := e.comparison order sought level :: on.compared }
      else
        { passed := []
          ahead := e :: rest
          equal := if order.compare e.key sought = .eq then some e else none
          compared := [e.comparison order sought level] }
    else match on.passed with
      | [] => { on with ahead := e :: rest }
      | _ :: _ => { on with passed := e :: on.passed }

def way : (levels : Nat) → List (Entry α) → Leg α
  | 0, entries => { passed := [], ahead := entries, equal := none, compared := [] }
  | level + 1, entries =>
    let on := leg order sought level entries
    let below := way level on.ahead
    { passed := on.passed ++ below.passed
      ahead := below.ahead
      equal := on.equal.or below.equal
      compared := on.compared ++ below.compared }

/-- The comparisons of a descent that ends as soon as it meets the key. -/
def glance : (levels : Nat) → List (Entry α) → List Comparison
  | 0, _ => []
  | level + 1, entries =>
    let on := leg order sought level entries
    on.compared ++ if on.equal.isSome then [] else glance level on.ahead

def hit (ahead : List (Entry α)) : Option (Entry α) :=
  ahead.head?.filter (order.compare ·.key sought = .eq)

variable {order sought}

/-! ### One level -/

/-- The four ways in which a walk meets an entry: it is before the key, it is not, or it is too low and
the walk goes no farther, or it is too low and the walk goes on. -/
theorem leg_cons (order : KeyOrder) (sought : Key) (level : Nat) (e : Entry α) (rest : List (Entry α)) :
    (level < e.height ∧ order.compare e.key sought = .lt ∧ leg order sought level (e :: rest) =
      { leg order sought level rest with
        passed := e :: (leg order sought level rest).passed
        compared := e.comparison order sought level :: (leg order sought level rest).compared }) ∨
    (level < e.height ∧ order.compare e.key sought ≠ .lt ∧ leg order sought level (e :: rest) =
      { passed := []
        ahead := e :: rest
        equal := if order.compare e.key sought = .eq then some e else none
        compared := [e.comparison order sought level] }) ∨
    (¬ level < e.height ∧ (leg order sought level rest).passed = [] ∧
      leg order sought level (e :: rest) = { leg order sought level rest with ahead := e :: rest }) ∨
    (¬ level < e.height ∧ (leg order sought level rest).passed ≠ [] ∧ leg order sought level (e :: rest) =
      { leg order sought level rest with passed := e :: (leg order sought level rest).passed }) := by
  by_cases tall : level < e.height
  · by_cases answer : order.compare e.key sought = .lt
    · exact Or.inl ⟨tall, answer, by rw [leg, if_pos tall, if_pos answer]⟩
    · exact Or.inr (Or.inl ⟨tall, answer, by rw [leg, if_pos tall, if_neg answer]⟩)
  · cases passed : (leg order sought level rest).passed with
    | nil =>
      refine Or.inr (Or.inr (Or.inl ⟨tall, rfl, ?_⟩))
      rw [leg, if_neg tall]
      simp only [passed]
    | cons x xs =>
      refine Or.inr (Or.inr (Or.inr ⟨tall, by simp, ?_⟩))
      rw [leg, if_neg tall]
      simp only [passed]

theorem leg_append (order : KeyOrder) (sought : Key) (level : Nat) (entries : List (Entry α)) :
    (leg order sought level entries).passed ++ (leg order sought level entries).ahead = entries := by
  induction entries with
  | nil => rfl
  | cons e rest ih =>
    rcases leg_cons order sought level e rest with
      ⟨_, _, same⟩ | ⟨_, _, same⟩ | ⟨_, empty, same⟩ | ⟨_, _, same⟩
    · rw [same]
      exact congrArg (e :: ·) ih
    · rw [same]
      rfl
    · rw [same, empty]
      rfl
    · rw [same]
      exact congrArg (e :: ·) ih

theorem leg_lt {level : Nat} {entries : List (Entry α)} :
    ∀ e ∈ (leg order sought level entries).passed, level < e.height → order.compare e.key sought = .lt := by
  induction entries with
  | nil => intro e member; nomatch member
  | cons first rest ih =>
    intro e member tall
    rcases leg_cons order sought level first rest with
      ⟨_, answer, same⟩ | ⟨_, _, same⟩ | ⟨_, empty, same⟩ | ⟨low, _, same⟩
    · rw [same] at member
      rcases List.mem_cons.mp member with rfl | member
      · exact answer
      · exact ih e member tall
    · rw [same] at member
      nomatch member
    · rw [same, empty] at member
      nomatch member
    · rw [same] at member
      rcases List.mem_cons.mp member with rfl | member
      · exact absurd tall low
      · exact ih e member tall

theorem leg_last {level : Nat} {entries : List (Entry α)} :
    ∀ e ∈ (leg order sought level entries).passed.getLast?, level < e.height := by
  induction entries with
  | nil => intro e last; nomatch last
  | cons first rest ih =>
    intro e last
    rcases leg_cons order sought level first rest with
      ⟨tall, _, same⟩ | ⟨_, _, same⟩ | ⟨_, empty, same⟩ | ⟨_, nonempty, same⟩
    · rw [same, List.getLast?_cons] at last
      cases found : (leg order sought level rest).passed.getLast? with
      | none =>
        rw [found] at last
        obtain rfl := Option.some.inj last
        exact tall
      | some x =>
        rw [found] at last
        obtain rfl := Option.some.inj last
        exact ih _ found
    · rw [same] at last
      nomatch last
    · rw [same, empty] at last
      nomatch last
    · rw [same, List.getLast?_cons] at last
      cases found : (leg order sought level rest).passed.getLast? with
      | none => exact absurd (List.getLast?_eq_none_iff.mp found) nonempty
      | some x =>
        rw [found] at last
        obtain rfl := Option.some.inj last
        exact ih _ found

theorem leg_stands (order : KeyOrder) (sought : Key) {level : Nat} {before : List (Entry α)}
    (entries : List (Entry α)) (stands : ∀ e ∈ before.getLast?, level < e.height) :
    ∀ e ∈ (before ++ (leg order sought level entries).passed).getLast?, level < e.height := by
  intro e last
  rw [List.getLast?_append] at last
  rcases Option.or_eq_some_iff.mp last with here | ⟨_, there⟩
  · exact leg_last e here
  · exact stands e there

theorem leg_ahead_of_empty {level : Nat} {entries : List (Entry α)}
    (empty : (leg order sought level entries).passed = []) :
    (leg order sought level entries).ahead = entries := by
  have whole := leg_append order sought level entries
  rwa [empty, List.nil_append] at whole

theorem find?_cons_low {level : Nat} {e : Entry α} (rest : List (Entry α)) (low : ¬ level < e.height) :
    (e :: rest).find? (level < ·.height) = rest.find? (level < ·.height) :=
  List.find?_cons_of_neg (by simpa using low)

theorem find?_cons_tall {level : Nat} {e : Entry α} (rest : List (Entry α)) (tall : level < e.height) :
    (e :: rest).find? (level < ·.height) = some e :=
  List.find?_cons_of_pos (by simpa using tall)

theorem leg_stop {level : Nat} {entries : List (Entry α)} :
    ∀ e ∈ (leg order sought level entries).ahead.find? (level < ·.height),
      order.compare e.key sought ≠ .lt := by
  induction entries with
  | nil => intro e found; nomatch found
  | cons first rest ih =>
    intro e found
    rcases leg_cons order sought level first rest with
      ⟨_, _, same⟩ | ⟨tall, answer, same⟩ | ⟨low, empty, same⟩ | ⟨_, _, same⟩
    · rw [same] at found
      exact ih e found
    · rw [same, find?_cons_tall rest tall] at found
      obtain rfl := Option.some.inj found
      exact answer
    · rw [same, find?_cons_low rest low, ← leg_ahead_of_empty empty] at found
      exact ih e found
    · rw [same] at found
      exact ih e found

theorem leg_equal (order : KeyOrder) (sought : Key) (level : Nat) (entries : List (Entry α)) :
    (leg order sought level entries).equal =
      ((leg order sought level entries).ahead.find? (level < ·.height)).filter
        (order.compare ·.key sought = .eq) := by
  induction entries with
  | nil => rfl
  | cons first rest ih =>
    rcases leg_cons order sought level first rest with
      ⟨_, _, same⟩ | ⟨tall, answer, same⟩ | ⟨low, empty, same⟩ | ⟨_, _, same⟩
    · rw [same]
      exact ih
    · rw [same, find?_cons_tall rest tall, Option.filter_some]
      simp only [decide_eq_true_eq]
    · rw [same, find?_cons_low rest low, ih, leg_ahead_of_empty empty]
    · rw [same]
      exact ih

/-- A walk compares the entries of its level that it passes and then the one that it stops in front of. -/
theorem leg_compared_eq (order : KeyOrder) (sought : Key) (level : Nat) (entries : List (Entry α)) :
    (leg order sought level entries).compared =
      ((leg order sought level entries).passed.filter (level < ·.height)).map
          (·.comparison order sought level) ++
        (((leg order sought level entries).ahead.find? (level < ·.height)).map
          (·.comparison order sought level)).toList := by
  induction entries with
  | nil => rfl
  | cons first rest ih =>
    rcases leg_cons order sought level first rest with
      ⟨tall, _, same⟩ | ⟨tall, _, same⟩ | ⟨low, empty, same⟩ | ⟨low, _, same⟩
    · rw [same]
      simp only [List.filter_cons, tall, decide_true, if_true, List.map_cons, List.cons_append, ih]
    · rw [same, find?_cons_tall rest tall]
      rfl
    · rw [same, find?_cons_low rest low, ih, empty, leg_ahead_of_empty empty]
    · rw [same]
      simp only [List.filter_cons, low, decide_false, Bool.false_eq_true, if_false, ih]

theorem leg_compared {level : Nat} {entries : List (Entry α)} :
    ∀ e ∈ (leg order sought level entries).passed, level < e.height →
      e.comparison order sought level ∈ (leg order sought level entries).compared := by
  intro e member tall
  rw [leg_compared_eq]
  exact List.mem_append_left _
    (List.mem_map_of_mem (List.mem_filter.mpr ⟨member, decide_eq_true tall⟩))

theorem leg_compared_mem {level : Nat} {entries : List (Entry α)} :
    ∀ c ∈ (leg order sought level entries).compared, ∃ e ∈ entries, c = e.comparison order sought level := by
  intro c compared
  rw [← leg_append order sought level entries]
  rw [leg_compared_eq] at compared
  rcases List.mem_append.mp compared with passed | stopped
  · obtain ⟨e, member, rfl⟩ := List.mem_map.mp passed
    exact ⟨e, List.mem_append_left _ (List.mem_filter.mp member).1, rfl⟩
  · obtain ⟨e, found, rfl⟩ := Option.map_eq_some_iff.mp (Option.mem_toList.mp stopped)
    exact ⟨e, List.mem_append_right _ (List.mem_of_find?_eq_some found), rfl⟩

theorem leg_passed_nil {level : Nat} {entries : List (Entry α)}
    (stop : ∀ e ∈ entries.find? (level < ·.height), order.compare e.key sought ≠ .lt) :
    (leg order sought level entries).passed = [] := by
  induction entries with
  | nil => rfl
  | cons e rest ih =>
    rcases leg_cons order sought level e rest with
      ⟨tall, answer, _⟩ | ⟨_, _, same⟩ | ⟨_, empty, same⟩ | ⟨low, nonempty, _⟩
    · exact absurd answer (stop e (find?_cons_tall rest tall))
    · rw [same]
    · rw [same, empty]
    · rw [find?_cons_low rest low] at stop
      exact absurd (ih stop) nonempty

theorem leg_passed_eq {level : Nat} {passed ahead : List (Entry α)}
    (lt : ∀ e ∈ passed, level < e.height → order.compare e.key sought = .lt)
    (last : ∀ e ∈ passed.getLast?, level < e.height)
    (stop : ∀ e ∈ ahead.find? (level < ·.height), order.compare e.key sought ≠ .lt) :
    (leg order sought level (passed ++ ahead)).passed = passed := by
  induction passed with
  | nil => exact leg_passed_nil stop
  | cons e rest ih =>
    have on : (leg order sought level (rest ++ ahead)).passed = rest := by
      refine ih (fun x member => lt x (List.mem_cons_of_mem _ member)) fun x found => last x ?_
      rw [List.getLast?_cons, Option.mem_def.mp found]
      rfl
    rw [List.cons_append]
    rcases leg_cons order sought level e (rest ++ ahead) with
      ⟨_, _, same⟩ | ⟨tall, answer, _⟩ | ⟨low, empty, _⟩ | ⟨_, _, same⟩
    · rw [same, on]
    · exact absurd (lt e List.mem_cons_self tall) answer
    · obtain rfl := on.symm.trans empty
      exact absurd (last e rfl) low
    · rw [same, on]

theorem leg_insert {level : Nat} {new : Entry α} (answer : order.compare new.key sought ≠ .lt)
    {entries low ahead : List (Entry α)} (split : (leg order sought level entries).ahead = low ++ ahead)
    (are_low : ∀ e ∈ low, ¬ level < e.height) :
    (leg order sought level ((leg order sought level entries).passed ++ (low ++ new :: ahead))).passed =
        (leg order sought level entries).passed ∧
      (leg order sought level ((leg order sought level entries).passed ++ (low ++ new :: ahead))).ahead =
        low ++ new :: ahead := by
  have hidden (rest : List (Entry α)) :
      (low ++ rest).find? (level < ·.height) = rest.find? (level < ·.height) := by
    rw [List.find?_append, List.find?_eq_none.mpr (by simpa using are_low), Option.none_or]
  have stop : ∀ e ∈ (low ++ new :: ahead).find? (level < ·.height), order.compare e.key sought ≠ .lt := by
    intro e found
    rw [hidden] at found
    by_cases tall : level < new.height
    · rw [find?_cons_tall ahead tall] at found
      obtain rfl := Option.some.inj found
      exact answer
    · rw [find?_cons_low ahead tall, ← hidden, ← split] at found
      exact leg_stop e found
  have passed : (leg order sought level ((leg order sought level entries).passed ++
      (low ++ new :: ahead))).passed = (leg order sought level entries).passed :=
    leg_passed_eq leg_lt leg_last stop
  refine ⟨passed, ?_⟩
  have whole := leg_append order sought level
    ((leg order sought level entries).passed ++ (low ++ new :: ahead))
  rw [passed] at whole
  exact List.append_cancel_left whole

/-! ### All levels -/

theorem way_append (order : KeyOrder) (sought : Key) (levels : Nat) (entries : List (Entry α)) :
    (way order sought levels entries).passed ++ (way order sought levels entries).ahead = entries := by
  induction levels generalizing entries with
  | zero => rfl
  | succ level ih =>
    rw [way]
    simp only [List.append_assoc, ih, leg_append]

theorem way_compared_mem {levels : Nat} {entries : List (Entry α)} :
    ∀ c ∈ (way order sought levels entries).compared,
      c.level < levels ∧ ∃ e ∈ entries, c = e.comparison order sought c.level := by
  induction levels generalizing entries with
  | zero => intro c compared; nomatch compared
  | succ level ih =>
    intro c compared
    rw [way] at compared
    rcases List.mem_append.mp compared with here | below
    · obtain ⟨e, member, rfl⟩ := leg_compared_mem c here
      exact ⟨Nat.lt_succ_self level, e, member, rfl⟩
    · obtain ⟨low, e, member, same⟩ := ih c below
      refine ⟨Nat.lt_succ_of_lt low, e, ?_, same⟩
      rw [← leg_append order sought level entries]
      exact List.mem_append_right _ member

theorem glance_prefix (order : KeyOrder) (sought : Key) (levels : Nat) (entries : List (Entry α)) :
    glance order sought levels entries <+: (way order sought levels entries).compared := by
  induction levels generalizing entries with
  | zero => exact List.prefix_refl _
  | succ level ih =>
    rw [glance, way]
    apply (List.prefix_append_right_inj _).mpr
    split
    · exact List.nil_prefix
    · exact ih _

theorem way_lt {levels : Nat} {entries : List (Entry α)} :
    ∀ e ∈ (way order sought levels entries).passed, levels ≤ e.height →
      order.compare e.key sought = .lt := by
  induction levels generalizing entries with
  | zero => intro e member; nomatch member
  | succ level ih =>
    intro e member tall
    rw [way] at member
    rcases List.mem_append.mp member with here | below
    · exact leg_lt e here tall
    · exact ih e below (Nat.le_of_succ_le tall)

/-- Behind an entry that stops a walk, no lower level passes an entry of that walk's level. -/
theorem way_low {level : Nat} {entries : List (Entry α)}
    (stop : ∀ e ∈ entries.find? (level < ·.height), order.compare e.key sought ≠ .lt) :
    ∀ e ∈ (way order sought level entries).passed, ¬ level < e.height := by
  intro e member tall
  cases found : (way order sought level entries).passed.find? (level < ·.height) with
  | none =>
    have low := List.find?_eq_none.mp found e member
    simp [tall] at low
  | some first =>
    have passed := List.mem_of_find?_eq_some found
    have high : level < first.height := by simpa using List.find?_some found
    have met : entries.find? (level < ·.height) = some first := by
      rw [← way_append order sought level entries, List.find?_append, found, Option.some_or]
    exact stop first met (way_lt first passed (Nat.le_of_lt high))

theorem way_last {levels : Nat} {entries : List (Entry α)} :
    ∀ e ∈ (way order sought levels entries).passed.getLast?, order.compare e.key sought = .lt := by
  induction levels generalizing entries with
  | zero => intro e last; nomatch last
  | succ level ih =>
    intro e last
    rw [way, List.getLast?_append] at last
    cases found : (way order sought level (leg order sought level entries).ahead).passed.getLast? with
    | none =>
      rw [found, Option.none_or] at last
      exact leg_lt e (List.mem_of_getLast? last) (leg_last e last)
    | some x =>
      rw [found, Option.some_or] at last
      obtain rfl := Option.some.inj last
      exact ih _ found

theorem way_last_compared {levels : Nat} {entries : List (Entry α)} :
    ∀ e ∈ (way order sought levels entries).passed.getLast?,
      ∃ level, e.comparison order sought level ∈ (way order sought levels entries).compared := by
  induction levels generalizing entries with
  | zero => intro e last; nomatch last
  | succ level ih =>
    intro e last
    rw [way, List.getLast?_append] at last
    rw [way]
    cases found : (way order sought level (leg order sought level entries).ahead).passed.getLast? with
    | none =>
      rw [found, Option.none_or] at last
      exact ⟨level, List.mem_append_left _ (leg_compared e (List.mem_of_getLast? last) (leg_last e last))⟩
    | some x =>
      rw [found, Option.some_or] at last
      obtain rfl := Option.some.inj last
      obtain ⟨lower, compared⟩ := ih _ found
      exact ⟨lower, List.mem_append_right _ compared⟩

/-- An entry that is put in where a descent ends, and that does not come before the key, leaves the descent
as it was: on every level the walk goes as far as before, whatever the heights. -/
theorem way_insert {new : Entry α} (answer : order.compare new.key sought ≠ .lt) (levels : Nat)
    (entries : List (Entry α)) :
    (way order sought levels ((way order sought levels entries).passed ++
      new :: (way order sought levels entries).ahead)).passed = (way order sought levels entries).passed := by
  induction levels generalizing entries with
  | zero => rfl
  | succ level ih =>
    -- what the lower levels pass is too low for this one, so the walk stops where it did
    obtain ⟨passed, ahead⟩ := leg_insert answer
      (way_append order sought level (leg order sought level entries).ahead).symm (way_low leg_stop)
    simp only [way, List.append_assoc, passed, ahead, ih]

theorem find?_zero {entries : List (Entry α)} (tall : ∀ e ∈ entries, 1 ≤ e.height) :
    entries.find? (0 < ·.height) = entries.head? := by
  cases entries with
  | nil => rfl
  | cons e rest => exact find?_cons_tall rest (tall e List.mem_cons_self)

theorem way_stop {levels : Nat} (some_level : 0 < levels) {entries : List (Entry α)}
    (tall : ∀ e ∈ entries, 1 ≤ e.height) :
    ∀ e ∈ (way order sought levels entries).ahead.head?, order.compare e.key sought ≠ .lt := by
  induction levels generalizing entries with
  | zero => nomatch some_level
  | succ level ih =>
    have ahead : ∀ e ∈ (leg order sought level entries).ahead, 1 ≤ e.height := by
      intro e member
      apply tall
      rw [← leg_append order sought level entries]
      exact List.mem_append_right _ member
    cases level with
    | zero =>
      intro e first
      rw [way, way, ← find?_zero ahead] at first
      exact leg_stop e first
    | succ level => exact ih (Nat.succ_pos _) ahead

theorem leg_equal_some {level : Nat} {entries : List (Entry α)} :
    ∀ e ∈ (leg order sought level entries).equal, e ∈ entries ∧ order.compare e.key sought = .eq := by
  intro e found
  rw [leg_equal] at found
  obtain ⟨met, equal⟩ := Option.filter_eq_some_iff.mp found
  refine ⟨?_, by simpa using equal⟩
  rw [← leg_append order sought level entries]
  exact List.mem_append_right _ (List.mem_of_find?_eq_some met)

theorem way_equal {levels : Nat} {entries : List (Entry α)} :
    ∀ e ∈ (way order sought levels entries).equal, e ∈ entries ∧ order.compare e.key sought = .eq := by
  induction levels generalizing entries with
  | zero => intro e found; nomatch found
  | succ level ih =>
    intro e found
    rw [way] at found
    rcases Option.or_eq_some_iff.mp found with here | ⟨_, below⟩
    · exact leg_equal_some e here
    · obtain ⟨member, equal⟩ := ih e below
      refine ⟨?_, equal⟩
      rw [← leg_append order sought level entries]
      exact List.mem_append_right _ member

theorem way_equal_none {levels : Nat} (some_level : 0 < levels) {entries : List (Entry α)}
    (tall : ∀ e ∈ entries, 1 ≤ e.height) (missed : (way order sought levels entries).equal = none) :
    hit order sought (way order sought levels entries).ahead = none := by
  induction levels generalizing entries with
  | zero => nomatch some_level
  | succ level ih =>
    have ahead : ∀ e ∈ (leg order sought level entries).ahead, 1 ≤ e.height := by
      intro e member
      apply tall
      rw [← leg_append order sought level entries]
      exact List.mem_append_right _ member
    rw [way] at missed
    obtain ⟨here, below⟩ := Option.or_eq_none_iff.mp missed
    cases level with
    | zero =>
      rw [leg_equal, find?_zero ahead] at here
      exact here
    | succ level => exact ih (Nat.succ_pos _) ahead below

theorem hit_eq_some_iff {ahead : List (Entry α)} {e : Entry α} :
    hit order sought ahead = some e ↔
      (∃ after, ahead = e :: after) ∧ order.compare e.key sought = .eq := by
  cases ahead with
  | nil => simp [hit]
  | cons x rest =>
    simp only [hit, List.head?_cons, Option.filter_eq_some_iff, Option.some.injEq, decide_eq_true_eq,
      List.cons.injEq]
    constructor
    · rintro ⟨rfl, equal⟩
      exact ⟨⟨rest, rfl, rfl⟩, equal⟩
    · rintro ⟨⟨after, rfl, rfl⟩, equal⟩
      exact ⟨rfl, equal⟩

end Entry

end SkipList
