import SkipList.Proofs.Ranges

/-!
# Opposite orders

A map in descending order is the mirror image of one in ascending order that served the same calls: each
holds the entries of the other in reverse. The levels and the slots of the two have nothing in common.
`Listing.serve_reverse` is the step on listings, `Listing.serveAll_reverse` the run.
-/

namespace SkipList

open Entry Listing

variable {σ τ α : Type}

/-! ### Orders and their opposites -/

namespace KeyOrder

/-- The order `back` compares every two keys the other way round. -/
def Flips (back order : KeyOrder) : Prop :=
  ∀ a b, back.compare a b = order.compare b a

theorem descend_flips : descend.Flips ascend := fun _ _ => rfl

theorem IsTotalPreorder.flip {back order : KeyOrder} {size : Nat} (lawful : order.IsTotalPreorder size)
    (flips : back.Flips order) : back.IsTotalPreorder size where
  refl a ha := (flips a a).trans (lawful.refl a ha)
  swap a b ha hb := by
    rw [flips, flips]
    exact lawful.swap b a hb ha
  trans a b c ha hb hc first second := by
    rw [flips] at first second ⊢
    exact lawful.trans c b a hc hb ha second first

theorem lexicographic_eq_iff (a b : Key) : lexicographic a b = .eq ↔ a = b :=
  haveI : Std.LawfulEqCmp lexicographic :=
    inferInstanceAs (Std.LawfulEqCmp (List.compareLex (Ord.compare (α := UInt8))))
  Std.LawfulEqCmp.compare_eq_iff_eq

theorem lexicographic_lt_iff (a b : Key) : lexicographic a b = .lt ↔ a < b := by
  induction a generalizing b with
  | nil =>
    cases b with
    | nil => simp [lexicographic, List.compareLex]
    | cons y b => simp [lexicographic, List.compareLex]
  | cons x a ih =>
    cases b with
    | nil => simp [lexicographic, List.compareLex]
    | cons y b =>
      have further : List.compareLex Ord.compare a b = .lt ↔ a < b := ih b
      rw [lexicographic, List.compareLex_cons_cons, Ordering.then_eq_lt, Std.compare_eq_lt,
        Std.LawfulEqOrd.compare_eq_iff_eq, further, List.cons_lt_cons_iff]

end KeyOrder

/-! ### Listings -/

/-- A call that treats both ends of a map alike. -/
def Request.Impartial : Request α → Prop
  | .change _ => True
  | .read (.get _) | .read (.contains _) | .read (.getEntry _) | .read .len | .read .isEmpty => True
  | .read _ => False

def Request.under (memory : Memory) : Request α → Request α
  | .change (.insert key value _) => .change (.insert key value memory)
  | request => request

namespace Listing

variable {order back : KeyOrder} {size : Nat} {key : Key} {entries before after : Listing α}

theorem Sorted.reverse (sorted : Sorted order entries) (flips : back.Flips order) :
    Sorted back entries.reverse := by
  unfold Sorted
  rw [List.map_reverse, List.pairwise_reverse]
  exact sorted.imp fun less => (flips _ _).trans less

section Mirrored

variable (lawful : order.IsTotalPreorder size) (flips : back.Flips order)
  (fits : ∀ p ∈ entries, p.1.length = size) (sorted : Sorted order entries)

include lawful flips in
theorem Around.reverse (around : Around order key before after) (fit : key.length = size)
    (fits : ∀ p ∈ before ++ after, p.1.length = size) : Around back key after.reverse before.reverse := by
  refine { below := fun p member => ?_, above := fun p member => ?_ }
  · have listed := List.mem_reverse.mp member
    rw [flips, ← lawful.gt_iff (fits p (List.mem_append_right _ listed)) fit]
    exact around.above p listed
  · have listed := List.mem_reverse.mp member
    rw [flips, lawful.gt_iff fit (fits p (List.mem_append_left _ listed))]
    exact around.below p listed

include lawful flips fits sorted in
theorem place_reverse (fit : key.length = size) :
    (∃ before p after, entries = before ++ p :: after ∧ entries.reverse = after.reverse ++ p :: before.reverse ∧
      (order.compare p.1 key = .eq ∧ Around order key before after) ∧
      back.compare p.1 key = .eq ∧ Around back key after.reverse before.reverse) ∨
    ∃ before after, entries = before ++ after ∧ entries.reverse = after.reverse ++ before.reverse ∧
      Around order key before after ∧ Around back key after.reverse before.reverse := by
  rcases place_cases lawful fit fits sorted with
    ⟨before, p, after, rfl, equal, around⟩ | ⟨before, after, rfl, around⟩
  · have fit_p := fits p List.mem_append_cons_self
    have fits' : ∀ q ∈ before ++ after, q.1.length = size := fun q member =>
      fits q ((List.sublist_cons_self p after).append_left before |>.subset member)
    refine .inl ⟨before, p, after, rfl, by simp, ⟨equal, around⟩, ?_, around.reverse lawful flips fit fits'⟩
    rw [flips]
    exact lawful.eq_comm fit_p fit equal
  · exact .inr ⟨before, after, rfl, List.reverse_append, around, around.reverse lawful flips fit fits⟩

include lawful flips fits sorted

theorem lookup_reverse (fit : key.length = size) :
    lookup back key entries.reverse = lookup order key entries := by
  rcases place_reverse lawful flips fits sorted fit with
    ⟨before, p, after, rfl, mirrored, ⟨equal, around⟩, equal', around'⟩ |
      ⟨before, after, rfl, mirrored, around, around'⟩
  · rw [mirrored, around.lookup_found equal, around'.lookup_found equal']
  · rw [mirrored, around.lookup_missing, around'.lookup_missing]

theorem find_reverse (key : Key) : find back size key entries.reverse = find order size key entries := by
  unfold find
  split
  · exact lookup_reverse lawful flips fits sorted ‹_›
  · rfl

theorem replace_reverse (fit : key.length = size) (change : α → α) :
    replace back key change entries.reverse = (replace order key change entries).reverse := by
  rcases place_reverse lawful flips fits sorted fit with
    ⟨before, p, after, rfl, mirrored, ⟨equal, around⟩, equal', around'⟩ |
      ⟨before, after, rfl, mirrored, around, around'⟩
  · rw [mirrored, around.replace_found equal, around'.replace_found equal']
    simp
  · rw [mirrored, around.replace_missing, around'.replace_missing, mirrored]

theorem insert_reverse (fit : key.length = size) (value : α) :
    insert back key value entries.reverse =
      ((insert order key value entries).1.reverse, (insert order key value entries).2) := by
  rcases place_reverse lawful flips fits sorted fit with
    ⟨before, p, after, rfl, mirrored, ⟨equal, around⟩, equal', around'⟩ |
      ⟨before, after, rfl, mirrored, around, around'⟩
  · rw [mirrored, around.insert_found equal, around'.insert_found equal']
    simp
  · rw [mirrored, around.insert_missing, around'.insert_missing]
    simp

theorem take_reverse (key : Key) : take back size key entries.reverse =
    ((take order size key entries).1.reverse, (take order size key entries).2) := by
  unfold take
  split
  · rename_i fit
    rcases place_reverse lawful flips fits sorted fit with
      ⟨before, p, after, rfl, mirrored, ⟨equal, around⟩, equal', around'⟩ |
        ⟨before, after, rfl, mirrored, around, around'⟩
    · rw [mirrored, around.remove_found equal, around'.remove_found equal', List.reverse_append]
    · rw [mirrored, around.remove_missing, around'.remove_missing, mirrored]
  · rfl

theorem change_reverse (change : Change α) : Listing.change back size entries.reverse change =
    ((Listing.change order size entries change).1.reverse, (Listing.change order size entries change).2) := by
  have taken := take_reverse lawful flips fits sorted
  cases change with
  | insert key value _ =>
    by_cases fit : key.length = size
    · simp only [Listing.change, fit, if_true, insert_reverse lawful flips fits sorted fit]
    · simp only [Listing.change, fit, if_false]
  | remove key => simp only [Listing.change, taken]
  | erase key => simp only [Listing.change, taken]
  | modify key change =>
    by_cases fit : key.length = size
    · simp only [Listing.change, fit, if_true, replace_reverse lawful flips fits sorted fit,
        lookup_reverse lawful flips fits sorted fit]
    · simp only [Listing.change, fit, if_false]
  | clear => rfl

theorem serve_reverse {request : Request α} (impartial : request.Impartial) (memory : Memory) :
    Listing.serve back size entries.reverse (request.under memory) =
      ((Listing.serve order size entries request).1.reverse, (Listing.serve order size entries request).2) := by
  have found := find_reverse lawful flips fits sorted
  cases request with
  | change change =>
    have changed := change_reverse lawful flips fits sorted change
    cases change <;> exact changed
  | read reading =>
    cases reading with
    | get key | contains key | getEntry key =>
      simp only [Request.under, Listing.serve, Listing.read, found]
    | len => simp only [Request.under, Listing.serve, Listing.read, List.length_reverse]
    | isEmpty => simp only [Request.under, Listing.serve, Listing.read, List.isEmpty_reverse]
    | _ => exact impartial.elim

end Mirrored

theorem change_fits (fits : ∀ p ∈ entries, p.1.length = size) (change : Change α) :
    ∀ p ∈ (Listing.change order size entries change).1, p.1.length = size := by
  have replaced (key : Key) (change : α → α) : ∀ p ∈ replace order key change entries, p.1.length = size := by
    intro p member
    have stored : p.1 ∈ (replace order key change entries).map Prod.fst := List.mem_map_of_mem member
    rw [replace_keys] at stored
    obtain ⟨q, listed, same⟩ := List.mem_map.mp stored
    exact same ▸ fits q listed
  have taken (key : Key) : ∀ p ∈ (take order size key entries).1, p.1.length = size := by
    intro p member
    unfold take remove at member
    split at member
    · split at member
      · exact fits p (List.mem_of_mem_eraseP member)
      · exact fits p member
    · exact fits p member
  cases change with
  | insert key value memory =>
    by_cases fit : key.length = size
    · simp only [Listing.change, fit, if_true]
      unfold insert
      split
      · exact replaced key fun _ => value
      · intro p member
        rcases List.mem_append.mp member with left | right
        · exact fits p ((List.takeWhile_sublist _).subset left)
        · rcases List.mem_cons.mp right with rfl | right
          · exact fit
          · exact fits p ((List.dropWhile_sublist _).subset right)
    · simp only [Listing.change, fit, if_false]
      exact fits
  | remove key => exact taken key
  | erase key => exact taken key
  | modify key change =>
    by_cases fit : key.length = size
    · simp only [Listing.change, fit, if_true]
      exact replaced key change
    · simp only [Listing.change, fit, if_false]
      exact fits
  | clear => exact fun p member => absurd member List.not_mem_nil

theorem serveAll_reverse (lawful : order.IsTotalPreorder size) (flips : back.Flips order)
    {calls : List (Request α × Memory)} (impartial : ∀ call ∈ calls, call.1.Impartial)
    {entries : Listing α} (fits : ∀ p ∈ entries, p.1.length = size) (sorted : Sorted order entries) :
    Listing.serveAll back size entries.reverse (calls.map fun (request, memory) => request.under memory) =
      ((Listing.serveAll order size entries (calls.map Prod.fst)).1.reverse,
        (Listing.serveAll order size entries (calls.map Prod.fst)).2) := by
  induction calls generalizing entries with
  | nil => rfl
  | cons call calls ih =>
    obtain ⟨request, memory⟩ := call
    have first := serve_reverse lawful flips fits sorted (impartial _ List.mem_cons_self) memory
    have later : ∀ call ∈ calls, call.1.Impartial := fun call listed =>
      impartial call (List.mem_cons_of_mem _ listed)
    simp only [List.map_cons, Listing.serveAll, first]
    cases request with
    | change change =>
      have rest := ih later (change_fits fits change) (change_sorted lawful fits sorted change)
      simp only [Listing.serve, rest]
    | read reading => simp only [Listing.serve, ih later fits sorted]

end Listing

/-! ### Maps -/

namespace Map

/-- The map `up` shows these entries, and `down` is its mirror image. -/
structure Mirrored (up : Map σ α) (down : Map τ α) (entries : List (Key × α)) : Prop where
  len : down.len = up.len
  listed : up.toList = .ok entries
  reversed : down.toList = .ok entries.reverse
  least : up.first? = .ok entries.head? ∧ down.last? = .ok entries.head?
  greatest : up.last? = .ok entries.getLast? ∧ down.first? = .ok entries.getLast?
  /-- Traversing from a key goes down through the entries whose bytes do not exceed it. -/
  ranged : ∀ key : Key, key.length = up.keySize → ∃ start shown finish,
    down.traverseFrom key = .ok start ∧ start.result.rest = .ok (shown, finish) ∧
      shown.reverse = entries.filter (·.1 ≤ key)
  apart : ∀ a b, (up.order.compare a b = .eq ↔ a = b) ∧ (down.order.compare a b = .eq ↔ a = b)

variable {map up : Map σ α} {down : Map τ α} {layout layout' : Layout α}

theorem Holds.rest_from (h : map.Holds layout) (key : Key) : ∃ start finish,
    map.traverseFrom key = .ok start ∧
      start.result.rest = .ok ((map.atLeast layout key).map pair, finish) := by
  refine ⟨_, { arena := map.arena, next := none, remaining := map.len - (map.atLeast layout key).length },
    h.traverseFrom_eq key, ?_⟩
  simp only [Traversal.rest, h.located_from (atLeast_suffix map layout key), ok_bind, pure_eq_ok,
    List.map_map, Function.comp_def]

theorem Ordered.mirrored (h : up.Ordered layout) (h' : down.Ordered layout')
    (ascends : up.order = .ascend) (descends : down.order = .descend) (size : down.keySize = up.keySize)
    (same : listing layout' = (listing layout).reverse) : up.Mirrored down (listing layout) := by
  have shown' : down.toList = .ok (listing layout').reverse.reverse := by
    rw [List.reverse_reverse]
    exact h'.toHolds.toList_eq
  have first' : down.first? = .ok (listing layout').head? := by
    rw [h'.toHolds.first?_eq, listing, List.head?_map]
  have last' : down.last? = .ok (listing layout').getLast? := by
    rw [h'.toHolds.last?_eq, listing, List.getLast?_map]
  refine
    { len := ?_, listed := h.toHolds.toList_eq, reversed := ?_, least := ⟨?_, ?_⟩, greatest := ⟨?_, ?_⟩,
      ranged := fun key fit => ?_, apart := fun a b => ⟨?_, ?_⟩ }
  · have lengths := congrArg List.length same
    simpa only [listing, List.length_map, List.length_reverse, ← h.len, ← h'.len] using lengths
  · rw [shown', same, List.reverse_reverse]
  · rw [h.toHolds.first?_eq, listing, List.head?_map]
  · rw [last', same, List.getLast?_reverse]
  · rw [h.toHolds.last?_eq, listing, List.getLast?_map]
  · rw [first', same, List.head?_reverse]
  · obtain ⟨start, finish, began, shown⟩ := h'.toHolds.rest_from key
    refine ⟨start, _, finish, began, shown, ?_⟩
    have ranged : (down.atLeast layout' key).map pair =
        (listing layout').filter (down.order.compare ·.1 key ≠ .lt) := by
      rw [h'.atLeast_eq_filter (fit.trans size.symm), listing, List.filter_map]
      rfl
    rw [ranged, same, List.filter_reverse, List.reverse_reverse]
    refine List.filter_congr fun p _ => decide_eq_decide.mpr ?_
    rw [descends, KeyOrder.descend_flips, ← List.not_lt]
    exact not_congr (KeyOrder.lexicographic_lt_iff key p.1)
  · rw [ascends]
    exact KeyOrder.lexicographic_eq_iff a b
  · rw [descends, KeyOrder.descend_flips]
    exact (KeyOrder.lexicographic_eq_iff b a).trans eq_comm

variable [DrawSource σ] [DrawSource τ]

/-- Two maps with keys of one length, ascending and descending, that serve the same changes and lookups:
whatever their heights, draws and memory, if neither is short of memory or of slots they give the same answers,
and after every such run the one is the mirror image of the other. -/
theorem descend_mirrors_ascend {memory memory' : Memory} {config config' : Config}
    (size : config'.keySize = config.keySize) {source : σ} {source' : τ} {id id' : Nat}
    {up : Map σ α} {down : Map τ α}
    (built : Map.build memory { config, order := .ascend } source id = .ok up)
    (built' : Map.build memory' { config := config', order := .descend } source' id' = .ok down)
    (calls : List (Request α × Memory)) (impartial : ∀ call ∈ calls, call.1.Impartial) :
    ∃ next next' answers answers', up.serveAll (calls.map Prod.fst) = .ok (next, answers) ∧
      down.serveAll (calls.map fun (request, memory) => request.under memory) = .ok (next', answers') ∧
      (NoShortage answers → NoShortage answers' → answers' = answers ∧ ∃ entries, next.Mirrored next' entries) := by
  obtain ⟨_, _, size_up, order_up⟩ := build_holds built
  obtain ⟨_, _, size_down, order_down⟩ := build_holds built'
  have ascends : up.order = .ascend := order_up
  have descends : down.order = .descend := order_down
  have same_size : down.keySize = up.keySize := size_down.trans (size.trans size_up.symm)
  have ascending := KeyOrder.isTotalPreorder_ascend up.keySize
  have descending := ascending.flip KeyOrder.descend_flips
  have h : up.Ordered _ := build_ordered built (ascends ▸ ascending)
  have h' : down.Ordered _ := build_ordered built' (descends ▸ same_size ▸ descending)
  obtain ⟨next, rest, answers, run, ordered, order, keySize, same⟩ := h.serveAll_ok (calls.map Prod.fst)
  obtain ⟨next', rest', answers', run', ordered', order', keySize', same'⟩ :=
    h'.serveAll_ok (calls.map fun (request, memory) => request.under memory)
  refine ⟨next, next', answers, answers', run, run', fun granted granted' => ?_⟩
  have listed : Listing.serveAll .ascend up.keySize [] (calls.map Prod.fst) = (listing rest, answers) := by
    rw [← ascends]
    exact same granted
  have listed' : Listing.serveAll .descend up.keySize [] (calls.map fun (request, memory) =>
      request.under memory) = (listing rest', answers') := by
    rw [← descends, ← same_size]
    exact same' granted'
  have none_fits : ∀ p ∈ ([] : List (Key × α)), p.1.length = up.keySize := fun p member => nomatch member
  have reversed := serveAll_reverse ascending KeyOrder.descend_flips impartial none_fits List.Pairwise.nil
  rw [List.reverse_nil, listed, listed'] at reversed
  obtain ⟨entries, agree⟩ := Prod.mk.inj reversed
  exact ⟨agree, _, ordered.mirrored ordered' (order.trans ascends) (order'.trans descends)
    (keySize'.trans (same_size.trans keySize.symm)) entries⟩

/-- A map of two levels and one of three, whose draws differ too. The key `[2]` is written again after its
removal, and a key of two bytes is neither stored nor found. -/
theorem descend_mirrors_ascend_bytes :
    let calls : List (Request Nat × Memory) :=
      [(.change (.insert [1] 10 {}), {}), (.change (.insert [3] 30 {}), {}), (.change (.insert [2] 20 {}), {}),
        (.change (.insert [3] 31 {}), {}), (.change (.remove [2]), {}), (.change (.modify [1] (· + 1)), {}),
        (.change (.insert [2, 0] 5 {}), {}), (.read (.contains [2, 0]), {}), (.read (.getEntry [3]), {}),
        (.change (.insert [2] 21 {}), {})]
    ∃ up down : Map Script Nat,
      Map.build {} { config := { keySize := 1, maxHeight := { levels := 2 } }, order := .ascend }
        { values := [0] } 0 = .ok up ∧
      Map.build {} { config := { keySize := 1, maxHeight := { levels := 3 } }, order := .descend }
        { values := [0xFFFFFFFF, 0] } 1 = .ok down ∧
      (∀ call ∈ calls, call.1.Impartial) ∧ ∃ next next' answers,
        up.serveAll (calls.map Prod.fst) = .ok (next, answers) ∧
        down.serveAll (calls.map fun (request, memory) => request.under memory) = .ok (next', answers) ∧
        next.Mirrored next' [([1], 11), ([2], 21), ([3], 31)] := by
  intro calls
  have impartial : ∀ call ∈ calls, call.1.Impartial := by
    intro call listed
    simp only [calls, List.mem_cons, List.not_mem_nil, or_false] at listed
    rcases listed with rfl | rfl | rfl | rfl | rfl | rfl | rfl | rfl | rfl | rfl <;> trivial
  have enough : ({} : Memory).Suffices 1 11 := ⟨rfl, by decide, by decide⟩
  have supplied : ∀ call ∈ calls, call.1.Supplied 1 11 ∧ (call.1.under call.2).Supplied 1 11 := by
    intro call listed
    simp only [calls, List.mem_cons, List.not_mem_nil, or_false] at listed
    rcases listed with rfl | rfl | rfl | rfl | rfl | rfl | rfl | rfl | rfl | rfl <;>
      first | exact ⟨enough, enough⟩ | exact ⟨trivial, trivial⟩
  have size : ({ keySize := 1, maxHeight := { levels := 3 } } : Config).keySize =
      ({ keySize := 1, maxHeight := { levels := 2 } } : Config).keySize := rfl
  refine ⟨_, _, rfl, rfl, impartial, ?_⟩
  have built : (Map.build {} { config := { keySize := 1, maxHeight := { levels := 2 } }, order := .ascend }
      { values := [0] } 0 : Except Error (Map Script Nat)) = .ok _ := rfl
  have built' : (Map.build {} { config := { keySize := 1, maxHeight := { levels := 3 } }, order := .descend }
      { values := [0xFFFFFFFF, 0] } 1 : Except Error (Map Script Nat)) = .ok _ := rfl
  obtain ⟨next, next', answers, answers', run, run', same⟩ :=
    descend_mirrors_ascend size built built' calls impartial
  have granted : NoShortage answers := by
    refine (build_holds built).1.serveAll_granted (fun request listed => ?_) (Nat.le_refl 11) (by decide) run
    obtain ⟨call, member, rfl⟩ := List.mem_map.mp listed
    exact (supplied call member).1
  have granted' : NoShortage answers' := by
    refine (build_holds built').1.serveAll_granted (fun request listed => ?_) (Nat.le_refl 11) (by decide) run'
    obtain ⟨call, member, rfl⟩ := List.mem_map.mp listed
    exact (supplied call member).2
  obtain ⟨rfl, entries, mirrored⟩ := same granted granted'
  have listed : Except.ok entries = (.ok [([1], 11), ([2], 21), ([3], 31)] : Except Fault _) := by
    rw [← mirrored.listed, ← (Prod.mk.inj (Except.ok.inj run)).1]
    rfl
  obtain rfl := Except.ok.inj listed
  exact ⟨next, next', answers', run, run', mirrored⟩

end Map

end SkipList
