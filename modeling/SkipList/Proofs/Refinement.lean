import SkipList.Draws.Source
import SkipList.Proofs.Listing
import SkipList.Proofs.Queries
import SkipList.Proofs.Room

/-!
# Maps as listings

Under a total preorder a map answers every call as its listing does. The levels, the draws and the slots
never show. `Turn.change_eq` is the step, `Map.serveAll_eq` the run.
-/

namespace SkipList

open Entry

variable {σ α : Type}

/-- A call that is answered from the entries alone. -/
inductive Reading where
  | get (key : Key)
  | contains (key : Key)
  | getEntry (key : Key)
  | len
  | isEmpty
  | first
  | firstValue
  | last
  | keys
  | values
  | entries
deriving DecidableEq

def Reading.query : Reading → Query α
  | get key => .get key
  | contains key => .contains key
  | getEntry key => .getEntry key
  | len => .len
  | isEmpty => .isEmpty
  | first => .first
  | firstValue => .firstValue
  | last => .last
  | keys => .keys
  | values => .values
  | entries => .entries

inductive Request (α : Type) where
  | change (change : Change α)
  | read (reading : Reading)

def Request.Supplied (keySize slots : Nat) : Request α → Prop
  | .change made => made.Supplied keySize slots
  | .read _ => True

namespace Map

variable [DrawSource σ]

def serve (map : Map σ α) : Request α → Except Fault (Map σ α × Except Error (Answer α))
  | .change change => do
    let (map, reply) ← map.apply change
    return (map, reply.result)
  | .read reading => do
    let reply ← map.answer reading.query
    return (map, .ok reply.result)

def serveAll (map : Map σ α) :
    List (Request α) → Except Fault (Map σ α × List (Except Error (Answer α)))
  | [] => return (map, [])
  | request :: requests => do
    let (map, answer) ← map.serve request
    let (map, answers) ← map.serveAll requests
    return (map, answer :: answers)

end Map

namespace Listing

variable (order : KeyOrder) (size : Nat)

/-- Looks a key up; one of another length is not there. -/
def find (key : Key) (entries : Listing α) : Option (Key × α) :=
  if key.length = size then lookup order key entries else none

def take (key : Key) (entries : Listing α) : Listing α × Removal α :=
  if key.length = size then remove order key entries else (entries, .notFound)

/-- Makes a change; memory is of no concern. -/
def change (entries : Listing α) : Change α → Listing α × Except Error (Answer α)
  | .insert key value _ =>
    if key.length = size then
      let (next, outcome) := insert order key value entries
      (next, .ok (.inserted outcome))
    else (entries, .error (.keySize size key.length))
  | .remove key =>
    let (next, outcome) := take order size key entries
    (next, .ok (.removed outcome))
  | .erase key =>
    let (next, outcome) := take order size key entries
    (next, .ok (.flag outcome.isRemoved))
  | .modify key change =>
    if key.length = size then
      (replace order key change entries,
        .ok (.value ((lookup order key entries).map fun p => change p.2)))
    else (entries, .ok (.value none))
  | .clear => ([], .ok .done)

def read (entries : Listing α) : Reading → Answer α
  | .get key => .value ((find order size key entries).map Prod.snd)
  | .contains key => .flag (find order size key entries).isSome
  | .getEntry key => .entry (find order size key entries)
  | .len => .number entries.length
  | .isEmpty => .flag entries.isEmpty
  | .first => .entry entries.head?
  | .firstValue => .value (entries.head?.map Prod.snd)
  | .last => .entry entries.getLast?
  | .keys => .keys (entries.map Prod.fst)
  | .values => .values (entries.map Prod.snd)
  | .entries => .entries entries

def serve (entries : Listing α) : Request α → Listing α × Except Error (Answer α)
  | .change change => entries.change order size change
  | .read reading => (entries, .ok (entries.read order size reading))

def serveAll (entries : Listing α) : List (Request α) → Listing α × List (Except Error (Answer α))
  | [] => (entries, [])
  | request :: requests =>
    let (entries, answer) := entries.serve order size request
    let (entries, answers) := entries.serveAll requests
    (entries, answer :: answers)

theorem change_sorted {order : KeyOrder} {size : Nat} (lawful : order.IsTotalPreorder size)
    {entries : Listing α} (fits : ∀ p ∈ entries, p.1.length = size) (sorted : Sorted order entries)
    (change : Change α) : Sorted order (entries.change order size change).1 := by
  have taken (key : Key) : Sorted order (take order size key entries).1 := by
    unfold take
    split
    · exact remove_sorted sorted
    · exact sorted
  cases change with
  | insert key value _ =>
    by_cases fit : key.length = size
    · simp only [Listing.change, fit, if_true]
      exact insert_sorted lawful fit value fits sorted
    · simp only [Listing.change, fit, if_false]
      exact sorted
  | remove key => exact taken key
  | erase key => exact taken key
  | modify key change =>
    by_cases fit : key.length = size
    · simp only [Listing.change, fit, if_true, Sorted, replace_keys]
      exact sorted
    · simp only [Listing.change, fit, if_false]
      exact sorted
  | clear => exact List.Pairwise.nil

end Listing

namespace Map

open Listing (Sorted Around)

variable {map : Map σ α} {layout : Layout α} {key : Key} {before after : List (Entry α)}

def listing (layout : Layout α) : Listing α := layout.entries.map pair

/-! ### The place of a key -/

theorem Holds.fits (h : map.Holds layout) : ∀ p ∈ listing layout, p.1.length = map.keySize := by
  intro p member
  obtain ⟨e, listed, rfl⟩ := List.mem_map.mp member
  exact h.fit e listed

theorem Holds.around_entry (h : map.Holds layout) (lawful : map.order.IsTotalPreorder map.keySize)
    (sorted : Sorted map.order (listing layout)) (fit : key.length = map.keySize) {e : Entry α}
    (split : layout.entries = before ++ e :: after) (equal : map.order.compare e.key key = .eq) :
    Around map.order key (before.map pair) (after.map pair) := by
  have whole : listing layout = before.map pair ++ e.pair :: after.map pair := by
    rw [listing, split, List.map_append, List.map_cons]
  have fits := h.fits
  rw [whole] at sorted fits
  exact Listing.around_of_equal lawful fit fits sorted equal

theorem Holds.around_gap (h : map.Holds layout) (lawful : map.order.IsTotalPreorder map.keySize)
    (sorted : Sorted map.order (listing layout)) (fit : key.length = map.keySize)
    (cuts : map.Cuts layout key before after)
    (missing : ∀ e ∈ after.head?, map.order.compare e.key key ≠ .eq) :
    Around map.order key (before.map pair) (after.map pair) := by
  have whole : listing layout = before.map pair ++ after.map pair := by
    rw [listing, cuts.split, List.map_append]
  have fits := h.fits
  rw [whole] at sorted fits
  refine Listing.around_of_ends lawful fit fits sorted (fun p last => ?_) fun p first => ?_
  · rw [List.getLast?_map] at last
    obtain ⟨e, found, rfl⟩ := Option.map_eq_some_iff.mp last
    exact cuts.last_lt e found
  · rw [List.head?_map] at first
    obtain ⟨e, found, rfl⟩ := Option.map_eq_some_iff.mp first
    have not_less := cuts.first_ne_lt h e found
    have not_equal := missing e found
    change map.order.compare e.key key = .gt
    cases answer : map.order.compare e.key key with
    | lt => exact absurd answer not_less
    | eq => exact absurd answer not_equal
    | gt => rfl

theorem Holds.gap_of_found_none (h : map.Holds layout) (fit : key.length = map.keySize)
    (missing : map.found layout key = none) : ∃ before after, map.Cuts layout key before after ∧
      ∀ e ∈ after.head?, map.order.compare e.key key ≠ .eq := by
  have cuts := Cuts.self map layout key
  refine ⟨_, _, cuts, fun e first equal => ?_⟩
  unfold found at missing
  rw [if_pos (cuts.searchable h fit first)] at missing
  have no_hit := way_equal_none map.maxHeight.one_le (fun x listed => (h.arena.heights x listed).1) missing
  have filtered := Option.filter_eq_none_iff.mp no_hit e first
  simp [equal] at filtered

theorem Holds.found_eq (h : map.Holds layout) (lawful : map.order.IsTotalPreorder map.keySize)
    (sorted : Sorted map.order (listing layout)) (key : Key) :
    (map.found layout key).map pair = (listing layout).find map.order map.keySize key := by
  unfold Listing.find
  by_cases fit : key.length = map.keySize
  · rw [if_pos fit]
    cases found : map.found layout key with
    | some e =>
      obtain ⟨member, equal, _⟩ := found_mem found
      obtain ⟨before, after, split⟩ := List.append_of_mem member
      have around := h.around_entry lawful sorted fit split equal
      rw [listing, split, List.map_append, List.map_cons]
      exact (around.lookup_found equal).symm
    | none =>
      obtain ⟨before, after, cuts, missing⟩ := h.gap_of_found_none fit found
      have around := h.around_gap lawful sorted fit cuts missing
      rw [listing, cuts.split, List.map_append]
      exact around.lookup_missing.symm
  · have unsearchable : ¬ map.Searchable key := fun searchable => fit searchable.2
    rw [if_neg fit, found, if_neg unsearchable]
    rfl

/-! ### One request -/

variable [DrawSource σ]

/-- A turn changes the listing as the change itself does, and gets the same answer. -/
theorem Turn.change_eq {change : Change α} {next : Map σ α} {rest : Layout α}
    {reply : Reply α (Except Error (Answer α))} (turn : Turn map layout change next rest reply)
    (h : map.Holds layout) (lawful : map.order.IsTotalPreorder map.keySize)
    (sorted : Sorted map.order (listing layout))
    (granted : ∀ error : Error, error.isShortage = true → reply.result ≠ .error error) :
    (listing layout).change map.order map.keySize change = (listing rest, reply.result) := by
  induction turn with
  | unfit unfit => simp only [Listing.change, unfit, if_false]
  | @updated _ _ _ _ _ e _ fit cuts equal =>
    have around := h.around_entry lawful sorted fit cuts.split equal
    have equal : map.order.compare e.pair.1 _ = .eq := equal
    simp only [Listing.change, fit, if_true, listing, cuts.split, Layout.withEntries, List.map_append,
      List.map_cons, around.insert_found equal]
    rfl
  | inserted fit cuts new drawn grants =>
    have around := h.around_gap lawful sorted fit cuts new
    simp only [Listing.change, fit, if_true, listing, cuts.split, Layout.add, List.map_append,
      List.map_cons, around.insert_missing]
    rfl
  | refused fit cuts new drawn refused => exact absurd rfl (granted _ (Layout.permit_shortage refused))
  | @missed key before after cuts missing =>
    by_cases fit : key.length = map.keySize
    · have new : ∀ e ∈ after.head?, map.order.compare e.key key ≠ .eq :=
        fun e first => missing (cuts.searchable h fit first) e first
      have around := h.around_gap lawful sorted fit cuts new
      simp only [Listing.change, Listing.take, fit, if_true, listing, cuts.split, List.map_append,
        around.remove_missing]
    · simp only [Listing.change, Listing.take, fit, if_false]
  | @removed _ _ _ e _ searchable cuts equal =>
    have around := h.around_entry lawful sorted searchable.2 cuts.split equal
    have equal : map.order.compare e.pair.1 _ = .eq := equal
    simp only [Listing.change, Listing.take, searchable.2, if_true, listing, cuts.split,
      Layout.remove_entries, List.map_append, List.map_cons, around.remove_found equal]
    rfl
  | erased removal ih =>
    have removed := ih fun error _ => by simp
    simp only [Listing.change, Prod.mk.injEq, Except.ok.injEq, Answer.removed.injEq] at removed ⊢
    obtain ⟨entries, outcome⟩ := removed
    exact ⟨entries, by rw [outcome]⟩
  | @unmodified key change compared start missing =>
    by_cases fit : key.length = map.keySize
    · obtain ⟨before, after, cuts, gap⟩ := h.gap_of_found_none fit missing
      have around := h.around_gap lawful sorted fit cuts gap
      simp only [Listing.change, fit, if_true, listing, cuts.split, List.map_append,
        around.replace_missing, around.lookup_missing, Option.map_none]
    · simp only [Listing.change, fit, if_false]
  | @modified _ _ _ _ e _ _ start split found =>
    obtain ⟨_, equal, searchable⟩ := found_mem found
    have around := h.around_entry lawful sorted searchable.2 split equal
    have equal : map.order.compare e.pair.1 _ = .eq := equal
    simp only [Listing.change, searchable.2, if_true, listing, split, Layout.withEntries,
      List.map_append, List.map_cons, around.replace_found equal, around.lookup_found equal,
      Option.map_some]
    rfl
  | cleared => simp only [Listing.change, listing, Layout.clear_entries, List.map_nil]

theorem Turn.sorted {change : Change α} {next : Map σ α} {rest : Layout α}
    {reply : Reply α (Except Error (Answer α))} (turn : Turn map layout change next rest reply)
    (h : map.Holds layout) (lawful : map.order.IsTotalPreorder map.keySize)
    (sorted : Sorted map.order (listing layout)) : Sorted map.order (listing rest) := by
  by_cases failed : ∃ error, reply.result = .error error
  · obtain ⟨error, failed⟩ := failed
    rwa [turn.layout_of_refused failed]
  · have kept := Listing.change_sorted lawful h.fits sorted change
    rwa [turn.change_eq h lawful sorted fun error _ failure => failed ⟨error, failure⟩] at kept

omit [DrawSource σ] in
theorem Holds.reads_listing (h : map.Holds layout) (lawful : map.order.IsTotalPreorder map.keySize)
    (sorted : Sorted map.order (listing layout)) (reading : Reading) :
    map.reads layout reading.query = (listing layout).read map.order map.keySize reading := by
  have same := h.found_eq lawful sorted
  cases reading with
  | get key =>
    simp only [Reading.query, reads, Listing.read, ← same, Option.map_map]
    rfl
  | contains key => simp only [Reading.query, reads, Listing.read, ← same, Option.isSome_map]
  | getEntry key => simp only [Reading.query, reads, Listing.read, ← same]
  | len => simp only [Reading.query, reads, Listing.read, listing, h.len, List.length_map]
  | isEmpty =>
    have same_length : map.isEmpty = layout.entries.isEmpty := by
      rw [isEmpty, h.len]
      cases layout.entries <;> rfl
    simp only [Reading.query, reads, Listing.read, listing, same_length, List.isEmpty_map]
  | first => simp only [Reading.query, reads, Listing.read, listing, List.head?_map]
  | firstValue =>
    simp only [Reading.query, reads, Listing.read, listing, List.head?_map, Option.map_map]
    rfl
  | last => simp only [Reading.query, reads, Listing.read, listing, List.getLast?_map]
  | keys =>
    simp only [Reading.query, reads, Listing.read, listing, List.map_map]
    rfl
  | values =>
    simp only [Reading.query, reads, Listing.read, listing, List.map_map]
    rfl
  | entries => simp only [Reading.query, reads, Listing.read, listing]

theorem Holds.serve_eq (h : map.Holds layout) (lawful : map.order.IsTotalPreorder map.keySize)
    (sorted : Sorted map.order (listing layout)) (request : Request α) :
    ∃ next rest answer, map.serve request = .ok (next, answer) ∧ next.Holds rest ∧
      Sorted map.order (listing rest) ∧ next.order = map.order ∧ next.keySize = map.keySize ∧
      ((∀ error : Error, error.isShortage = true → answer ≠ .error error) →
        (listing layout).serve map.order map.keySize request = (listing rest, answer)) := by
  cases request with
  | change change =>
    obtain ⟨next, rest, reply, made, turn, holds⟩ := h.apply_ok change
    obtain ⟨_, size, _, order⟩ := turn.frame
    refine ⟨next, rest, reply.result, ?_, holds, turn.sorted h lawful sorted, order, size,
      turn.change_eq h lawful sorted⟩
    simp only [serve, made, ok_bind, pure_eq_ok]
  | read reading =>
    have answered := h.answer_eq reading.query
    refine ⟨map, layout, _, ?_, h, sorted, rfl, rfl, fun _ => rfl⟩
    simp only [serve, answered, h.reads_listing lawful sorted, ok_bind, pure_eq_ok]

/-! ### Runs of requests -/

/-- No call was short of memory or of slots. -/
def NoShortage (answers : List (Except Error (Answer α))) : Prop :=
  ∀ error : Error, error.isShortage = true → .error error ∉ answers

omit [DrawSource σ] in
theorem noShortage_cons {answer : Except Error (Answer α)} {answers : List (Except Error (Answer α))} :
    NoShortage (answer :: answers) ↔
      (∀ error : Error, error.isShortage = true → answer ≠ .error error) ∧ NoShortage answers := by
  simp only [NoShortage, List.mem_cons, not_or, forall_and, ne_eq, eq_comm]

theorem Holds.serve_granted (h : map.Holds layout) {request : Request α} {slots : Nat}
    (supplied : request.Supplied map.keySize slots) (few : layout.slots.length < slots)
    (numbered : layout.slots.length + 1 < Arena.slotLimit) {next : Map σ α}
    {answer : Except Error (Answer α)} (served : map.serve request = .ok (next, answer)) :
    (∃ rest, next.Holds rest ∧ next.keySize = map.keySize ∧
      rest.slots.length ≤ layout.slots.length + 1) ∧
      ∀ error : Error, error.isShortage = true → answer ≠ .error error := by
  cases request with
  | change change =>
    obtain ⟨⟨_, reply⟩, made, same⟩ := bind_ok served
    obtain ⟨rfl, rfl⟩ := Prod.mk.inj (Except.ok.inj same)
    obtain ⟨rest, turn, holds⟩ := h.turn made
    have grows := turn.grows
    exact ⟨⟨rest, holds, turn.frame.2.1, by omega⟩,
      fun error short => turn.granted (show change.Supplied _ _ from supplied) few numbered short⟩
  | read reading =>
    obtain ⟨reply, _, same⟩ := bind_ok served
    obtain ⟨rfl, rfl⟩ := Prod.mk.inj (Except.ok.inj same)
    exact ⟨⟨layout, h, rfl, Nat.le_succ _⟩, fun error _ => nofun⟩

/-- No call of a run is short of room if its requests for memory are granted for as many slots as there are
and one more for each call, and if the numbers of slots reach as far. -/
theorem Holds.serveAll_granted (h : map.Holds layout) {requests : List (Request α)} {slots : Nat}
    (supplied : ∀ request ∈ requests, request.Supplied map.keySize slots)
    (few : map.arena.slots.size + requests.length ≤ slots) (numbered : slots ≤ Arena.slotLimit)
    {next : Map σ α} {answers : List (Except Error (Answer α))}
    (run : map.serveAll requests = .ok (next, answers)) : NoShortage answers := by
  induction requests generalizing map layout answers with
  | nil =>
    obtain ⟨_, rfl⟩ := Prod.mk.inj (Except.ok.inj run)
    simp [NoShortage]
  | cons request requests ih =>
    obtain ⟨⟨mid, answer⟩, served, run⟩ := bind_ok run
    obtain ⟨⟨last, later⟩, ran, same⟩ := bind_ok run
    obtain ⟨rfl, rfl⟩ := Prod.mk.inj (Except.ok.inj same)
    rw [h.arena.size_eq, List.length_cons] at few
    obtain ⟨⟨rest, holds, size, grows⟩, granted⟩ :=
      h.serve_granted (supplied request List.mem_cons_self) (by omega) (by omega) served
    refine noShortage_cons.mpr ⟨granted, ih holds (fun request listed => ?_) ?_ ran⟩
    · exact size ▸ supplied request (List.mem_cons_of_mem _ listed)
    · rw [holds.arena.size_eq]
      omega

theorem Holds.serveAll_eq (h : map.Holds layout) (lawful : map.order.IsTotalPreorder map.keySize)
    (sorted : Sorted map.order (listing layout)) (requests : List (Request α)) :
    ∃ next rest answers, map.serveAll requests = .ok (next, answers) ∧ next.Holds rest ∧
      Sorted map.order (listing rest) ∧
      (NoShortage answers →
        (listing layout).serveAll map.order map.keySize requests = (listing rest, answers)) := by
  induction requests generalizing map layout with
  | nil => exact ⟨map, layout, [], rfl, h, sorted, fun _ => rfl⟩
  | cons request requests ih =>
    obtain ⟨next, rest, answer, served, holds, sorted', order, size, same⟩ :=
      h.serve_eq lawful sorted request
    rw [← order, ← size] at lawful
    rw [← order] at sorted'
    obtain ⟨last, final, answers, run, kept, sorted'', all_same⟩ := ih holds lawful sorted'
    rw [order, size] at all_same
    rw [order] at sorted''
    refine ⟨last, final, answer :: answers, ?_, kept, sorted'', fun granted => ?_⟩
    · simp only [serveAll, served, ok_bind, run, pure_eq_ok]
    · have here := same (noShortage_cons.mp granted).1
      have later := all_same (noShortage_cons.mp granted).2
      simp only [Listing.serveAll, here, later]

/-- Under a total preorder a map answers every run of requests that is not short of memory or of slots as a
list does that is kept strictly increasing, and its entries and the values it hands back at the end are those
of the list. -/
theorem serveAll_eq_listing {memory : Memory} {blueprint : Blueprint} {source : σ} {id : Nat}
    {start : Map σ α} (built : Map.build memory blueprint source id = .ok start)
    (lawful : blueprint.order.IsTotalPreorder blueprint.config.keySize) (requests : List (Request α)) :
    ∃ map answers, start.serveAll requests = .ok (map, answers) ∧
      (NoShortage answers →
        ∃ entries : Listing α,
          Listing.serveAll blueprint.order blueprint.config.keySize [] requests = (entries, answers) ∧
          Sorted blueprint.order entries ∧ map.toList = .ok entries ∧
          map.takeValues = .ok (entries.map Prod.snd)) := by
  obtain ⟨holds, _, size, order⟩ := build_holds built
  rw [← order, ← size] at lawful ⊢
  obtain ⟨map, rest, answers, run, kept, sorted, same⟩ :=
    holds.serveAll_eq lawful List.Pairwise.nil requests
  refine ⟨map, answers, run, fun granted => ⟨listing rest, same granted, sorted, kept.toList_eq, ?_⟩⟩
  rw [kept.takeValues_eq, listing, List.map_map]
  rfl

def bySum : Blueprint :=
  { config := { keySize := 2, maxHeight := { levels := 3 } }, order := .on "sum" Key.byteSum }

def renamed : List (Request Nat) :=
  [.change (.insert [3, 4] 10 {}), .change (.insert [1, 2] 20 {}), .change (.insert [2, 1] 30 {}),
    .read (.getEntry [0, 3]), .change (.remove [7, 0]), .read .entries]

theorem renamed_supplied : ∀ request ∈ renamed, request.Supplied 2 7 := by
  have enough : ({} : Memory).Suffices 2 7 := ⟨rfl, by decide, by decide⟩
  intro request listed
  simp only [renamed, List.mem_cons, List.not_mem_nil, or_false] at listed
  rcases listed with rfl | rfl | rfl | rfl | rfl | rfl <;> first | exact enough | trivial

theorem serveAll_eq_listing_bySum :
    ∃ start : Map Script Nat, Map.build {} bySum { values := [0, 0xFFFFFFFF] } 0 = .ok start ∧
      bySum.order.IsTotalPreorder 2 ∧ ∃ map answers,
        start.serveAll renamed = .ok (map, answers) ∧ NoShortage answers ∧
        answers =
          [.ok (.inserted .inserted), .ok (.inserted .inserted), .ok (.inserted (.updated 20)),
            .ok (.entry (some ([1, 2], 30))), .ok (.removed (.removed 10)),
            .ok (.entries [([1, 2], 30)])] ∧
        map.takeValues = .ok [30] := by
  have lawful : bySum.order.IsTotalPreorder 2 := KeyOrder.isTotalPreorder_on _ _ _
  have built : (Map.build {} bySum { values := [0, 0xFFFFFFFF] } 0 : Except Error (Map Script Nat)) =
      .ok _ := rfl
  refine ⟨_, built, lawful, ?_⟩
  obtain ⟨map, answers, run, same⟩ := serveAll_eq_listing built lawful renamed
  have granted : NoShortage answers :=
    (build_holds built).1.serveAll_granted renamed_supplied (Nat.le_refl 7) (by decide) run
  have answered : answers =
      [.ok (.inserted .inserted), .ok (.inserted .inserted), .ok (.inserted (.updated 20)),
        .ok (.entry (some ([1, 2], 30))), .ok (.removed (.removed 10)),
        .ok (.entries [([1, 2], 30)])] := (Prod.mk.inj (Except.ok.inj run)).2.symm
  obtain ⟨entries, listed, _, _, values⟩ := same granted
  obtain ⟨rfl, _⟩ := Prod.mk.inj listed
  exact ⟨map, answers, run, granted, answered, values⟩

end Map

end SkipList
