import Mathlib.Algebra.Order.Group.Multiset
import Mathlib.Tactic.Abel
import SkipList.Proofs.Hosting

/-!
# Conservation of values

No value is lost and none is there twice. Whatever goes into a map stays in one of its slots until it is
handed back or dropped, once; a map that is given up leaves nothing behind. No law of the key order is used.
-/

namespace SkipList

open Entry

variable {σ α : Type}

def Entry.valuesOf (entries : List (Entry α)) : Multiset α := entries.map (·.value)

theorem Entry.valuesOf_middle (before : List (Entry α)) (e : Entry α) (after : List (Entry α)) :
    valuesOf (before ++ e :: after) = {e.value} + valuesOf (before ++ after) := by
  rw [valuesOf, valuesOf, List.map_append, List.map_cons, List.map_append, Multiset.singleton_add,
    Multiset.cons_coe, Multiset.coe_eq_coe]
  exact List.perm_middle

namespace Layout

def bySlot (layout : Layout α) : List (Entry α) :=
  (List.range (layout.slots.length + 1)).filterMap fun index => layout.entries.find? (·.slot = index)

theorem bySlot_sorted (layout : Layout α) : layout.bySlot.Pairwise (·.slot < ·.slot) := by
  rw [bySlot, List.pairwise_filterMap]
  refine List.pairwise_lt_range.imp fun less x found y found' => ?_
  have here := List.find?_some found
  have there := List.find?_some found'
  rw [decide_eq_true_eq] at here there
  rwa [here, there]

end Layout

namespace Arena

variable {arena : Arena α} {levels : Nat} {layout : Layout α}

theorem Holds.mem_bySlot (h : arena.Holds levels layout) (e : Entry α) :
    e ∈ layout.bySlot ↔ e ∈ layout.entries := by
  unfold Layout.bySlot
  rw [List.mem_filterMap]
  constructor
  · rintro ⟨index, _, found⟩
    exact List.mem_of_find?_eq_some found
  · intro member
    have inside := h.slot_lt_size (Layout.entry_mem_slots member)
    rw [h.size_eq] at inside
    refine ⟨e.slot, List.mem_range.mpr inside, ?_⟩
    cases found : layout.entries.find? (·.slot = e.slot) with
    | none => exact absurd (decide_eq_true rfl) (List.find?_eq_none.mp found e member)
    | some x =>
      have same := List.find?_some found
      rw [decide_eq_true_eq] at same
      rw [h.eq_of_slot_eq (List.mem_of_find?_eq_some found) member same]

theorem Holds.bySlot_perm (h : arena.Holds levels layout) : layout.bySlot.Perm layout.entries := by
  have once : layout.bySlot.Nodup := layout.bySlot_sorted.imp fun less same => by
    rw [same] at less
    exact Nat.lt_irrefl _ less
  exact (List.perm_ext_iff_of_nodup once (List.Nodup.of_map _ h.entries_nodup)).mpr h.mem_bySlot

theorem Holds.stored_bySlot (h : arena.Holds levels layout) :
    arena.storedValues = layout.bySlot.map (·.value) := by
  rw [h.storedValues_eq, Layout.bySlot, List.map_filterMap]

theorem Holds.storedValues_eq_valuesOf (h : arena.Holds levels layout) :
    (arena.storedValues : Multiset α) = valuesOf layout.entries := by
  rw [h.stored_bySlot, valuesOf, Multiset.coe_eq_coe]
  exact h.bySlot_perm.map _

end Arena

/-! ### What goes in and what comes out -/

def Use.entered : Use α → Except Refusal (Answer α) → List α
  | .change (.insert _ _ _), .error .noMap => []
  | .change (.insert _ value _), _ => [value]
  | _, _ => []

/-- The values that a use hands back and does not keep. -/
def Use.handedBack : Use α → Except Refusal (Answer α) → List α
  | .change _, .ok (.inserted outcome) => outcome.previous?.toList
  | .change _, .ok (.removed outcome) => outcome.value?.toList
  | .takeValues, .ok (.values values) => values
  | _, _ => []

/-- The use is one call and writes no value in the place of another. -/
def Use.IsKeeping : Use α → Prop
  | .change (.modify _ write) => ∀ value, write value = value
  | .insertAll _ _ _ | .removeAll _ => False
  | _ => True

theorem Use.IsKeeping.isCall {use : Use α} (keeping : use.IsKeeping) : use.IsCall := by
  cases use with
  | insertAll _ _ _ | removeAll _ => exact keeping.elim
  | _ => trivial

namespace Session

def stored (session : Session σ α) : List α :=
  (session.map? 0).elim [] (·.arena.storedValues)

def entered (uses : List (Use α)) (responses : List (Response α)) : List α :=
  (uses.zip responses).flatMap fun (use, response) => use.entered response.result

def handedBack (uses : List (Use α)) (responses : List (Response α)) : List α :=
  (uses.zip responses).flatMap fun (use, response) => use.handedBack response.result

def dropped (responses : List (Response α)) : List α :=
  responses.flatMap (·.trace.dropped)

/-- What is there before a use and what it puts in is there afterwards, is handed back or is dropped. -/
def Balances (before after : Multiset α) (use : Use α) (response : Response α) : Prop :=
  (use.entered response.result + before : Multiset α) =
    after + (use.handedBack response.result + response.trace.dropped)

end Session

/-! ### One change -/

namespace Map

open Session

variable [DrawSource σ] {map next : Map σ α} {layout rest : Layout α} {change : Change α}
  {reply : Reply α (Except Error (Answer α))}

theorem Turn.balances (turn : Turn map layout change next rest reply)
    (keeping : (Use.change change).IsKeeping) :
    Balances (valuesOf layout.entries) (valuesOf rest.entries) (.change change)
      (reply.map (Except.mapError .error)) := by
  cases turn with
  | @unfit _ value _ _ | @refused _ value _ _ _ _ _ _ _ _ _ _ =>
    change ({value} : Multiset α) + valuesOf layout.entries = valuesOf layout.entries + (0 + {value})
    abel
  | @updated _ value _ before after e _ _ cuts _ =>
    change ({value} : Multiset α) + valuesOf layout.entries =
      valuesOf (before ++ { e with value } :: after) + ({e.value} + 0)
    rw [cuts.split, valuesOf_middle, valuesOf_middle]
    abel
  | @inserted _ value _ before after _ _ _ _ cuts _ _ _ =>
    change ({value} : Multiset α) + valuesOf layout.entries = valuesOf (before ++ _ :: after) + (0 + 0)
    rw [cuts.split, valuesOf_middle, add_zero, add_zero]
    rfl
  | missed _ _ | unmodified _ _ =>
    change (0 : Multiset α) + valuesOf layout.entries = valuesOf layout.entries + (0 + 0)
    abel
  | @removed _ before after e _ _ cuts _ =>
    change (0 : Multiset α) + valuesOf layout.entries = valuesOf (layout.remove before e after).entries +
      ({e.value} + 0)
    rw [Layout.remove_entries, cuts.split, valuesOf_middle]
    abel
  | erased removal =>
    cases removal with
    | missed _ _ =>
      change (0 : Multiset α) + valuesOf layout.entries = valuesOf layout.entries + (0 + 0)
      abel
    | @removed _ before after e _ _ cuts _ =>
      change (0 : Multiset α) + valuesOf layout.entries = valuesOf (layout.remove before e after).entries +
        (0 + {e.value})
      rw [Layout.remove_entries, cuts.split, valuesOf_middle]
      abel
  | @modified _ write before after e _ _ _ split _ =>
    change (0 : Multiset α) + valuesOf layout.entries =
      valuesOf (before ++ { e with value := write e.value } :: after) + (0 + 0)
    rw [keeping e.value, split]
    abel
  | cleared =>
    change (0 : Multiset α) + valuesOf layout.entries = valuesOf layout.clear.entries +
      (0 + valuesOf layout.entries)
    rw [Layout.clear_entries]
    change _ = (0 : Multiset α) + _
    abel

end Map

/-! ### Runs -/

namespace Session

variable {session next : Session σ α} {use : Use α} {response : Response α}

theorem stored_of_gone (gone : session.maps = [none]) : session.stored = [] := by
  unfold stored Session.map?
  rw [gone]
  rfl

theorem stored_of_hosted {map : Map σ α} {layout : Layout α} (hosted : session.maps = [some map])
    (h : map.Holds layout) : (session.stored : Multiset α) = valuesOf layout.entries := by
  rw [← h.arena.storedValues_eq_valuesOf]
  unfold stored Session.map?
  rw [hosted]
  rfl

theorem stored_dropMap {map : Map σ α} (hosted : session.maps = [some map]) :
    (session.dropMap 0).stored = [] :=
  stored_of_gone (maps_dropMap hosted)

variable [DrawSource σ]

theorem Effect.balances (effect : Effect session use next response) (keeping : use.IsKeeping) :
    Balances session.stored next.stored use response := by
  cases effect with
  | read reading maps dropped =>
    -- nothing goes in or out, so both sides are what is stored
    have same : next.stored = session.stored := by rw [stored, map?, maps]; rfl
    have none_in : use.entered response.result = [] := by
      cases use <;> first | rfl | exact reading.elim
    have none_out : use.handedBack response.result = [] := by
      cases use <;> first | rfl | exact reading.elim
    rw [Balances, same, none_in, none_out, dropped]
    exact add_comm _ _
  | gone gone =>
    have none_in : use.entered (.error .noMap) = [] := by
      cases use with
      | change change => cases change <;> rfl
      | _ => rfl
    have none_out : use.handedBack (.error .noMap) = [] := by cases use <;> rfl
    rw [Balances, none_in, none_out]
    exact add_comm _ _
  | @changed change map after layout rest reply hosted h _ turn kept =>
    rw [stored_of_hosted hosted h, stored_of_hosted (maps_setMap hosted after) kept]
    exact turn.balances keeping
  | taken hosted h =>
    rw [stored_of_hosted hosted h, stored_dropMap hosted]
    change (0 : Multiset α) + valuesOf _ = 0 + (valuesOf _ + 0)
    abel
  | @discarded map layout hosted h =>
    rw [stored_of_hosted hosted h, stored_dropMap hosted, ← h.arena.storedValues_eq_valuesOf]
    change (0 : Multiset α) + map.arena.storedValues = 0 + (0 + map.arena.storedValues)
    abel

theorem Single.run_balances (single : session.Single) {uses : List (Use α)}
    (keeping : ∀ use ∈ uses, use.IsKeeping) :
    ∃ last responses, session.run (uses.map Use.command) = .ok (last, responses) ∧ last.Single ∧
      (entered uses responses + session.stored : Multiset α) =
        last.stored + (handedBack uses responses + dropped responses) ∧
      (session.maps = [none] ∨ .takeValues ∈ uses ∨ .discard ∈ uses → last.maps = [none]) := by
  induction uses generalizing session with
  | nil =>
    refine ⟨session, [], rfl, single, add_comm _ _, fun given_up => ?_⟩
    simpa using given_up
  | cons use uses ih =>
    have here : use.IsKeeping := keeping use List.mem_cons_self
    obtain ⟨next, response, stepped, effect, kept⟩ := single.step_ok here.isCall
    obtain ⟨last, responses, run, single', balance, gone⟩ :=
      ih kept fun later listed => keeping later (List.mem_cons_of_mem _ listed)
    refine ⟨last, response :: responses, run_of_step stepped run, single', ?_, fun given_up => gone ?_⟩
    · have first := effect.balances here
      unfold Balances at first
      have cons_in : (entered (use :: uses) (response :: responses) : Multiset α) =
          use.entered response.result + entered uses responses := rfl
      have cons_out : (handedBack (use :: uses) (response :: responses) : Multiset α) =
          use.handedBack response.result + handedBack uses responses := rfl
      have cons_lost : (dropped (response :: responses) : Multiset α) =
          response.trace.dropped + dropped responses := rfl
      rw [cons_in, cons_out, cons_lost]
      calc (use.entered response.result : Multiset α) + entered uses responses + session.stored
          = entered uses responses + (use.entered response.result + session.stored) := by abel
        _ = entered uses responses + next.stored +
              (use.handedBack response.result + response.trace.dropped) := by rw [first]; abel
        _ = _ := by rw [balance]; abel
    · rcases given_up with none_left | listed | listed
      · exact Or.inl (effect.gone_next (Or.inl none_left))
      · rcases List.mem_cons.mp listed with same | later
        · exact Or.inl (effect.gone_next (Or.inr (Or.inl same.symm)))
        · exact Or.inr (Or.inl later)
      · rcases List.mem_cons.mp listed with same | later
        · exact Or.inl (effect.gone_next (Or.inr (Or.inr same.symm)))
        · exact Or.inr (Or.inr later)

/-- No value is lost and none is there twice, whatever the order, the heights, the draws and the refused
requests for memory. After any uses of a new map, what was put in is what its slots store together with
what was handed back and what was dropped, and a map that was given up stores nothing. Clearing drops the
values that are stored, and giving the map up hands them back, in the order of level 0; discarding it drops
them in the order of their slots. -/
theorem run_conserves {memory : Memory} {blueprint : Blueprint} {source : σ} {id : Nat} {start : Map σ α}
    (built : Map.build memory blueprint source id = .ok start) {uses : List (Use α)}
    (keeping : ∀ use ∈ uses, use.IsKeeping) :
    ∃ last responses, (hosting start).run (uses.map Use.command) = .ok (last, responses) ∧
      (entered uses responses : Multiset α) =
        last.stored + (handedBack uses responses + dropped responses) ∧
      (.takeValues ∈ uses ∨ .discard ∈ uses → last.stored = []) ∧
      ∀ map, last.maps = [some map] → ∃ entries, map.Lists entries ∧
        (∃ next, map.apply .clear =
          .ok (next, { result := .ok .done, trace := { dropped := entries.map (·.value) } })) ∧
        map.takeValues = .ok (entries.map (·.value)) ∧
        ∃ bySlot : List (Entry α), bySlot.Perm entries ∧ bySlot.Pairwise (·.slot < ·.slot) ∧
          map.discard.trace.dropped = bySlot.map (·.value) := by
  have holds := (Map.build_holds built).1
  obtain ⟨last, responses, run, single, balance, gone⟩ := (single_hosting holds).run_balances keeping
  have hosted : (hosting start).maps = [some start] := rfl
  have empty : (hosting start).stored = [] :=
    (Multiset.coe_eq_zero _).mp (stored_of_hosted hosted holds)
  rw [empty, Multiset.coe_nil, add_zero] at balance
  refine ⟨last, responses, run, balance, fun given_up => stored_of_gone (gone (Or.inr given_up)),
    fun map hosted => ?_⟩
  obtain ⟨layout, h⟩ := single.sound map (hosted ▸ List.mem_singleton.mpr rfl)
  obtain ⟨next, _, reply, cleared, turn, _⟩ := h.clear_ok
  refine ⟨layout.entries, h.lists, ⟨next, ?_⟩, h.takeValues_eq,
    layout.bySlot, h.arena.bySlot_perm, layout.bySlot_sorted, h.arena.stored_bySlot⟩
  cases turn with
  | cleared => exact cleared

def fates : List (Use Nat) :=
  [.change (.insert [1] 10 {}), .change (.insert [1] 11 {}), .change (.insert [2, 2] 20 {}),
    .change (.insert [3] 30 {}), .change (.erase [3]), .takeValues, .change (.insert [4] 40 {})]

theorem run_conserves_fates :
    ∃ (start : Map Script Nat) (last : Session Script Nat) (responses : List (Response Nat)),
      Map.build {} { config := { keySize := 1 } } { values := [] } 0 = .ok start ∧
      (∀ use ∈ fates, use.IsKeeping) ∧
      (hosting start).run (fates.map Use.command) = .ok (last, responses) ∧
      ({10, 11, 20, 30} : Multiset Nat) = last.stored + ({10, 11} + {20, 30}) ∧ last.stored = [] := by
  have built : (Map.build {} { config := { keySize := 1 } } { values := [] } 0 :
      Except Error (Map Script Nat)) = .ok _ := rfl
  have keeping : ∀ use ∈ fates, use.IsKeeping := by simp [fates, Use.IsKeeping]
  obtain ⟨last, responses, run, balance, gone, _⟩ := run_conserves built keeping
  have nothing : last.stored = [] := gone (Or.inl (by simp [fates]))
  refine ⟨_, last, responses, built, keeping, run, ?_, nothing⟩
  obtain ⟨_, rfl⟩ := Prod.mk.inj (Except.ok.inj run)
  exact balance

end Session

end SkipList
