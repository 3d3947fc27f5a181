import Mathlib.Data.Finset.Card
import SkipList.Proofs.Towers

/-!
# The log of a map

Every node that comes in and every one that goes out is reported, and nothing else is. Replaying the reports
of a run gives the slots that hold a node, each with its height: `Effect.enters` is the step, `Single.replays`
the run. A cursor reports that its node is gone when it looks for it.
-/

namespace SkipList

open Entry

variable {σ α : Type}

/-- The slots that hold a node, each with its height. -/
abbrev Ledger := Finset (Nat × Nat)

/-- Enters an event. It fails for a node that comes into a slot that is taken, and for one that leaves but was
not there with that height. -/
def Event.enter (ledger : Ledger) : Event → Option Ledger
  | .spliced index height _ =>
    if ∀ node ∈ ledger, node.1 ≠ index then some (insert (index, height) ledger) else none
  | .unspliced index height _ =>
    if (index, height) ∈ ledger then some (ledger.filter (·.1 ≠ index)) else none
  | .cursorRemoved _ => some ledger

def OfCursors (events : List Event) : Prop :=
  ∀ event ∈ events, ∃ index, event = .cursorRemoved index

theorem OfCursors.nil : OfCursors [] := nofun

theorem OfCursors.enter {events : List Event} (quiet : OfCursors events) (ledger : Ledger) :
    events.foldlM Event.enter ledger = some ledger := by
  induction events with
  | nil => rfl
  | cons event events ih =>
    obtain ⟨index, rfl⟩ := quiet event List.mem_cons_self
    exact ih fun event listed => quiet event (List.mem_cons_of_mem _ listed)

namespace Ledger

def Shows (ledger : Ledger) (map : Map σ α) : Prop :=
  ∀ slot height, (slot, height) ∈ ledger ↔ ∃ node, map.arena.Live slot node ∧ node.height = height

/-- Enters what the uses of a run report. Clearing reports nothing and empties the ledger. -/
def replay (ledger : Ledger) : List (Use α × Session.Response α) → Option Ledger
  | [] => some ledger
  | (use, response) :: later => do
    let entered ← response.trace.events.foldlM Event.enter ledger
    replay (if use.deed response.result = .clears then ∅ else entered) later

end Ledger

def Layout.ledger (layout : Layout α) : Ledger :=
  (layout.towers.map fun tower => (tower.1.index, tower.2)).toFinset

theorem Layout.mem_ledger {layout : Layout α} {slot height : Nat} :
    (slot, height) ∈ layout.ledger ↔ ∃ tower ∈ layout.towers, tower.1.index = slot ∧ tower.2 = height := by
  simp only [ledger, List.mem_toFinset, List.mem_map, Prod.mk.injEq]

namespace Map

variable {map next : Map σ α} {layout rest : Layout α}

theorem Holds.shows (h : map.Holds layout) : layout.ledger.Shows map := by
  intro slot height
  rw [Layout.mem_ledger]
  constructor
  · rintro ⟨tower, listed, rfl, rfl⟩
    obtain ⟨e, member, rfl⟩ := List.mem_map.mp listed
    obtain ⟨after, occupied⟩ := h.arena.occupied_of_mem member
    exact ⟨e.node after, ⟨_, occupied⟩, node_height e after⟩
  · rintro ⟨node, ⟨generation, occupied⟩, rfl⟩
    obtain ⟨before, e, after, split, here, _, rfl⟩ := h.arena.entry_of_occupied occupied
    refine ⟨e.tower, List.mem_map_of_mem (split ▸ List.mem_append_cons_self), here, ?_⟩
    rw [node_height]
    rfl

theorem Holds.ledger_eq (h : map.Holds layout) {ledger : Ledger} (shows : ledger.Shows map) :
    ledger = layout.ledger :=
  Finset.ext fun place => (shows place.1 place.2).trans (h.shows place.1 place.2).symm

theorem Holds.card_ledger (h : map.Holds layout) : layout.ledger.card = map.len := by
  have distinct : (layout.towers.map fun tower => (tower.1.index, tower.2)).Nodup := by
    refine List.Nodup.of_map Prod.fst ?_
    rw [Layout.towers, List.map_map, List.map_map]
    exact h.arena.entries_nodup
  rw [Layout.ledger, List.toFinset_card_of_nodup distinct, Layout.towers, List.length_map, List.length_map,
    h.len]

theorem Stirs.reports [DrawSource σ] {deed : Deed} {events : List Event}
    (stirs : Stirs map next layout rest deed events) :
    (deed = .raises → ∃ slot height, events = [.spliced slot height next.len]) ∧
    (deed = .razes → ∃ slot height, events = [.unspliced slot height next.len]) ∧
    (deed ≠ .raises → deed ≠ .razes → events = []) := by
  cases stirs with
  | raised _ _ _ => exact ⟨fun _ => ⟨_, _, rfl⟩, nofun, fun other => absurd rfl other⟩
  | razed _ _ _ _ => exact ⟨nofun, fun _ => ⟨_, _, rfl⟩, fun _ other => absurd rfl other⟩
  | failed _ _ | lacked _ _ | cleared _ _ _ | spared _ _ => exact ⟨nofun, nofun, fun _ _ => rfl⟩

theorem Stirs.enters [DrawSource σ] {deed : Deed} {events : List Event}
    (stirs : Stirs map next layout rest deed events) (h : map.Holds layout) (kept : next.Holds rest) :
    ∃ entered, events.foldlM Event.enter layout.ledger = some entered ∧
      (if deed = .clears then ∅ else entered) = rest.ledger := by
  cases stirs with
  | failed same _ | lacked same _ | spared same _ =>
    exact ⟨_, rfl, by rw [if_neg nofun, Layout.ledger, Layout.ledger, same]⟩
  | cleared left _ _ => exact ⟨_, rfl, by rw [if_pos rfl, Layout.ledger, left]; rfl⟩
  | @raised before after id height split left _ =>
    -- the slot was free, since the new node shares it with no other afterwards
    have free : ∀ node ∈ layout.ledger, node.1 ≠ id.index := by
      rintro ⟨slot, other⟩ listed
      obtain ⟨tower, member, rfl, _⟩ := Layout.mem_ledger.mp listed
      exact kept.towers_apart left tower (split ▸ member)
    refine ⟨Insert.insert (id.index, height.levels) layout.ledger, ?_, ?_⟩
    · simp only [List.foldlM_cons, List.foldlM_nil, Event.enter, if_pos free, Option.bind_eq_bind,
        Option.bind_some, Option.pure_def]
    · ext ⟨slot, other⟩
      rw [if_neg nofun, Finset.mem_insert, Layout.mem_ledger, Layout.mem_ledger, split, left]
      simp only [List.perm_middle.mem_iff, List.mem_cons, exists_eq_or_imp, Prod.mk.injEq]
      exact or_congr (and_congr eq_comm eq_comm) Iff.rfl
  | @razed before after id height split left _ _ =>
    have there : (id.index, height) ∈ layout.ledger :=
      Layout.mem_ledger.mpr ⟨(id, height), split ▸ List.mem_append_cons_self, rfl, rfl⟩
    refine ⟨layout.ledger.filter (·.1 ≠ id.index), ?_, ?_⟩
    · simp only [List.foldlM_cons, List.foldlM_nil, Event.enter, if_pos there, Option.bind_eq_bind,
        Option.bind_some, Option.pure_def]
    · ext ⟨slot, other⟩
      rw [if_neg nofun, Finset.mem_filter, Layout.mem_ledger, Layout.mem_ledger, split, left]
      simp only [List.perm_middle.mem_iff, List.mem_cons, exists_eq_or_imp]
      constructor
      · rintro ⟨⟨rfl, _⟩ | there, apart⟩
        · exact absurd rfl apart
        · exact there
      · rintro ⟨tower, listed, rfl, same⟩
        exact ⟨Or.inr ⟨tower, listed, rfl, same⟩, h.towers_apart split tower listed⟩

end Map

/-! ### Cursors -/

namespace Cursor

def Call.Resolves : Call → Prop
  | .seek _ => False
  | _ => True

def Stranded (cursor : Cursor) (map : Map σ α) (id : NodeId) : Prop :=
  cursor.map = map.id ∧ cursor.position = .positioned id ∧ map.heightOf? id = none

/-- The events tell that the cursor's node is gone, and where it was, if and only if it is gone. -/
structure Reports (cursor : Cursor) (map : Map σ α) (events : List Event) : Prop where
  stranded : ∀ id, cursor.Stranded map id → events = [.cursorRemoved id.index]
  otherwise : (∀ id, ¬ cursor.Stranded map id) → events = []

variable {cursor : Cursor} {map : Map σ α} {layout : Layout α}

theorem onward_reports (h : map.Holds layout) (cursor : Cursor) :
    cursor.Reports map (cursor.onward map.id layout.entries).trace.events := by
  rcases onward_cases cursor map.id layout.entries with
    ⟨foreign, same⟩ | ⟨_, position, same⟩ | ⟨id, own, position, gone, same⟩ |
      ⟨before, e, after, own, position, split, _, same⟩
  · rw [same]
    exact { stranded := fun _ stranded => absurd stranded.1 foreign, otherwise := fun _ => rfl }
  · rw [same]
    refine { stranded := fun id stranded => ?_, otherwise := fun _ => rfl }
    nomatch position.symm.trans stranded.2.1
  · have absent : map.heightOf? id = none := h.heightOf?_eq_none fun tower listed => by
      obtain ⟨e, member, rfl⟩ := List.mem_map.mp listed
      exact gone e member
    rw [same]
    refine { stranded := fun other stranded => ?_, otherwise := fun never => ?_ }
    · obtain rfl := Position.positioned.inj (position.symm.trans stranded.2.1)
      rfl
    · exact absurd ⟨own, position, absent⟩ (never id)
  · have present : map.heightOf? e.id = some e.height :=
      h.heightOf?_eq_some.mpr (List.mem_map_of_mem (split ▸ List.mem_append_cons_self))
    rw [same]
    refine { stranded := fun other stranded => ?_, otherwise := fun _ => rfl }
    obtain rfl := Position.positioned.inj (position.symm.trans stranded.2.1)
    nomatch present.symm.trans stranded.2.2

theorem reacts_reports (h : map.Holds layout) (cursor : Cursor) {call : Call} (resolves : call.Resolves) :
    cursor.Reports map (cursor.reacts map layout call).2.trace.events := by
  cases call with
  | seek key => exact resolves.elim
  | _ => exact onward_reports h cursor

theorem reacts_ofCursors (cursor : Cursor) (map : Map σ α) (layout : Layout α) (call : Call) :
    OfCursors (cursor.reacts map layout call).2.trace.events := by
  have found : OfCursors (cursor.onward map.id layout.entries).trace.events := by
    rcases onward_cases cursor map.id layout.entries with
      ⟨_, same⟩ | ⟨_, _, same⟩ | ⟨id, _, _, _, same⟩ | ⟨_, _, _, _, _, _, _, same⟩
    · exact same ▸ OfCursors.nil
    · exact same ▸ OfCursors.nil
    · rw [same]
      exact fun event listed => ⟨id.index, List.mem_singleton.mp listed⟩
    · exact same ▸ OfCursors.nil
  cases call with
  | seek key =>
    by_cases own : cursor.map = map.id
    · simp only [reacts, moving, Reply.map, own, ne_eq, not_true, if_false, OfCursors.nil]
    · simp only [reacts, moving, Reply.map, own, ne_eq, not_false_eq_true, if_true, OfCursors.nil]
  | _ => exact found

end Cursor

/-! ### Sessions -/

namespace Session

variable {session next last : Session σ α} {use : Use α} {uses : List (Use α)} {response : Response α}
  {responses : List (Response α)} {ledger : Ledger}

def ShownBy (session : Session σ α) (ledger : Ledger) : Prop :=
  ∀ map, session.maps = [some map] → ledger.Shows map

/-- The response reports one node for a key that went in or out, with the number of entries after the use,
and no node otherwise. -/
structure Logged (use : Use α) (next : Session σ α) (response : Response α) : Prop where
  raises : use.deed response.result = .raises → ∃ map slot height,
    next.maps = [some map] ∧ response.trace.events = [.spliced slot height map.len]
  razes : use.deed response.result = .razes → ∃ map slot height,
    next.maps = [some map] ∧ response.trace.events = [.unspliced slot height map.len]
  spares : use.deed response.result ≠ .raises → use.deed response.result ≠ .razes →
    OfCursors response.trace.events

def Calm (outcome : Except Fault (Session σ α × Response α)) : Prop :=
  ∀ next response, outcome = .ok (next, response) → OfCursors response.trace.events

theorem calm_ok (quiet : OfCursors response.trace.events) : Calm (.ok (next, response)) := by
  intro _ _ same
  obtain ⟨_, rfl⟩ := Prod.mk.inj (Except.ok.inj same)
  exact quiet

theorem Sound.calm_withMap (sound : session.Sound) (index : Nat)
    {use : Map σ α → Except Fault (Session σ α × Response α)}
    (calm : ∀ map layout, map.Holds layout → Calm (use map)) : Calm (session.withMap index use) :=
  sound.withMap_cases index (calm_ok OfCursors.nil) fun map layout _ h => calm map layout h

theorem calm_withCursor (session : Session σ α) (index : Nat)
    {use : Cursor → Except Fault (Session σ α × Response α)} (calm : ∀ cursor, Calm (use cursor)) :
    Calm (session.withCursor index use) :=
  session.withCursor_cases index (calm_ok OfCursors.nil) fun cursor _ => calm cursor

variable [DrawSource σ]

theorem Sound.read_calm (sound : session.Sound) (reading : use.IsReading) :
    Calm (session.step use.command) := by
  cases use with
  | change _ | insertAll _ _ _ | removeAll _ | takeValues | discard => exact reading.elim
  | query query =>
    refine sound.calm_withMap 0 fun map layout h => ?_
    rw [h.answer_eq query]
    exact calm_ok OfCursors.nil
  | begin =>
    refine sound.calm_withMap 0 fun map layout h => ?_
    rw [Cursor.begin_eq h]
    exact calm_ok OfCursors.nil
  | call number call =>
    refine sound.calm_withMap 0 fun map layout h => session.calm_withCursor number fun cursor => ?_
    rw [Cursor.call_eq h]
    exact calm_ok (cursor.reacts_ofCursors map layout call)
  | copyCursor number => exact session.calm_withCursor number fun cursor => calm_ok OfCursors.nil
  | sameCursor number other =>
    exact session.calm_withCursor number fun cursor => session.calm_withCursor other fun second =>
      calm_ok OfCursors.nil
  | isExhausted number => exact session.calm_withCursor number fun cursor => calm_ok OfCursors.nil

theorem Effect.logged (effect : Effect session use next response)
    (calm : use.IsReading → OfCursors response.trace.events) : Logged use next response := by
  cases effect with
  | read reading _ _ _ =>
    have spares := Use.deed_of_reading reading response.result
    exact
      { raises := fun raises => (nomatch spares.symm.trans raises)
        razes := fun razes => (nomatch spares.symm.trans razes)
        spares := fun _ _ => calm reading }
  | gone gone =>
    have none_raised : use.deed (.error .noMap) ≠ .raises ∧ use.deed (.error .noMap) ≠ .razes := by
      cases use with
      | change change => cases change <;> exact ⟨nofun, nofun⟩
      | _ => exact ⟨nofun, nofun⟩
    exact
      { raises := fun raises => absurd raises none_raised.1
        razes := fun razes => absurd razes none_raised.2
        spares := fun _ _ => OfCursors.nil }
  | @changed change map after layout rest reply hosted _ _ turn _ =>
    have here := maps_setMap hosted after
    obtain ⟨raised, razed, silent⟩ := turn.stirs.reports
    refine { raises := fun raises => ?_, razes := fun razes => ?_, spares := fun not_raised not_razed => ?_ }
    · obtain ⟨slot, height, events⟩ := raised raises
      exact ⟨after, slot, height, here, events⟩
    · obtain ⟨slot, height, events⟩ := razed razes
      exact ⟨after, slot, height, here, events⟩
    · exact (silent not_raised not_razed) ▸ OfCursors.nil
  | taken _ _ | discarded _ _ =>
    exact { raises := nofun, razes := nofun, spares := fun _ _ => OfCursors.nil }

theorem Effect.enters (effect : Effect session use next response)
    (calm : use.IsReading → OfCursors response.trace.events) (shown : session.ShownBy ledger) :
    ∃ entered, response.trace.events.foldlM Event.enter ledger = some entered ∧
      next.ShownBy (if use.deed response.result = .clears then ∅ else entered) := by
  cases effect with
  | read reading maps _ _ =>
    refine ⟨ledger, (calm reading).enter ledger, fun map hosted => ?_⟩
    rw [Use.deed_of_reading reading, if_neg nofun]
    exact shown map (maps.symm.trans hosted)
  | gone gone => exact ⟨ledger, rfl, fun map hosted => nomatch gone.symm.trans hosted⟩
  | @changed change map after layout rest reply hosted h _ turn kept =>
    obtain rfl := h.ledger_eq (shown map hosted)
    obtain ⟨entered, done, same⟩ := turn.stirs.enters h kept
    refine ⟨entered, done, fun other here => ?_⟩
    obtain rfl : after = other := by simpa using (maps_setMap hosted after).symm.trans here
    rw [Reply.map, same]
    exact kept.shows
  | taken hosted _ | discarded hosted _ =>
    exact ⟨ledger, rfl, fun map here => nomatch (maps_dropMap hosted).symm.trans here⟩

theorem Single.replays (single : session.Single) (calls : ∀ use ∈ uses, use.IsCall)
    (run : session.run (uses.map Use.command) = .ok (last, responses)) (shown : session.ShownBy ledger) :
    ∃ final, ledger.replay (uses.zip responses) = some final ∧ last.ShownBy final := by
  induction uses generalizing session responses ledger with
  | nil =>
    obtain ⟨rfl, rfl⟩ := Prod.mk.inj (Except.ok.inj run)
    exact ⟨ledger, rfl, shown⟩
  | cons use uses ih =>
    obtain ⟨next, response, later, stepped, effect, kept, calls, ran, rfl⟩ := single.run_cons calls run
    obtain ⟨entered, done, shown⟩ :=
      effect.enters (fun reading => single.sound.read_calm reading next response stepped) shown
    obtain ⟨final, replayed, shown⟩ := ih kept calls ran shown
    refine ⟨final, ?_, shown⟩
    rw [List.zip_cons_cons, Ledger.replay, done]
    exact replayed

/-- After any uses of a new map, whatever its order, the log can be replayed from nothing: no node comes into
a slot that is taken, and each that leaves was there with its height. What is then in the ledger are the nodes
of the map, as many as it counts. Every further use that brings a key in or takes one out reports one node,
and no other does. A cursor, of this map or of another one, that looks for its node reports its slot if and
only if it is one of this map and the node is gone. -/
theorem log_faithful {memory : Memory} {blueprint : Blueprint} {source : σ} {id : Nat} {start : Map σ α}
    (built : Map.build memory blueprint source id = .ok start) {uses : List (Use α)}
    (calls : ∀ use ∈ uses, use.IsCall) :
    ∃ last responses ledger, (hosting start).run (uses.map Use.command) = .ok (last, responses) ∧
      Ledger.replay ∅ (uses.zip responses) = some ledger ∧
      (∀ use : Use α, use.IsCall → ∃ next response, last.step use.command = .ok (next, response) ∧
        Logged use next response) ∧
      ∀ map, last.maps = [some map] → ledger.Shows map ∧ ledger.card = map.len ∧ ∀ cursor : Cursor,
        (∀ call, call.Resolves → ∃ moved reply, cursor.call map call = .ok (moved, reply) ∧
          cursor.Reports map reply.trace.events) ∧
        ∀ predicate, ∃ reply, cursor.holds map predicate = .ok reply ∧
          cursor.Reports map reply.trace.events := by
  have holds := (Map.build_holds built).1
  have single := single_hosting holds
  obtain ⟨last, responses, run, single'⟩ := single.run_ok calls
  have empty : (hosting start).ShownBy ∅ := by
    intro map hosted
    obtain rfl : start = map := by simpa [hosting] using hosted
    exact holds.shows
  obtain ⟨ledger, replayed, shown⟩ := single.replays calls run empty
  refine ⟨last, responses, ledger, run, replayed, fun use call => ?_, fun map hosted => ?_⟩
  · obtain ⟨next, response, stepped, effect, _⟩ := single'.step_ok call
    exact ⟨next, response, stepped,
      effect.logged fun reading => single'.sound.read_calm reading next response stepped⟩
  · obtain ⟨layout, h⟩ := single'.sound map (hosted ▸ List.mem_singleton.mpr rfl)
    refine ⟨shown map hosted, ?_, fun cursor => ⟨fun call resolves => ?_, fun predicate => ?_⟩⟩
    · rw [h.ledger_eq (shown map hosted), h.card_ledger]
    · exact ⟨_, _, Cursor.call_eq h cursor call, cursor.reacts_reports h resolves⟩
    · exact ⟨_, Cursor.holds_eq h cursor predicate, cursor.onward_reports h⟩

def reported : List (Use Nat) :=
  [.change (.insert [1] 10 {}), .begin, .change (.insert [2] 20 { refuseAt := 1 }), .change (.remove [1]),
    .change (.insert [3] 30 {}), .call 0 .entry, .change (.insert [4] 40 {}), .change .clear,
    .change (.insert [5] 50 {}), .change (.erase [6])]

theorem log_faithful_reported :
    ∃ (start : Map Script Nat) (last : Session Script Nat) (responses : List (Response Nat)),
      Map.build {} { config := { keySize := 1, maxHeight := { levels := 4 } } }
        { values := [0, 0, 0xFFFFFFFF] } 0 = .ok start ∧
      (∀ use ∈ reported, use.IsCall) ∧
      (hosting start).run (reported.map Use.command) = .ok (last, responses) ∧
      responses.flatMap (·.trace.events) =
        [.spliced 1 4 1, .unspliced 1 4 0, .spliced 1 1 1, .cursorRemoved 1, .spliced 2 4 2, .spliced 2 4 1] ∧
      Ledger.replay ∅ (reported.zip responses) = some {(2, 4)} ∧
      ∀ map, last.maps = [some map] → Ledger.Shows {(2, 4)} map ∧ map.len = 1 := by
  have built : (Map.build {} { config := { keySize := 1, maxHeight := { levels := 4 } } }
      { values := [0, 0, 0xFFFFFFFF] } 0 : Except Error (Map Script Nat)) = .ok _ := rfl
  have calls : ∀ use ∈ reported, use.IsCall := by simp [reported, Use.IsCall]
  obtain ⟨last, responses, ledger, run, replayed, _, shown⟩ := log_faithful built calls
  have events : responses.flatMap (·.trace.events) =
      [.spliced 1 4 1, .unspliced 1 4 0, .spliced 1 1 1, .cursorRemoved 1, .spliced 2 4 2, .spliced 2 4 1] := by
    obtain ⟨_, rfl⟩ := Prod.mk.inj (Except.ok.inj run)
    rfl
  have final : Ledger.replay ∅ (reported.zip responses) = some {(2, 4)} := by
    obtain ⟨_, rfl⟩ := Prod.mk.inj (Except.ok.inj run)
    rfl
  obtain rfl := Option.some.inj (replayed.symm.trans final)
  refine ⟨_, last, responses, built, calls, run, events, final, fun map hosted => ?_⟩
  obtain ⟨shows, card, _⟩ := shown map hosted
  exact ⟨shows, card.symm⟩

end Session

end SkipList
