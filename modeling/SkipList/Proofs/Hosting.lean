import SkipList.Proofs.TwoRuns

/-!
# A session with one map

What each use of the only map does to it: a change is made, a map that is given up is gone, and everything
else leaves the map as it is and drops nothing.
-/

namespace SkipList

variable {σ α : Type}

def Use.IsReading : Use α → Prop
  | .change _ | .insertAll _ _ _ | .removeAll _ | .takeValues | .discard => False
  | _ => True

def Use.IsCall : Use α → Prop
  | .insertAll _ _ _ | .removeAll _ => False
  | _ => True

def Use.Supplied (keySize slots : Nat) : Use α → Prop
  | .change made => made.Supplied keySize slots
  | _ => True

namespace Cursor

/-- A call through a cursor is refused only because the cursor is invalid. -/
theorem reacts_error {cursor : Cursor} {map : Map σ α} {layout : Layout α} {call : Call} {error : Error}
    (refused : (cursor.reacts map layout call).2.result = .error error) : error = .invalidatedCursor := by
  have lost {error : Error} (refused : (cursor.onward map.id layout.entries).result = .error error) :
      error = .invalidatedCursor := by
    rcases cursor.onward_cases map.id layout.entries with
      ⟨_, same⟩ | ⟨_, _, same⟩ | ⟨_, _, _, _, same⟩ | ⟨_, _, _, _, _, _, _, same⟩ <;> rw [same] at refused
    · exact (Except.error.inj refused).symm
    · cases refused
    · exact (Except.error.inj refused).symm
    · cases refused
  have mapped {β γ : Type} {f : β → γ} {reply : Reply α (Except Error β)}
      (refused : (reply.map (Except.map f)).result = .error error) : reply.result = .error error := by
    cases same : reply.result with
    | error _ =>
      simp only [Reply.map, same, Except.map] at refused
      exact congrArg _ (Except.error.inj refused)
    | ok _ => simp [Reply.map, same, Except.map] at refused
  cases call with
  | key | value | entry | peekNext | increment | satisfies _ => exact lost (mapped (mapped refused))
  | seek key =>
    have refused := mapped refused
    split at refused
    · exact (Except.error.inj refused).symm
    · cases refused
  | isValid | walk => cases refused

theorem reacts_dropped (cursor : Cursor) (map : Map σ α) (layout : Layout α) (call : Call) :
    (cursor.reacts map layout call).2.trace.dropped = [] := by
  have onward := (cursor.onward_silent map.id layout.entries).2
  cases call with
  | seek key =>
    by_cases own : cursor.map = map.id
    · simp only [reacts, moving, Reply.map, own, ne_eq, not_true, if_false]
    · simp only [reacts, moving, Reply.map, own, ne_eq, not_false_eq_true, if_true]
  | _ => exact onward

end Cursor

namespace Session

/-- The call was not short of memory or of slots. -/
def Granted (response : Response α) : Prop :=
  ∀ error : Error, error.isShortage = true → response.result ≠ .error (.error error)

theorem refused_reply {reply : Reply α (Except Error (Answer α))} {error : Error}
    (refused : (reply.map (Except.mapError Refusal.error)).result = .error (.error error)) :
    reply.result = .error error := by
  cases same : reply.result with
  | ok _ => simp [Reply.map, same, Except.mapError] at refused
  | error _ =>
    simp only [Reply.map, same, Except.mapError, Except.error.injEq, Refusal.error.injEq] at refused
    exact congrArg _ refused

theorem granted_reply_iff {reply : Reply α (Except Error (Answer α))} :
    Granted (reply.map (Except.mapError .error)) ↔
      ∀ error : Error, error.isShortage = true → reply.result ≠ .error error := by
  refine ⟨fun granted error short refused => granted error short ?_,
    fun granted error short refused => granted error short (refused_reply refused)⟩
  simp only [Reply.map, refused]
  rfl

theorem granted_ok {answer : Answer α} {trace : Trace α} :
    Granted ({ result := .ok answer, trace } : Response α) :=
  fun _ _ => nofun

variable {session : Session σ α}

/-- A session that has one map, or has given it up. -/
structure Single (session : Session σ α) : Prop where
  sound : session.Sound
  one : ∃ map, session.maps = [map]

theorem single_hosting {map : Map σ α} {layout : Layout α} (h : map.Holds layout) :
    (hosting map).Single := by
  refine { sound := fun other listed => ?_, one := ⟨_, rfl⟩ }
  obtain rfl := Option.some.inj (List.mem_singleton.mp listed)
  exact ⟨layout, h⟩

/-- The step is taken, leaves every map as it is, drops nothing and needs no room. -/
def Unmoved (session : Session σ α) (outcome : Except Fault (Session σ α × Response α)) : Prop :=
  ∃ next response, outcome = .ok (next, response) ∧ next.maps = session.maps ∧
    response.trace.dropped = [] ∧ Granted response

theorem Sound.unmoved_withMap (sound : session.Sound) (index : Nat)
    {use : Map σ α → Except Fault (Session σ α × Response α)}
    (unmoved : ∀ map layout, map.Holds layout → Unmoved session (use map)) :
    Unmoved session (session.withMap index use) :=
  sound.withMap_cases index ⟨session, _, rfl, rfl, rfl, fun _ _ => nofun⟩ fun map layout _ h =>
    unmoved map layout h

theorem unmoved_withCursor (session : Session σ α) (index : Nat)
    {use : Cursor → Except Fault (Session σ α × Response α)}
    (unmoved : ∀ cursor, Unmoved session (use cursor)) :
    Unmoved session (session.withCursor index use) :=
  session.withCursor_cases index ⟨session, _, rfl, rfl, rfl, fun _ _ => nofun⟩ fun cursor _ => unmoved cursor

variable [DrawSource σ]

theorem Sound.read_ok (sound : session.Sound) {use : Use α} (reading : use.IsReading) :
    Unmoved session (session.step use.command) := by
  cases use with
  | change _ | insertAll _ _ _ | removeAll _ | takeValues | discard => exact reading.elim
  | query query =>
    refine sound.unmoved_withMap 0 fun map layout h => ?_
    exact ⟨session, _, by rw [h.answer_eq query]; rfl, rfl, rfl, granted_ok⟩
  | begin =>
    refine sound.unmoved_withMap 0 fun map layout h => ?_
    exact ⟨session.addCursor _, _, by rw [Cursor.begin_eq h]; rfl, rfl, rfl, granted_ok⟩
  | call number call =>
    refine sound.unmoved_withMap 0 fun map layout h => session.unmoved_withCursor number fun cursor => ?_
    refine ⟨session.setCursor number _, _, by rw [Cursor.call_eq h]; rfl, rfl,
      cursor.reacts_dropped map layout call, granted_reply_iff.mpr fun error short refused => ?_⟩
    rw [Cursor.reacts_error refused] at short
    nomatch short
  | copyCursor number =>
    exact session.unmoved_withCursor number fun cursor => ⟨session.addCursor cursor, _, rfl, rfl, rfl, granted_ok⟩
  | sameCursor number other =>
    exact session.unmoved_withCursor number fun cursor => session.unmoved_withCursor other fun second =>
      ⟨session, _, rfl, rfl, rfl, granted_ok⟩
  | isExhausted number =>
    exact session.unmoved_withCursor number fun cursor => ⟨session, _, rfl, rfl, rfl, granted_ok⟩

inductive Effect (session : Session σ α) : Use α → Session σ α → Response α → Prop where
  | read {use : Use α} {next : Session σ α} {response : Response α} (reading : use.IsReading)
      (maps : next.maps = session.maps) (dropped : response.trace.dropped = [])
      (granted : Granted response) :
      Effect session use next response
  | gone {use : Use α} (gone : session.maps = [none]) :
      Effect session use session { result := .error .noMap }
  | changed {change : Change α} {map next : Map σ α} {layout rest : Layout α}
      {reply : Reply α (Except Error (Answer α))} (hosted : session.maps = [some map])
      (h : map.Holds layout) (made : map.apply change = .ok (next, reply))
      (turn : Map.Turn map layout change next rest reply) (kept : next.Holds rest) :
      Effect session (.change change) (session.setMap 0 next) (reply.map (Except.mapError .error))
  | taken {map : Map σ α} {layout : Layout α} (hosted : session.maps = [some map])
      (h : map.Holds layout) :
      Effect session .takeValues (session.dropMap 0)
        { result := .ok (.values (layout.entries.map (·.value))) }
  | discarded {map : Map σ α} {layout : Layout α} (hosted : session.maps = [some map])
      (h : map.Holds layout) :
      Effect session .discard (session.dropMap 0)
        { result := .ok .done, trace := { dropped := map.arena.storedValues } }

theorem Effect.gone_next {use : Use α} {next : Session σ α} {response : Response α}
    (effect : Effect session use next response)
    (given_up : session.maps = [none] ∨ use = .takeValues ∨ use = .discard) : next.maps = [none] := by
  cases effect with
  | read reading maps _ _ =>
    rcases given_up with gone | rfl | rfl
    · exact maps.trans gone
    · exact reading.elim
    · exact reading.elim
  | gone gone => exact gone
  | changed hosted _ _ _ _ =>
    rcases given_up with gone | same | same
    · rw [gone] at hosted; nomatch hosted
    · nomatch same
    · nomatch same
  | taken hosted _ | discarded hosted _ => exact maps_dropMap hosted

/-- A map that is there after a use was there before, and the use has read it or changed it. -/
theorem Effect.of_hosted {use : Use α} {next : Session σ α} {response : Response α}
    (effect : Effect session use next response) {map : Map σ α} (hosted : next.maps = [some map]) :
    ∃ before, session.maps = [some before] ∧
      ((use.IsReading ∧ map = before) ∨
        ∃ change layout rest reply, use = .change change ∧ before.Holds layout ∧
          Map.Turn before layout change map rest reply ∧ map.Holds rest ∧
          response = reply.map (Except.mapError .error)) := by
  cases effect with
  | read reading maps _ _ => exact ⟨map, maps.symm.trans hosted, Or.inl ⟨reading, rfl⟩⟩
  | gone gone =>
    rw [gone] at hosted
    nomatch hosted
  | @changed change before after layout rest reply held h _ turn kept =>
    rw [maps_setMap held] at hosted
    obtain rfl : after = map := by simpa using hosted
    exact ⟨before, held, Or.inr ⟨change, layout, rest, reply, rfl, h, turn, kept, rfl⟩⟩
  | taken held _ | discarded held _ =>
    rw [maps_dropMap held] at hosted
    nomatch hosted

/-- A use gives up no slot and makes at most one more. -/
theorem Effect.grows {use : Use α} {next : Session σ α} {response : Response α}
    (effect : Effect session use next response) {map : Map σ α} (hosted : next.maps = [some map]) :
    ∃ before, session.maps = [some before] ∧ map.keySize = before.keySize ∧
      before.arena.slots.size ≤ map.arena.slots.size ∧
      map.arena.slots.size ≤ before.arena.slots.size + 1 := by
  obtain ⟨before, held, ⟨_, rfl⟩ | ⟨change, layout, rest, reply, _, h, turn, kept, _⟩⟩ :=
    effect.of_hosted hosted
  · exact ⟨map, held, rfl, Nat.le_refl _, Nat.le_succ _⟩
  · have grows := turn.grows
    have size := h.arena.size_eq
    have size' := kept.arena.size_eq
    exact ⟨before, held, turn.frame.2.1, by omega, by omega⟩

/-- A use for which memory and numbers suffice is not short of room. -/
theorem Effect.granted {use : Use α} {next : Session σ α} {response : Response α}
    (effect : Effect session use next response) {keySize slots : Nat} (supplied : use.Supplied keySize slots)
    (few : ∀ map, session.maps = [some map] → map.keySize = keySize ∧ map.arena.slots.size < slots)
    (numbered : slots ≤ Arena.slotLimit) : Granted response := by
  cases effect with
  | read _ _ _ granted => exact granted
  | gone _ => exact fun _ _ => nofun
  | changed hosted h _ turn _ =>
    obtain ⟨rfl, room⟩ := few _ hosted
    rw [h.arena.size_eq] at room
    exact granted_reply_iff.mpr fun error short => turn.granted supplied (by omega) (by omega) short
  | taken _ _ | discarded _ _ => exact granted_ok

theorem Effect.spent {use : Use α} {next : Session σ α} {response : Response α}
    (effect : Effect session use next response) (full : response.result = .error (.error .full)) :
    ∃ map, session.maps = [some map] ∧ Arena.slotLimit ≤ map.arena.slots.size := by
  cases effect with
  | read _ _ _ granted => exact absurd full (granted .full rfl)
  | @changed change map after layout rest reply hosted h _ turn _ =>
    refine ⟨map, hosted, ?_⟩
    rw [h.arena.size_eq]
    exact (turn.spent (refused_reply full)).2
  | _ => nomatch full

theorem Single.withMap (single : session.Single) {use : Use α}
    {run : Map σ α → Except Fault (Session σ α × Response α)}
    (runs : ∀ map layout, session.maps = [some map] → map.Holds layout →
      ∃ next response, run map = .ok (next, response) ∧ Effect session use next response ∧ next.Single) :
    ∃ next response, session.withMap 0 run = .ok (next, response) ∧ Effect session use next response ∧
      next.Single := by
  obtain ⟨only, hosted⟩ := single.one
  cases only with
  | none =>
    exact ⟨session, _, withMap_of_gone hosted run, .gone hosted, single⟩
  | some map =>
    obtain ⟨layout, h⟩ := single.sound map (hosted ▸ List.mem_singleton.mpr rfl)
    rw [withMap_of_hosted hosted]
    exact runs map layout hosted h

theorem Single.step_ok (single : session.Single) {use : Use α} (call : use.IsCall) :
    ∃ next response, session.step use.command = .ok (next, response) ∧
      Effect session use next response ∧ next.Single := by
  by_cases reading : use.IsReading
  · obtain ⟨next, response, stepped, maps, dropped, granted⟩ := single.sound.read_ok reading
    obtain ⟨only, hosted⟩ := single.one
    refine ⟨next, response, stepped, .read reading maps dropped granted,
      { sound := fun map listed => single.sound map (maps ▸ listed), one := ⟨only, maps.trans hosted⟩ }⟩
  · cases use with
    | change change =>
      refine single.withMap fun map layout hosted h => ?_
      obtain ⟨next, rest, reply, made, turn, kept⟩ := h.apply_ok change
      refine ⟨_, _, by rw [made]; rfl, .changed hosted h made turn kept,
        { sound := single.sound.setMap 0 kept, one := ⟨some next, maps_setMap hosted next⟩ }⟩
    | takeValues =>
      refine single.withMap fun map layout hosted h => ?_
      refine ⟨_, _, by rw [h.takeValues_eq]; rfl, .taken hosted h,
        { sound := single.sound.dropMap 0, one := ⟨none, maps_dropMap hosted⟩ }⟩
    | discard =>
      refine single.withMap fun map layout hosted h => ?_
      refine ⟨_, _, rfl, .discarded hosted h,
        { sound := single.sound.dropMap 0, one := ⟨none, maps_dropMap hosted⟩ }⟩
    | insertAll _ _ _ | removeAll _ => exact call.elim
    | _ => exact absurd trivial reading

theorem Single.run_cons (single : session.Single) {use : Use α} {uses : List (Use α)}
    (calls : ∀ made ∈ use :: uses, made.IsCall) {last : Session σ α} {responses : List (Response α)}
    (run : session.run ((use :: uses).map Use.command) = .ok (last, responses)) :
    ∃ next response later, session.step use.command = .ok (next, response) ∧
      Effect session use next response ∧ next.Single ∧ (∀ made ∈ uses, made.IsCall) ∧
      next.run (uses.map Use.command) = .ok (last, later) ∧ responses = response :: later := by
  obtain ⟨next, response, stepped, effect, kept⟩ := single.step_ok (calls use List.mem_cons_self)
  obtain ⟨_, _, later, stepped', ran, rfl⟩ := Session.run_cons run
  obtain ⟨rfl, rfl⟩ := Prod.mk.inj (Except.ok.inj (stepped.symm.trans stepped'))
  exact ⟨next, response, later, stepped, effect, kept,
    fun made listed => calls made (List.mem_cons_of_mem _ listed), ran, rfl⟩

theorem Single.run_ok (single : session.Single) {uses : List (Use α)} (calls : ∀ use ∈ uses, use.IsCall) :
    ∃ last responses, session.run (uses.map Use.command) = .ok (last, responses) ∧ last.Single := by
  induction uses generalizing session with
  | nil => exact ⟨session, [], rfl, single⟩
  | cons use uses ih =>
    obtain ⟨next, response, stepped, _, kept⟩ := single.step_ok (calls use List.mem_cons_self)
    obtain ⟨last, responses, run, single'⟩ :=
      ih kept fun made listed => calls made (List.mem_cons_of_mem _ listed)
    exact ⟨last, response :: responses, run_of_step stepped run, single'⟩

theorem Single.run_slots (single : session.Single) {uses : List (Use α)} (calls : ∀ use ∈ uses, use.IsCall)
    {last : Session σ α} {responses : List (Response α)}
    (run : session.run (uses.map Use.command) = .ok (last, responses)) {map : Map σ α}
    (hosted : last.maps = [some map]) : ∃ before, session.maps = [some before] ∧
      before.arena.slots.size ≤ map.arena.slots.size := by
  induction uses generalizing session responses with
  | nil =>
    obtain ⟨rfl, _⟩ := Prod.mk.inj (Except.ok.inj run)
    exact ⟨map, hosted, Nat.le_refl _⟩
  | cons use uses ih =>
    obtain ⟨next, response, later, _, effect, kept, calls, ran, rfl⟩ := single.run_cons calls run
    obtain ⟨mid, here, more⟩ := ih kept calls ran
    obtain ⟨before, held, _, kept_slots, _⟩ := effect.grows here
    exact ⟨before, held, kept_slots.trans more⟩

/-- No use of a run is short of room if its requests for memory are granted for as many slots as there are
and one more for each use, and if the numbers of slots reach as far. -/
theorem Single.run_granted (single : session.Single) {uses : List (Use α)} {keySize slots : Nat}
    (calls : ∀ use ∈ uses, use.IsCall) (supplied : ∀ use ∈ uses, use.Supplied keySize slots)
    (few : ∀ map, session.maps = [some map] →
      map.keySize = keySize ∧ map.arena.slots.size + uses.length ≤ slots)
    (numbered : slots ≤ Arena.slotLimit) {last : Session σ α} {responses : List (Response α)}
    (run : session.run (uses.map Use.command) = .ok (last, responses)) :
    ∀ response ∈ responses, Granted response := by
  induction uses generalizing session responses with
  | nil =>
    obtain ⟨_, rfl⟩ := Prod.mk.inj (Except.ok.inj run)
    nofun
  | cons use uses ih =>
    obtain ⟨next, response, later, _, effect, kept, calls, ran, rfl⟩ := single.run_cons calls run
    have now : Granted response := effect.granted (supplied use List.mem_cons_self)
      (fun map hosted => ⟨(few map hosted).1, Nat.lt_of_lt_of_le (by simp) (few map hosted).2⟩) numbered
    have then_on : ∀ response ∈ later, Granted response := by
      refine ih kept calls (fun use listed => supplied use (List.mem_cons_of_mem _ listed)) ?_ ran
      intro map hosted
      obtain ⟨before, held, size, _, grows⟩ := effect.grows hosted
      obtain ⟨same, room⟩ := few before held
      rw [List.length_cons] at room
      exact ⟨size.trans same, by omega⟩
    exact List.forall_mem_cons.mpr ⟨now, then_on⟩

end Session

end SkipList
