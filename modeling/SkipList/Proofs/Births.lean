import SkipList.Proofs.Towers

/-!
# Draws and births

A map takes one draw for each new key, whether or not there is room for it, and none for anything else. A
node gets its height from the draw of the use that brings it in and keeps it for as long as it is there.
`Effect.fate` is the step, `Single.origin` the run.
-/

namespace SkipList

variable {σ α : Type} [DrawSource σ]

theorem DrawSource.count_skip {count : σ → Nat} (counts : ∀ s, count (DrawSource.next s).2 = count s + 1)
    (n : Nat) (source : σ) : count (skip n source) = count source + n := by
  induction n with
  | zero => rfl
  | succ n ih => rw [skip, counts, ih, Nat.add_assoc]

namespace Session

def times (deed : Deed) (uses : List (Use α)) (responses : List (Response α)) : Nat :=
  (uses.zip responses).countP fun made => made.1.deed made.2.result = deed

/-- The number of new keys that went in, of those that had no memory and of those that had no slot. -/
def drawn (uses : List (Use α)) (responses : List (Response α)) : Nat :=
  times .raises uses responses + times .fails uses responses + times .lacks uses responses

theorem times_cons (deed : Deed) (use : Use α) (uses : List (Use α)) (response : Response α)
    (responses : List (Response α)) : times deed (use :: uses) (response :: responses) =
      times deed uses responses + if use.deed response.result = deed then 1 else 0 := by
  simp only [times, List.zip_cons_cons, List.countP_cons, decide_eq_true_eq]

theorem drawn_cons (use : Use α) (uses : List (Use α)) (response : Response α) (responses : List (Response α)) :
    drawn (use :: uses) (response :: responses) =
      drawn uses responses + (use.deed response.result).draws := by
  simp only [drawn, times_cons]
  cases use.deed response.result <;> simp [Deed.draws] <;> omega

def heightOf? (session : Session σ α) (id : NodeId) : Option Nat :=
  (session.map? 0).bind (·.heightOf? id)

/-- The map is given up, or the identity is past. -/
def Lost (session : Session σ α) (id : NodeId) : Prop :=
  session.maps = [none] ∨
    ∃ map layout, session.maps = [some map] ∧ Map.Holds map layout ∧ layout.Past id

/-- After each number of uses of the run the node has the height that `life` says. -/
def Lives (session : Session σ α) (uses : List (Use α)) (responses : List (Response α)) (id : NodeId)
    (life : Nat → Option Nat) : Prop :=
  ∀ n ≤ uses.length, ∃ mid,
    session.run ((uses.take n).map Use.command) = .ok (mid, responses.take n) ∧ mid.heightOf? id = life n

/-- The use at that place of the run brings the node in: it was not there before, gets its height from the
draw that comes next, and keeps it from then on. -/
structure Born (session : Session σ α) (uses : List (Use α)) (responses : List (Response α)) (id : NodeId)
    (height place : Nat) : Prop where
  made : ∃ use response, uses[place]? = some use ∧ responses[place]? = some response ∧
    use.deed response.result = .raises
  drawn : ∃ mid map drawn rest,
    session.run ((uses.take place).map Use.command) = .ok (mid, responses.take place) ∧
      mid.maps = [some map] ∧ map.maxHeight.random map.source = .ok (drawn, rest) ∧ drawn.levels = height
  life : session.Lives uses responses id fun n => if place < n then some height else none

variable {session next last : Session σ α} {use : Use α} {uses : List (Use α)} {response : Response α}
  {responses : List (Response α)} {id : NodeId} {height place : Nat}

/-! ### Steps -/

omit [DrawSource σ] in
theorem heightOf?_of_hosted {map : Map σ α} (hosted : session.maps = [some map]) :
    session.heightOf? id = map.heightOf? id := by
  unfold heightOf? Session.map?
  rw [hosted]
  rfl

omit [DrawSource σ] in
theorem Lost.heightOf?_eq_none (lost : session.Lost id) : session.heightOf? id = none := by
  rcases lost with gone | ⟨map, layout, hosted, h, past⟩
  · unfold heightOf? Session.map?
    rw [gone]
    rfl
  · rw [heightOf?_of_hosted hosted]
    refine h.heightOf?_eq_none fun tower listed same => ?_
    obtain ⟨e, member, rfl⟩ := List.mem_map.mp listed
    rw [← same] at past
    exact h.arena.not_past member past

theorem Effect.keeps_lost (effect : Effect session use next response) (lost : session.Lost id) :
    next.Lost id := by
  rcases lost with gone | ⟨map, layout, hosted, h, past⟩
  · exact Or.inl (effect.gone_next (Or.inl gone))
  · cases effect with
    | read _ maps _ _ => exact Or.inr ⟨map, layout, maps.trans hosted, h, past⟩
    | gone gone => exact Or.inl gone
    | changed hosted' _ made _ _ =>
      obtain rfl : map = _ := by simpa [hosted] using hosted'
      obtain ⟨rest, turn, kept⟩ := h.turn made
      exact Or.inr ⟨_, rest, maps_setMap hosted _, kept, turn.keeps_past past⟩
    | taken _ _ | discarded _ _ => exact Or.inl (maps_dropMap hosted)

theorem Effect.fate (effect : Effect session use next response) (id : NodeId) :
    next.heightOf? id = session.heightOf? id ∨
    (use.deed response.result = .raises ∧ session.heightOf? id = none ∧ ∃ map height rest,
      session.maps = [some map] ∧ map.maxHeight.random map.source = .ok (height, rest) ∧
      next.heightOf? id = some height.levels) ∨
    next.Lost id := by
  cases effect with
  | read _ maps _ _ =>
    refine Or.inl ?_
    unfold heightOf? Session.map?
    rw [maps]
  | gone _ => exact Or.inl rfl
  | @changed change map after layout rest reply hosted h _ turn kept =>
    have here := maps_setMap hosted after
    rw [heightOf?_of_hosted hosted, heightOf?_of_hosted here]
    rcases turn.stirs.fate h kept id with same | ⟨raises, absent, height, drawn, present⟩ | past
    · exact Or.inl same
    · exact Or.inr (Or.inl ⟨raises, absent, map, height, _, hosted, drawn, present⟩)
    · exact Or.inr (Or.inr (Or.inr ⟨after, rest, here, kept, past⟩))
  | taken hosted _ | discarded hosted _ => exact Or.inr (Or.inr (Or.inl (maps_dropMap hosted)))

theorem Effect.draws (effect : Effect session use next response) {map : Map σ α}
    (hosted : next.maps = [some map]) : ∃ before : Map σ α, session.maps = [some before] ∧
      map.source = DrawSource.skip (use.deed response.result).draws before.source ∧
      map.maxHeight = before.maxHeight := by
  obtain ⟨before, held, ⟨reading, rfl⟩ | ⟨change, layout, rest, reply, rfl, _, turn, _, rfl⟩⟩ :=
    effect.of_hosted hosted
  · refine ⟨map, held, ?_, rfl⟩
    rw [Use.deed_of_reading reading]
    rfl
  · exact ⟨before, held, turn.stirs.draws, turn.frame.1⟩

/-! ### Runs -/

theorem Single.run_draws (single : session.Single) (calls : ∀ use ∈ uses, use.IsCall)
    (run : session.run (uses.map Use.command) = .ok (last, responses)) {map : Map σ α}
    (hosted : last.maps = [some map]) : ∃ before : Map σ α, session.maps = [some before] ∧
      map.source = DrawSource.skip (drawn uses responses) before.source ∧
      map.maxHeight = before.maxHeight := by
  induction uses generalizing session responses with
  | nil =>
    obtain ⟨rfl, rfl⟩ := Prod.mk.inj (Except.ok.inj run)
    exact ⟨map, hosted, rfl, rfl⟩
  | cons use uses ih =>
    obtain ⟨next, response, later, stepped, effect, kept, calls, ran, rfl⟩ := single.run_cons calls run
    obtain ⟨mid, here, source, height⟩ := ih kept calls ran
    obtain ⟨before, there, first, height'⟩ := effect.draws here
    refine ⟨before, there, ?_, height.trans height'⟩
    rw [source, first, Map.skip_skip, drawn_cons]

theorem Single.run_lacks (single : session.Single) (calls : ∀ use ∈ uses, use.IsCall)
    (run : session.run (uses.map Use.command) = .ok (last, responses)) {map : Map σ α}
    (hosted : last.maps = [some map]) (lacks : times .lacks uses responses ≠ 0) :
    Arena.slotLimit ≤ map.arena.slots.size := by
  induction uses generalizing session responses with
  | nil => exact absurd rfl lacks
  | cons use uses ih =>
    obtain ⟨next, response, later, stepped, effect, kept, calls, ran, rfl⟩ := single.run_cons calls run
    by_cases now : use.deed response.result = .lacks
    · obtain ⟨start, here, spent⟩ := effect.spent (Use.full_of_lacks now)
      obtain ⟨mid, there, more⟩ := kept.run_slots calls ran hosted
      obtain ⟨_, before, _, kept_slots, _⟩ := effect.grows there
      obtain rfl : start = _ := by simpa [here] using before
      exact spent.trans (kept_slots.trans more)
    · rw [times_cons, if_neg now] at lacks
      exact ih kept calls ran lacks

theorem Lives.now {life : Nat → Option Nat} (lives : session.Lives uses responses id life) :
    session.heightOf? id = life 0 := by
  obtain ⟨_, at_once, now⟩ := lives 0 (Nat.zero_le _)
  obtain ⟨rfl, _⟩ := Prod.mk.inj (Except.ok.inj at_once)
  exact now

theorem Lives.cons {life : Nat → Option Nat} (lives : next.Lives uses responses id fun n => life (n + 1))
    (stepped : session.step use.command = .ok (next, response)) (first : session.heightOf? id = life 0) :
    session.Lives (use :: uses) (response :: responses) id life := by
  intro n inside
  cases n with
  | zero => exact ⟨session, rfl, first⟩
  | succ n =>
    obtain ⟨mid, ran, height⟩ := lives n (Nat.le_of_succ_le_succ inside)
    exact ⟨mid, run_of_step stepped ran, height⟩

theorem Born.cons (born : next.Born uses responses id height place)
    (stepped : session.step use.command = .ok (next, response)) (absent : session.heightOf? id = none) :
    session.Born (use :: uses) (response :: responses) id height (place + 1) := by
  obtain ⟨mid, map, drawn, rest, ran, draw⟩ := born.drawn
  refine { made := born.made, drawn := ⟨mid, map, drawn, rest, run_of_step stepped ran, draw⟩, life := ?_ }
  refine Lives.cons ?_ stepped absent
  simpa only [Nat.add_lt_add_iff_right] using born.life

theorem Single.lost_run (single : session.Single) (calls : ∀ use ∈ uses, use.IsCall)
    (run : session.run (uses.map Use.command) = .ok (last, responses)) (lost : session.Lost id) :
    last.heightOf? id = none := by
  induction uses generalizing session responses with
  | nil =>
    obtain ⟨rfl, _⟩ := Prod.mk.inj (Except.ok.inj run)
    exact lost.heightOf?_eq_none
  | cons use uses ih =>
    obtain ⟨next, response, later, stepped, effect, kept, calls, ran, rfl⟩ := single.run_cons calls run
    exact ih kept calls ran (effect.keeps_lost lost)

/-- A node that is there after a run was there all the time, or one of the uses has brought it in. -/
theorem Single.origin (single : session.Single) (calls : ∀ use ∈ uses, use.IsCall)
    (run : session.run (uses.map Use.command) = .ok (last, responses))
    (alive : last.heightOf? id = some height) :
    (session.Lives uses responses id fun _ => some height) ∨
      ∃ place, session.Born uses responses id height place := by
  induction uses generalizing session responses with
  | nil =>
    obtain ⟨rfl, rfl⟩ := Prod.mk.inj (Except.ok.inj run)
    refine Or.inl fun n inside => ⟨session, ?_, alive⟩
    rw [List.take_nil, List.take_nil]
    rfl
  | cons use uses ih =>
    obtain ⟨next, response, later, stepped, effect, kept, calls, ran, rfl⟩ := single.run_cons calls run
    -- an identity that the first use brings in cannot be born again, and one that it loses cannot come back
    rcases effect.fate id with same | ⟨raises, absent, map, drawn, source, hosted, draw, present⟩ | lost
    · rcases ih kept calls ran with lives | ⟨place, born⟩
      · exact Or.inl (lives.cons stepped (same.symm.trans lives.now))
      · exact Or.inr ⟨place + 1, born.cons stepped (same.symm.trans born.life.now)⟩
    · rcases ih kept calls ran with lives | ⟨place, born⟩
      · obtain rfl := Option.some.inj (present.symm.trans lives.now)
        have life : session.Lives (use :: uses) (response :: later) id fun n =>
            if 0 < n then some drawn.levels else none :=
          Lives.cons (by simpa using lives) stepped absent
        exact Or.inr ⟨0, ⟨use, response, rfl, rfl, raises⟩,
          ⟨session, map, drawn, source, rfl, hosted, draw, rfl⟩, life⟩
      · nomatch present.symm.trans born.life.now
    · rw [kept.lost_run calls ran lost] at alive
      nomatch alive

def rebuilt : List (Use Nat) :=
  [.change (.insert [1] 10 {}), .change (.insert [2] 20 { refuseAt := 1 }), .change (.insert [1] 11 {}),
    .change (.insert [1, 2] 12 {}), .change (.erase [1]), .change (.insert [3] 30 {}), .query (.get [3])]

end Session

end SkipList
