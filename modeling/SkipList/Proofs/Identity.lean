import SkipList.Proofs.Run

/-!
# Identities

A node keeps its identity until it is taken out. From then on the identity is past: its slot is retired
or has a later generation, and no change brings it back.
-/

namespace SkipList

variable {σ α : Type}

namespace Layout

/-- The node of that identity is gone for good. -/
def Past (layout : Layout α) (id : NodeId) : Prop :=
  id.index ∈ layout.retired ∨
  (∃ place ∈ layout.vacant, place.1 = id.index ∧ id.generation < place.2) ∨
  ∃ e ∈ layout.entries, e.slot = id.index ∧ id.generation < e.generation

variable {layout : Layout α} {id : NodeId} {before after : List (Entry α)}

/-! ### Past stays past -/

theorem Past.vacate (past : layout.Past id) (slot generation : Nat) :
    (layout.vacate slot generation).Past id := by
  unfold Layout.vacate
  split
  · rcases past with retired | ⟨place, member, later⟩ | entry
    · exact Or.inl retired
    · exact Or.inr (Or.inl ⟨place, List.mem_cons_of_mem _ member, later⟩)
    · exact Or.inr (Or.inr entry)
  · rcases past with retired | vacant | entry
    · exact Or.inl (List.mem_cons_of_mem _ retired)
    · exact Or.inr (Or.inl vacant)
    · exact Or.inr (Or.inr entry)

theorem past_vacate (layout : Layout α) {generation : Nat} (le : id.generation ≤ generation) :
    (layout.vacate id.index generation).Past id := by
  unfold Layout.vacate
  split
  · exact Or.inr (Or.inl ⟨_, List.mem_cons_self, rfl, Nat.lt_succ_of_le le⟩)
  · exact Or.inl List.mem_cons_self

theorem past_vacateAll {entries : List (Entry α)}
    (past : layout.Past id ∨ ∃ e ∈ entries, e.slot = id.index ∧ id.generation ≤ e.generation) :
    (layout.vacateAll entries).Past id := by
  induction entries generalizing layout with
  | nil =>
    rcases past with past | ⟨_, member, _⟩
    · exact past
    · nomatch member
  | cons e rest ih =>
    apply ih
    rcases past with past | ⟨x, member, here, le⟩
    · exact Or.inl (past.vacate _ _)
    · rcases List.mem_cons.mp member with rfl | later
      · rw [here]
        exact Or.inl (past_vacate _ le)
      · exact Or.inr ⟨x, later, here, le⟩

theorem past_clear (past : layout.Past id ∨ ∃ e ∈ layout.entries, e.id = id) : layout.clear.Past id := by
  apply past_vacateAll
  rcases past with (retired | vacant | ⟨e, member, here, lt⟩) | ⟨e, member, rfl⟩
  · exact Or.inl (Or.inl retired)
  · exact Or.inl (Or.inr (Or.inl vacant))
  · exact Or.inr ⟨e, member, here, Nat.le_of_lt lt⟩
  · exact Or.inr ⟨e, member, rfl, Nat.le_refl _⟩

theorem Past.remove {e : Entry α} (past : layout.Past id) (split : layout.entries = before ++ e :: after) :
    (layout.remove before e after).Past id := by
  have rest : (layout.withEntries (before ++ after)).Past id ∨
      e.slot = id.index ∧ id.generation < e.generation := by
    rcases past with retired | vacant | ⟨x, member, here, lt⟩
    · exact Or.inl (Or.inl retired)
    · exact Or.inl (Or.inr (Or.inl vacant))
    · rw [split] at member
      rcases Entry.mem_split.mp member with rfl | other
      · exact Or.inr ⟨here, lt⟩
      · exact Or.inl (Or.inr (Or.inr ⟨x, other, here, lt⟩))
  rcases rest with past | ⟨here, lt⟩
  · exact past.vacate _ _
  · unfold Layout.remove
    rw [here]
    exact past_vacate _ (Nat.le_of_lt lt)

theorem past_remove (layout : Layout α) (before : List (Entry α)) (e : Entry α)
    (after : List (Entry α)) : (layout.remove before e after).Past e.id :=
  past_vacate _ (Nat.le_refl _)

theorem Past.add (past : layout.Past id) (split : layout.entries = before ++ after) (height : Nat)
    (key : Key) (value : α) : (layout.add before after height key value).Past id := by
  rcases past with retired | ⟨place, member, here, lt⟩ | ⟨e, member, here, lt⟩
  · exact Or.inl retired
  · cases stack : layout.vacant with
    | nil => rw [stack] at member; nomatch member
    | cons top rest =>
      rw [stack] at member
      have next := place_of_cons stack
      rcases List.mem_cons.mp member with rfl | deeper
      · refine Or.inr (Or.inr ⟨layout.newEntry height key value, ?_, ?_, ?_⟩)
        · exact List.mem_append_cons_self
        · rw [newEntry, next]
          exact here
        · rw [newEntry, next]
          exact lt
      · refine Or.inr (Or.inl ⟨place, ?_, here, lt⟩)
        change place ∈ layout.vacant.tail
        rw [stack]
        exact deeper
  · refine Or.inr (Or.inr ⟨e, ?_, here, lt⟩)
    exact Entry.mem_split.mpr (Or.inr (split ▸ member))

theorem Past.write {e : Entry α} (past : layout.Past id) (split : layout.entries = before ++ e :: after)
    (value : α) : (layout.withEntries (before ++ { e with value } :: after)).Past id := by
  rcases past with retired | vacant | ⟨x, member, here, lt⟩
  · exact Or.inl retired
  · exact Or.inr (Or.inl vacant)
  · rw [split] at member
    rcases Entry.mem_split.mp member with rfl | other
    · exact Or.inr (Or.inr ⟨_, List.mem_append_cons_self, here, lt⟩)
    · exact Or.inr (Or.inr ⟨x, Entry.mem_split.mpr (Or.inr other), here, lt⟩)

end Layout

/-! ### Resolving identities -/

namespace Arena.Holds

variable {arena : Arena α} {levels : Nat} {layout : Layout α} {id : NodeId}

theorem resolve_entry (h : arena.Holds levels layout) {e : Entry α} (member : e ∈ layout.entries) :
    arena.resolve e.id = some e.slot := by
  obtain ⟨after, found⟩ := h.occupied_of_mem member
  exact resolve_eq_some_iff.mpr ⟨rfl, e.node after, found⟩

theorem entry_of_resolve (h : arena.Holds levels layout) {slot : Nat}
    (found : arena.resolve id = some slot) : ∃ e ∈ layout.entries, e.id = id ∧ e.slot = slot := by
  obtain ⟨rfl, node, occupied⟩ := resolve_eq_some_iff.mp found
  obtain ⟨before, e, after, split, here, current, _⟩ := h.entry_of_occupied occupied
  exact ⟨e, split ▸ List.mem_append_cons_self, by rw [Entry.id, here, current], here⟩

theorem resolve_past (h : arena.Holds levels layout) (past : layout.Past id) :
    arena.resolve id = none := by
  cases found : arena.resolve id with
  | none => rfl
  | some slot =>
    obtain ⟨e, member, rfl, _⟩ := h.entry_of_resolve found
    obtain ⟨after, occupied⟩ := h.occupied_of_mem member
    rcases past with retired | ⟨place, listed, here, _⟩ | ⟨x, listed, here, lt⟩
    · have gone := h.retired _ retired
      rw [Entry.id, occupied] at gone
      nomatch gone
    · obtain ⟨first, rest, split⟩ := List.append_of_mem listed
      have free := h.vacant first place rest split
      rw [here, Entry.id, occupied] at free
      nomatch free
    · obtain rfl := h.eq_of_slot_eq listed member here
      exact absurd lt (Nat.lt_irrefl _)

theorem not_past (h : arena.Holds levels layout) {e : Entry α} (member : e ∈ layout.entries) :
    ¬ layout.Past e.id := by
  intro past
  have found := h.resolve_entry member
  rw [h.resolve_past past] at found
  nomatch found

end Arena.Holds

namespace Map

variable [DrawSource σ] {map next : Map σ α} {layout rest : Layout α} {id : NodeId}
  {change : Change α} {reply : Reply α (Except Error (Answer α))}

/-! ### Following a node -/

/-- The change takes the node in this slot out: it clears the map, or it reports the slot as unspliced. -/
def Evicts (slot : Nat) (change : Change α) (reply : Reply α (Except Error (Answer α))) : Prop :=
  match change with
  | .clear => True
  | _ => ∃ height len, .unspliced slot height len ∈ reply.trace.events

def Evicted (slot : Nat) (changes : List (Change α))
    (replies : List (Reply α (Except Error (Answer α)))) : Prop :=
  ∃ made ∈ changes.zip replies, Evicts slot made.1 made.2

theorem Turn.keeps_past (turn : Turn map layout change next rest reply) (past : layout.Past id) :
    rest.Past id := by
  induction turn with
  | unfit _ => exact past
  | updated _ cuts _ => exact past.write cuts.split _
  | inserted _ cuts _ _ _ => exact past.add cuts.split _ _ _
  | refused _ _ _ _ _ => exact past
  | missed _ _ => exact past
  | removed _ cuts _ => exact past.remove cuts.split
  | erased _ ih => exact ih
  | unmodified _ _ => exact past
  | modified _ split _ => exact past.write split _
  | cleared => exact Layout.past_clear (Or.inl past)

/-- A turn takes a node out, and its identity is past, or it leaves the node in and its key alone. -/
theorem Turn.follows (turn : Turn map layout change next rest reply) (h : map.Holds layout)
    {e : Entry α} (member : e ∈ layout.entries) :
    (Evicts e.slot change reply ∧ rest.Past e.id) ∨
    (¬ Evicts e.slot change reply ∧ ∃ x ∈ rest.entries, x.id = e.id ∧ x.key = e.key) := by
  have written {before after : List (Entry α)} {t : Entry α} (value : α)
      (split : layout.entries = before ++ t :: after) :
      ∃ x ∈ before ++ { t with value } :: after, x.id = e.id ∧ x.key = e.key := by
    rw [split] at member
    rcases Entry.mem_split.mp member with rfl | other
    · exact ⟨_, List.mem_append_cons_self, rfl, rfl⟩
    · exact ⟨e, Entry.mem_split.mpr (Or.inr other), rfl, rfl⟩
  induction turn with
  | unfit _ => exact Or.inr ⟨by simp [Evicts], e, member, rfl, rfl⟩
  | updated _ cuts _ => exact Or.inr ⟨by simp [Evicts], written _ cuts.split⟩
  | inserted _ cuts _ _ _ =>
    refine Or.inr ⟨by simp [Evicts], e, ?_, rfl, rfl⟩
    exact Entry.mem_split.mpr (Or.inr (cuts.split ▸ member))
  | refused _ _ _ _ _ => exact Or.inr ⟨by simp [Evicts], e, member, rfl, rfl⟩
  | missed _ _ => exact Or.inr ⟨by simp [Evicts], e, member, rfl, rfl⟩
  | @removed _ before after t _ _ cuts _ =>
    have listed : t ∈ layout.entries := cuts.split ▸ List.mem_append_cons_self
    by_cases same : t.slot = e.slot
    · obtain rfl := h.arena.eq_of_slot_eq listed member same
      exact Or.inl ⟨by simp [Evicts], Layout.past_remove _ _ _ _⟩
    · refine Or.inr ⟨?_, e, ?_, rfl, rfl⟩
      · rintro ⟨_, _, event⟩
        simp only [List.mem_singleton, Event.unspliced.injEq] at event
        exact same event.1.symm
      · rw [Layout.remove_entries]
        rw [cuts.split] at member
        rcases Entry.mem_split.mp member with rfl | other
        · exact absurd rfl same
        · exact other
  | erased _ ih => exact ih
  | unmodified _ _ => exact Or.inr ⟨by simp [Evicts], e, member, rfl, rfl⟩
  | modified _ split _ => exact Or.inr ⟨by simp [Evicts], written _ split⟩
  | cleared => exact Or.inl ⟨trivial, Layout.past_clear (Or.inr ⟨e, member, rfl⟩)⟩

theorem Holds.past_run (h : map.Holds layout) (past : layout.Past id) {changes : List (Change α)}
    {replies : List (Reply α (Except Error (Answer α)))}
    (run : map.applyAll changes = .ok (next, replies)) : ∃ rest, next.Holds rest ∧ rest.Past id := by
  induction changes generalizing map layout replies with
  | nil =>
    obtain ⟨rfl, _⟩ := Prod.mk.inj (Except.ok.inj run)
    exact ⟨layout, h, past⟩
  | cons change changes ih =>
    obtain ⟨mid, reply, later, made, ran, _⟩ := applyAll_cons run
    obtain ⟨between, turn, holds⟩ := h.turn made
    exact ih holds (turn.keeps_past past) ran

theorem Holds.follow_run (h : map.Holds layout) {e : Entry α} (member : e ∈ layout.entries)
    {changes : List (Change α)} {replies : List (Reply α (Except Error (Answer α)))}
    (run : map.applyAll changes = .ok (next, replies)) :
    ∃ rest, next.Holds rest ∧
      ((Evicted e.slot changes replies ∧ rest.Past e.id) ∨
        (¬ Evicted e.slot changes replies ∧ ∃ x ∈ rest.entries, x.id = e.id ∧ x.key = e.key)) := by
  induction changes generalizing map layout replies e with
  | nil =>
    obtain ⟨rfl, rfl⟩ := Prod.mk.inj (Except.ok.inj run)
    exact ⟨layout, h, Or.inr ⟨by simp [Evicted], e, member, rfl, rfl⟩⟩
  | cons change changes ih =>
    obtain ⟨mid, reply, later, made, ran, rfl⟩ := applyAll_cons run
    obtain ⟨between, turn, holds⟩ := h.turn made
    have either : Evicted e.slot (change :: changes) (reply :: later) ↔
        Evicts e.slot change reply ∨ Evicted e.slot changes later := by
      simp [Evicted]
    rw [either]
    rcases turn.follows h member with ⟨out, past⟩ | ⟨stays, x, listed, same, key⟩
    · obtain ⟨rest, kept, past⟩ := holds.past_run past ran
      exact ⟨rest, kept, Or.inl ⟨Or.inl out, past⟩⟩
    · obtain ⟨rest, kept, follow⟩ := ih holds listed ran
      have slot : x.slot = e.slot := congrArg NodeId.index same
      rw [slot, same, key] at follow
      refine ⟨rest, kept, follow.imp (fun out => ⟨Or.inr out.1, out.2⟩) fun there => ⟨?_, there.2⟩⟩
      rintro (out | out)
      · exact stays out
      · exact there.1 out

end Map

end SkipList
