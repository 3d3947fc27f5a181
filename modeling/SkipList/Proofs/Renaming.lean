import SkipList.Proofs.Comparisons
import SkipList.Proofs.Numbering

/-!
# Changes up to the names of nodes

What a change does to the numbered entries depends on nothing else but the order, the heights and the
source: neither the free slots nor the generations come into it. So two maps that are alike but for the
names of their nodes stay so.
-/

namespace SkipList

open Entry

variable {σ α : Type}

/-- The map without its arena and its id. -/
def Map.outline (map : Map σ α) : Map σ α :=
  { map with arena := { slots := #[], free := none, capacity := 0 }, id := 0 }

namespace Layout

def numbered (births : List NodeId) (layout : Layout α) : Layout α :=
  { entries := layout.entries.map (Entry.numbered births), vacant := [], retired := [], capacity := 0 }

/-- The nodes of the layout are among those that were born, and the others are gone. -/
structure Numbers (layout : Layout α) (births : List NodeId) : Prop where
  once : births.Nodup
  listed : ∀ e ∈ layout.entries, e.id ∈ births
  known : ∀ id ∈ births, layout.Past id ∨ ∃ e ∈ layout.entries, e.id = id

def write (layout : Layout α) (slot : Nat) (change : α → α) : Layout α :=
  layout.withEntries <| layout.entries.map fun e =>
    if e.slot = slot then { e with value := change e.value } else e

end Layout

namespace Map

/-- What a change makes of a map, of its numbered entries and of the number of births, and its reply. -/
structure Revision (σ α : Type) where
  map : Map σ α
  layout : Layout α
  births : Nat
  reply : Reply α (Except Error (Answer α))

def withdraw (map : Map σ α) (layout : Layout α) (key : Key) :
    Map σ α × Layout α × Removal α × List Event :=
  match if map.Searchable key then hit map.order key (map.way layout key).ahead else none with
  | none => (map, layout, .notFound, [])
  | some e =>
    ({ map with len := map.len - 1 },
      layout.withEntries ((map.way layout key).passed ++ (map.way layout key).ahead.tail),
      .removed e.value, [.unspliced 0 e.height (map.len - 1)])

/-- What a change does when there is room, apart from the names of nodes. -/
def revise [DrawSource σ] (map : Map σ α) (layout : Layout α) (births : Nat) (change : Change α) :
    Revision σ α :=
  let compared := (map.compares layout change).map Comparison.nameless
  match change with
  | .insert key value _ =>
    if key.length = map.keySize then
      let way := map.way layout key
      match hit map.order key way.ahead, map.maxHeight.random map.source with
      | none, .ok (height, source) =>
        let e := { slot := births, generation := 0, height := height.levels, key, value }
        { map := { map with source, len := map.len + 1 }
          layout := layout.withEntries (way.passed ++ e :: way.ahead)
          births := births + 1
          reply :=
            { result := .ok (.inserted .inserted)
              trace := { compared, events := [.spliced 0 height.levels (map.len + 1)] } } }
      | none, .error _ =>
        { map, layout, births, reply := { result := .error (.allocation .refused) } }
      | some e, _ =>
        { map, births
          layout := layout.withEntries (way.passed ++ { e with value } :: way.ahead.tail)
          reply := { result := .ok (.inserted (.updated e.value)), trace := { compared } } }
    else
      { map, layout, births
        reply :=
          { result := .error (.keySize map.keySize key.length)
            trace := { compared, dropped := [value] } } }
  | .remove key =>
    let (map, layout, outcome, events) := map.withdraw layout key
    { map, layout, births
      reply := { result := .ok (.removed outcome), trace := { compared, events } } }
  | .erase key =>
    let (map, layout, outcome, events) := map.withdraw layout key
    { map, layout, births
      reply :=
        { result := .ok (.flag outcome.isRemoved)
          trace := { compared, dropped := outcome.value?.toList, events } } }
  | .modify key change =>
    match map.found layout key with
    | none => { map, layout, births, reply := { result := .ok (.value none), trace := { compared } } }
    | some e =>
      { map, births
        layout := layout.write e.slot change
        reply := { result := .ok (.value (some (change e.value))), trace := { compared } } }
  | .clear =>
    { map := { map with len := 0 }
      layout := layout.withEntries []
      births
      reply :=
        { result := .ok .done, trace := { compared, dropped := layout.entries.map (·.value) } } }

/-! ### Searching numbered entries -/

variable {map next : Map σ α} {layout rest : Layout α} {births : List NodeId} {key : Key}

@[simp] theorem outline_way (map : Map σ α) (layout : Layout α) (key : Key) :
    map.outline.way layout key = map.way layout key := rfl

@[simp] theorem outline_found (map : Map σ α) (layout : Layout α) (key : Key) :
    map.outline.found layout key = map.found layout key := rfl

@[simp] theorem outline_searchable (map : Map σ α) (key : Key) :
    map.outline.Searchable key = map.Searchable key := rfl

@[simp] theorem outline_keySize (map : Map σ α) : map.outline.keySize = map.keySize := rfl

@[simp] theorem outline_order (map : Map σ α) : map.outline.order = map.order := rfl

@[simp] theorem outline_maxHeight (map : Map σ α) : map.outline.maxHeight = map.maxHeight := rfl

@[simp] theorem outline_source (map : Map σ α) : map.outline.source = map.source := rfl

@[simp] theorem outline_len (map : Map σ α) : map.outline.len = map.len := rfl

theorem outline_compares (map : Map σ α) (layout : Layout α) (change : Change α) :
    map.outline.compares layout change = map.compares layout change := by
  cases change <;> rfl

theorem way_numbered (map : Map σ α) (layout : Layout α) (births : List NodeId) (key : Key) :
    SameWay births (map.way layout key) (map.way (layout.numbered births) key) :=
  Entry.way_numbered map.order key births map.maxHeight.levels layout.entries

theorem found_numbered (map : Map σ α) (layout : Layout α) (births : List NodeId) (key : Key) :
    map.found (layout.numbered births) key = (map.found layout key).map (numbered births) := by
  unfold found
  split
  · exact (way_numbered map layout births key).equal
  · rfl

theorem probes_numbered (map : Map σ α) (layout : Layout α) (births : List NodeId) (key : Key) :
    (map.probes (layout.numbered births) key).map Comparison.nameless =
      (map.probes layout key).map Comparison.nameless := by
  have way := way_numbered map layout births key
  rw [probes, probes, List.map_append, List.map_append, way.compared, way.ahead, List.head?_map]
  cases (map.way layout key).ahead.head? <;> rfl

theorem glances_numbered (map : Map σ α) (layout : Layout α) (births : List NodeId) (key : Key) :
    (map.glances (layout.numbered births) key).map Comparison.nameless =
      (map.glances layout key).map Comparison.nameless := by
  unfold glances
  split
  · exact glance_numbered map.order key births map.maxHeight.levels layout.entries
  · rfl

theorem atLeast_numbered (map : Map σ α) (layout : Layout α) (births : List NodeId) (key : Key) :
    map.atLeast (layout.numbered births) key = (map.atLeast layout key).map (numbered births) := by
  unfold atLeast
  split
  · exact (way_numbered map layout births key).ahead
  · rfl

theorem comparisonsTo_numbered (map : Map σ α) (layout : Layout α) (births : List NodeId) (key : Key) :
    (map.comparisonsTo (layout.numbered births) key).map Comparison.nameless =
      (map.comparisonsTo layout key).map Comparison.nameless := by
  unfold comparisonsTo
  split
  · exact (way_numbered map layout births key).compared
  · rfl

theorem compares_numbered (map : Map σ α) (layout : Layout α) (births : List NodeId)
    (change : Change α) : (map.compares (layout.numbered births) change).map Comparison.nameless =
      (map.compares layout change).map Comparison.nameless := by
  cases change with
  | insert key _ _ | remove key | erase key =>
    simp only [compares]
    split
    · exact probes_numbered map layout births key
    · rfl
  | modify key _ => exact glances_numbered map layout births key
  | clear => rfl

theorem Cuts.numbered {before after : List (Entry α)} (cuts : map.Cuts layout key before after)
    (births : List NodeId) : map.Cuts (layout.numbered births) key
      (before.map (Entry.numbered births)) (after.map (Entry.numbered births)) := by
  have way := way_numbered map layout births key
  exact { passed := by rw [way.passed, cuts.passed], ahead := by rw [way.ahead, cuts.ahead] }

/-! ### Births -/

variable [DrawSource σ] {change : Change α} {reply : Reply α (Except Error (Answer α))}

theorem Turn.keeps_known (turn : Turn map layout change next rest reply) (h : map.Holds layout)
    {id : NodeId} (known : layout.Past id ∨ ∃ e ∈ layout.entries, e.id = id) :
    rest.Past id ∨ ∃ e ∈ rest.entries, e.id = id := by
  rcases known with past | ⟨e, member, rfl⟩
  · exact Or.inl (turn.keeps_past past)
  · rcases turn.follows h member with ⟨_, past⟩ | ⟨_, x, listed, same, _⟩
    · exact Or.inl past
    · exact Or.inr ⟨x, listed, same⟩

theorem Turn.numbers_old (turn : Turn map layout change next rest reply) (h : map.Holds layout)
    (numbers : layout.Numbers births)
    (old : ∀ x ∈ rest.entries, ∃ e ∈ layout.entries, e.id = x.id) : rest.Numbers births := by
  refine { once := numbers.once, listed := fun x member => ?_,
           known := fun id listed => turn.keeps_known h (numbers.known id listed) }
  obtain ⟨e, there, same⟩ := old x member
  exact same ▸ numbers.listed e there

theorem Turn.numbers_new (turn : Turn map layout change next rest reply) (h : map.Holds layout)
    (kept : next.Holds rest) (numbers : layout.Numbers births) {before after : List (Entry α)}
    {new : Entry α} (split : layout.entries = before ++ after)
    (added : rest.entries = before ++ new :: after) :
    new.id ∉ births ∧ rest.Numbers (births ++ [new.id]) := by
  have member : new ∈ rest.entries := added ▸ List.mem_append_cons_self
  have unknown : new.id ∉ births := by
    intro listed
    -- a node born before is gone for good, or still there and then in another slot
    rcases numbers.known new.id listed with past | ⟨e, old, same⟩
    · exact kept.arena.not_past member (turn.keeps_past past)
    · have distinct := kept.arena.entries_nodup
      rw [added, List.map_append, List.map_cons] at distinct
      have apart := (List.nodup_cons.mp (List.perm_middle.nodup_iff.mp distinct)).1
      rw [← List.map_append, ← split, ← show e.slot = new.slot from congrArg NodeId.index same] at apart
      exact apart (List.mem_map_of_mem old)
  refine ⟨unknown, { once := ?_, listed := fun x listed => ?_, known := fun id listed => ?_ }⟩
  · exact List.nodup_append.mpr ⟨numbers.once, List.nodup_singleton _, fun x old y fresh same =>
      unknown (List.mem_singleton.mp fresh ▸ same ▸ old)⟩
  · rw [added] at listed
    rcases mem_split.mp listed with rfl | old
    · exact List.mem_append_right _ List.mem_cons_self
    · exact List.mem_append_left _ (numbers.listed x (split ▸ old))
  · rcases List.mem_append.mp listed with old | fresh
    · exact turn.keeps_known h (numbers.known id old)
    · exact Or.inr ⟨new, member, (List.mem_singleton.mp fresh).symm⟩

/-! ### Revisions -/

omit [DrawSource σ] in
theorem withdraw_found {before after : List (Entry α)} {e : Entry α} (searchable : map.Searchable key)
    (cuts : map.Cuts layout key before (e :: after)) (equal : map.order.compare e.key key = .eq) :
    map.outline.withdraw (layout.numbered births) key =
      ({ map with len := map.len - 1 }.outline, (layout.remove before e after).numbered births,
        .removed e.value, [.unspliced 0 e.height (map.len - 1)]) := by
  have cuts' := cuts.numbered births
  have equal' : map.order.compare (e.numbered births).key key = .eq := equal
  simp only [withdraw, outline_searchable, searchable, if_true, outline_way, outline_order, cuts'.ahead,
    cuts'.passed, List.map_cons, hit_of_equal equal', List.tail_cons, outline_len]
  simp only [Layout.numbered, Layout.withEntries, Layout.remove_entries, List.map_append]
  rfl

omit [DrawSource σ] in
theorem withdraw_missing {before after : List (Entry α)} (cuts : map.Cuts layout key before after)
    (missing : map.Searchable key → ∀ e ∈ after.head?, map.order.compare e.key key ≠ .eq) :
    map.outline.withdraw (layout.numbered births) key =
      (map.outline, layout.numbered births, .notFound, []) := by
  by_cases searchable : map.Searchable key
  · simp only [withdraw, outline_searchable, searchable, if_true, outline_way, outline_order,
      (cuts.numbered births).ahead, hit_numbered, hit_of_missing (missing searchable), Option.map_none]
  · simp only [withdraw, outline_searchable, searchable, if_false]

omit [DrawSource σ] in
theorem write_numbered (h : map.Holds layout) (numbers : layout.Numbers births)
    {before after : List (Entry α)} {e : Entry α} (split : layout.entries = before ++ e :: after)
    (change : α → α) : (layout.numbered births).write (e.numbered births).slot change =
      (layout.withEntries (before ++ { e with value := change e.value } :: after)).numbered births := by
  have distinct := h.arena.entries_nodup
  rw [split, List.map_append, List.map_cons] at distinct
  have apart := (List.nodup_cons.mp (List.perm_middle.nodup_iff.mp distinct)).1
  rw [← List.map_append] at apart
  have listed : e.id ∈ births := numbers.listed e (split ▸ List.mem_append_cons_self)
  -- no other entry has the number, since the numbers tell the nodes apart
  have kept (others : List (Entry α)) (subset : others ⊆ before ++ after) :
      (others.map (numbered births)).map (fun x => if x.slot = (e.numbered births).slot then
        { x with value := change x.value } else x) = others.map (numbered births) := by
    rw [List.map_map]
    refine List.map_congr_left fun x member => if_neg fun same => apart ?_
    have slot : x.slot = e.slot := congrArg NodeId.index (numbered_slot_inj listed same)
    exact slot ▸ List.mem_map_of_mem (subset member)
  simp only [Layout.write, Layout.numbered, Layout.withEntries, split, List.map_append, List.map_cons,
    kept before (List.subset_append_left _ _), kept after (List.subset_append_right _ _), if_true]
  rfl

omit [DrawSource σ] in
theorem add_numbered (numbers : layout.Numbers births) {before after : List (Entry α)}
    (split : layout.entries = before ++ after) {height : Nat} {value : α}
    (unknown : (layout.newEntry height key value).id ∉ births) :
    (layout.add before after height key value).numbered
        (births ++ [(layout.newEntry height key value).id]) =
      (layout.numbered births).withEntries (before.map (Entry.numbered births) ++
        { slot := births.length, generation := 0, height, key, value } ::
          after.map (Entry.numbered births)) := by
  have kept (others : List (Entry α)) (subset : others ⊆ layout.entries) :
      others.map (Entry.numbered (births ++ [(layout.newEntry height key value).id])) =
        others.map (Entry.numbered births) :=
    List.map_congr_left fun e member => numbered_append (numbers.listed e (subset member)) _
  simp only [Layout.numbered, Layout.withEntries, Layout.add, List.map_append, List.map_cons,
    kept before (split ▸ List.subset_append_left _ _), kept after (split ▸ List.subset_append_right _ _),
    numbered_new unknown]
  rfl

/-- A turn that is not short of room is the revision of its change, whatever the free slots. -/
theorem Turn.revise_eq (turn : Turn map layout change next rest reply) (h : map.Holds layout)
    (kept : next.Holds rest) (made : map.apply change = .ok (next, reply))
    (numbers : layout.Numbers births)
    (granted : ∀ error : Error, error.isShortage = true → reply.result ≠ .error error) :
    ∃ born, rest.Numbers (births ++ born) ∧
      map.outline.revise (layout.numbered births) births.length change =
        { map := next.outline, layout := rest.numbered (births ++ born),
          births := (births ++ born).length, reply := reply.nameless } := by
  have compared : (map.outline.compares (layout.numbered births) change).map Comparison.nameless =
      reply.trace.compared.map Comparison.nameless := by
    rw [outline_compares, compares_numbered, h.apply_compared made]
  have same_births (old : ∀ x ∈ rest.entries, ∃ e ∈ layout.entries, e.id = x.id) :
      rest.Numbers (births ++ []) := by
    rw [List.append_nil]
    exact turn.numbers_old h numbers old
  have with_new {before after : List (Entry α)} {new : Entry α} (split : layout.entries = before ++ after)
      (added : rest.entries = before ++ new :: after) := turn.numbers_new h kept numbers split added
  have written {before after : List (Entry α)} {e : Entry α} (split : layout.entries = before ++ e :: after)
      (value : α) : ∀ x ∈ before ++ { e with value } :: after, ∃ y ∈ layout.entries, y.id = x.id := by
    intro x member
    rw [split]
    rcases mem_split.mp member with rfl | other
    · exact ⟨e, List.mem_append_cons_self, rfl⟩
    · exact ⟨x, mem_split.mpr (Or.inr other), rfl⟩
  have taken {before after : List (Entry α)} {e : Entry α} (split : layout.entries = before ++ e :: after) :
      ∀ x ∈ (layout.remove before e after).entries, ∃ y ∈ layout.entries, y.id = x.id := by
    intro x member
    rw [Layout.remove_entries] at member
    exact ⟨x, split ▸ mem_split.mpr (Or.inr member), rfl⟩
  -- only an insertion under a new key gives birth to a node
  cases turn with
  | unfit unfit =>
    refine ⟨[], same_births fun x member => ⟨x, member, rfl⟩, ?_⟩
    simp only [revise, compared, outline_keySize, unfit, if_false, List.append_nil]
    rfl
  | refused _ _ _ _ refused => exact absurd rfl (granted _ (Layout.permit_shortage refused))
  | @updated _ value _ before after e _ fit cuts equal =>
    refine ⟨[], same_births (written cuts.split value), ?_⟩
    have cuts' := cuts.numbered births
    have equal' : map.order.compare (e.numbered births).key _ = .eq := equal
    simp only [revise, compared, outline_keySize, fit, if_true, outline_way, outline_order, cuts'.ahead,
      cuts'.passed, List.map_cons, hit_of_equal equal', List.tail_cons, List.append_nil]
    simp only [Layout.numbered, Layout.withEntries, List.map_append, List.map_cons]
    rfl
  | @inserted key value _ before after height _ _ fit cuts new drawn _ =>
    obtain ⟨unknown, numbers'⟩ := with_new cuts.split rfl
    refine ⟨[(layout.newEntry height.levels key value).id], numbers', ?_⟩
    have cuts' := cuts.numbered births
    have missing : hit map.order key (after.map (numbered births)) = none := by
      rw [hit_numbered, hit_of_missing new, Option.map_none]
    simp only [revise, compared, outline_keySize, fit, if_true, outline_way, outline_order, cuts'.ahead,
      cuts'.passed, missing, outline_maxHeight, outline_source, drawn, outline_len]
    rw [add_numbered numbers cuts.split unknown, List.length_append]
    rfl
  | missed cuts missing =>
    refine ⟨[], same_births fun x member => ⟨x, member, rfl⟩, ?_⟩
    simp only [revise, compared, withdraw_missing cuts missing, List.append_nil]
    rfl
  | removed searchable cuts equal =>
    refine ⟨[], same_births (taken cuts.split), ?_⟩
    simp only [revise, compared, withdraw_found searchable cuts equal, List.append_nil]
    rfl
  | erased removal =>
    cases removal with
    | missed cuts missing =>
      refine ⟨[], same_births fun x member => ⟨x, member, rfl⟩, ?_⟩
      simp only [revise, compared, withdraw_missing cuts missing, List.append_nil]
      rfl
    | removed searchable cuts equal =>
      refine ⟨[], same_births (taken cuts.split), ?_⟩
      simp only [revise, compared, withdraw_found searchable cuts equal, List.append_nil]
      rfl
  | unmodified _ missing =>
    refine ⟨[], same_births fun x member => ⟨x, member, rfl⟩, ?_⟩
    simp only [revise, compared, outline_found, found_numbered, missing, List.append_nil]
    rfl
  | modified _ split found =>
    refine ⟨[], same_births (written split _), ?_⟩
    simp only [revise, compared, outline_found, found_numbered, found, Option.map_some,
      write_numbered h numbers split, List.append_nil]
    rfl
  | cleared =>
    refine ⟨[], same_births fun x member => ?_, ?_⟩
    · rw [Layout.clear_entries] at member
      cases member
    · simp only [revise, compared, List.append_nil]
      simp only [Layout.numbered, Layout.withEntries, List.map_map, Layout.clear_entries]
      rfl

end Map

end SkipList
