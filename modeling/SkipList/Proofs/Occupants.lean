import SkipList.Proofs.Recycling

/-!
# Occupants

An arena by itself, under any calls: nodes come into its slots and go out of them. A slot counts its
occupants, and what it has used up bounds every identity that was ever given in it. `Orderly.call_ok` is
what one call does, `Remembers.step` what it leaves of the history, `callAll_ok` the run.
-/

namespace SkipList

variable {α : Type}

def Slot.used : Slot α → Nat
  | .head _ => 0
  | .occupied generation _ => generation + 1
  | .vacant generation _ => generation
  | .retired => Arena.lastGeneration + 1

def Slot.generation? : Slot α → Option Nat
  | .occupied generation _ => some generation
  | .vacant generation _ => some generation
  | _ => none

namespace Arena

inductive Call (α : Type) where
  | reserve (memory : Memory) (number : Nat)
  | insert (node : Node α)
  | release (slot : Nat)

/-- A node that came in or went out, with the identity that the arena gave it then. -/
inductive Record (α : Type) where
  | stored (id : NodeId) (node : Node α)
  | released (id : NodeId) (node : Node α)

def Record.id : Record α → NodeId
  | .stored id _ => id
  | .released id _ => id

/-- Makes a call. A reservation that is refused leaves the arena as it was. -/
def call (arena : Arena α) : Call α → Except Fault (Arena α × List (Record α))
  | .reserve memory number =>
    match arena.reserve memory number with
    | .ok reserved => return (reserved, [])
    | .error _ => return (arena, [])
  | .insert node => do
    let (next, slot) ← arena.insert node
    let id ← next.id slot
    return (next, [.stored id node])
  | .release slot => do
    let (next, node) ← arena.release slot
    let id ← arena.id slot
    return (next, [.released id node])

def callAll (arena : Arena α) : List (Call α) → Except Fault (Arena α × List (Record α))
  | [] => return (arena, [])
  | call :: calls => do
    let (next, made) ← arena.call call
    let (last, later) ← next.callAll calls
    return (last, made ++ later)

/-- Only an occupied slot can be released. A node needs a free slot or a number for a new one, which is what a
reservation makes sure of. -/
def Allows (arena : Arena α) : Call α → Prop
  | .reserve _ _ => True
  | .insert _ => arena.free = none → arena.slots.size < slotLimit
  | .release slot => arena.kind? slot = some .occupied

def AllowsAll (arena : Arena α) : List (Call α) → Prop
  | [] => True
  | call :: calls => arena.Allows call ∧
    ∀ next made, arena.call call = .ok (next, made) → next.AllowsAll calls

def issued (records : List (Record α)) : List NodeId :=
  records.filterMap fun
    | .stored id _ => some id
    | .released _ _ => none

def Stays (records : List (Record α)) (id : NodeId) (node : Node α) : Prop :=
  .stored id node ∈ records ∧ ∀ gone, .released id gone ∉ records

/-- The arena tells the nodes of its history apart. -/
structure Identifies (arena : Arena α) (records : List (Record α)) : Prop where
  distinct : (issued records).Nodup
  /-- Of two nodes that were stored in one slot, the later one has the later generation. -/
  later : (issued records).Pairwise fun earlier later =>
    earlier.index = later.index → earlier.generation < later.generation
  bounded : ∀ id ∈ issued records, id.generation ≤ lastGeneration
  released : ∀ before id node after, records = before ++ .released id node :: after → Stays before id node
  node : ∀ id node, Stays records id node → arena.node id.index = .ok node
  id : ∀ slot id, arena.id slot = .ok id ↔ slot = id.index ∧ ∃ node, Stays records id node
  resolve : ∀ id slot, arena.resolve id = some slot ↔ slot = id.index ∧ ∃ node, Stays records id node
  /-- The slot of a node that had the last generation is not used again. -/
  retires : ∀ before id node after, records = before ++ .released id node :: after →
    id.generation = lastGeneration → ∀ next ∈ issued after, next.index ≠ id.index

def used (arena : Arena α) (slot : Nat) : Nat := arena.slots[slot]?.elim 0 Slot.used

/-- The free list leads through vacant slots, through each once, and no generation is too large. -/
structure Orderly (arena : Arena α) : Prop where
  free : ∃ ids, arena.FreeChain arena.free ids ∧ (ids.map (·.index)).Nodup
  bounded : ∀ (slot : Nat) (contents : Slot α) (generation : Nat), arena.slots[slot]? = some contents →
    contents.generation? = some generation → generation ≤ lastGeneration

inductive Makes (arena next : Arena α) : List (Record α) → Prop where
  | reserved (same : next.slots = arena.slots) : Makes arena next []
  | stored {slot : Nat} {node : Node α} (empty : arena.kind? slot ≠ some .occupied)
      (found : next.slots[slot]? = some (.occupied (arena.used slot) node))
      (other : ∀ index, index ≠ slot → next.slots[index]? = arena.slots[index]?) :
      Makes arena next [.stored ⟨slot, arena.used slot⟩ node]
  | released {slot generation : Nat} {node : Node α}
      (found : arena.slots[slot]? = some (.occupied generation node))
      (empty : next.kind? slot ≠ some .occupied) (used : next.used slot = arena.used slot)
      (other : ∀ index, index ≠ slot → next.slots[index]? = arena.slots[index]?) :
      Makes arena next [.released ⟨slot, generation⟩ node]

/-- The arena is what its history made of it. -/
structure Remembers (arena : Arena α) (records : List (Record α)) : Prop where
  stays : ∀ id node, Stays records id node ↔
    arena.slots[id.index]? = some (.occupied id.generation node)
  used : ∀ record ∈ records, record.id.generation < arena.used record.id.index
  later : records.Pairwise fun earlier later => ∀ id node, later = .stored id node →
    earlier.id.index = id.index → earlier.id.generation < id.generation
  released : ∀ before id node after, records = before ++ .released id node :: after → Stays before id node

variable {arena next : Arena α} {records made : List (Record α)} {id : NodeId} {node : Node α}
  {call : Call α} {calls : List (Call α)}

/-! ### Slots -/

theorem used_congr {slot : Nat} (same : next.slots[slot]? = arena.slots[slot]?) :
    next.used slot = arena.used slot := by
  rw [used, used, same]

theorem used_of_found {slot : Nat} {contents : Slot α} (found : arena.slots[slot]? = some contents) :
    arena.used slot = contents.used := by
  rw [used, found]
  rfl

theorem kind?_eq_occupied {slot : Nat} (occupied : arena.kind? slot = some .occupied) :
    ∃ generation node, arena.slots[slot]? = some (.occupied generation node) := by
  obtain ⟨contents, found, kind⟩ := Option.map_eq_some_iff.mp occupied
  cases contents with
  | occupied generation node => exact ⟨generation, node, found⟩
  | head _ => nomatch kind
  | vacant _ _ => nomatch kind
  | retired => nomatch kind

/-! ### Orderly arenas -/

theorem FreeChain.congr {link : Link} {ids : List NodeId} (chain : arena.FreeChain link ids)
    (same : ∀ id ∈ ids, next.slots[id.index]? = arena.slots[id.index]?) : next.FreeChain link ids := by
  induction chain with
  | nil => exact .nil
  | @cons id _ rest vacant _ ih =>
    refine .cons ?_ (ih fun other listed => same other (List.mem_cons_of_mem _ listed))
    rw [same id List.mem_cons_self]
    exact vacant

theorem FreeChain.vacant {link : Link} {ids : List NodeId} (chain : arena.FreeChain link ids)
    (listed : id ∈ ids) : arena.kind? id.index = some .vacant := by
  induction chain with
  | nil => nomatch listed
  | cons vacant _ ih =>
    rcases List.mem_cons.mp listed with rfl | later
    · exact kind?_of_found vacant
    · exact ih later

theorem Orderly.bounded_of_other (h : arena.Orderly) {slot : Nat} {contents : Slot α}
    (found : next.slots[slot]? = some contents)
    (other : ∀ index, index ≠ slot → next.slots[index]? = arena.slots[index]?)
    (here : ∀ generation, contents.generation? = some generation → generation ≤ lastGeneration) :
    ∀ (index : Nat) (kept : Slot α) (generation : Nat), next.slots[index]? = some kept →
      kept.generation? = some generation → generation ≤ lastGeneration := by
  intro index kept generation read shown
  by_cases same : index = slot
  · subst same
    rw [found] at read
    obtain rfl := Option.some.inj read
    exact here generation shown
  · rw [other index same] at read
    exact h.bounded index kept generation read shown

theorem Orderly.used_le (h : arena.Orderly) (slot : Nat) : arena.used slot ≤ lastGeneration + 1 := by
  unfold used
  cases found : arena.slots[slot]? with
  | none => exact Nat.zero_le _
  | some contents =>
    show contents.used ≤ lastGeneration + 1
    cases contents with
    | head _ => exact Nat.zero_le _
    | occupied generation node =>
      have bound := h.bounded slot _ generation found rfl
      show generation + 1 ≤ lastGeneration + 1
      omega
    | vacant generation _ =>
      have bound := h.bounded slot _ generation found rfl
      show generation ≤ lastGeneration + 1
      omega
    | retired => exact Nat.le_refl _

/-! ### One call -/

theorem reserve_ok {memory : Memory} {number : Nat} (done : arena.reserve memory number = .ok next) :
    next.slots = arena.slots ∧ next.free = arena.free := by
  unfold Arena.reserve at done
  split at done
  · obtain rfl := Except.ok.inj done
    exact ⟨rfl, rfl⟩
  · split at done
    · nomatch done
    · split at done
      · obtain rfl := Except.ok.inj done
        exact ⟨rfl, rfl⟩
      · obtain ⟨_, _, done⟩ := bind_ok done
        obtain rfl := Except.ok.inj done
        unfold grow
        split <;> exact ⟨rfl, rfl⟩

theorem Orderly.insert_fresh (h : arena.Orderly) (empty : arena.free = none)
    (small : arena.slots.size < slotLimit) (node : Node α) :
    ∃ next, arena.insert node = .ok (next, arena.slots.size) ∧ next.Orderly ∧
      next.slots[arena.slots.size]? = some (.occupied (arena.used arena.slots.size) node) ∧
      ∀ index, index ≠ arena.slots.size → next.slots[index]? = arena.slots[index]? := by
  have unused : arena.used arena.slots.size = 0 := by
    rw [used, Array.getElem?_size]
    rfl
  have found : (arena.slots.push (.occupied 0 node))[arena.slots.size]? = some (.occupied 0 node) :=
    Array.getElem?_push_size
  have other (index : Nat) (apart : index ≠ arena.slots.size) :
      (arena.slots.push (.occupied 0 node))[index]? = arena.slots[index]? := by
    rw [Array.getElem?_push, if_neg apart]
  have free : arena.grow.free = none := by
    unfold grow
    split <;> exact empty
  refine ⟨{ arena.grow with slots := arena.slots.push (.occupied 0 node) }, ?_, ?_, ?_, other⟩
  · simp only [Arena.insert, empty, Nat.not_le.mpr small, if_false, pure_eq_ok]
  · refine { free := ⟨[], free ▸ .nil, List.nodup_nil⟩, bounded := h.bounded_of_other found other ?_ }
    intro generation shown
    obtain rfl := Option.some.inj shown
    exact Nat.zero_le _
  · rw [unused]
    exact found

theorem Orderly.insert_reused (h : arena.Orderly) {index : Nat} (first : arena.free = some index)
    (node : Node α) :
    ∃ next, arena.insert node = .ok (next, index) ∧ next.Orderly ∧ arena.kind? index = some .vacant ∧
      next.slots[index]? = some (.occupied (arena.used index) node) ∧
      ∀ other, other ≠ index → next.slots[other]? = arena.slots[other]? := by
  obtain ⟨ids, chain, once⟩ := h.free
  rw [first] at chain
  cases chain with
  | @cons id link rest vacant further =>
    have apart := (List.nodup_cons.mp once).1
    have bound := h.bounded _ _ _ vacant rfl
    have found := setSlot_self (.occupied (id.generation + 1) node) vacant
    refine ⟨{ arena.setSlot id.index (.occupied (id.generation + 1) node) with free := link },
      ?_, ?_, kind?_of_found vacant, ?_, fun other apart => setSlot_other _ apart⟩
    · simp only [Arena.insert, first, slot_of_getElem? vacant, ok_bind, pure_eq_ok]
    · refine
        { free := ⟨rest, ?_, (List.nodup_cons.mp once).2⟩
          bounded := h.bounded_of_other found (fun other apart => setSlot_other _ apart) ?_ }
      · refine further.congr fun other listed => setSlot_other _ fun same => apart ?_
        exact List.mem_map.mpr ⟨other, listed, same⟩
      · intro generation shown
        obtain rfl := Option.some.inj shown
        exact bound
    · rw [used_of_found vacant]
      exact found

/-- A slot in use is not on the free list, so writing to it leaves the list alone. -/
theorem Orderly.free_setSlot (h : arena.Orderly) {slot : Nat} (occupied : arena.kind? slot = some .occupied)
    (contents : Slot α) : ∃ ids, (arena.setSlot slot contents).FreeChain arena.free ids ∧
      (slot :: ids.map (·.index)).Nodup := by
  obtain ⟨ids, chain, once⟩ := h.free
  have apart : ∀ id ∈ ids, id.index ≠ slot := by
    intro id listed same
    have vacant := chain.vacant listed
    rw [same, occupied] at vacant
    cases vacant
  refine ⟨ids, chain.congr fun id listed => setSlot_other contents (apart id listed), ?_⟩
  refine List.nodup_cons.mpr ⟨fun listed => ?_, once⟩
  obtain ⟨id, listed, same⟩ := List.mem_map.mp listed
  exact apart id listed same

theorem Orderly.release_ok (h : arena.Orderly) {slot generation : Nat}
    (found : arena.slots[slot]? = some (.occupied generation node)) :
    ∃ next contents, arena.release slot = .ok (next, node) ∧ next.Orderly ∧
      next.slots[slot]? = some contents ∧ contents.kind ≠ .occupied ∧ contents.used = generation + 1 ∧
      ∀ other, other ≠ slot → next.slots[other]? = arena.slots[other]? := by
  have bound := h.bounded slot _ generation found rfl
  by_cases early : generation < lastGeneration
  · obtain ⟨ids, chain, once⟩ := h.free_setSlot (kind?_of_found found) (.vacant (generation + 1) arena.free)
    have left := setSlot_self (.vacant (generation + 1) arena.free) found
    have longer := @FreeChain.cons _ _ ⟨slot, generation⟩ _ _ left chain
    refine ⟨{ arena.setSlot slot (.vacant (generation + 1) arena.free) with free := some slot },
      .vacant (generation + 1) arena.free, ?_, ?_, left, by simp [Slot.kind], rfl,
      fun other apart => setSlot_other _ apart⟩
    · simp only [Arena.release, slot_of_getElem? found, ok_bind, early, if_true, pure_eq_ok]
    · refine
        { free := ⟨⟨slot, generation⟩ :: ids, longer.congr fun _ _ => rfl, once⟩
          bounded := h.bounded_of_other left (fun other apart => setSlot_other _ apart) ?_ }
      intro next shown
      obtain rfl := Option.some.inj shown
      exact early
  · obtain ⟨ids, chain, once⟩ := h.free_setSlot (kind?_of_found found) .retired
    have left := setSlot_self .retired found
    refine ⟨arena.setSlot slot .retired, .retired, ?_, ?_, left, by simp [Slot.kind], ?_,
      fun other apart => setSlot_other _ apart⟩
    · simp only [Arena.release, slot_of_getElem? found, ok_bind, early, if_false, pure_eq_ok]
    · refine
        { free := ⟨ids, chain, (List.nodup_cons.mp once).2⟩
          bounded := h.bounded_of_other left (fun other apart => setSlot_other _ apart) ?_ }
      intro _ shown
      cases shown
    · show lastGeneration + 1 = generation + 1
      omega

theorem Orderly.call_ok (h : arena.Orderly) (allowed : arena.Allows call) :
    ∃ next made, arena.call call = .ok (next, made) ∧ next.Orderly ∧ arena.Makes next made := by
  cases call with
  | reserve memory number =>
    cases done : arena.reserve memory number with
    | ok reserved =>
      obtain ⟨slots, free⟩ := reserve_ok done
      obtain ⟨ids, chain, once⟩ := h.free
      refine ⟨reserved, [], ?_, ?_, .reserved slots⟩
      · simp only [Arena.call, done, pure_eq_ok]
      · refine { free := ⟨ids, ?_, once⟩, bounded := slots ▸ h.bounded }
        rw [free]
        exact chain.congr fun _ _ => by rw [slots]
    | error _ =>
      refine ⟨arena, [], ?_, h, .reserved rfl⟩
      simp only [Arena.call, done, pure_eq_ok]
  | insert node =>
    cases first : arena.free with
    | none =>
      obtain ⟨next, done, orderly, found, other⟩ := h.insert_fresh first (allowed first) node
      refine ⟨next, _, ?_, orderly, .stored ?_ found other⟩
      · simp only [Arena.call, done, id_of_occupied found, ok_bind, pure_eq_ok]
      · rw [kind?, Array.getElem?_size]
        simp
    | some index =>
      obtain ⟨next, done, orderly, vacant, found, other⟩ := h.insert_reused first node
      refine ⟨next, _, ?_, orderly, .stored ?_ found other⟩
      · simp only [Arena.call, done, id_of_occupied found, ok_bind, pure_eq_ok]
      · rw [vacant]
        decide
  | release slot =>
    obtain ⟨generation, node, found⟩ := kind?_eq_occupied allowed
    obtain ⟨next, contents, done, orderly, left, empty, used, other⟩ := h.release_ok found
    refine ⟨next, _, ?_, orderly, .released found ?_ ?_ other⟩
    · simp only [Arena.call, done, id_of_occupied found, ok_bind, pure_eq_ok]
    · rw [kind?_of_found left]
      exact fun same => empty (Option.some.inj same)
    · rw [used_of_found left, used_of_found found]
      exact used

/-! ### What is left of the history -/

theorem stays_stored {id' : NodeId} {node' : Node α} (fresh : ∀ record ∈ records, record.id ≠ id) :
    Stays (records ++ [.stored id node]) id' node' ↔ Stays records id' node' ∨ id' = id ∧ node' = node := by
  simp only [Stays, List.mem_append, List.mem_singleton, Record.stored.injEq, reduceCtorEq, or_false]
  constructor
  · rintro ⟨stored | new, kept⟩
    · exact Or.inl ⟨stored, kept⟩
    · exact Or.inr new
  · rintro (⟨stored, kept⟩ | ⟨rfl, rfl⟩)
    · exact ⟨Or.inl stored, kept⟩
    · exact ⟨Or.inr ⟨rfl, rfl⟩, fun _ gone => fresh _ gone rfl⟩

theorem stays_released {id' : NodeId} {node' : Node α} :
    Stays (records ++ [.released id node]) id' node' ↔ Stays records id' node' ∧ id' ≠ id := by
  simp only [Stays, List.mem_append, List.mem_singleton, Record.released.injEq, reduceCtorEq, or_false]
  constructor
  · rintro ⟨stored, kept⟩
    exact ⟨⟨stored, fun gone listed => kept gone (Or.inl listed)⟩,
      fun same => kept node (Or.inr ⟨same, rfl⟩)⟩
  · rintro ⟨⟨stored, kept⟩, apart⟩
    exact ⟨stored, fun gone listed => listed.elim (kept gone) fun here => apart here.1⟩

theorem Makes.used_le (makes : arena.Makes next made) (slot : Nat) : arena.used slot ≤ next.used slot := by
  cases makes with
  | reserved same => exact Nat.le_of_eq (used_congr (by rw [same])).symm
  | @stored here node empty found other =>
    by_cases same : slot = here
    · subst same
      rw [used_of_found found]
      exact Nat.le_succ _
    · exact Nat.le_of_eq (used_congr (other slot same)).symm
  | @released here _ _ _ _ used other =>
    by_cases same : slot = here
    · subst same
      exact Nat.le_of_eq used.symm
    · exact Nat.le_of_eq (used_congr (other slot same)).symm

theorem Makes.used_lt (makes : arena.Makes next made) :
    ∀ record ∈ made, record.id.generation < next.used record.id.index := by
  intro record listed
  cases makes with
  | reserved _ => nomatch listed
  | @stored slot _ _ found _ =>
    obtain rfl := List.mem_singleton.mp listed
    show arena.used slot < next.used slot
    rw [used_of_found found]
    exact Nat.lt_succ_self _
  | @released slot generation _ found _ same _ =>
    obtain rfl := List.mem_singleton.mp listed
    show generation < next.used slot
    rw [same, used_of_found found]
    exact Nat.lt_succ_self _

theorem Remembers.used_append (m : arena.Remembers records) (makes : arena.Makes next made) :
    ∀ record ∈ records ++ made, record.id.generation < next.used record.id.index := by
  intro record listed
  rcases List.mem_append.mp listed with old | new
  · exact Nat.lt_of_lt_of_le (m.used record old) (makes.used_le _)
  · exact makes.used_lt record new

theorem Remembers.released_concat (m : arena.Remembers records) {record : Record α}
    (here : ∀ id node, record = .released id node → Stays records id node) (before : List (Record α))
    (id : NodeId) (node : Node α) (after : List (Record α))
    (split : records ++ [record] = before ++ .released id node :: after) : Stays before id node := by
  rcases Entry.append_cons_eq_split split with ⟨rest, earlier, _⟩ | ⟨rfl, new, _⟩ | ⟨_, _, past⟩
  · exact m.released before id node rest earlier
  · exact here id node new.symm
  · exact absurd past (by simp)

theorem Remembers.store (m : arena.Remembers records) {slot : Nat}
    (empty : arena.kind? slot ≠ some .occupied)
    (found : next.slots[slot]? = some (.occupied (arena.used slot) node))
    (other : ∀ index, index ≠ slot → next.slots[index]? = arena.slots[index]?) :
    next.Remembers (records ++ [.stored ⟨slot, arena.used slot⟩ node]) := by
  -- whatever was in the slot before had a generation that is used up
  have fresh : ∀ record ∈ records, record.id ≠ ⟨slot, arena.used slot⟩ := by
    intro record listed same
    have before := m.used record listed
    rw [same] at before
    exact absurd before (Nat.lt_irrefl _)
  refine { stays := fun id node' => ?_, used := m.used_append (.stored empty found other), later := ?_,
           released := m.released_concat nofun }
  · rw [stays_stored fresh, m.stays]
    by_cases here : id.index = slot
    · rw [here, found]
      constructor
      · rintro (occupied | ⟨rfl, rfl⟩)
        · exact absurd (kind?_of_found occupied) empty
        · rfl
      · intro same
        obtain ⟨generation, rfl⟩ := Slot.occupied.inj (Option.some.inj same)
        exact Or.inr ⟨by rw [generation, ← here], rfl⟩
    · rw [other _ here, or_iff_left fun new => here (congrArg NodeId.index new.1)]
  · refine List.pairwise_append.mpr ⟨m.later, List.pairwise_singleton _ _, ?_⟩
    intro earlier listed last new id node stored same
    obtain rfl := List.mem_singleton.mp new
    obtain ⟨rfl, rfl⟩ := Record.stored.inj stored
    have before := m.used earlier listed
    rwa [same] at before

theorem Remembers.release (m : arena.Remembers records) {slot generation : Nat}
    (found : arena.slots[slot]? = some (.occupied generation node))
    (empty : next.kind? slot ≠ some .occupied) (used : next.used slot = arena.used slot)
    (other : ∀ index, index ≠ slot → next.slots[index]? = arena.slots[index]?) :
    next.Remembers (records ++ [.released ⟨slot, generation⟩ node]) := by
  refine { stays := fun id node' => ?_, used := m.used_append (.released found empty used other), later := ?_,
           released := m.released_concat ?_ }
  · rw [stays_released, m.stays]
    by_cases here : id.index = slot
    · constructor
      · rintro ⟨occupied, apart⟩
        rw [here, found] at occupied
        obtain ⟨same, _⟩ := Slot.occupied.inj (Option.some.inj occupied)
        exact absurd (by rw [same, ← here]) apart
      · intro occupied
        rw [here] at occupied
        exact absurd (kind?_of_found occupied) empty
    · rw [other _ here, and_iff_left fun same => here (congrArg NodeId.index same)]
  · refine List.pairwise_append.mpr ⟨m.later, List.pairwise_singleton _ _, ?_⟩
    intro earlier _ last new id node stored
    obtain rfl := List.mem_singleton.mp new
    nomatch stored
  · rintro id node' same
    obtain ⟨rfl, rfl⟩ := Record.released.inj same
    exact (m.stays _ _).mpr found

theorem Remembers.step (m : arena.Remembers records) (makes : arena.Makes next made) :
    next.Remembers (records ++ made) := by
  cases makes with
  | reserved same =>
    have used := m.used_append (.reserved same)
    rw [List.append_nil] at used ⊢
    exact { stays := same ▸ m.stays, used := used, later := m.later, released := m.released }
  | stored empty found other => exact m.store empty found other
  | released found empty used other => exact m.release found empty used other

/-! ### Runs -/

theorem create_eq {memory : Memory} {height nodes : Nat} (created : create memory height nodes = .ok arena) :
    arena = { slots := #[.head (List.replicate height none)], free := none, capacity := firstCapacity nodes } := by
  unfold create at created
  obtain ⟨_, _, created⟩ := bind_ok created
  obtain ⟨_, _, created⟩ := bind_ok created
  exact (Except.ok.inj created).symm

theorem create_slots {memory : Memory} {height nodes slot : Nat} {contents : Slot α}
    (created : create memory height nodes = .ok arena) (found : arena.slots[slot]? = some contents) :
    contents = .head (List.replicate height none) := by
  obtain rfl := create_eq created
  have listed := Array.mem_of_getElem? found
  simpa using listed

theorem create_orderly {memory : Memory} {height nodes : Nat}
    (created : create memory height nodes = .ok arena) : arena.Orderly := by
  refine { free := ⟨[], ?_, List.nodup_nil⟩, bounded := fun slot contents generation found shown => ?_ }
  · obtain rfl := create_eq created
    exact .nil
  · obtain rfl := create_slots created found
    nomatch shown

theorem create_remembers {memory : Memory} {height nodes : Nat}
    (created : create memory height nodes = .ok arena) : arena.Remembers [] := by
  refine { stays := fun id node => ⟨?_, fun found => ?_⟩, used := nofun, later := List.Pairwise.nil,
           released := fun _ _ _ _ split => ?_ }
  · rintro ⟨stored, _⟩
    nomatch stored
  · nomatch create_slots created found
  · exact absurd split (by simp)

theorem Remembers.callAll_ok (m : arena.Remembers records) (h : arena.Orderly)
    (allowed : arena.AllowsAll calls) : ∃ last made, arena.callAll calls = .ok (last, made) ∧
      last.Orderly ∧ last.Remembers (records ++ made) := by
  induction calls generalizing arena records with
  | nil => exact ⟨arena, [], rfl, h, by rwa [List.append_nil]⟩
  | cons call calls ih =>
    obtain ⟨first, further⟩ := allowed
    obtain ⟨next, made, done, orderly, makes⟩ := h.call_ok first
    obtain ⟨last, later, ran, orderly, remembers⟩ := ih (m.step makes) orderly (further next made done)
    refine ⟨last, made ++ later, ?_, orderly, ?_⟩
    · simp only [callAll, done, ran, ok_bind, pure_eq_ok]
    · rwa [← List.append_assoc]

theorem mem_issued : id ∈ issued records ↔ ∃ node, .stored id node ∈ records := by
  unfold issued
  rw [List.mem_filterMap]
  constructor
  · rintro ⟨record, listed, shown⟩
    cases record with
    | stored other node =>
      obtain rfl := Option.some.inj shown
      exact ⟨node, listed⟩
    | released _ _ => nomatch shown
  · rintro ⟨node, listed⟩
    exact ⟨_, listed, rfl⟩

theorem Remembers.identifies (m : arena.Remembers records) (h : arena.Orderly) : arena.Identifies records := by
  have later : (issued records).Pairwise fun earlier later =>
      earlier.index = later.index → earlier.generation < later.generation := by
    refine List.pairwise_filterMap.mpr (m.later.imp ?_)
    intro earlier later ordered first one second two
    cases earlier with
    | released _ _ => nomatch one
    | stored id node =>
      cases later with
      | released _ _ => nomatch two
      | stored id' node' =>
        obtain rfl := Option.some.inj one
        obtain rfl := Option.some.inj two
        exact ordered _ _ rfl
  have bound : ∀ id ∈ issued records, id.generation ≤ lastGeneration := by
    intro id listed
    obtain ⟨node, stored⟩ := mem_issued.mp listed
    have before := m.used _ stored
    have limit := h.used_le id.index
    exact Nat.le_of_lt_succ (Nat.lt_of_lt_of_le before limit)
  refine
    { distinct := later.imp ?_, later := later, bounded := bound, released := m.released,
      node := fun id node stays => node_of_occupied ((m.stays id node).mp stays),
      id := fun slot id => ?_, resolve := fun id slot => ?_, retires := ?_ }
  · rintro earlier later ordered rfl
    exact absurd (ordered rfl) (Nat.lt_irrefl _)
  · simp only [id_eq_ok_iff, m.stays]
  · simp only [resolve_eq_some_iff, m.stays]
  · intro before id node after split exhausted next listed same
    obtain ⟨fresh, stored⟩ := mem_issued.mp listed
    have whole := m.later
    rw [split] at whole
    have ordered := (List.pairwise_append.mp whole).2.1
    have less := (List.pairwise_cons.mp ordered).1 _ stored next fresh rfl same.symm
    have known : next ∈ issued records := mem_issued.mpr ⟨fresh, by simp [split, stored]⟩
    have limit := bound next known
    rw [Record.id, exhausted] at less
    omega

/-- Any calls on a new arena return, if it allows each of them, and they give no identity twice: of two nodes in
one slot the later one has the later generation. An identity resolves to the slot of its node from the time
that the node is stored until it is released, and to nothing before or after. After its last generation a slot
is not used again. -/
theorem identities_never_reused {memory : Memory} {height nodes : Nat} {start : Arena α}
    (created : create memory height nodes = .ok start) {calls : List (Call α)}
    (allowed : start.AllowsAll calls) :
    ∃ last records, start.callAll calls = .ok (last, records) ∧ last.Identifies records := by
  obtain ⟨last, records, run, orderly, remembers⟩ :=
    (create_remembers created).callAll_ok (create_orderly created) allowed
  exact ⟨last, records, run, remembers.identifies orderly⟩

/-! ### Wearing out a slot -/

theorem allows_of_call_ok (done : arena.call call = .ok (next, made)) : arena.Allows call := by
  cases call with
  | reserve _ _ => trivial
  | insert node =>
    intro empty
    obtain ⟨_, stored, _⟩ := bind_ok done
    simp only [Arena.insert, empty] at stored
    split at stored
    · cases stored
    · omega
  | release slot =>
    obtain ⟨_, released, _⟩ := bind_ok done
    obtain ⟨contents, read, released⟩ := bind_ok released
    cases contents with
    | occupied generation node => exact kind?_of_found (getElem?_of_slot read)
    | head _ => cases released
    | vacant _ _ => cases released
    | retired => cases released

theorem allowsAll_of_callAll_ok {last : Arena α} (run : arena.callAll calls = .ok (last, made)) :
    arena.AllowsAll calls := by
  induction calls generalizing arena made last with
  | nil => trivial
  | cons call calls ih =>
    obtain ⟨⟨next, first⟩, done, run⟩ := bind_ok run
    obtain ⟨⟨_, _⟩, ran, _⟩ := bind_ok run
    refine ⟨allows_of_call_ok done, fun other _ again => ?_⟩
    obtain ⟨rfl, _⟩ := Prod.mk.inj (Except.ok.inj (done.symm.trans again))
    exact ih ran

theorem callAll_append {mid last : Arena α} {before after : List (Call α)} {later : List (Record α)}
    (run : arena.callAll before = .ok (mid, made)) (ran : mid.callAll after = .ok (last, later)) :
    arena.callAll (before ++ after) = .ok (last, made ++ later) := by
  induction before generalizing arena made with
  | nil =>
    obtain ⟨rfl, rfl⟩ := Prod.mk.inj (Except.ok.inj run)
    exact ran
  | cons call before ih =>
    obtain ⟨⟨next, first⟩, done, run⟩ := bind_ok run
    obtain ⟨⟨_, further⟩, rest, run⟩ := bind_ok run
    obtain ⟨rfl, rfl⟩ := Prod.mk.inj (Except.ok.inj run)
    simp only [List.cons_append, callAll, done, ih rest, ok_bind, pure_eq_ok, List.append_assoc]

def worn : Nat → Arena α
  | 0 => { slots := #[.head [none]], free := none, capacity := 4 }
  | n + 1 =>
    if n < lastGeneration then
      { slots := #[.head [none], .vacant (n + 1) none], free := some 1, capacity := 4 }
    else { slots := #[.head [none], .retired], free := none, capacity := 4 }

def comeAndGo (node : Node α) (times : Nat) : List (Call α) :=
  (List.replicate times [.insert node, .release 1]).flatten

theorem worn_step (node : Node α) {n : Nat} (early : n ≤ lastGeneration) :
    (worn n).callAll [.insert node, .release 1] =
      .ok (worn (n + 1), [.stored ⟨1, n⟩ node, .released ⟨1, n⟩ node]) := by
  cases n with
  | zero => rfl
  | succ n =>
    have before : n < lastGeneration := early
    by_cases more : n + 1 < lastGeneration <;>
      simp [worn, callAll, call, Arena.insert, Arena.slot, Arena.id, Arena.release, setSlot, before, more]

theorem comeAndGo_worn (node : Node α) {n : Nat} (early : n ≤ lastGeneration + 1) :
    ∃ records, (worn 0).callAll (comeAndGo node n) = .ok (worn n, records) ∧
      ∀ generation < n, .released ⟨1, generation⟩ node ∈ records := by
  induction n with
  | zero => exact ⟨[], rfl, nofun⟩
  | succ n ih =>
    obtain ⟨records, run, listed⟩ := ih (Nat.le_of_succ_le early)
    refine ⟨records ++ [.stored ⟨1, n⟩ node, .released ⟨1, n⟩ node], ?_, ?_⟩
    · unfold comeAndGo
      rw [List.replicate_succ', List.flatten_append, List.flatten_singleton]
      exact callAll_append run (worn_step node (Nat.le_of_succ_le_succ early))
    · intro generation less
      rcases Nat.lt_succ_iff_lt_or_eq.mp less with before | rfl
      · exact List.mem_append_left _ (listed generation before)
      · simp

def wearingOut : List (Call Nat) :=
  comeAndGo ⟨[1], 10, [none]⟩ (lastGeneration + 1) ++ [.insert ⟨[2], 20, [none]⟩]

theorem identities_never_reused_worn :
    ∃ (start last : Arena Nat) (records : List (Record Nat)),
      create {} 1 0 = .ok start ∧ start.AllowsAll wearingOut ∧
      start.callAll wearingOut = .ok (last, records) ∧ last.Identifies records ∧
      .released ⟨1, lastGeneration⟩ ⟨[1], 10, [none]⟩ ∈ records ∧
      last.resolve ⟨1, lastGeneration⟩ = none ∧ last.resolve ⟨2, 0⟩ = some 2 := by
  have created : (create {} 1 0 : Except Error (Arena Nat)) = .ok (worn 0) := rfl
  obtain ⟨gone, run, listed⟩ :=
    comeAndGo_worn (⟨[1], 10, [none]⟩ : Node Nat) (Nat.le_refl (lastGeneration + 1))
  have retired : (worn (lastGeneration + 1) : Arena Nat) =
      { slots := #[.head [none], .retired], free := none, capacity := 4 } := by
    rw [worn, if_neg (Nat.lt_irrefl _)]
  have further : (worn (lastGeneration + 1) : Arena Nat).callAll [.insert ⟨[2], 20, [none]⟩] =
      .ok ({ slots := #[.head [none], .retired, .occupied 0 ⟨[2], 20, [none]⟩], free := none, capacity := 4 },
        [.stored ⟨2, 0⟩ ⟨[2], 20, [none]⟩]) := by
    rw [retired]
    rfl
  have whole := callAll_append run further
  have allowed := allowsAll_of_callAll_ok whole
  obtain ⟨last, records, run, identifies⟩ := identities_never_reused created allowed
  obtain ⟨rfl, rfl⟩ := Prod.mk.inj (Except.ok.inj (whole.symm.trans run))
  exact ⟨_, _, _, created, allowed, run, identifies,
    List.mem_append_left _ (listed lastGeneration (Nat.lt_succ_self _)), rfl, rfl⟩

end Arena

end SkipList
