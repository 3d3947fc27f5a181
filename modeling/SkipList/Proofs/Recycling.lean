import SkipList.Proofs.Frame
import SkipList.Proofs.Hosting

/-!
# Slots and their reuse

Every slot but the head is occupied, vacant or retired. The vacant ones form a stack, linked through
themselves: taking a node out pushes its slot, and a new node gets the slot on top, with the generation
after that of its last occupant. A slot whose node had the last generation is retired instead.
-/

namespace SkipList

open Entry

variable {σ α : Type}

inductive Slot.Kind where
  | head
  | occupied
  | vacant
  | retired
deriving DecidableEq

def Slot.kind : Slot α → Kind
  | .head _ => .head
  | .occupied _ _ => .occupied
  | .vacant _ _ => .vacant
  | .retired => .retired

/-- The slots without a node. -/
structure Pool where
  /-- The nodes that were last in the vacant slots, the one released last first. -/
  released : List NodeId := []
  retired : List Nat := []

def Pool.push (pool : Pool) (id : NodeId) : Pool :=
  if id.generation < Arena.lastGeneration then { pool with released := id :: pool.released }
  else { pool with retired := id.index :: pool.retired }

namespace Arena

def kind? (arena : Arena α) (slot : Nat) : Option Slot.Kind :=
  arena.slots[slot]?.map Slot.kind

def number (arena : Arena α) (kind : Slot.Kind) : Nat :=
  arena.slots.toList.countP (·.kind = kind)

/-- The link leads through vacant slots, to the end, and these nodes were last in them. -/
inductive FreeChain (arena : Arena α) : Link → List NodeId → Prop where
  | nil : FreeChain arena none []
  | cons {id : NodeId} {next : Link} {rest : List NodeId}
      (vacant : arena.slots[id.index]? = some (.vacant (id.generation + 1) next))
      (further : FreeChain arena next rest) : FreeChain arena (some id.index) (id :: rest)

/-- Every slot has its place: in a list of that many entries, or in the pool. -/
structure Accounts (arena : Arena α) (len : Nat) (pool : Pool) : Prop where
  head : arena.kind? headSlot = some .head
  kinds : ∀ slot < arena.slots.size, slot ≠ headSlot →
    arena.kind? slot = some .occupied ∨ arena.kind? slot = some .vacant ∨
      arena.kind? slot = some .retired
  free : arena.FreeChain arena.free pool.released
  once : (pool.released.map (·.index)).Nodup
  vacant : ∀ slot, slot ∈ pool.released.map (·.index) ↔ arena.kind? slot = some .vacant
  retired : ∀ slot, slot ∈ pool.retired ↔ arena.kind? slot = some .retired
  size : arena.slots.size = 1 + len + arena.number .vacant + arena.number .retired

end Arena

def Change.Spares : Change α → Except Error (Answer α) → Prop
  | .insert _ _ _, result => result ≠ .ok (.inserted .inserted)
  | .remove _, result => result = .ok (.removed .notFound)
  | .erase _, result => result = .ok (.flag false)
  | .modify _ _, _ => True
  | .clear, _ => False

/-- What a change does to the entries, with a given number of slots, and to the pool. -/
inductive Recycles (size : Nat) : Change α → Except Error (Answer α) → List (Entry α) → Pool →
    List (Entry α) → Pool → Prop where
  | reused {key : Key} {value : α} {memory : Memory} {before after : List (Entry α)} {e : Entry α}
      {last : NodeId} {released : List NodeId} {retired : List Nat}
      (id : e.id = ⟨last.index, last.generation + 1⟩) :
      Recycles size (.insert key value memory) (.ok (.inserted .inserted)) (before ++ after)
        ⟨last :: released, retired⟩ (before ++ e :: after) ⟨released, retired⟩
  | fresh {key : Key} {value : α} {memory : Memory} {before after : List (Entry α)} {e : Entry α}
      {retired : List Nat} (id : e.id = ⟨size, 0⟩) :
      Recycles size (.insert key value memory) (.ok (.inserted .inserted)) (before ++ after)
        ⟨[], retired⟩ (before ++ e :: after) ⟨[], retired⟩
  | removed {key : Key} {before after : List (Entry α)} {e : Entry α} {pool : Pool} :
      Recycles size (.remove key) (.ok (.removed (.removed e.value))) (before ++ e :: after) pool
        (before ++ after) (pool.push e.id)
  | erased {key : Key} {before after : List (Entry α)} {e : Entry α} {pool : Pool} :
      Recycles size (.erase key) (.ok (.flag true)) (before ++ e :: after) pool (before ++ after)
        (pool.push e.id)
  /-- Clearing pushes the slots in the order of level 0. -/
  | cleared {entries : List (Entry α)} {pool : Pool} :
      Recycles size .clear (.ok .done) entries pool [] ((entries.map (·.id)).foldl Pool.push pool)
  | kept {change : Change α} {result : Except Error (Answer α)} {entries rest : List (Entry α)}
      {pool : Pool} (spares : change.Spares result)
      (same : rest.map (·.id) = entries.map (·.id)) :
      Recycles size change result entries pool rest pool

/-- What a run of changes does to the pool; every map on the way has the slots of its pool. -/
inductive Map.Recycling [DrawSource σ] : Map σ α → Pool → List (Change α) →
    List (Reply α (Except Error (Answer α))) → Map σ α → Pool → Prop where
  | nil {map : Map σ α} {pool : Pool} : Recycling map pool [] [] map pool
  | cons {map next last : Map σ α} {change : Change α} {changes : List (Change α)}
      {reply : Reply α (Except Error (Answer α))} {replies : List (Reply α (Except Error (Answer α)))}
      {entries rest : List (Entry α)} {pool mid final : Pool}
      (made : map.apply change = .ok (next, reply)) (lists : map.Lists entries)
      (lists' : next.Lists rest)
      (recycles : Recycles map.arena.slots.size change reply.result entries pool rest mid)
      (accounts : next.arena.Accounts next.len mid)
      (further : Recycling next mid changes replies last final) :
      Recycling map pool (change :: changes) (reply :: replies) last final

/-! ### Layouts and pools -/

structure Pool.Fits (pool : Pool) (layout : Layout α) : Prop where
  vacant : layout.vacant = pool.released.map fun id => (id.index, id.generation + 1)
  retired : layout.retired = pool.retired

namespace Pool.Fits

variable {pool : Pool} {layout : Layout α}

theorem vacate (fits : pool.Fits layout) (e : Entry α) :
    (pool.push e.id).Fits (layout.vacate e.slot e.generation) := by
  unfold Pool.push Layout.vacate Entry.id
  split
  · exact { vacant := congrArg _ fits.vacant, retired := fits.retired }
  · exact { vacant := fits.vacant, retired := congrArg _ fits.retired }

theorem withEntries (fits : pool.Fits layout) (entries : List (Entry α)) :
    pool.Fits (layout.withEntries entries) :=
  { vacant := fits.vacant, retired := fits.retired }

theorem vacateAll (fits : pool.Fits layout) (entries : List (Entry α)) :
    ((entries.map (·.id)).foldl Pool.push pool).Fits (layout.vacateAll entries) := by
  induction entries generalizing layout pool with
  | nil => exact fits
  | cons e rest ih => exact ih (fits.vacate e)

end Pool.Fits

/-! ### The kinds of the slots -/

namespace Arena

variable {arena : Arena α} {levels : Nat} {layout : Layout α} {pool : Pool}

theorem kind?_of_found {slot : Nat} {contents : Slot α} (found : arena.slots[slot]? = some contents) :
    arena.kind? slot = some contents.kind := by
  rw [kind?, found]
  rfl

theorem Holds.kind?_head (h : arena.Holds levels layout) : arena.kind? headSlot = some .head :=
  kind?_of_found h.head

theorem Holds.kind?_entry (h : arena.Holds levels layout) {e : Entry α} (member : e ∈ layout.entries) :
    arena.kind? e.slot = some .occupied := by
  obtain ⟨after, found⟩ := h.occupied_of_mem member
  exact kind?_of_found found

theorem Shows.kind?_vacant (h : arena.Shows layout) {place : Nat × Nat} (member : place ∈ layout.vacant) :
    arena.kind? place.1 = some .vacant := by
  obtain ⟨before, after, split⟩ := List.append_of_mem member
  exact kind?_of_found (h.vacant before place after split)

theorem Shows.kind?_retired (h : arena.Shows layout) {slot : Nat} (member : slot ∈ layout.retired) :
    arena.kind? slot = some .retired :=
  kind?_of_found (h.retired slot member)

theorem Holds.kind?_cases (h : arena.Holds levels layout) {slot : Nat} (inside : slot < arena.slots.size) :
    (slot = headSlot ∧ arena.kind? slot = some .head) ∨
    ((∃ e ∈ layout.entries, e.slot = slot) ∧ arena.kind? slot = some .occupied) ∨
    ((∃ place ∈ layout.vacant, place.1 = slot) ∧ arena.kind? slot = some .vacant) ∨
    (slot ∈ layout.retired ∧ arena.kind? slot = some .retired) := by
  rcases List.mem_cons.mp (h.mem_places.mpr inside) with rfl | listed
  · exact Or.inl ⟨rfl, h.kind?_head⟩
  · rcases Layout.mem_slots.mp listed with ⟨e, member, rfl⟩ | ⟨place, member, rfl⟩ | member
    · exact Or.inr (Or.inl ⟨⟨e, member, rfl⟩, h.kind?_entry member⟩)
    · exact Or.inr (Or.inr (Or.inl ⟨⟨place, member, rfl⟩, h.kind?_vacant member⟩))
    · exact Or.inr (Or.inr (Or.inr ⟨member, h.kind?_retired member⟩))

theorem inside_of_kind? {slot : Nat} {kind : Slot.Kind} (found : arena.kind? slot = some kind) :
    slot < arena.slots.size := by
  obtain ⟨_, read, _⟩ := Option.map_eq_some_iff.mp found
  exact (Array.getElem?_eq_some_iff.mp read).1

theorem Holds.kind?_vacant_iff (h : arena.Holds levels layout) (slot : Nat) :
    (∃ place ∈ layout.vacant, place.1 = slot) ↔ arena.kind? slot = some .vacant := by
  constructor
  · rintro ⟨place, member, rfl⟩
    exact h.kind?_vacant member
  · intro found
    rcases h.kind?_cases (inside_of_kind? found) with
      ⟨_, other⟩ | ⟨_, other⟩ | ⟨listed, _⟩ | ⟨_, other⟩
    · rw [found] at other; nomatch other
    · rw [found] at other; nomatch other
    · exact listed
    · rw [found] at other; nomatch other

theorem Holds.kind?_retired_iff (h : arena.Holds levels layout) (slot : Nat) :
    slot ∈ layout.retired ↔ arena.kind? slot = some .retired := by
  refine ⟨h.kind?_retired, fun found => ?_⟩
  rcases h.kind?_cases (inside_of_kind? found) with
    ⟨_, other⟩ | ⟨_, other⟩ | ⟨_, other⟩ | ⟨listed, _⟩
  · rw [found] at other; nomatch other
  · rw [found] at other; nomatch other
  · rw [found] at other; nomatch other
  · exact listed

/-! ### Counting slots -/

theorem countP_range {γ : Type} (holds : γ → Bool) (items : List γ) :
    (List.range items.length).countP (fun index => items[index]?.any holds) = items.countP holds := by
  induction items with
  | nil => rfl
  | cons x rest ih =>
    rw [List.length_cons, List.range_succ_eq_map, List.countP_cons, List.countP_map, List.countP_cons, ← ih]
    rfl

theorem Stores.number_eq (h : arena.Stores [] layout) (kind : Slot.Kind) :
    arena.number kind = (headSlot :: layout.slots).countP fun slot => arena.kind? slot = some kind := by
  have places : (headSlot :: layout.slots).Perm (List.range arena.slots.toList.length) := h.places
  rw [number, ← countP_range, places.countP_eq]
  refine List.countP_congr fun slot _ => ?_
  rw [Array.getElem?_toList, kind?]
  cases arena.slots[slot]? <;> simp

theorem countP_kind {slots : List Nat} {here : Slot.Kind}
    (all : ∀ slot ∈ slots, arena.kind? slot = some here) (kind : Slot.Kind) :
    (slots.countP fun slot => arena.kind? slot = some kind) = if here = kind then slots.length else 0 := by
  split
  · rename_i same
    exact List.countP_eq_length.mpr fun slot listed => decide_eq_true (same ▸ all slot listed)
  · rename_i other
    refine List.countP_eq_zero.mpr fun slot listed => ?_
    rw [all slot listed, decide_eq_true_eq, Option.some.injEq]
    exact other

theorem Holds.number_eq (h : arena.Holds levels layout) (kind : Slot.Kind) :
    arena.number kind = (if .head = kind then 1 else 0) +
      ((if .occupied = kind then layout.entries.length else 0) +
        ((if .vacant = kind then layout.vacant.length else 0) +
          (if .retired = kind then layout.retired.length else 0))) := by
  have head : ∀ slot ∈ [headSlot], arena.kind? slot = some .head := fun slot listed =>
    List.mem_singleton.mp listed ▸ h.kind?_head
  have entries : ∀ slot ∈ layout.entries.map (·.slot), arena.kind? slot = some .occupied := by
    intro slot listed
    obtain ⟨e, member, rfl⟩ := List.mem_map.mp listed
    exact h.kind?_entry member
  have vacant : ∀ slot ∈ layout.vacant.map Prod.fst, arena.kind? slot = some .vacant := by
    intro slot listed
    obtain ⟨place, member, rfl⟩ := List.mem_map.mp listed
    exact h.kind?_vacant member
  have parts : headSlot :: layout.slots = [headSlot] ++ (layout.entries.map (·.slot) ++
      (layout.vacant.map Prod.fst ++ layout.retired)) := rfl
  rw [h.toStores.number_eq, parts, List.countP_append, List.countP_append, List.countP_append,
    countP_kind head, countP_kind entries, countP_kind vacant, countP_kind fun _ => h.kind?_retired,
    List.length_map, List.length_map, List.length_singleton]

/-! ### The free list -/

theorem Shows.freeChain (h : arena.Shows layout) {before after : List (Nat × Nat)}
    (split : layout.vacant = before ++ after) {released : List NodeId}
    (same : after = released.map fun id => (id.index, id.generation + 1)) :
    arena.FreeChain (Layout.top after) released := by
  induction released generalizing before after with
  | nil =>
    obtain rfl := same
    exact .nil
  | cons id rest ih =>
    obtain rfl := same
    rw [List.map_cons] at split ⊢
    exact .cons (h.vacant before _ _ split) (ih (by rw [split, List.append_cons]) rfl)

end Arena

theorem Map.Holds.accounts {map : Map σ α} {layout : Layout α} {pool : Pool} (h : map.Holds layout)
    (fits : pool.Fits layout) : map.arena.Accounts map.len pool := by
  have indices : layout.vacant.map Prod.fst = pool.released.map (·.index) := by
    rw [fits.vacant, List.map_map]
    rfl
  have distinct : (layout.vacant.map Prod.fst).Nodup :=
    (List.nodup_cons.mp h.arena.nodup).2.sublist
      ((List.sublist_append_left _ _).trans (List.sublist_append_right _ _))
  refine
    { head := h.arena.kind?_head, kinds := fun slot inside apart => ?_, free := ?_,
      once := indices ▸ distinct, vacant := fun slot => ?_, retired := fun slot => ?_, size := ?_ }
  · rcases h.arena.kind?_cases inside with ⟨same, _⟩ | ⟨_, kind⟩ | ⟨_, kind⟩ | ⟨_, kind⟩
    · exact absurd same apart
    · exact Or.inl kind
    · exact Or.inr (Or.inl kind)
    · exact Or.inr (Or.inr kind)
  · rw [h.arena.free]
    exact h.arena.freeChain (List.nil_append _).symm fits.vacant
  · rw [← indices, List.mem_map]
    exact h.arena.kind?_vacant_iff slot
  · rw [← fits.retired]
    exact h.arena.kind?_retired_iff slot
  · have whole := h.arena.size_eq
    have vacant : map.arena.number .vacant = layout.vacant.length := by
      rw [h.arena.number_eq]
      simp
    have retired : map.arena.number .retired = layout.retired.length := by
      rw [h.arena.number_eq]
      simp
    simp only [Layout.slots, List.length_append, List.length_map] at whole
    rw [whole, h.len, vacant, retired]
    omega

/-! ### Changes -/

namespace Map

variable [DrawSource σ] {map next : Map σ α} {layout rest : Layout α} {pool : Pool} {change : Change α}
  {reply : Reply α (Except Error (Answer α))}

theorem Turn.recycles (turn : Turn map layout change next rest reply) (h : map.Holds layout)
    (fits : pool.Fits layout) :
    ∃ mid, Recycles map.arena.slots.size change reply.result layout.entries pool rest.entries mid ∧
      Pool.Fits mid rest := by
  cases turn with
  | unfit _ | refused _ _ _ _ _ => exact ⟨pool, .kept nofun rfl, fits⟩
  | missed _ _ | unmodified _ _ => exact ⟨pool, .kept (by trivial) rfl, fits⟩
  | updated _ cuts _ =>
    refine ⟨pool, .kept nofun ?_, fits.withEntries _⟩
    simp only [cuts.split, Layout.withEntries, List.map_append, List.map_cons]
    rfl
  | modified _ split _ =>
    refine ⟨pool, .kept trivial ?_, fits.withEntries _⟩
    simp only [split, Layout.withEntries, List.map_append, List.map_cons]
    rfl
  | @inserted key value _ before after height _ _ _ cuts _ _ _ =>
    -- the layout gives the new node the place on top of its stack, or the next slot
    obtain ⟨released, retired⟩ := pool
    rw [cuts.split]
    cases released with
    | nil =>
      have empty : layout.vacant = [] := fits.vacant
      have place := h.arena.place_of_nil empty
      refine ⟨⟨[], retired⟩, .fresh ?_, { vacant := ?_, retired := fits.retired }⟩
      · rw [Entry.id, Layout.newEntry, place]
      · change layout.vacant.tail = []
        rw [empty]
        rfl
    | cons last released =>
      have stack : layout.vacant = (last.index, last.generation + 1) ::
          released.map fun id => (id.index, id.generation + 1) := fits.vacant
      have place := Layout.place_of_cons stack
      refine ⟨⟨released, retired⟩, .reused ?_, { vacant := ?_, retired := fits.retired }⟩
      · rw [Entry.id, Layout.newEntry, place]
      · change layout.vacant.tail = _
        rw [stack]
        rfl
  | @removed _ _ _ e _ _ cuts _ =>
    rw [cuts.split, Layout.remove_entries]
    exact ⟨pool.push e.id, .removed, (fits.withEntries _).vacate e⟩
  | erased removal =>
    cases removal with
    | missed _ _ => exact ⟨pool, .kept rfl rfl, fits⟩
    | @removed _ _ _ e _ _ cuts _ =>
      rw [cuts.split, Layout.remove_entries]
      exact ⟨pool.push e.id, .erased, (fits.withEntries _).vacate e⟩
  | cleared =>
    rw [Layout.clear_entries]
    exact ⟨_, .cleared, (fits.withEntries []).vacateAll layout.entries⟩

theorem Holds.recycling (h : map.Holds layout) (fits : pool.Fits layout) (changes : List (Change α)) :
    ∃ last final replies left, map.applyAll changes = .ok (last, replies) ∧ last.Holds final ∧
      Recycling map pool changes replies last left ∧ Pool.Fits left final := by
  induction changes generalizing map layout pool with
  | nil => exact ⟨map, layout, [], pool, rfl, h, .nil, fits⟩
  | cons change changes ih =>
    obtain ⟨next, rest, reply, made, turn, holds⟩ := h.apply_ok change
    obtain ⟨mid, recycles, fits'⟩ := turn.recycles h fits
    obtain ⟨last, final, replies, left, run, kept, further, fits''⟩ := ih holds fits'
    exact ⟨last, final, reply :: replies, left, applyAll_of_apply made run, kept,
      .cons made h.lists holds.lists recycles (holds.accounts fits') further, fits''⟩

theorem Reached.fits (reached : map.Reached) :
    ∃ (layout : Layout α) (pool : Pool), map.Holds layout ∧ pool.Fits layout := by
  obtain ⟨_, blueprint, _, _, changes, _, start, built, run⟩ := reached
  have fits : Pool.Fits {} (newLayout α blueprint.config.capacity) := { vacant := rfl, retired := rfl }
  obtain ⟨_, layout, _, pool, done, holds, _, fits'⟩ := (build_holds built).1.recycling fits changes
  rw [run] at done
  obtain ⟨rfl, _⟩ := Prod.mk.inj (Except.ok.inj done)
  exact ⟨layout, pool, holds, fits'⟩

/-- After any changes to a new map, every slot but the head is occupied, vacant or retired, and the links
from the first free slot lead to every vacant slot, once, and to nothing else. Each change treats the
vacant slots as a stack: a new node takes the slot on top, one generation later, and a fresh slot only when
there is none; what is taken out is pushed, or retired after the last generation, and clearing does so in
the order of level 0. Every other change, and everything that only reads, leaves the stack as it is. -/
theorem run_recycles {memory : Memory} {blueprint : Blueprint} {source : σ} {id : Nat} {start : Map σ α}
    (built : Map.build memory blueprint source id = .ok start) (changes : List (Change α)) :
    ∃ last replies entries pool, start.applyAll changes = .ok (last, replies) ∧
      Recycling start {} changes replies last pool ∧ last.Lists entries ∧
      last.len = entries.length ∧ last.arena.Accounts last.len pool ∧
      ∀ (session : Session σ α) (use : Use α), session.maps = [some last] → use.IsReading →
        ∃ next response, session.step use.command = .ok (next, response) ∧ next.maps = [some last] := by
  have fits : Pool.Fits {} (newLayout α blueprint.config.capacity) := { vacant := rfl, retired := rfl }
  obtain ⟨last, layout, replies, pool, run, h, recycling, fits'⟩ :=
    (build_holds built).1.recycling fits changes
  refine ⟨last, replies, layout.entries, pool, run, recycling, h.lists, h.len, h.accounts fits',
    fun session use hosted reading => ?_⟩
  have sound : session.Sound := fun map listed => by
    rw [hosted] at listed
    obtain rfl := Option.some.inj (List.mem_singleton.mp listed)
    exact ⟨layout, h⟩
  obtain ⟨next, response, stepped, maps, _⟩ := sound.read_ok reading
  exact ⟨next, response, stepped, maps.trans hosted⟩

/-- The last entry was cleared last, so its slot is taken first, in the next generation. -/
theorem run_recycles_cleared :
    ∃ (start last : Map Script Nat) (replies : List (Reply Nat (Except Error (Answer Nat)))) (pool : Pool),
      Map.build {} { config := { keySize := 1 } } { values := [] } 0 = .ok start ∧
      start.applyAll [.insert [1] 10 {}, .insert [2] 20 {}, .clear, .insert [3] 30 {}] =
        .ok (last, replies) ∧
      last.located = .ok [(2, [3], 30)] ∧ last.arena.Accounts 1 pool ∧
      1 ∈ pool.released.map (·.index) := by
  have built : (Map.build {} { config := { keySize := 1 } } { values := [] } 0 :
      Except Error (Map Script Nat)) = .ok _ := rfl
  obtain ⟨last, replies, _, pool, run, _, _, _, accounts, _⟩ := run_recycles built
    [.insert [1] 10 {}, .insert [2] 20 {}, .clear, .insert [3] 30 {}]
  obtain ⟨rfl, _⟩ := Prod.mk.inj (Except.ok.inj run)
  exact ⟨_, _, replies, pool, built, run, rfl, accounts, (accounts.vacant 1).mpr rfl⟩

end Map

end SkipList
