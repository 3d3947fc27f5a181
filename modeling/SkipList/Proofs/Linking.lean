import SkipList.Proofs.Relink
import SkipList.Proofs.Storage

/-!
# Linking in and out

What the compound changes of an arena do to its layout: `link` puts a new entry at a place of the list,
`unlink` takes one out, `drain` takes all of them out and `setValue` replaces a value. Between the first
and the last write an arena holds no layout; each proof describes that state by `Stores` with the slot at
hand loose, and by the links that are still to be redirected.
-/

namespace SkipList

open Entry

variable {α : Type}

namespace Layout

def newEntry (layout : Layout α) (height : Nat) (key : Key) (value : α) : Entry α :=
  { slot := layout.place.1, generation := layout.place.2, height, key, value }

def add (layout : Layout α) (before after : List (Entry α)) (height : Nat) (key : Key) (value : α) :
    Layout α :=
  { layout.reserve.take with entries := before ++ layout.newEntry height key value :: after }

/-- Whether a node of that height can be linked in: its key and its tower ask for memory before its slot. -/
def permit (layout : Layout α) (memory : Memory) (key : Key) (height : Nat) : Except Error Unit := do
  memory.request 1 key.length
  memory.request 2 (height * Memory.linkBytes)
  layout.allot memory 3

def withEntries (layout : Layout α) (entries : List (Entry α)) : Layout α :=
  { layout with entries }

def remove (layout : Layout α) (before : List (Entry α)) (e : Entry α) (after : List (Entry α)) :
    Layout α :=
  (layout.withEntries (before ++ after)).vacate e.slot e.generation

def vacateAll (layout : Layout α) : List (Entry α) → Layout α
  | [] => layout
  | e :: rest => (layout.vacate e.slot e.generation).vacateAll rest

def clear (layout : Layout α) : Layout α :=
  (layout.withEntries []).vacateAll layout.entries

theorem vacate_withEntries (layout : Layout α) (entries : List (Entry α)) (slot generation : Nat) :
    (layout.withEntries entries).vacate slot generation =
      (layout.vacate slot generation).withEntries entries := by
  unfold vacate
  split <;> rfl

theorem vacateAll_entries (layout : Layout α) (entries : List (Entry α)) :
    (layout.vacateAll entries).entries = layout.entries := by
  induction entries generalizing layout with
  | nil => rfl
  | cons e rest ih => rw [vacateAll, ih, vacate_entries]

@[simp] theorem clear_entries (layout : Layout α) : layout.clear.entries = [] :=
  vacateAll_entries _ _

theorem clear_of_nil {layout : Layout α} (empty : layout.entries = []) : layout.clear = layout := by
  obtain ⟨entries, vacant, retired, capacity⟩ := layout
  obtain rfl := empty
  rfl

theorem clear_of_cons {layout : Layout α} {e : Entry α} {rest : List (Entry α)}
    (split : layout.entries = e :: rest) :
    layout.clear = ((layout.withEntries rest).vacate e.slot e.generation).clear := by
  unfold clear
  rw [split, vacateAll, vacate_entries, ← vacate_withEntries]
  rfl

@[simp] theorem remove_entries (layout : Layout α) (before : List (Entry α)) (e : Entry α)
    (after : List (Entry α)) : (layout.remove before e after).entries = before ++ after :=
  vacate_entries _ _ _

theorem add_slots {layout : Layout α} {before after : List (Entry α)} {height : Nat} {key : Key}
    {value : α} (split : layout.entries = before ++ after) :
    (layout.add before after height key value).slots.Perm
      (layout.place.1 :: layout.reserve.take.slots) := by
  simp only [slots, add, take_entries, reserve_entries, split, List.map_append, List.map_cons,
    List.append_assoc, List.cons_append]
  exact List.perm_middle

theorem permit_eq_ok_iff {layout : Layout α} {memory : Memory} {key : Key} {height : Nat} :
    layout.permit memory key height = .ok () ↔ memory.request 1 key.length = .ok () ∧
      memory.request 2 (height * Memory.linkBytes) = .ok () ∧ layout.allot memory 3 = .ok () := by
  unfold permit
  cases memory.request 1 key.length with
  | error _ => simp
  | ok _ =>
    cases memory.request 2 (height * Memory.linkBytes) with
    | error _ => simp
    | ok _ => simp

theorem permit_error {layout : Layout α} {memory : Memory} {key : Key} {height : Nat} {error : Error}
    (refused : layout.permit memory key height = .error error) :
    (error = .full ∧ layout.Spent) ∨ (error = .allocation .refused ∧
      ¬ (memory.Grants 1 key.length ∧ memory.Grants 2 (height * Memory.linkBytes) ∧
        (layout.Full → memory.Grants 3 (2 * layout.capacity * memory.slotBytes)))) := by
  unfold permit at refused
  cases first : memory.request 1 key.length with
  | error _ =>
    rw [first] at refused
    obtain ⟨rfl, refuses⟩ := Memory.request_error (first.trans refused)
    exact Or.inr ⟨rfl, fun granted => refuses granted.1⟩
  | ok _ =>
    cases second : memory.request 2 (height * Memory.linkBytes) with
    | error _ =>
      rw [first, ok_bind, second] at refused
      obtain ⟨rfl, refuses⟩ := Memory.request_error (second.trans refused)
      exact Or.inr ⟨rfl, fun granted => refuses granted.2.1⟩
    | ok _ =>
      rw [first, ok_bind, second, ok_bind] at refused
      rcases allot_error refused with spent | ⟨rfl, _, full, refuses⟩
      · exact Or.inl spent
      · exact Or.inr ⟨rfl, fun granted => refuses (granted.2.2 full)⟩

/-- Taking an entry out of the list leaves its slot without a use. -/
theorem loosen_slots {layout : Layout α} {before after : List (Entry α)} {e : Entry α}
    (split : layout.entries = before ++ e :: after) :
    (e.slot :: (layout.withEntries (before ++ after)).slots).Perm layout.slots := by
  simp only [slots, withEntries, split, List.map_append, List.map_cons, List.append_assoc,
    List.cons_append]
  exact List.perm_middle.symm

theorem write_slots {layout : Layout α} {before after : List (Entry α)} {e : Entry α}
    (split : layout.entries = before ++ e :: after) (value : α) :
    (layout.withEntries (before ++ { e with value } :: after)).slots = layout.slots := by
  simp only [slots, withEntries, split, List.map_append, List.map_cons]

end Layout

namespace Arena

variable {arena : Arena α} {levels : Nat} {layout : Layout α} {before after : List (Entry α)}

/-! ### Linking in -/

theorem next_congr {other : Arena α} {index : Nat} (same : other.slots[index]? = arena.slots[index]?)
    (level : Nat) : other.next index level = arena.next index level := by
  simp only [Arena.next, Arena.tower, Arena.slot, same]

theorem Holds.successors_eq (h : arena.Holds levels layout) (split : layout.entries = before ++ after)
    {height : Nat} (short : height ≤ levels) :
    arena.successors (pathTo levels before) height = .ok (towerTo height after) := by
  induction height with
  | zero => rfl
  | succ level ih =>
    have recorded : (pathTo levels before)[level]? = some (endOn level before) := by
      rw [pathTo_getElem?, if_pos (Nat.lt_of_succ_le short)]
    rw [successors, ih (Nat.le_of_succ_le short)]
    simp only [ok_bind, predecessor_of_getElem? recorded, h.next_endOn split short, pure_eq_ok]
    simp [towerTo, List.range_succ]

theorem Stored.fresh {stored : Arena α} {node : Node α} (s : arena.Stored stored layout node) :
    layout.place.1 ≠ headSlot ∧ layout.place.1 ∉ layout.take.slots := by
  obtain ⟨head_apart, rest⟩ := List.nodup_cons.mp s.stores.nodup
  exact ⟨fun same => head_apart (same ▸ List.mem_cons_self), (List.nodup_cons.mp rest).1⟩

theorem Stored.kept {reserved stored : Arena α} {node : Node α} (slots : reserved.slots = arena.slots)
    (s : reserved.Stored stored layout.reserve node) {e : Entry α} (member : e ∈ layout.entries) :
    stored.slots[e.slot]? = arena.slots[e.slot]? := by
  have apart : e.slot ≠ layout.place.1 := by
    intro same
    exact s.fresh.2 (same ▸ Layout.entry_mem_slots member)
  rw [s.other _ apart, slots]

/-- Until the recorded links are redirected, only the entries up to the new one do not lead on to it. -/
theorem Stored.shows_new {reserved stored : Arena α} {height : Nat} {key : Key} {value : α}
    (h : arena.Holds levels layout) (split : layout.entries = before ++ after)
    (slots : reserved.slots = arena.slots)
    (s : reserved.Stored stored layout.reserve ((layout.newEntry height key value).node after)) :
    stored.Shows { layout.add before after height key value with
      entries := layout.newEntry height key value :: after } := by
  refine { occupied := fun first e rest parts => ?_, vacant := s.stores.vacant,
           retired := s.stores.retired }
  cases first with
  | nil =>
    obtain ⟨rfl, rfl⟩ := List.cons.inj parts
    exact s.found
  | cons x first =>
    obtain ⟨rfl, rfl⟩ := List.cons.inj parts
    have whole : layout.entries = (before ++ first) ++ e :: rest := by
      rw [split, List.append_assoc]
      rfl
    rw [s.kept slots (whole ▸ List.mem_append_cons_self)]
    exact h.occupied (before ++ first) e rest whole

theorem Stored.attached {reserved stored : Arena α} {height : Nat} {key : Key} {value : α}
    (h : arena.Holds levels layout) (split : layout.entries = before ++ after)
    (slots : reserved.slots = arena.slots) (low : 1 ≤ height) (short : height ≤ levels)
    (s : reserved.Stored stored layout.reserve ((layout.newEntry height key value).node after)) :
    (stored.relink (redirect (pathTo levels before) height fun _ => some layout.place.1)).Holds levels
      (layout.add before after height key value) := by
  have follow (level : Nat) : nextOn level (layout.newEntry height key value :: after) =
      if level < height then some layout.place.1 else nextOn level after := nextOn_cons _ _ _
  have places : (headSlot :: ([] ++ (layout.add before after height key value).slots)).Perm
      (List.range stored.slots.size) :=
    ((Layout.add_slots split).cons _).trans s.stores.places
  have distinct : (headSlot :: (layout.add before after height key value).slots).Nodup :=
    places.nodup_iff.mpr List.nodup_range
  have before_mem {e : Entry α} (member : e ∈ before) : e ∈ layout.entries :=
    split ▸ List.mem_append_left _ member
  have shows : (stored.relink (redirect (pathTo levels before) height fun _ => some layout.place.1)).Shows
      (layout.add before after height key value) := by
    refine redirect_shows rfl distinct (fun e member => (h.heights e (before_mem member)).2) follow
      (fun first e rest parts => ?_) (s.shows_new h split slots)
    have member : e ∈ before := parts ▸ List.mem_append_cons_self
    rw [s.kept slots (before_mem member)]
    exact h.occupied first e (rest ++ after) (by rw [split, parts, List.append_assoc, List.cons_append])
  refine
    { toShows := shows, free := s.stores.free, places := ?_, capacity := s.stores.capacity, room := ?_,
      head := ?_, heights := ?_ }
  · rwa [relink_size]
  · rw [relink_size]
    exact s.stores.room
  · refine redirect_head (fun e member => h.slot_ne_head (before_mem member)) follow ?_
    rw [s.other _ s.fresh.1.symm, slots, ← split]
    exact h.head
  · intro e member
    rcases mem_split.mp member with rfl | old
    · exact ⟨low, short⟩
    · exact h.heights e (split ▸ old)

theorem Holds.link_ok (h : arena.Holds levels layout) (split : layout.entries = before ++ after)
    {height : Nat} (low : 1 ≤ height) (short : height ≤ levels) {memory : Memory} {key : Key} (value : α)
    (permitted : layout.permit memory key height = .ok ()) :
    ∃ linked, arena.link memory (pathTo levels before) height key value =
        .ok (linked, .ok layout.place.1) ∧
      linked.Holds levels (layout.add before after height key value) := by
  obtain ⟨key_granted, tower_granted, slot_granted⟩ := Layout.permit_eq_ok_iff.mp permitted
  have left : ¬ layout.reserve.Spent := (Layout.allot_eq_ok_iff.mp slot_granted).1
  have slots : ({ arena with capacity := layout.reserve.capacity } : Arena α).slots = arena.slots := rfl
  obtain ⟨stored, inserted, s⟩ :=
    h.reserve_stores.insert_ok h.not_full_reserve left ((layout.newEntry height key value).node after)
  obtain ⟨place_ne_head, place_fresh⟩ := s.fresh
  have place_not_before : layout.place.1 ∉ before.map (·.slot) := by
    intro present
    obtain ⟨e, member, same⟩ := List.mem_map.mp present
    have listed : e ∈ layout.entries := split ▸ List.mem_append_left _ member
    exact place_fresh (same ▸ Layout.entry_mem_slots listed)
  have attached : stored.attach (pathTo levels before) layout.place.1 height =
      .ok (stored.relink (redirect (pathTo levels before) height fun _ => some layout.place.1)) := by
    refine attach_eq height fun level below => ⟨endOn level before, nextOn level after, ?_, ?_⟩
    · rw [pathTo_getElem?, if_pos (Nat.lt_of_lt_of_le below short)]
    · have apart := endOn_ne place_ne_head place_not_before level
      have same : stored.slots[endOn level before]? = arena.slots[endOn level before]? := by
        rw [s.other _ apart, slots]
      rw [next_congr same]
      exact h.next_endOn split (Nat.lt_of_lt_of_le below short)
  refine ⟨_, ?_, s.attached h split slots low short⟩
  simp only [link, key_granted, tower_granted, h.successors_eq split short, ok_bind, h.reserve_eq,
    slot_granted, Except.map]
  have made : ({ key, value, tower := towerTo height after } : Node α) =
      (layout.newEntry height key value).node after := rfl
  rw [made, inserted]
  simp only [Layout.reserve_place, ok_bind, attached, pure_eq_ok]

theorem Holds.link_refused (h : arena.Holds levels layout) (split : layout.entries = before ++ after)
    {height : Nat} (short : height ≤ levels) {memory : Memory} {key : Key} (value : α) {error : Error}
    (refused : layout.permit memory key height = .error error) :
    arena.link memory (pathTo levels before) height key value = .ok (arena, .error error) := by
  unfold Layout.permit at refused
  unfold link
  cases first : memory.request 1 key.length with
  | error _ =>
    rw [first] at refused
    rw [Except.error.inj refused]
    rfl
  | ok _ =>
    cases second : memory.request 2 (height * Memory.linkBytes) with
    | error _ =>
      rw [first, ok_bind, second] at refused
      rw [Except.error.inj refused]
      rfl
    | ok _ =>
      rw [first, ok_bind, second, ok_bind] at refused
      simp only [h.successors_eq split short, ok_bind, h.reserve_eq, refused, Except.map, pure_eq_ok]

/-! ### Taking out -/

theorem Stores.slot_not_before {loose : List Nat} {e : Entry α} (h : arena.Stores loose layout)
    (split : layout.entries = before ++ e :: after) : e.slot ∉ before.map (·.slot) := by
  have distinct := h.entries_nodup
  rw [split, List.map_append, List.map_cons] at distinct
  intro present
  exact (List.nodup_append.mp distinct).2.2 e.slot present e.slot List.mem_cons_self rfl

/-- Detaching takes an entry out of the list and leaves its node in its slot. -/
theorem Holds.detach_ok {e : Entry α} (h : arena.Holds levels layout)
    (split : layout.entries = before ++ e :: after) :
    ∃ detached, arena.detach (pathTo levels before) e.slot e.height = .ok detached ∧
      detached.Stores [e.slot] (layout.withEntries (before ++ after)) ∧
      detached.slots[e.slot]? = arena.slots[e.slot]? ∧
      detached.slots[headSlot]? = some (.head (towerTo levels (before ++ after))) := by
  have member : e ∈ layout.entries := split ▸ List.mem_append_cons_self
  have before_mem {x : Entry α} (listed : x ∈ before) : x ∈ layout.entries :=
    split ▸ List.mem_append_left _ listed
  have short : e.height ≤ levels := (h.heights e member).2
  have not_head := h.slot_ne_head member
  have not_before := h.slot_not_before split
  have places : (headSlot :: ([e.slot] ++ (layout.withEntries (before ++ after)).slots)).Perm
      (List.range arena.slots.size) :=
    ((Layout.loosen_slots split).cons _).trans h.places
  have distinct : (headSlot :: e.slot :: (layout.withEntries (before ++ after)).slots).Nodup :=
    places.nodup_iff.mpr List.nodup_range
  have follow (level : Nat) : nextOn level after =
      if level < e.height then nextOn level after else nextOn level (e :: after) := by
    rw [nextOn_cons]
    split <;> rfl
  have shows : (arena.relink (redirect (pathTo levels before) e.height (nextOn · after))).Shows
      (layout.withEntries (before ++ after)) := by
    refine redirect_shows rfl (distinct.sublist ((List.sublist_cons_self _ _).cons_cons _))
      (fun x listed => (h.heights x (before_mem listed)).2) follow (fun first x rest parts => ?_) ?_
    · exact h.occupied first x (rest ++ e :: after)
        (by rw [split, parts, List.append_assoc, List.cons_append])
    · exact
        { occupied := fun first x rest parts =>
            h.occupied (before ++ e :: first) x rest
              (by rw [split, show after = first ++ x :: rest from parts, List.append_assoc]; rfl)
          vacant := h.vacant, retired := h.retired }
  refine ⟨arena.relink (redirect (pathTo levels before) e.height (nextOn · after)), ?_, ?_,
    redirect_elsewhere not_head not_before, ?_⟩
  · refine detach_eq e.height fun level below => ⟨endOn level before, ?_, ?_, ?_, ?_⟩
    · rw [pathTo_getElem?, if_pos (Nat.lt_of_lt_of_le below short)]
    · exact endOn_ne not_head not_before level
    · rw [h.next_endOn split (Nat.lt_of_lt_of_le below short), nextOn_cons, if_pos below]
    · exact h.next_entry split below
  · exact
      { toShows := shows, free := h.free, places := by rwa [relink_size], capacity := h.capacity,
        room := by rw [relink_size]; exact h.room }
  · refine redirect_head (fun x listed => h.slot_ne_head (before_mem listed)) follow ?_
    rw [← split]
    exact h.head

theorem Holds.unlink_ok {e : Entry α} (h : arena.Holds levels layout)
    (split : layout.entries = before ++ e :: after) :
    ∃ released, arena.unlink (pathTo levels before) e.slot = .ok (released, e.node after) ∧
      released.Holds levels (layout.remove before e after) := by
  have found := h.occupied before e after split
  have not_head := h.slot_ne_head (split ▸ List.mem_append_cons_self)
  obtain ⟨detached, done, loose, kept, head⟩ := h.detach_ok split
  obtain ⟨released, freed, stores, other⟩ := loose.release_ok (kept.trans found)
  refine ⟨released, ?_, { toStores := stores, head := ?_, heights := fun x listed => ?_ }⟩
  · simp only [unlink, node_of_occupied found, ok_bind, node_height, done, freed]
  · rw [other _ not_head.symm, Layout.remove_entries]
    exact head
  · rw [Layout.remove_entries] at listed
    exact h.heights x (split ▸ mem_split.mpr (Or.inr listed))

/-! ### Taking all out -/

theorem Stores.loosen {e : Entry α} {rest : List (Entry α)} (h : arena.Stores [] layout)
    (split : layout.entries = e :: rest) : arena.Stores [e.slot] (layout.withEntries rest) := by
  have loosened : (e.slot :: (layout.withEntries ([] ++ rest)).slots).Perm layout.slots :=
    Layout.loosen_slots split
  have shows : arena.Shows (layout.withEntries rest) :=
    h.toShows.of_agree (split ▸ List.suffix_cons _ _) (List.suffix_refl _) (List.Subset.refl _)
      fun _ _ => rfl
  exact
    { toShows := shows, free := h.free, places := (loosened.cons _).trans h.places,
      capacity := h.capacity, room := h.room }

theorem Stores.releaseChain_ok {entries : List (Entry α)} (h : arena.Stores [] layout)
    (split : layout.entries = entries) (tall : ∀ e ∈ entries, 1 ≤ e.height) {fuel : Nat}
    (enough : entries.length ≤ fuel) :
    ∃ drained, arena.releaseChain fuel (entries.head?.map (·.slot)) =
        .ok (drained, entries.map (·.value)) ∧
      drained.Stores [] layout.clear ∧
      drained.slots[headSlot]? = arena.slots[headSlot]? := by
  induction entries generalizing arena layout fuel with
  | nil =>
    refine ⟨arena, ?_, ?_, rfl⟩
    · cases fuel <;> rfl
    · rw [Layout.clear_of_nil split]
      exact h
  | cons e rest ih =>
    obtain ⟨fuel, rfl⟩ := Nat.exists_eq_add_one_of_ne_zero (Nat.ne_of_gt (Nat.zero_lt_of_lt enough))
    have found := h.occupied [] e rest split
    have high : 0 < e.height := tall e List.mem_cons_self
    have low : ∀ x ∈ rest, 1 ≤ x.height := fun x listed => tall x (List.mem_cons_of_mem _ listed)
    have next : arena.next e.slot 0 = .ok (rest.head?.map (·.slot)) := by
      refine next_of_tower (tower_of_occupied found) ?_
      rw [Entry.node, towerTo_getElem?, if_pos high, nextOn_zero low]
    have not_head := h.slot_ne_head (split ▸ List.mem_cons_self)
    obtain ⟨released, freed, stores, other⟩ := (h.loosen split).release_ok found
    obtain ⟨drained, done, cleared, head⟩ :=
      ih stores (Layout.vacate_entries _ _ _) low (Nat.le_of_succ_le_succ enough)
    refine ⟨drained, ?_, ?_, ?_⟩
    · simp only [List.head?_cons, Option.map_some, releaseChain, next, ok_bind, freed, done, pure_eq_ok,
        List.map_cons]
      rfl
    · rw [Layout.clear_of_cons split]
      exact cleared
    · rw [head, other _ not_head.symm]

theorem Stores.setHead (h : arena.Stores [] layout) (tower : List Link) :
    (arena.setSlot headSlot (.head tower)).Stores [] layout := by
  have head_apart : headSlot ∉ layout.slots := (List.nodup_cons.mp h.nodup).1
  have shows : (arena.setSlot headSlot (.head tower)).Shows layout :=
    h.toShows.of_agree (List.suffix_refl _) (List.suffix_refl _) (List.Subset.refl _)
      fun slot listed => setSlot_other _ fun same => head_apart (same ▸ listed)
  exact
    { toShows := shows, free := h.free, places := by rw [setSlot_size]; exact h.places,
      capacity := h.capacity, room := by rw [setSlot_size]; exact h.room }

theorem Holds.drain_ok (h : arena.Holds levels layout) (some_level : 0 < levels) :
    ∃ drained, arena.drain = .ok (drained, layout.entries.map (·.value)) ∧
      drained.Holds levels layout.clear := by
  have first := h.next_first some_level
  obtain ⟨released, done, stores, kept⟩ := h.releaseChain_ok rfl
    (fun e listed => (h.heights e listed).1) (Nat.le_of_lt h.entries_lt_size)
  have head := kept.trans h.head
  have cut : (towerTo levels layout.entries).map (fun _ => (none : Link)) = List.replicate levels none := by
    rw [List.map_const', towerTo_length]
  refine ⟨released.setSlot headSlot (.head (List.replicate levels none)), ?_, ?_⟩
  · simp only [drain, first, ok_bind, done, tower_of_head head, setTower, slot_of_getElem? head,
      pure_eq_ok, cut]
  · refine { toStores := stores.setHead _, head := ?_, heights := by simp }
    rw [Layout.clear_entries, towerTo_nil]
    exact setSlot_self _ head

/-! ### Changing values -/

theorem Holds.setValue_shows {e : Entry α} (h : arena.Holds levels layout)
    (split : layout.entries = before ++ e :: after) (value : α) :
    (arena.setSlot e.slot (.occupied e.generation { e.node after with value })).Shows
      (layout.withEntries (before ++ { e with value } :: after)) := by
  have found := h.occupied before e after split
  have loose : (e.slot :: (layout.withEntries (before ++ after)).slots).Nodup :=
    (Layout.loosen_slots split).nodup_iff.mpr (List.nodup_cons.mp h.nodup).2
  have other {slot : Nat} (listed : slot ∈ (layout.withEntries (before ++ after)).slots) :
      (arena.setSlot e.slot (.occupied e.generation { e.node after with value })).slots[slot]? =
        arena.slots[slot]? :=
    setSlot_other _ fun same => (List.nodup_cons.mp loose).1 (same ▸ listed)
  have kept {x : Entry α} (listed : x ∈ before ++ after) :
      (arena.setSlot e.slot (.occupied e.generation { e.node after with value })).slots[x.slot]? =
        arena.slots[x.slot]? := by
    have stays : x ∈ (layout.withEntries (before ++ after)).entries := listed
    exact other (Layout.entry_mem_slots stays)
  refine { occupied := fun first x rest parts => ?_, vacant := fun first place rest parts => ?_,
           retired := fun slot listed => ?_ }
  · rcases append_cons_eq_split parts with ⟨middle, rfl, rfl⟩ | ⟨rfl, rfl, rfl⟩ | ⟨middle, rfl, rfl⟩
    · rw [kept (by simp), Entry.node, towerTo_value]
      exact h.occupied first x (middle ++ e :: after) (by rw [split, List.append_assoc]; rfl)
    · exact setSlot_self _ found
    · rw [kept (by simp)]
      exact h.occupied (before ++ e :: middle) x rest (by rw [split, List.append_assoc]; rfl)
  · rw [other (Layout.vacant_mem_slots (parts ▸ List.mem_append_cons_self))]
    exact h.vacant first place rest parts
  · rw [other (Layout.retired_mem_slots listed)]
    exact h.retired slot listed

theorem Holds.setValue_ok {e : Entry α} (h : arena.Holds levels layout)
    (split : layout.entries = before ++ e :: after) (value : α) :
    ∃ changed, arena.setValue e.slot value = .ok changed ∧
      changed.Holds levels (layout.withEntries (before ++ { e with value } :: after)) := by
  have member : e ∈ layout.entries := split ▸ List.mem_append_cons_self
  have found := h.occupied before e after split
  refine ⟨arena.setSlot e.slot (.occupied e.generation { e.node after with value }), ?_, ?_⟩
  · simp only [setValue, slot_of_getElem? found, ok_bind, pure_eq_ok]
  · refine
      { toShows := h.setValue_shows split value, free := h.free, places := ?_, capacity := h.capacity,
        room := ?_, head := ?_, heights := fun x listed => ?_ }
    · rw [setSlot_size, Layout.write_slots split value]
      exact h.places
    · rw [setSlot_size]
      exact h.room
    · rw [setSlot_other _ (h.slot_ne_head member).symm]
      refine h.head.trans ?_
      rw [split, ← towerTo_value]
      rfl
    · rcases mem_split.mp listed with rfl | other
      · exact h.heights e member
      · exact h.heights x (split ▸ mem_split.mpr (Or.inr other))

end Arena

end SkipList
