import SkipList.Proofs.Ordered

/-!
# Layouts without heights

What is left of a layout when the heights are forgotten. Under a total preorder `play` says what a change
makes of it, how many draws it takes and what is seen of it besides its comparisons and heights. Neither
the heights nor the draws come into it.
-/

namespace SkipList

open Entry

variable {σ α β : Type}

/-- The source after `n` draws. -/
def DrawSource.skip [DrawSource σ] : Nat → σ → σ
  | 0, source => source
  | n + 1, source => (DrawSource.next (skip n source)).2

def Entry.bare (e : Entry α) : Entry α := { e with height := 0 }

def Event.bare : Event → Event
  | .spliced index _ len => .spliced index 0 len
  | .unspliced index _ len => .unspliced index 0 len
  | .cursorRemoved index => .cursorRemoved index

/-- The trace without the comparisons and the heights. -/
def Trace.bare (trace : Trace α) : Trace α :=
  { dropped := trace.dropped, events := trace.events.map Event.bare }

def Reply.bare (reply : Reply α β) : Reply α β := { reply with trace := reply.trace.bare }

namespace Layout

def bare (layout : Layout α) : Layout α := { layout with entries := layout.entries.map Entry.bare }

/-- The entries before the key. -/
def lower (layout : Layout α) (order : KeyOrder) (key : Key) : List (Entry α) :=
  layout.entries.takeWhile (order.compare ·.key key = .lt)

def upper (layout : Layout α) (order : KeyOrder) (key : Key) : List (Entry α) :=
  layout.entries.dropWhile (order.compare ·.key key = .lt)

def entry? (layout : Layout α) (order : KeyOrder) (size : Nat) (key : Key) : Option (Entry α) :=
  if key.length = size then hit order key (layout.upper order key) else none

/-- The layout with another entry for the first one that is not before the key. -/
def put (layout : Layout α) (order : KeyOrder) (key : Key) (e : Entry α) : Layout α :=
  layout.withEntries (layout.lower order key ++ e :: (layout.upper order key).tail)

/-- What a change makes of a layout, its reply, and the number of draws it takes. -/
structure Play (α : Type) where
  layout : Layout α
  reply : Reply α (Except Error (Answer α))
  draws : Nat

def drop (layout : Layout α) (order : KeyOrder) (size : Nat) (key : Key) :
    Layout α × Removal α × List Event :=
  match layout.entry? order size key with
  | none => (layout, .notFound, [])
  | some e =>
    (layout.remove (layout.lower order key) e (layout.upper order key).tail, .removed e.value,
      [.unspliced e.slot 0 (layout.entries.length - 1)])

def play (layout : Layout α) (order : KeyOrder) (size : Nat) : Change α → Play α
  | .insert key value memory =>
    if key.length = size then
      match layout.entry? order size key with
      | some e =>
        { layout := layout.put order key { e with value }
          reply := { result := .ok (.inserted (.updated e.value)) }
          draws := 0 }
      | none =>
        match layout.permit memory key 0 with
        | .ok () =>
          { layout := layout.add (layout.lower order key) (layout.upper order key) 0 key value
            reply :=
              { result := .ok (.inserted .inserted)
                trace := { events := [.spliced layout.place.1 0 (layout.entries.length + 1)] } }
            draws := 1 }
        | .error error =>
          { layout, reply := { result := .error error, trace := { dropped := [value] } }, draws := 1 }
    else
      { layout
        reply := { result := .error (.keySize size key.length), trace := { dropped := [value] } }
        draws := 0 }
  | .remove key =>
    let (layout, outcome, events) := layout.drop order size key
    { layout, reply := { result := .ok (.removed outcome), trace := { events } }, draws := 0 }
  | .erase key =>
    let (layout, outcome, events) := layout.drop order size key
    { layout
      reply :=
        { result := .ok (.flag outcome.isRemoved), trace := { dropped := outcome.value?.toList, events } }
      draws := 0 }
  | .modify key change =>
    match layout.entry? order size key with
    | none => { layout, reply := { result := .ok (.value none) }, draws := 0 }
    | some e =>
      { layout := layout.put order key { e with value := change e.value }
        reply := { result := .ok (.value (some (change e.value))) }
        draws := 0 }
  | .clear =>
    { layout := layout.clear
      reply := { result := .ok .done, trace := { dropped := layout.entries.map (·.value) } }
      draws := 0 }

/-! ### Forgetting heights -/

variable {layout : Layout α} {order : KeyOrder} {key : Key}

theorem bare_slots (layout : Layout α) : layout.bare.slots = layout.slots := by
  simp only [slots, bare, List.map_map]
  rfl

theorem bare_place (layout : Layout α) : layout.bare.place = layout.place := by
  simp only [place, bare_slots]
  rfl

theorem bare_full (layout : Layout α) : layout.bare.Full ↔ layout.Full := by
  unfold Full
  rw [bare_slots]
  rfl

theorem bare_spent (layout : Layout α) : layout.bare.Spent ↔ layout.Spent := by
  unfold Spent
  rw [bare_slots]
  rfl

theorem bare_allot (layout : Layout α) (memory : Memory) (number : Nat) :
    layout.bare.allot memory number = layout.allot memory number := by
  simp only [allot, bare_full, bare_spent]
  rfl

theorem bare_permit (layout : Layout α) (memory : Memory) (key : Key) (height : Height) :
    layout.bare.permit memory key 0 = layout.permit memory key height.levels := by
  have tower : memory.request 2 (0 * Memory.linkBytes) =
      memory.request 2 (height.levels * Memory.linkBytes) := by
    simp only [Memory.request, Memory.Grants, height.bytes_le memory, Nat.zero_mul, Nat.zero_le]
  rw [permit, permit, tower, bare_allot]

theorem bare_lower (layout : Layout α) (order : KeyOrder) (key : Key) :
    layout.bare.lower order key = (layout.lower order key).map Entry.bare :=
  List.takeWhile_map

theorem bare_upper (layout : Layout α) (order : KeyOrder) (key : Key) :
    layout.bare.upper order key = (layout.upper order key).map Entry.bare :=
  List.dropWhile_map

theorem bare_entry? (layout : Layout α) (order : KeyOrder) (size : Nat) (key : Key) :
    layout.bare.entry? order size key = (layout.entry? order size key).map Entry.bare := by
  unfold entry?
  split
  · rw [bare_upper, hit, List.head?_map, Option.filter_map]
    rfl
  · rfl

theorem bare_withEntries (layout : Layout α) (entries : List (Entry α)) :
    (layout.withEntries entries).bare = layout.bare.withEntries (entries.map Entry.bare) :=
  rfl

theorem bare_vacate (layout : Layout α) (slot generation : Nat) :
    (layout.vacate slot generation).bare = layout.bare.vacate slot generation := by
  unfold vacate
  split <;> rfl

theorem bare_remove (layout : Layout α) (before : List (Entry α)) (e : Entry α) (after : List (Entry α)) :
    (layout.remove before e after).bare =
      layout.bare.remove (before.map Entry.bare) e.bare (after.map Entry.bare) := by
  unfold remove
  rw [bare_vacate, bare_withEntries, List.map_append]
  rfl

theorem bare_vacateAll (layout : Layout α) (entries : List (Entry α)) :
    (layout.vacateAll entries).bare = layout.bare.vacateAll (entries.map Entry.bare) := by
  induction entries generalizing layout with
  | nil => rfl
  | cons e rest ih =>
    rw [vacateAll, ih, bare_vacate]
    rfl

theorem bare_clear (layout : Layout α) : layout.clear.bare = layout.bare.clear :=
  bare_vacateAll _ _

theorem bare_add (layout : Layout α) (before after : List (Entry α)) (height : Nat) (key : Key)
    (value : α) : (layout.add before after height key value).bare =
      layout.bare.add (before.map Entry.bare) (after.map Entry.bare) 0 key value := by
  unfold add reserve
  simp only [bare_full]
  unfold newEntry
  rw [bare_place, bare, List.map_append, List.map_cons]
  rfl

end Layout

namespace Map

open Layout

variable {map next : Map σ α} {layout rest : Layout α} {key : Key} {before after : List (Entry α)}

/-! ### The place of a key -/

namespace Ordered

theorem lower_upper (h : map.Ordered layout) (fit : key.length = map.keySize)
    (split : layout.entries = before ++ after)
    (last : ∀ e ∈ before.getLast?, map.order.compare e.key key = .lt)
    (first : ∀ e ∈ after.head?, map.order.compare e.key key ≠ .lt) :
    layout.lower map.order key = before ∧ layout.upper map.order key = after := by
  have below : ∀ x ∈ before, decide (map.order.compare x.key key = .lt) = true := by
    intro x member
    apply decide_eq_true
    cases final : before.getLast? with
    | none =>
      rw [List.getLast?_eq_none_iff.mp final] at member
      nomatch member
    | some l =>
      have less := last l final
      obtain ⟨earlier, rfl⟩ := List.getLast?_eq_some_iff.mp final
      have parts : layout.entries = earlier ++ l :: after := by rw [split, ← List.append_cons]
      have fit_l := h.fit l (parts ▸ List.mem_append_cons_self)
      rcases List.mem_append.mp member with there | here
      · have fit_x := h.fit x (parts ▸ List.mem_append_left _ there)
        have further := (h.lawful.gt_iff fit_l fit_x).mp (h.gt_before parts x there)
        exact h.lawful.lt_of_lt_of_le fit_x fit_l fit further (by simp [less])
      · rwa [List.mem_singleton.mp here]
  have stop : after.takeWhile (map.order.compare ·.key key = .lt) = [] ∧
      after.dropWhile (map.order.compare ·.key key = .lt) = after := by
    cases after with
    | nil => exact ⟨rfl, rfl⟩
    | cons e later =>
      have not_less := first e rfl
      exact ⟨List.takeWhile_cons_of_neg (by simpa using not_less),
        List.dropWhile_cons_of_neg (by simpa using not_less)⟩
  unfold lower upper
  rw [split, List.takeWhile_append_of_pos below, List.dropWhile_append_of_pos below, stop.1, stop.2,
    List.append_nil]
  exact ⟨rfl, rfl⟩

theorem cut_eq (h : map.Ordered layout) (fit : key.length = map.keySize)
    (cuts : map.Cuts layout key before after) :
    layout.lower map.order key = before ∧ layout.upper map.order key = after :=
  h.lower_upper fit cuts.split cuts.last_lt (cuts.first_ne_lt h.toHolds)

theorem cut_of_equal (h : map.Ordered layout) (fit : key.length = map.keySize) {e : Entry α}
    (split : layout.entries = before ++ e :: after) (equal : map.order.compare e.key key = .eq) :
    layout.lower map.order key = before ∧ layout.upper map.order key = e :: after := by
  have fit_e := h.fit e (split ▸ List.mem_append_cons_self)
  refine h.lower_upper fit split (fun x last => ?_) fun x first => ?_
  · have member := List.mem_of_getLast? last
    have fit_x := h.fit x (split ▸ List.mem_append_left _ member)
    have further := (h.lawful.gt_iff fit_e fit_x).mp (h.gt_before split x member)
    exact h.lawful.lt_of_lt_of_le fit_x fit_e fit further (by simp [equal])
  · obtain rfl := Option.some.inj first
    simp [equal]

theorem entry?_of_equal (h : map.Ordered layout) (fit : key.length = map.keySize) {e : Entry α}
    (split : layout.entries = before ++ e :: after) (equal : map.order.compare e.key key = .eq) :
    layout.entry? map.order map.keySize key = some e := by
  rw [Layout.entry?, if_pos fit, (h.cut_of_equal fit split equal).2]
  exact hit_eq_some_iff.mpr ⟨⟨after, rfl⟩, equal⟩

theorem entry?_of_gap (h : map.Ordered layout) (fit : key.length = map.keySize)
    (cuts : map.Cuts layout key before after)
    (missing : ∀ e ∈ after.head?, map.order.compare e.key key ≠ .eq) :
    layout.entry? map.order map.keySize key = none := by
  rw [Layout.entry?, if_pos fit, (h.cut_eq fit cuts).2]
  exact Option.filter_eq_none_iff.mpr fun e first => by simpa using missing e first

theorem bare_put (h : map.Ordered layout) (fit : key.length = map.keySize) {e : Entry α}
    (split : layout.entries = before ++ e :: after) (equal : map.order.compare e.key key = .eq)
    (value : α) : layout.bare.put map.order key { e.bare with value } =
      (layout.withEntries (before ++ { e with value } :: after)).bare := by
  obtain ⟨lower, upper⟩ := h.cut_of_equal fit split equal
  rw [put, bare_lower, bare_upper, lower, upper, bare_withEntries, List.map_append, List.map_cons]
  rfl

theorem bare_length (h : map.Ordered layout) : layout.bare.entries.length = map.len := by
  rw [h.len, Layout.bare, List.length_map]

theorem drop_found (h : map.Ordered layout) (fit : key.length = map.keySize) {e : Entry α}
    (split : layout.entries = before ++ e :: after) (equal : map.order.compare e.key key = .eq) :
    layout.bare.drop map.order map.keySize key =
      ((layout.remove before e after).bare, .removed e.value, [.unspliced e.slot 0 (map.len - 1)]) := by
  obtain ⟨lower, upper⟩ := h.cut_of_equal fit split equal
  simp only [drop, bare_entry?, h.entry?_of_equal fit split equal, Option.map_some, bare_lower, bare_upper,
    lower, upper, h.bare_length, bare_remove, List.map_cons, List.tail_cons]
  rfl

end Ordered

theorem drop_missing {order : KeyOrder} {size : Nat} (missing : layout.entry? order size key = none) :
    layout.bare.drop order size key = (layout.bare, .notFound, []) := by
  simp only [drop, bare_entry?, missing, Option.map_none]

variable [DrawSource σ]

/-- A turn is the play of its change, whatever the heights and the draws. -/
theorem Turn.play_eq {change : Change α} {reply : Reply α (Except Error (Answer α))}
    (turn : Turn map layout change next rest reply) (h : map.Ordered layout) :
    ∃ draws, layout.bare.play map.order map.keySize change =
        { layout := rest.bare, reply := reply.bare, draws } ∧
      next.source = DrawSource.skip draws map.source := by
  induction turn with
  | unfit unfit =>
    refine ⟨0, ?_, rfl⟩
    simp only [play, unfit, if_false]
    rfl
  | @updated key value memory before after e arena fit cuts equal =>
    refine ⟨0, ?_, rfl⟩
    simp only [play, fit, if_true, bare_entry?, h.entry?_of_equal fit cuts.split equal, Option.map_some,
      h.bare_put fit cuts.split equal]
    rfl
  | @inserted key value memory before after height source arena fit cuts new drawn permitted =>
    obtain rfl := Height.random_source drawn
    refine ⟨1, ?_, rfl⟩
    obtain ⟨lower, upper⟩ := h.cut_eq fit cuts
    simp only [play, fit, if_true, bare_entry?, h.entry?_of_gap fit cuts new, Option.map_none,
      bare_permit _ _ _ height, permitted, bare_lower, bare_upper, lower, upper, bare_place, h.bare_length]
    rw [bare_add]
    rfl
  | @refused key value memory before after height source error fit cuts new drawn refused =>
    obtain rfl := Height.random_source drawn
    refine ⟨1, ?_, rfl⟩
    simp only [play, fit, if_true, bare_entry?, h.entry?_of_gap fit cuts new, Option.map_none,
      bare_permit _ _ _ height, refused]
    rfl
  | @missed key before after cuts missing =>
    refine ⟨0, ?_, rfl⟩
    have absent : layout.entry? map.order map.keySize key = none := by
      by_cases fit : key.length = map.keySize
      · exact h.entry?_of_gap fit cuts fun e first =>
          missing (cuts.searchable h.toHolds fit first) e first
      · exact if_neg fit
    simp only [play, drop_missing absent]
    rfl
  | removed searchable cuts equal =>
    refine ⟨0, ?_, rfl⟩
    simp only [play, h.drop_found searchable.2 cuts.split equal]
    rfl
  | @erased key next rest outcome trace removal ih =>
    obtain ⟨draws, played, source⟩ := ih
    refine ⟨draws, ?_, source⟩
    simp only [play, Play.mk.injEq, Reply.bare, Trace.bare, Reply.mk.injEq, Except.ok.injEq,
      Answer.removed.injEq, Trace.mk.injEq] at played ⊢
    obtain ⟨rest, ⟨outcome, _, dropped, events⟩, draws⟩ := played
    exact ⟨rest, ⟨by rw [outcome], trivial, by rw [outcome, ← dropped]; rfl, events⟩, draws⟩
  | @unmodified key change compared start missing =>
    refine ⟨0, ?_, rfl⟩
    have absent : layout.entry? map.order map.keySize key = none := by
      by_cases fit : key.length = map.keySize
      · obtain ⟨before, after, cuts, gap⟩ := h.gap_of_found_none fit missing
        exact h.entry?_of_gap fit cuts gap
      · exact if_neg fit
    simp only [play, bare_entry?, absent, Option.map_none]
    rfl
  | @modified key change before after e arena compared start split found =>
    refine ⟨0, ?_, rfl⟩
    obtain ⟨_, equal, searchable⟩ := found_mem found
    simp only [play, bare_entry?, h.entry?_of_equal searchable.2 split equal, Option.map_some,
      h.bare_put searchable.2 split equal]
    rfl
  | cleared =>
    refine ⟨0, ?_, rfl⟩
    simp only [play, bare_clear]
    rw [Layout.bare, List.map_map]
    rfl

end Map

end SkipList
