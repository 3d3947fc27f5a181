import SkipList.Proofs.Conservation
import SkipList.Proofs.Cursors
import SkipList.Proofs.Lookalikes

/-!
# Clearing

A cleared map is as good as a new one. Its slots are vacant or retired and their generations have gone on,
but that cannot be seen: whatever is done next goes the same way as with a new map of the same
configuration whose source has come as far, except that memory or slots may run out at other times.
-/

namespace SkipList

open Entry

variable {σ α : Type}

/-! ### Uses -/

def Use.Stays : Use α → Prop
  | .insertAll _ _ _ | .removeAll _ | .takeValues | .discard => False
  | _ => True

/-- The cursors whose places matter to the use. -/
def Use.relies : Use α → List Nat
  | .call _ (.seek _) => []
  | .call number _ | .copyCursor number | .isExhausted number => [number]
  | .sameCursor number other => [number, other]
  | _ => []

def Use.leaves (waiting : List Nat) : Use α → List Nat
  | .call number (.seek _) => waiting.filter (· ≠ number)
  | _ => waiting

/-- The uses leave the map in place, and the cursors that wait to be sought alone until they are sought. -/
def Use.Orderly : List Nat → List (Use α) → Prop
  | _, [] => True
  | waiting, use :: uses => use.Stays ∧ (∀ number ∈ use.relies, number ∉ waiting) ∧
      Orderly (use.leaves waiting) uses

/-! ### What can be seen of a map -/

namespace Map

structure Row (map : Map σ α) (level : Nat) (entries : List (Entry α)) : Prop where
  visits : map.arena.Visits level (entries.map (·.slot))
  keeps : ∀ e ∈ entries, map.arena.Keeps e

/-- Slots, generations and ids apart, the maps are the same, and so is what they leave behind. -/
structure Indistinct (a b : Map σ α) : Prop where
  len : b.len = a.len
  source : b.source = a.source
  rows : ∀ level < a.maxHeight.levels, ∃ row row', a.Row level row ∧ b.Row level row' ∧
    row'.map Entry.nameless = row.map Entry.nameless
  taken : ∃ values, a.takeValues = .ok values ∧ b.takeValues = .ok values
  discarded : b.discard.trace.dropped.Perm a.discard.trace.dropped

variable {map a b : Map σ α} {layout layout' : Layout α} {births births' : List NodeId}

theorem Holds.row (h : map.Holds layout) {level : Nat} (inside : level < map.maxHeight.levels) :
    map.Row level (layout.entries.filter (level < ·.height)) :=
  { visits := ⟨_, h.arena.next_endOn (List.nil_append _).symm inside, h.arena.chain [] _ rfl⟩
    keeps := fun e member => h.lists.keeps e (List.mem_filter.mp member).1 }

theorem Lookalikes.indistinct (alike : Lookalikes a layout births b layout' births') : Indistinct a b := by
  have values : layout'.entries.map (·.value) = layout.entries.map (·.value) :=
    map_of_numbered alike.entries fun _ _ => rfl
  refine { len := alike.len, source := alike.source, rows := fun level inside => ?_, taken := ?_,
           discarded := ?_ }
  · refine ⟨_, _, alike.first.row inside, alike.second.row (alike.maxHeight ▸ inside), ?_⟩
    have shown : layout'.entries.map Entry.nameless = layout.entries.map Entry.nameless :=
      map_of_numbered alike.entries fun _ _ => rfl
    have tall (entries : List (Entry α)) : (entries.filter (level < ·.height)).map Entry.nameless =
        (entries.map Entry.nameless).filter (level < ·.height) := by
      rw [List.filter_map]
      rfl
    rw [tall, tall, shown]
  · exact ⟨_, alike.first.takeValues_eq, alike.second.takeValues_eq.trans (congrArg _ values)⟩
  · have same : valuesOf layout'.entries = valuesOf layout.entries := congrArg Multiset.ofList values
    rw [← Multiset.coe_eq_coe]
    exact (alike.second.arena.storedValues_eq_valuesOf.trans same).trans
      alike.first.arena.storedValues_eq_valuesOf.symm

end Map

/-! ### Cursors of two sessions -/

def Settled (births births' : List NodeId) (waiting : List Nat) (places : List (Position × Position)) :
    Prop :=
  ∀ number place, places[number]? = some place → number ∉ waiting →
    Position.Beside births births' place.1 place.2

namespace Settled

variable {births births' : List NodeId} {waiting waiting' : List Nat} {places : List (Position × Position)}
  {place : Position × Position}

theorem append (settled : Settled births births' waiting places) (more more' : List NodeId) :
    Settled (births ++ more) (births' ++ more') waiting places :=
  fun number place found free => (settled number place found free).append more more'

theorem concat (settled : Settled births births' waiting places)
    (beside : Position.Beside births births' place.1 place.2) :
    Settled births births' waiting (places ++ [place]) := by
  intro number other found free
  rw [List.getElem?_append] at found
  split at found
  · exact settled number other found free
  · rw [List.mem_singleton.mp (List.mem_of_getElem? found)]
    exact beside

theorem set (settled : Settled births births' waiting places) {number : Nat}
    (beside : Position.Beside births births' place.1 place.2)
    (others : ∀ other, other ∉ waiting' → other = number ∨ other ∉ waiting) :
    Settled births births' waiting' (places.set number place) := by
  intro other there found free
  rw [List.getElem?_set] at found
  split at found
  · split at found
    · exact Option.some.inj found ▸ beside
    · nomatch found
  · rename_i apart
    rcases others other free with same | free
    · exact absurd same.symm apart
    · exact settled other there found free

end Settled

namespace Session

variable {a b a' b' : Map σ α} {births births' : List NodeId} {waiting waiting' : List Nat}
  {first second : Session σ α}

/-- The sessions have one map each, lookalikes, and cursors on it at corresponding places. -/
structure Level (a b : Map σ α) (births births' : List NodeId) (waiting : List Nat)
    (first second : Session σ α) : Prop where
  maps : first.maps = [some a] ∧ second.maps = [some b]
  alike : ∃ layout layout', Map.Lookalikes a layout births b layout' births'
  cursors : ∃ places : List (Position × Position), Settled births births' waiting places ∧
    first.cursors = places.map (fun place => ⟨a.id, place.1⟩) ∧
    second.cursors = places.map fun place => ⟨b.id, place.2⟩

/-- Both steps are taken. If there was room for them, the sessions are level and the responses show the
same. -/
def Joined (waiting : List Nat) (outcome outcome' : Except Fault (Session σ α × Response α)) : Prop :=
  ∃ first second response response', outcome = .ok (first, response) ∧
    outcome' = .ok (second, response') ∧ (Granted response → Granted response' →
      (∃ a b births births', Level a b births births' waiting first second) ∧
        response'.nameless = response.nameless)

theorem nameless_mapError {ε δ : Type} (f : ε → δ) (reply : Reply α (Except ε (Answer α))) :
    (reply.map (Except.mapError f)).nameless = reply.nameless.map (Except.mapError f) := by
  obtain ⟨result, trace⟩ := reply
  cases result <;> rfl

/-! ### Changing two sessions -/

namespace Level

theorem joined (level : Level a b births births' waiting first second) {response response' : Response α}
    (same : response'.nameless = response.nameless) :
    Joined waiting (.ok (first, response)) (.ok (second, response')) :=
  ⟨first, second, response, response', rfl, rfl, fun _ _ => ⟨⟨a, b, births, births', level⟩, same⟩⟩

theorem withMap (level : Level a b births births' waiting first second)
    {use use' : Map σ α → Except Fault (Session σ α × Response α)}
    (joined : Joined waiting' (use a) (use' b)) :
    Joined waiting' (first.withMap 0 use) (second.withMap 0 use') := by
  rw [withMap_of_hosted level.maps.1, withMap_of_hosted level.maps.2]
  exact joined

theorem setMap (level : Level a b births births' waiting first second) {layout layout' : Layout α}
    {born born' : List NodeId}
    (alike : Map.Lookalikes a' layout (births ++ born) b' layout' (births' ++ born')) (own : a'.id = a.id)
    (own' : b'.id = b.id) :
    Level a' b' (births ++ born) (births' ++ born') waiting (first.setMap 0 a') (second.setMap 0 b') := by
  obtain ⟨places, settled, here, there⟩ := level.cursors
  refine { maps := ⟨?_, ?_⟩, alike := ⟨layout, layout', alike⟩,
           cursors := ⟨places, settled.append born born', ?_, ?_⟩ }
  · exact maps_setMap level.maps.1 _
  · exact maps_setMap level.maps.2 _
  · rw [own]
    exact here
  · rw [own']
    exact there

theorem addCursor (level : Level a b births births' waiting first second) {place place' : Position}
    (beside : Position.Beside births births' place place') :
    Level a b births births' waiting (first.addCursor ⟨a.id, place⟩)
      (second.addCursor ⟨b.id, place'⟩) := by
  obtain ⟨places, settled, here, there⟩ := level.cursors
  refine { maps := level.maps, alike := level.alike,
           cursors := ⟨places ++ [(place, place')], settled.concat beside, ?_, ?_⟩ }
  · rw [Session.addCursor, here, List.map_append, List.map_cons, List.map_nil]
  · rw [Session.addCursor, there, List.map_append, List.map_cons, List.map_nil]

theorem setCursor (level : Level a b births births' waiting first second) {number : Nat}
    {place place' : Position} (beside : Position.Beside births births' place place')
    (others : ∀ other, other ∉ waiting' → other = number ∨ other ∉ waiting) :
    Level a b births births' waiting' (first.setCursor number ⟨a.id, place⟩)
      (second.setCursor number ⟨b.id, place'⟩) := by
  obtain ⟨places, settled, here, there⟩ := level.cursors
  refine { maps := level.maps, alike := level.alike,
           cursors := ⟨places.set number (place, place'), settled.set beside others, ?_, ?_⟩ }
  · rw [Session.setCursor, here, List.map_set]
  · rw [Session.setCursor, there, List.map_set]

theorem number (level : Level a b births births' waiting first second) :
    second.cursors.length = first.cursors.length := by
  obtain ⟨places, _, here, there⟩ := level.cursors
  rw [here, there, List.length_map, List.length_map]

theorem withCursor (level : Level a b births births' waiting first second) {number : Nat}
    {use use' : Cursor → Except Fault (Session σ α × Response α)}
    (others : ∀ other, other ∉ waiting' → other = number ∨ other ∉ waiting)
    (joined : ∀ place place' : Position,
      (number ∉ waiting → Position.Beside births births' place place') →
        Joined waiting' (use ⟨a.id, place⟩) (use' ⟨b.id, place'⟩)) :
    Joined waiting' (first.withCursor number use) (second.withCursor number use') := by
  obtain ⟨places, settled, here, there⟩ := level.cursors
  unfold Session.withCursor
  rw [here, there, List.getElem?_map, List.getElem?_map]
  cases found : places[number]? with
  | some place => exact joined place.1 place.2 fun free => settled number place found free
  | none =>
    -- there is no such cursor, so it does not matter whether it waits
    have level' : Level a b births births' waiting' first second := by
      refine { maps := level.maps, alike := level.alike, cursors := ⟨places, ?_, here, there⟩ }
      intro other place there free
      rcases others other free with rfl | free
      · rw [found] at there
        nomatch there
      · exact settled other place there free
    exact level'.joined rfl

theorem call (level : Level a b births births' waiting first second) {layout layout' : Layout α}
    (alike : Map.Lookalikes a layout births b layout' births') {place place' : Position} {number : Nat}
    {made : Cursor.Call} (abeam : Cursor.Abeam births births' a.id b.id
      ((Cursor.mk a.id place).reacts a layout made) ((Cursor.mk b.id place').reacts b layout' made))
    (others : ∀ other, other ∉ waiting' → other = number ∨ other ∉ waiting) :
    Joined waiting'
      (do
        let (cursor, reply) ← (Cursor.mk a.id place).call a made
        return (first.setCursor number cursor, reply.map (Except.mapError .error)))
      (do
        let (cursor, reply) ← (Cursor.mk b.id place').call b made
        return (second.setCursor number cursor, reply.map (Except.mapError .error))) := by
  rw [Cursor.call_eq alike.first, Cursor.call_eq alike.second]
  generalize (Cursor.mk a.id place).reacts a layout made = moved at abeam ⊢
  generalize (Cursor.mk b.id place').reacts b layout' made = moved' at abeam ⊢
  obtain ⟨⟨map, next⟩, reply⟩ := moved
  obtain ⟨⟨map', next'⟩, reply'⟩ := moved'
  obtain ⟨own, own', beside, same⟩ := abeam
  obtain rfl : map = a.id := own
  obtain rfl : map' = b.id := own'
  refine (level.setCursor beside others).joined ?_
  rw [nameless_mapError, nameless_mapError, same]

end Level

/-! ### Steps -/

variable [DrawSource σ]

theorem Level.step (level : Level a b births births' waiting first second) {use : Use α}
    (stays : use.Stays) (free : ∀ number ∈ use.relies, number ∉ waiting) :
    Joined (use.leaves waiting) (first.step use.command) (second.step use.command) := by
  obtain ⟨layout, layout', alike⟩ := level.alike
  have kept (number other : Nat) (free : other ∉ waiting) : other = number ∨ other ∉ waiting :=
    Or.inr free
  cases use with
  | insertAll _ _ _ | removeAll _ | takeValues | discard => exact stays.elim
  | change change =>
    refine level.withMap ?_
    obtain ⟨c, d, rest, rest', reply, reply', made, made', own, own', further⟩ := alike.apply_ok change
    refine ⟨_, _, _, _, by rw [made]; rfl, by rw [made']; rfl, fun granted granted' => ?_⟩
    obtain ⟨born, born', alike', same⟩ :=
      further (granted_reply_iff.mp granted) (granted_reply_iff.mp granted')
    refine ⟨⟨c, d, _, _, level.setMap alike' own own'⟩, ?_⟩
    rw [nameless_mapError, nameless_mapError, same]
  | query query =>
    refine level.withMap ?_
    rw [alike.first.answer_eq query, alike.second.answer_eq query]
    refine level.joined ?_
    simp only [Reply.nameless, Reply.map, Except.map, alike.reads query, Trace.nameless,
      alike.looks query]
  | begin =>
    refine level.withMap ?_
    have beside := alike.beside_place (Cursor.mem_of_head? (List.suffix_refl _))
      (Cursor.mem_of_head? (List.suffix_refl _))
      (by rw [← List.head?_map, ← List.head?_map, alike.entries])
    rw [Cursor.begin_eq alike.first, Cursor.begin_eq alike.second]
    refine (level.addCursor beside).joined ?_
    simp only [Reply.nameless, Except.map, Answer.nameless, Cursor.nameless, beside.nameless, level.number]
  | call number call =>
    cases call with
    | seek key =>
      have others (other : Nat) (free : other ∉ waiting.filter (· ≠ number)) :
          other = number ∨ other ∉ waiting := by
        by_contra both
        obtain ⟨apart, listed⟩ := not_or.mp both
        exact free (List.mem_filter.mpr ⟨not_not.mp listed, decide_eq_true apart⟩)
      refine level.withMap (level.withCursor others fun place place' _ => ?_)
      exact level.call alike (alike.reacts_seek place place' key) others
    | _ =>
      refine level.withMap (level.withCursor (kept number) fun place place' settled => ?_)
      exact level.call alike (alike.reacts_beside (settled (free number List.mem_cons_self)) _)
        (kept number)
  | copyCursor number =>
    refine level.withCursor (kept number) fun place place' settled => ?_
    refine (level.addCursor (settled (free number List.mem_cons_self))).joined ?_
    rw [level.number]
  | sameCursor number other =>
    refine level.withCursor (kept number) fun place place' settled => ?_
    refine level.withCursor (kept other) fun there there' settled' => ?_
    have beside := settled (free number List.mem_cons_self)
    have beside' := settled' (free other (List.mem_cons_of_mem _ List.mem_cons_self))
    have same : (Cursor.mk b.id place' == ⟨b.id, there'⟩) = (Cursor.mk a.id place == ⟨a.id, there⟩) := by
      simp [BEq.beq, beside.eq_iff beside']
    exact level.joined (by rw [same])
  | isExhausted number =>
    refine level.withCursor (kept number) fun place place' settled => ?_
    have beside := settled (free number List.mem_cons_self)
    have same : (Cursor.mk b.id place').isExhausted = (Cursor.mk a.id place).isExhausted := by
      simp only [Cursor.isExhausted]
      cases beside <;> rfl
    exact level.joined (by rw [same])

theorem Level.run (level : Level a b births births' waiting first second) {uses : List (Use α)}
    (orderly : Use.Orderly waiting uses) {last last' : Session σ α} {responses responses' : List (Response α)}
    (run : first.run (uses.map Use.command) = .ok (last, responses))
    (run' : second.run (uses.map Use.command) = .ok (last', responses'))
    (granted : ∀ response ∈ responses, Granted response)
    (granted' : ∀ response ∈ responses', Granted response) :
    (∃ a b births births' waiting, Level a b births births' waiting last last') ∧
      responses'.map Reply.nameless = responses.map Reply.nameless := by
  -- on the uses; `Orderly` hands the cursors that still wait on to the rest of them
  induction uses generalizing a b births births' waiting first second responses responses' with
  | nil =>
    obtain ⟨rfl, rfl⟩ := Prod.mk.inj (Except.ok.inj run)
    obtain ⟨rfl, rfl⟩ := Prod.mk.inj (Except.ok.inj run')
    exact ⟨⟨a, b, births, births', waiting, level⟩, rfl⟩
  | cons use uses ih =>
    obtain ⟨stays, free, orderly⟩ := orderly
    obtain ⟨next, response, later, stepped, ran, rfl⟩ := run_cons run
    obtain ⟨next', response', later', stepped', ran', rfl⟩ := run_cons run'
    obtain ⟨_, _, _, _, done, done', further⟩ := level.step stays free
    rw [stepped] at done
    rw [stepped'] at done'
    obtain ⟨rfl, rfl⟩ := Prod.mk.inj (Except.ok.inj done)
    obtain ⟨rfl, rfl⟩ := Prod.mk.inj (Except.ok.inj done')
    obtain ⟨here, later_granted⟩ := List.forall_mem_cons.mp granted
    obtain ⟨here', later_granted'⟩ := List.forall_mem_cons.mp granted'
    obtain ⟨⟨_, _, _, _, level'⟩, same⟩ := further here here'
    obtain ⟨final, all_same⟩ := ih level' orderly ran ran' later_granted later_granted'
    exact ⟨final, by rw [List.map_cons, List.map_cons, same, all_same]⟩

def hostingAt (map : Map σ α) (positions : List Position) : Session σ α :=
  { hosting map with cursors := positions.map (Cursor.mk map.id) }

omit [DrawSource σ] in
theorem single_hostingAt {map : Map σ α} {layout : Layout α} (h : map.Holds layout)
    (positions : List Position) : (hostingAt map positions).Single :=
  { sound := (single_hosting h).sound, one := ⟨_, rfl⟩ }

omit [DrawSource σ] in
theorem level_hostingAt {layout layout' : Layout α}
    (alike : Map.Lookalikes a layout births b layout' births') {old fresh : List Position}
    (number : fresh.length = old.length) :
    Level a b births births' (List.range old.length) (hostingAt a old) (hostingAt b fresh) := by
  refine { maps := ⟨rfl, rfl⟩, alike := ⟨layout, layout', alike⟩,
           cursors := ⟨old.zip fresh, fun index place found free => ?_, ?_, ?_⟩ }
  · have inside := (List.getElem?_eq_some_iff.mp found).1
    rw [List.length_zip, number, Nat.min_self] at inside
    exact absurd (List.mem_range.mpr inside) free
  · have firsts := List.map_fst_zip (Nat.le_of_eq number.symm)
    conv_lhs => rw [hostingAt, ← firsts, List.map_map]
    rfl
  · have seconds := List.map_snd_zip (Nat.le_of_eq number)
    conv_lhs => rw [hostingAt, ← seconds, List.map_map]
    rfl

end Session

namespace Map

variable {map a b : Map σ α} {layout layout' : Layout α}

theorem lookalikes_of_empty (h : a.Holds layout) (h' : b.Holds layout') (empty : layout.entries = [])
    (empty' : layout'.entries = []) (outline : b.outline = a.outline) :
    Lookalikes a layout [] b layout' [] := by
  have numbers {rest : Layout α} (none_left : rest.entries = []) : rest.Numbers [] :=
    { once := List.nodup_nil, listed := by rw [none_left]; nofun, known := nofun }
  refine { first := h, second := h', numbers := numbers empty, numbers' := numbers empty', outline,
           same := ?_, count := rfl }
  rw [Layout.numbered, Layout.numbered, empty, empty']

variable [DrawSource σ]

theorem Holds.refused_later {cleared : Map σ α} (h : map.Holds layout) (kept : cleared.Holds layout.clear)
    (own : cleared.id = map.id) {cursor : Cursor} {slot : Nat}
    (resolved : (cursor.resolve map).result = .ok (some slot)) (changes : List (Change α)) :
    ∃ later replies, cleared.applyAll changes = .ok (later, replies) ∧ cursor.Refused later := by
  obtain ⟨mine, ⟨_, impossible⟩ | ⟨id, _, position, found, _⟩⟩ := Cursor.resolve_ok resolved
  · nomatch impossible
  obtain ⟨e, member, same, _⟩ := h.arena.entry_of_resolve found
  have past : layout.clear.Past id := Layout.past_clear (Or.inr ⟨e, member, same⟩)
  obtain ⟨later, _, replies, run, _, _, _, id_later, _⟩ := kept.applyAll_ok changes
  obtain ⟨final, holds, past_later⟩ := kept.past_run past run
  have own_later : cursor.map = later.id := mine.trans (own.symm.trans id_later.symm)
  exact ⟨later, replies, run,
    Cursor.refused_of_gone holds own_later position (holds.arena.resolve_past past_later)⟩

/-- Clearing makes a map as good as new. A cursor on one of its entries is refused from then on, whatever
changes are made, until it is sought. Take a new map with the same key size, the same order and the same
greatest height, whose source is where that of the cleared map is, and use both in the same way, with
cursors that are created or sought after the clearing. Unless one of them is short of memory or of slots, the
responses are the same but for slots, generations and ids, and so are the maps. -/
theorem clear_renews {map : Map σ α} (reached : map.Reached) :
    ∃ cleared reply, map.apply .clear = .ok (cleared, reply) ∧
      (∀ (cursor : Cursor) slot, (cursor.resolve map).result = .ok (some slot) →
        ∀ changes, ∃ later replies, cleared.applyAll changes = .ok (later, replies) ∧
          cursor.Refused later) ∧
      ∀ (memory : Memory) (blueprint : Blueprint) (id : Nat) (new : Map σ α),
        Map.build memory blueprint cleared.source id = .ok new →
        blueprint.config.keySize = map.keySize → blueprint.config.maxHeight = map.maxHeight →
        blueprint.order = map.order →
        ∀ (old fresh : List Position) (uses : List (Use α)), fresh.length = old.length →
          Use.Orderly (List.range old.length) uses →
          ∃ first second responses responses',
            (Session.hostingAt cleared old).run (uses.map Use.command) = .ok (first, responses) ∧
            (Session.hostingAt new fresh).run (uses.map Use.command) = .ok (second, responses') ∧
            ((∀ response ∈ responses, Session.Granted response) →
              (∀ response ∈ responses', Session.Granted response) →
              responses'.map Reply.nameless = responses.map Reply.nameless ∧
              ∃ a b, first.maps = [some a] ∧ second.maps = [some b] ∧ Indistinct a b) := by
  obtain ⟨layout, h⟩ := reached.holds
  obtain ⟨cleared, rest, reply, made, turn, kept⟩ := h.apply_ok .clear
  obtain ⟨height, size, own, order⟩ := turn.frame
  obtain rfl : rest = layout.clear := by cases turn; rfl
  refine ⟨cleared, reply, made, fun cursor slot resolved changes => h.refused_later kept own resolved changes,
    fun memory blueprint id new built key_size max_height key_order old fresh uses number orderly => ?_⟩
  obtain ⟨h', height', size', order'⟩ := build_holds built
  have outline : new.outline = cleared.outline := by
    simp only [Map.outline, h'.len, kept.len, Layout.clear_entries, newLayout, build_source built, height,
      height', max_height, size, size', key_size, order, order', key_order]
  -- no node of either map has a number yet: those of the old one are all past
  have alike := lookalikes_of_empty kept h' (Layout.clear_entries layout) rfl outline
  have level := Session.level_hostingAt alike number
  obtain ⟨first, responses, run, _⟩ := (Session.single_hostingAt kept old).sound.run (uses.map Use.command)
  obtain ⟨second, responses', run', _⟩ :=
    (Session.single_hostingAt h' fresh).sound.run (uses.map Use.command)
  refine ⟨first, second, responses, responses', run, run', fun granted granted' => ?_⟩
  obtain ⟨⟨a, b, _, _, _, final⟩, same⟩ := level.run orderly run run' granted granted'
  obtain ⟨_, _, alike'⟩ := final.alike
  exact ⟨same, a, b, final.maps.1, final.maps.2, alike'.indistinct⟩

def revival : List (Use Nat) :=
  [.change (.insert [7] 70 {}), .change (.insert [5] 50 {}), .call 0 (.seek [6]), .call 0 .entry,
    .change (.remove [5]), .query .entries]

theorem revival_supplied : ∀ use ∈ revival, use.Supplied 1 10 := by
  have enough : ({} : Memory).Suffices 1 10 := ⟨rfl, by decide, by decide⟩
  intro use listed
  simp only [revival, List.mem_cons, List.not_mem_nil, or_false] at listed
  rcases listed with rfl | rfl | rfl | rfl | rfl | rfl <;> first | exact enough | trivial

/-- The cleared map takes the slot that was cleared last, the new one its first. -/
theorem clear_renews_sample :
    ∃ (cleared new a b later : Map Script Nat) (first second : Session Script Nat)
        (responses responses' : List (Session.Response Nat))
        (reply : Reply Nat (Except Error (Answer Nat)))
        (replies : List (Reply Nat (Except Error (Answer Nat)))),
      sample.apply .clear = .ok (cleared, reply) ∧
      cleared.applyAll [.insert [2] 20 {}] = .ok (later, replies) ∧
      (Cursor.mk 0 (.positioned ⟨2, 0⟩)).Refused later ∧
      Map.build {} { config := { keySize := 1, maxHeight := { levels := 2 } } } cleared.source 5 = .ok new ∧
      (Session.hostingAt cleared [.positioned ⟨2, 0⟩]).run (revival.map Use.command) =
        .ok (first, responses) ∧
      (Session.hostingAt new [.exhausted]).run (revival.map Use.command) = .ok (second, responses') ∧
      responses'.map Reply.nameless = responses.map Reply.nameless ∧
      first.maps = [some a] ∧ second.maps = [some b] ∧ Indistinct a b ∧
      a.located = .ok [(3, [7], 70)] ∧ b.located = .ok [(1, [7], 70)] := by
  obtain ⟨cleared, reply, made, refused, renewed⟩ := clear_renews sample_reached
  obtain ⟨rfl, rfl⟩ := Prod.mk.inj (Except.ok.inj made)
  obtain ⟨later, replies, ran, gone⟩ :=
    refused (Cursor.mk 0 (.positioned ⟨2, 0⟩)) 2 rfl [.insert [2] 20 {}]
  have built : (Map.build {} { config := { keySize := 1, maxHeight := { levels := 2 } } }
      { values := [0, 0xFFFFFFFF], used := 3 } 5 : Except Error (Map Script Nat)) = .ok _ := rfl
  have orderly : Use.Orderly (List.range 1) revival := by
    simp [revival, Use.Orderly, Use.Stays, Use.relies, Use.leaves]
  obtain ⟨first, second, responses, responses', run, run', same⟩ :=
    renewed {} _ 5 _ built rfl rfl rfl [.positioned ⟨2, 0⟩] [.exhausted] revival rfl orderly
  have calls : ∀ use ∈ revival, use.IsCall := by simp [revival, Use.IsCall]
  obtain ⟨_, held⟩ := sample_reached.holds
  obtain ⟨_, _, kept⟩ := held.turn made
  have few {map : Map Script Nat} {positions : List Position} (size : map.keySize = 1)
      (room : map.arena.slots.size ≤ 4) : ∀ other, (Session.hostingAt map positions).maps = [some other] →
        other.keySize = 1 ∧ other.arena.slots.size + revival.length ≤ 10 := by
    rintro _ ⟨⟩
    exact ⟨size, Nat.add_le_add_right room 6⟩
  have granted := (Session.single_hostingAt kept _).run_granted calls revival_supplied
    (few rfl (by decide)) (by decide) run
  have granted' := (Session.single_hostingAt (build_holds built).1 _).run_granted calls revival_supplied
    (few rfl (by decide)) (by decide) run'
  obtain ⟨shown, a, b, here, there, indistinct⟩ := same granted granted'
  obtain ⟨rfl, rfl⟩ := Prod.mk.inj (Except.ok.inj run)
  obtain ⟨rfl, rfl⟩ := Prod.mk.inj (Except.ok.inj run')
  obtain rfl := Option.some.inj (List.cons.inj here).1
  obtain rfl := Option.some.inj (List.cons.inj there).1
  exact ⟨_, _, _, _, later, _, _, _, _, _, replies, made, ran, gone, built, run, run', shown, rfl, rfl,
    indistinct, rfl, rfl⟩

end Map

end SkipList
