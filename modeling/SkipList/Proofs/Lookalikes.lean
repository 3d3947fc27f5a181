import SkipList.Proofs.Renaming

/-!
# Lookalikes

Two maps whose entries are the same but for the names of the nodes. They answer every query alike, cursors
on nodes of the same number find the same in both, and a change leaves lookalikes.
-/

namespace SkipList

open Entry

variable {σ α β : Type}

/-! ### Remnants -/

namespace Remnant

/-- The same entries are still to come, in whatever slots. -/
structure Same (here here' : Remnant α) : Prop where
  entries : here'.entries.map Prod.snd = here.entries.map Prod.snd
  remaining : here'.remaining = here.remaining

variable {here here' saved saved' : Remnant α}

theorem Same.length (same : here.Same here') : here'.entries.length = here.entries.length := by
  simpa using congrArg List.length same.entries

theorem Same.drop (same : here.Same here') (n : Nat) : (here.drop n).Same (here'.drop n) := by
  refine { entries := ?_, remaining := ?_ }
  · rw [Remnant.drop, Remnant.drop, List.map_drop, List.map_drop, same.entries]
  · rw [Remnant.drop, Remnant.drop, same.length, same.remaining]

theorem Same.finish (same : here.Same here') : here.finish.Same here'.finish := by
  unfold Remnant.finish
  rw [same.length]
  exact same.drop _

theorem Same.item (same : here.Same here') (n : Nat) :
    here'.entries[n]?.map Prod.snd = here.entries[n]?.map Prod.snd := by
  rw [← List.getElem?_map, ← List.getElem?_map, same.entries]

theorem Same.bounds (same : here.Same here') : here'.bare.bounds = here.bare.bounds := by
  have counted := same.remaining
  cases entries : here.entries with
  | nil =>
    have none_left := same.entries
    rw [entries, List.map_nil, List.map_eq_nil_iff] at none_left
    simp only [bare, traversal, none_left, entries]
    rfl
  | cons x rest =>
    cases entries' : here'.entries with
    | nil =>
      have some_left := same.entries
      rw [entries, entries'] at some_left
      cases some_left
    | cons x' rest' =>
      simp only [bare, traversal, entries, entries', counted]
      rfl

theorem Same.run (same : here.Same here') (same_saved : saved.Same saved') (view : View)
    (steps : List Traversal.Step) :
    (run view here' saved' steps).map Traversal.StepAnswer.nameless =
      (run view here saved steps).map Traversal.StepAnswer.nameless := by
  induction steps generalizing here here' saved saved' with
  | nil => rfl
  | cons first steps ih =>
    cases first with
    | next =>
      have further := ih (same.drop 1) same_saved
      simp only [Remnant.run, step, List.map_cons, same.item 0, further]
    | bounds => simp only [Remnant.run, step, List.map_cons, same.bounds, ih same same_saved]
    | debugText =>
      simp only [Remnant.run, step, List.map_cons, Traversal.StepAnswer.nameless, ih same same_saved]
    | save => simp only [Remnant.run, step, List.map_cons, ih same same]
    | restore => simp only [Remnant.run, step, List.map_cons, ih same_saved same_saved]
    | rest =>
      simp only [Remnant.run, step, List.map_cons, same.entries, ih same.finish same_saved]
    | last =>
      simp only [Remnant.run, step, List.map_cons, same.entries, ih same.finish same_saved]
    | count =>
      simp only [Remnant.run, step, List.map_cons, same.length, ih same.finish same_saved]
    | nth n =>
      have further := ih (same.drop (n + 1)) same_saved
      simp only [Remnant.run, step, List.map_cons, same.item n, further]

end Remnant

/-! ### Positions -/

/-- Both positions are behind the last entry, or on nodes of the same number. -/
inductive Position.Beside (births births' : List NodeId) : Position → Position → Prop where
  | exhausted : Beside births births' .exhausted .exhausted
  | positioned {id id' : NodeId} (listed : id ∈ births) (listed' : id' ∈ births')
      (same : births'.idxOf id' = births.idxOf id) :
      Beside births births' (.positioned id) (.positioned id')

namespace Position.Beside

variable {births births' : List NodeId} {first first' second second' : Position}

theorem append (beside : Beside births births' first first') (more more' : List NodeId) :
    Beside (births ++ more) (births' ++ more') first first' := by
  cases beside with
  | exhausted => exact .exhausted
  | positioned listed listed' same =>
    refine .positioned (List.mem_append_left _ listed) (List.mem_append_left _ listed') ?_
    rw [List.idxOf_append_of_mem listed, List.idxOf_append_of_mem listed', same]

theorem eq_iff (beside : Beside births births' first first')
    (beside' : Beside births births' second second') : first' = second' ↔ first = second := by
  cases beside with
  | exhausted =>
    cases beside' with
    | exhausted => simp
    | positioned => simp
  | positioned listed listed' same =>
    cases beside' with
    | exhausted => simp
    | positioned _ _ same' =>
      rw [Position.positioned.injEq, Position.positioned.injEq, ← List.idxOf_inj listed,
        ← List.idxOf_inj listed', same, same']

theorem nameless (beside : Beside births births' first first') : first'.nameless = first.nameless := by
  cases beside <;> rfl

end Position.Beside

structure Cursor.Abeam (births births' : List NodeId) (id id' : Nat)
    (first second : Cursor × Reply α (Except Error (Answer α))) : Prop where
  own : first.1.map = id
  own' : second.1.map = id'
  beside : Position.Beside births births' first.1.position second.1.position
  reply : second.2.nameless = first.2.nameless

theorem Cursor.Abeam.of_moved {births births' : List NodeId} {id id' : Nat}
    {here there next next' : Position} (beside : Position.Beside births births' next next')
    (trace trace' : Trace α) (seen : trace'.nameless = trace.nameless) :
    Abeam births births' id id' ((Cursor.mk id here).moving { result := .ok (Cursor.mk id next), trace })
      ((Cursor.mk id' there).moving { result := .ok (Cursor.mk id' next'), trace := trace' }) := by
  refine { own := rfl, own' := rfl, beside := beside, reply := ?_ }
  simp only [Cursor.moving, Reply.map, Reply.nameless, Except.map, Answer.nameless, Cursor.nameless,
    beside.nameless, seen]

namespace Map

/-- The maps hold layouts that differ in the names of their nodes only. -/
structure Lookalikes (a : Map σ α) (layout : Layout α) (births : List NodeId) (b : Map σ α)
    (layout' : Layout α) (births' : List NodeId) : Prop where
  first : a.Holds layout
  second : b.Holds layout'
  numbers : layout.Numbers births
  numbers' : layout'.Numbers births'
  outline : b.outline = a.outline
  same : layout'.numbered births' = layout.numbered births
  count : births'.length = births.length

namespace Lookalikes

variable {a b : Map σ α} {layout layout' : Layout α} {births births' : List NodeId} {key : Key}

theorem entries (alike : Lookalikes a layout births b layout' births') :
    layout'.entries.map (numbered births') = layout.entries.map (numbered births) :=
  congrArg Layout.entries alike.same

theorem order (alike : Lookalikes a layout births b layout' births') : b.order = a.order :=
  show b.outline.order = a.outline.order from congrArg Map.order alike.outline

theorem keySize (alike : Lookalikes a layout births b layout' births') : b.keySize = a.keySize :=
  show b.outline.keySize = a.outline.keySize from congrArg Map.keySize alike.outline

theorem maxHeight (alike : Lookalikes a layout births b layout' births') : b.maxHeight = a.maxHeight :=
  show b.outline.maxHeight = a.outline.maxHeight from congrArg Map.maxHeight alike.outline

theorem len (alike : Lookalikes a layout births b layout' births') : b.len = a.len :=
  show b.outline.len = a.outline.len from congrArg Map.len alike.outline

theorem source (alike : Lookalikes a layout births b layout' births') : b.source = a.source :=
  show b.outline.source = a.outline.source from congrArg Map.source alike.outline

theorem congr (alike : Lookalikes a layout births b layout' births') (seen : Map σ α → Layout α → β)
    (outlined : ∀ map layout, seen (Map.outline map) layout = seen map layout) :
    seen b (layout'.numbered births') = seen a (layout.numbered births) := by
  rw [← outlined b, ← outlined a, alike.outline, alike.same]

theorem found_numbered (alike : Lookalikes a layout births b layout' births') (key : Key) :
    (b.found layout' key).map (numbered births') = (a.found layout key).map (numbered births) := by
  rw [← Map.found_numbered, ← Map.found_numbered]
  exact alike.congr (fun map layout => map.found layout key) fun _ _ => rfl

theorem found_map {read : Entry α → β} (alike : Lookalikes a layout births b layout' births')
    (blind : ∀ births, ∀ e : Entry α, read (e.numbered births) = read e) :
    (b.found layout' key).map read = (a.found layout key).map read := by
  have shown := congrArg (Option.map read) (alike.found_numbered key)
  simpa only [Option.map_map, Function.comp_def, blind] using shown

theorem ahead (alike : Lookalikes a layout births b layout' births') (key : Key) :
    (b.atLeast layout' key).map (numbered births') = (a.atLeast layout key).map (numbered births) := by
  rw [← atLeast_numbered, ← atLeast_numbered]
  exact alike.congr (fun map layout => map.atLeast layout key) fun _ _ => rfl

theorem compared (alike : Lookalikes a layout births b layout' births') (key : Key) :
    (b.comparisonsTo layout' key).map Comparison.nameless =
      (a.comparisonsTo layout key).map Comparison.nameless := by
  rw [← comparisonsTo_numbered b layout' births', ← comparisonsTo_numbered a layout births]
  exact congrArg _ (alike.congr (fun map layout => map.comparisonsTo layout key) fun _ _ => rfl)

theorem glanced (alike : Lookalikes a layout births b layout' births') (key : Key) :
    (b.glances layout' key).map Comparison.nameless = (a.glances layout key).map Comparison.nameless := by
  rw [← glances_numbered b layout' births', ← glances_numbered a layout births]
  exact congrArg _ (alike.congr (fun map layout => map.glances layout key) fun _ _ => rfl)

/-! ### Queries -/

theorem looks (alike : Lookalikes a layout births b layout' births') (query : Query α) :
    (b.looks layout' query).map Comparison.nameless = (a.looks layout query).map Comparison.nameless := by
  cases query with
  | get key | contains key | getEntry key => exact alike.glanced key
  | traverseFrom key _ => exact alike.compared key
  | _ => rfl

theorem remnant (alike : Lookalikes a layout births b layout' births') {rest rest' : List (Entry α)}
    (same : rest'.map (numbered births') = rest.map (numbered births)) :
    (a.remnant rest).Same (b.remnant rest') := by
  refine { entries := ?_, remaining := alike.len }
  simp only [Map.remnant, List.map_map]
  exact map_of_numbered same fun _ _ => rfl

theorem reads (alike : Lookalikes a layout births b layout' births') (query : Query α) :
    (b.reads layout' query).nameless = (a.reads layout query).nameless := by
  have pairs : layout'.entries.map pair = layout.entries.map pair :=
    map_of_numbered alike.entries fun _ _ => rfl
  have values : layout'.entries.map (·.value) = layout.entries.map (·.value) :=
    map_of_numbered alike.entries fun _ _ => rfl
  cases query with
  | get key => exact congrArg Answer.value (alike.found_map fun _ _ => rfl)
  | contains key =>
    have there := congrArg Option.isSome (alike.found_numbered key)
    simp only [Option.isSome_map] at there
    exact congrArg Answer.flag there
  | getEntry key => exact congrArg Answer.entry (alike.found_map fun _ _ => rfl)
  | len => exact congrArg Answer.number alike.len
  | isEmpty => simp only [Map.reads, isEmpty, alike.len]
  | height => simp only [Map.reads, alike.maxHeight]
  | keySize => exact congrArg Answer.number alike.keySize
  | order => simp only [Map.reads, alike.order]
  | first => simp only [Map.reads, ← List.head?_map, pairs]
  | firstValue => simp only [Map.reads, ← List.head?_map, values]
  | last => simp only [Map.reads, ← List.getLast?_map, pairs]
  | keys => exact congrArg Answer.keys (map_of_numbered alike.entries fun _ _ => rfl)
  | values => exact congrArg Answer.values values
  | entries => exact congrArg Answer.entries pairs
  | located =>
    simp only [Map.reads, Answer.nameless, List.map_map]
    exact congrArg Answer.located (map_of_numbered alike.entries fun _ _ => rfl)
  | debugText text => simp only [Map.reads, pairs]
  | debugLines text => simp only [Map.reads, pairs]
  | traverse view steps =>
    have start := alike.remnant alike.entries
    exact congrArg (Answer.traversed view) (start.run start view steps)
  | traverseFrom key steps =>
    have start := alike.remnant (alike.ahead key)
    exact congrArg (Answer.traversed .entries) (start.run start .entries steps)

/-! ### Cursors -/

open Cursor

theorem beside_place (alike : Lookalikes a layout births b layout' births')
    {link link' : Option (Entry α)} (listed : ∀ e ∈ link, e ∈ layout.entries)
    (listed' : ∀ e ∈ link', e ∈ layout'.entries)
    (same : link'.map (numbered births') = link.map (numbered births)) :
    Position.Beside births births' (place link) (place link') := by
  cases link with
  | none =>
    rw [Option.map_none, Option.map_eq_none_iff] at same
    rw [same]
    exact .exhausted
  | some e =>
    cases link' with
    | none => nomatch same
    | some e' =>
      have number : births'.idxOf e'.id = births.idxOf e.id :=
        congrArg Entry.slot (Option.some.inj same)
      exact .positioned (alike.numbers.listed e (listed e rfl)) (alike.numbers'.listed e' (listed' e' rfl))
        number

theorem onward_cases (alike : Lookalikes a layout births b layout' births') {position position' : Position}
    (beside : Position.Beside births births' position position') :
    (∃ trace trace', (Cursor.mk a.id position).onward a.id layout.entries =
        { result := .error .invalidatedCursor, trace } ∧
      (Cursor.mk b.id position').onward b.id layout'.entries =
        { result := .error .invalidatedCursor, trace := trace' } ∧ trace'.nameless = trace.nameless) ∨
    ∃ rest rest', (Cursor.mk a.id position).onward a.id layout.entries = { result := .ok rest } ∧
      (Cursor.mk b.id position').onward b.id layout'.entries = { result := .ok rest' } ∧
      rest <:+ layout.entries ∧ rest' <:+ layout'.entries ∧
      rest'.map (numbered births') = rest.map (numbered births) := by
  unfold onward
  rw [if_neg (not_not.mpr rfl), if_neg (not_not.mpr rfl)]
  cases beside with
  | exhausted => exact Or.inr ⟨[], [], rfl, rfl, List.nil_suffix, List.nil_suffix, rfl⟩
  | @positioned id id' listed listed' number =>
    -- among the numbered entries the node is sought by its number
    have drop (births : List NodeId) {id : NodeId} (listed : id ∈ births) (entries : List (Entry α)) :
        (entries.dropWhile (·.id ≠ id)).map (numbered births) =
          (entries.map (numbered births)).dropWhile (·.slot ≠ births.idxOf id) := by
      rw [List.dropWhile_map]
      have sought : (fun e : Entry α => decide (e.id ≠ id)) =
          (fun e => decide (e.slot ≠ births.idxOf id)) ∘ numbered births := by
        funext e
        have named : births.idxOf e.id = births.idxOf id ↔ e.id = id :=
          ⟨fun same => ((List.idxOf_inj listed).mp same.symm).symm, congrArg (births.idxOf ·)⟩
        exact decide_eq_decide.mpr (not_congr named.symm)
      rw [sought]
    have same : (layout'.entries.dropWhile (·.id ≠ id')).map (numbered births') =
        (layout.entries.dropWhile (·.id ≠ id)).map (numbered births) := by
      rw [drop births' listed', drop births listed, alike.entries, number]
    have suffix := List.dropWhile_suffix (l := layout.entries) (·.id ≠ id)
    have suffix' := List.dropWhile_suffix (l := layout'.entries) (·.id ≠ id')
    simp only
    cases rest : layout.entries.dropWhile (·.id ≠ id) with
    | nil =>
      rw [rest, List.map_nil, List.map_eq_nil_iff] at same
      rw [same]
      exact Or.inl ⟨_, _, rfl, rfl, rfl⟩
    | cons e after =>
      cases rest' : layout'.entries.dropWhile (·.id ≠ id') with
      | nil =>
        rw [rest, rest'] at same
        nomatch same
      | cons e' after' =>
        rw [rest] at same suffix
        rw [rest'] at same suffix'
        exact Or.inr ⟨_, _, rfl, rfl, suffix, suffix', same⟩

theorem head?_map {rest rest' : List (Entry α)} {read : Entry α → β}
    (same : rest'.map (numbered births') = rest.map (numbered births))
    (blind : ∀ births, ∀ e : Entry α, read (e.numbered births) = read e) :
    rest'.head?.map read = rest.head?.map read := by
  rw [← List.head?_map, ← List.head?_map, map_of_numbered same blind]

theorem reacts_seek (alike : Lookalikes a layout births b layout' births') (position position' : Position)
    (key : Key) : Abeam births births' a.id b.id ((Cursor.mk a.id position).reacts a layout (.seek key))
      ((Cursor.mk b.id position').reacts b layout' (.seek key)) := by
  rw [reacts, reacts, if_neg (not_not.mpr rfl), if_neg (not_not.mpr rfl)]
  refine .of_moved (alike.beside_place ?_ ?_ ?_) _ _ ?_
  · exact mem_of_head? (atLeast_suffix a layout key)
  · exact mem_of_head? (atLeast_suffix b layout' key)
  · rw [← List.head?_map, ← List.head?_map, alike.ahead key]
  · simp only [Trace.nameless, alike.compared key]

theorem reacts_beside (alike : Lookalikes a layout births b layout' births') {position position' : Position}
    (beside : Position.Beside births births' position position') (call : Call) :
    Abeam births births' a.id b.id ((Cursor.mk a.id position).reacts a layout call)
      ((Cursor.mk b.id position').reacts b layout' call) := by
  have staying {γ : Type} (answer : γ → Answer α) (kept : ∀ c, (answer c).nameless = answer c)
      {read : List (Entry α) → γ} (blind : ∀ rest rest' : List (Entry α),
        rest'.map (numbered births') = rest.map (numbered births) → read rest' = read rest) :
      Abeam births births' a.id b.id
        ((Cursor.mk a.id position).staying answer ((Cursor.mk a.id position).sees a layout read))
        ((Cursor.mk b.id position').staying answer ((Cursor.mk b.id position').sees b layout' read)) := by
    refine { own := rfl, own' := rfl, beside := beside, reply := ?_ }
    rw [Cursor.staying, Cursor.staying, sees, sees]
    rcases alike.onward_cases beside with
      ⟨trace, trace', here, here', same⟩ | ⟨rest, rest', here, here', _, _, same⟩
    · rw [here, here']
      simp only [Reply.map, Reply.nameless, Except.map, same]
    · rw [here, here']
      simp only [Reply.map, Reply.nameless, Except.map, kept, blind rest rest' same]
  cases call with
  | key => exact staying .key (fun _ => rfl) fun _ _ same => head?_map same fun _ _ => rfl
  | value => exact staying .value (fun _ => rfl) fun _ _ same => head?_map same fun _ _ => rfl
  | entry => exact staying .entry (fun _ => rfl) fun _ _ same => head?_map same fun _ _ => rfl
  | peekNext =>
    refine staying .key (fun _ => rfl) fun rest rest' same => ?_
    have tails : rest'.tail.map (numbered births') = rest.tail.map (numbered births) := by
      rw [List.map_tail, same, List.map_tail]
    exact head?_map tails fun _ _ => rfl
  | satisfies predicate =>
    exact staying .satisfied (fun _ => rfl) fun _ _ same => head?_map same fun _ _ => rfl
  | increment =>
    rw [reacts, reacts, sees, sees]
    rcases alike.onward_cases beside with
      ⟨trace, trace', here, here', same⟩ | ⟨rest, rest', here, here', suffix, suffix', same⟩
    · rw [here, here']
      refine { own := rfl, own' := rfl, beside := beside, reply := ?_ }
      simp only [Cursor.moving, Reply.map, Reply.nameless, Except.map, same]
    · rw [here, here']
      refine .of_moved (alike.beside_place ?_ ?_ ?_) _ _ rfl
      · exact mem_of_head? ((List.tail_suffix rest).trans suffix)
      · exact mem_of_head? ((List.tail_suffix rest').trans suffix')
      · rw [← List.head?_map, ← List.head?_map, List.map_tail, same, List.map_tail]
  | seek key => exact alike.reacts_seek position position' key
  | isValid =>
    rw [reacts, reacts]
    rcases alike.onward_cases beside with
      ⟨trace, trace', here, here', same⟩ | ⟨rest, rest', here, here', _, _, _⟩
    · rw [here, here']
      refine { own := rfl, own' := rfl, beside := beside, reply := ?_ }
      simp only [Reply.map, Reply.nameless, Except.isOk, Except.toBool, same]
    · rw [here, here']
      exact { own := rfl, own' := rfl, beside := beside, reply := rfl }
  | walk =>
    rw [reacts, reacts, walked, walked]
    rcases alike.onward_cases beside with
      ⟨trace, trace', here, here', same⟩ | ⟨rest, rest', here, here', _, _, same⟩
    · rw [here, here']
      refine { own := rfl, own' := rfl, beside := beside, reply := ?_ }
      simp only [Reply.map, Reply.nameless, same]
    · rw [here, here']
      have pairs : rest'.map pair = rest.map pair := map_of_numbered same fun _ _ => rfl
      refine { own := rfl, own' := rfl, beside := .exhausted, reply := ?_ }
      simp only [Reply.map, pairs]

/-! ### Changes -/

/-- The same change of lookalikes leaves lookalikes and is answered alike, unless one of them is
short of room. -/
theorem apply_ok [DrawSource σ] (alike : Lookalikes a layout births b layout' births')
    (change : Change α) : ∃ next next' rest rest' reply reply', a.apply change = .ok (next, reply) ∧
      b.apply change = .ok (next', reply') ∧ next.id = a.id ∧ next'.id = b.id ∧
      ((∀ error : Error, error.isShortage = true → reply.result ≠ .error error) →
        (∀ error : Error, error.isShortage = true → reply'.result ≠ .error error) →
        ∃ born born', Lookalikes next rest (births ++ born) next' rest' (births' ++ born') ∧
          reply'.nameless = reply.nameless) := by
  obtain ⟨next, rest, reply, made, turn, kept⟩ := alike.first.apply_ok change
  obtain ⟨next', rest', reply', made', turn', kept'⟩ := alike.second.apply_ok change
  refine ⟨next, next', rest, rest', reply, reply', made, made', turn.frame.2.2.1, turn'.frame.2.2.1,
    fun granted granted' => ?_⟩
  obtain ⟨born, numbers, revised⟩ := turn.revise_eq alike.first kept made alike.numbers granted
  obtain ⟨born', numbers', revised'⟩ := turn'.revise_eq alike.second kept' made' alike.numbers' granted'
  rw [alike.outline, alike.same, alike.count, revised] at revised'
  obtain ⟨outline, same, count, shown⟩ := Revision.mk.inj revised'
  exact ⟨born, born',
    { first := kept, second := kept', numbers, numbers', outline := outline.symm, same := same.symm,
      count := count.symm }, shown.symm⟩

end Lookalikes

end Map

end SkipList
