import SkipList.Proofs.Onward

/-!
# Cursors

A cursor is as good as the identity it remembers: it answers from its entry while that node is in the
map, whatever happens to others, and is refused from the moment the node is taken out until it is sought
again.
-/

namespace SkipList

open Entry

variable {σ α : Type}

namespace Cursor

/-- The call needs the entry of the cursor. -/
def Call.NeedsEntry : Call → Prop
  | .seek _ | .isValid | .walk => False
  | _ => True

/-- The cursor answers from the entry in a slot, with `later` behind it on level 0. -/
structure Stands (cursor : Cursor) (map : Map σ α) (slot : Nat) (stored : Key) (current : α)
    (later : List (Nat × Key × α)) : Prop where
  located : ∃ earlier, map.located = .ok (earlier ++ (slot, stored, current) :: later)
  valid : (cursor.isValid map).result = true
  key : cursor.call map .key = .ok (cursor, { result := .ok (.key (some stored)) })
  value : cursor.call map .value = .ok (cursor, { result := .ok (.value (some current)) })
  entry : cursor.call map .entry = .ok (cursor, { result := .ok (.entry (some (stored, current))) })
  satisfies : ∀ predicate, cursor.call map (.satisfies predicate) =
    .ok (cursor, { result := .ok (.satisfied (some (predicate stored))) })
  holds : ∀ predicate, cursor.holds map predicate = .ok { result := .ok (predicate stored) }
  peekNext : cursor.call map .peekNext =
    .ok (cursor, { result := .ok (.key (later.head?.map fun (_, key, _) => key)) })
  increment : ∃ moved, cursor.call map .increment = .ok (moved, { result := .ok (.moved moved) }) ∧
    (moved.resolve map).result = .ok (later.head?.map Prod.fst)

/-- The cursor is refused and stays where it is; only seeking makes it valid again. -/
structure Refused (cursor : Cursor) (map : Map σ α) : Prop where
  invalid : (cursor.isValid map).result = false
  refused : ∀ call : Call, call.NeedsEntry → ∃ trace,
    cursor.call map call = .ok (cursor, { result := .error .invalidatedCursor, trace })
  holds : ∀ predicate, ∃ trace,
    cursor.holds map predicate = .ok { result := .error .invalidatedCursor, trace }
  revived : ∀ sought, ∃ moved trace,
    cursor.call map (.seek sought) = .ok (moved, { result := .ok (.moved moved), trace }) ∧
      (moved.isValid map).result = true

/-- The cursor stands behind the last entry and stays there; no predicate is asked there. -/
structure AtEnd (cursor : Cursor) (map : Map σ α) : Prop where
  valid : (cursor.isValid map).result = true
  key : cursor.call map .key = .ok (cursor, { result := .ok (.key none) })
  value : cursor.call map .value = .ok (cursor, { result := .ok (.value none) })
  entry : cursor.call map .entry = .ok (cursor, { result := .ok (.entry none) })
  satisfies : ∀ predicate, cursor.call map (.satisfies predicate) =
    .ok (cursor, { result := .ok (.satisfied none) })
  holds : ∀ predicate, cursor.holds map predicate = .ok { result := .ok false }
  peekNext : cursor.call map .peekNext = .ok (cursor, { result := .ok (.key none) })
  increment : cursor.call map .increment = .ok (cursor, { result := .ok (.moved cursor) })

variable {cursor : Cursor} {map : Map σ α} {layout : Layout α} {id : NodeId}

/-! ### Resolving a cursor -/

theorem resolve_exhausted (own : cursor.map = map.id) (position : cursor.position = .exhausted) :
    cursor.resolve map = { result := .ok none } := by
  unfold resolve
  rw [if_neg (not_not.mpr own), position]

theorem resolve_ok {link : Link} (resolved : (cursor.resolve map).result = .ok link) :
    cursor.map = map.id ∧
      ((cursor.position = .exhausted ∧ link = none) ∨
        ∃ id slot, cursor.position = .positioned id ∧ map.arena.resolve id = some slot ∧
          link = some slot) := by
  unfold resolve at resolved
  split at resolved
  · nomatch resolved
  · rename_i own
    refine ⟨not_not.mp own, ?_⟩
    cases position : cursor.position with
    | exhausted =>
      rw [position] at resolved
      exact Or.inl ⟨rfl, (Except.ok.inj resolved).symm⟩
    | positioned id =>
      rw [position] at resolved
      cases found : map.arena.resolve id with
      | none =>
        simp only [found] at resolved
        nomatch resolved
      | some slot =>
        simp only [found] at resolved
        exact Or.inr ⟨id, slot, rfl, found, (Except.ok.inj resolved).symm⟩

/-! ### What a cursor answers -/

theorem stands_of_entry (h : map.Holds layout) {before after : List (Entry α)} {e : Entry α}
    (split : layout.entries = before ++ e :: after) (own : cursor.map = map.id)
    (position : cursor.position = .positioned e.id) :
    cursor.Stands map e.slot e.key e.value (after.map fun x => (x.slot, x.pair)) := by
  have here := onward_entry h own split position
  have further := onward_onto h own
    (show layout.entries = (before ++ [e]) ++ after by rw [split, List.append_cons])
  have ahead : cursor.sees map layout (fun rest => cursor.onto rest.tail) =
      { result := .ok (cursor.onto after) } := by
    simp only [sees, here, Reply.map, Except.map, List.tail_cons]
  refine
    { located := ?_, valid := ?_, key := ?_, value := ?_, entry := ?_, satisfies := fun predicate => ?_,
      holds := fun predicate => ?_, peekNext := ?_, increment := ⟨cursor.onto after, ?_, ?_⟩ }
  · refine ⟨before.map fun x => (x.slot, x.pair), ?_⟩
    rw [h.located_eq, split, List.map_append, List.map_cons]
    rfl
  · rw [isValid_eq h, here]
    rfl
  · rw [call_eq h, reacts, sees, here]
    rfl
  · rw [call_eq h, reacts, sees, here]
    rfl
  · rw [call_eq h, reacts, sees, here]
    rfl
  · rw [call_eq h, reacts, sees, here]
    rfl
  · rw [holds_eq h, sees, here]
    rfl
  · rw [call_eq h, reacts, sees, here, List.head?_map, Option.map_map]
    rfl
  · rw [call_eq h, reacts, ahead]
    rfl
  · rw [resolve_eq h, sees, further, List.head?_map, Option.map_map]
    rfl

theorem atEnd_of_exhausted (own : cursor.map = map.id) (position : cursor.position = .exhausted) :
    cursor.AtEnd map := by
  have resolved := resolve_exhausted own position
  have shown : cursor.entry map = .ok { result := .ok none } := by
    simp only [entry, withSlot, resolved, Map.entryAt?, ok_bind, pure_eq_ok]
  refine
    { valid := ?_, key := ?_, value := ?_, entry := ?_, satisfies := fun predicate => ?_,
      holds := fun predicate => ?_, peekNext := ?_, increment := ?_ }
  · simp only [isValid, resolved, Reply.map]
  · simp only [call, key, shown, ok_bind, pure_eq_ok]
    rfl
  · simp only [call, value, shown, ok_bind, pure_eq_ok]
    rfl
  · simp only [call, shown, ok_bind, pure_eq_ok]
    rfl
  · simp only [call, satisfies, key, shown, ok_bind, pure_eq_ok]
    rfl
  · simp only [Cursor.holds, satisfies, key, shown, ok_bind, pure_eq_ok]
    rfl
  · simp only [call, peekNext, withSlot, resolved, ok_bind, pure_eq_ok]
    rfl
  · simp only [call, increment, withSlot, resolved, ok_bind, pure_eq_ok]
    rfl

theorem seek_valid (h : map.Holds layout) (own : cursor.map = map.id) (sought : Key) :
    ∃ moved trace, cursor.call map (.seek sought) = .ok (moved, { result := .ok (.moved moved), trace }) ∧
      (moved.isValid map).result = true := by
  obtain ⟨before, split⟩ := Map.atLeast_suffix map layout sought
  refine ⟨cursor.onto (map.atLeast layout sought), { compared := map.comparisonsTo layout sought }, ?_, ?_⟩
  · rw [call_eq h, reacts, if_neg (not_not.mpr own)]
    rfl
  · rw [isValid_eq h, onward_onto h own split.symm]
    rfl

theorem refused_of_gone (h : map.Holds layout) (own : cursor.map = map.id)
    (position : cursor.position = .positioned id) (gone : map.arena.resolve id = none) :
    cursor.Refused map := by
  have missing : ∀ e ∈ layout.entries, e.id ≠ id := by
    rintro e member rfl
    rw [h.arena.resolve_entry member] at gone
    nomatch gone
  have here := onward_gone own position missing
  refine
    { invalid := ?_, refused := fun call needs => ⟨{ events := [.cursorRemoved id.index] }, ?_⟩,
      holds := fun predicate => ⟨{ events := [.cursorRemoved id.index] }, ?_⟩, revived := seek_valid h own }
  · rw [isValid_eq h, here]
    rfl
  · rw [call_eq h]
    cases call with
    | seek _ => exact needs.elim
    | isValid => exact needs.elim
    | walk => exact needs.elim
    | key => rw [reacts, sees, here]; rfl
    | value => rw [reacts, sees, here]; rfl
    | entry => rw [reacts, sees, here]; rfl
    | peekNext => rw [reacts, sees, here]; rfl
    | increment => rw [reacts, sees, here]; rfl
    | satisfies predicate => rw [reacts, sees, here]; rfl
  · rw [holds_eq h, sees, here]
    rfl

/-! ### Cursors through a run -/

/-- However a map has come about and whatever happens to it from now on: a cursor on a node answers from
that node until the node is taken out, and is refused from then on until it is sought; a cursor at the
end stays there. -/
theorem follows_node [DrawSource σ] {map : Map σ α} (reached : map.Reached)
    (changes : List (Change α)) : ∃ next replies, map.applyAll changes = .ok (next, replies) ∧
      (∀ (cursor : Cursor) (slot : Nat), (cursor.resolve map).result = .ok (some slot) →
        ∃ stored current later, cursor.Stands map slot stored current later ∧
          ((cursor.isValid next).result = true ↔ ¬ Map.Evicted slot changes replies) ∧
          (¬ Map.Evicted slot changes replies →
            ∃ current later, cursor.Stands next slot stored current later) ∧
          (Map.Evicted slot changes replies → cursor.Refused next)) ∧
      ∀ cursor : Cursor, (cursor.resolve map).result = .ok none → cursor.AtEnd next := by
  obtain ⟨layout, h⟩ := reached.holds
  obtain ⟨next, _, replies, run, _, _, _, same_id, _⟩ := h.applyAll_ok changes
  refine ⟨next, replies, run, fun cursor slot resolved => ?_, fun cursor resolved => ?_⟩
  · obtain ⟨own, ⟨_, missing⟩ | ⟨id, there, position, found, same⟩⟩ := resolve_ok resolved
    · nomatch missing
    · obtain rfl := Option.some.inj same
      have own_next := own.trans same_id.symm
      obtain ⟨e, member, rfl, rfl⟩ := h.arena.entry_of_resolve found
      obtain ⟨before, after, split⟩ := List.append_of_mem member
      obtain ⟨rest, kept, follow⟩ := h.follow_run member run
      refine ⟨e.key, e.value, _, stands_of_entry h split own position, ?_⟩
      rcases follow with ⟨out, past⟩ | ⟨stays, x, listed, same, key⟩
      · have refused := refused_of_gone kept own_next position (kept.arena.resolve_past past)
        refine ⟨?_, fun stays => absurd out stays, fun _ => refused⟩
        rw [refused.invalid]
        exact ⟨fun valid => absurd valid Bool.false_ne_true, fun stays => absurd out stays⟩
      · obtain ⟨first, last, parts⟩ := List.append_of_mem listed
        have stands := stands_of_entry kept parts own_next (position.trans (by rw [same]))
        rw [key, show x.slot = e.slot from congrArg NodeId.index same] at stands
        exact ⟨⟨fun _ => stays, fun _ => stands.valid⟩, fun _ => ⟨_, _, stands⟩,
          fun out => absurd out stays⟩
  · obtain ⟨own, ⟨position, _⟩ | ⟨_, _, _, _, missing⟩⟩ := resolve_ok resolved
    · exact atEnd_of_exhausted (own.trans same_id.symm) position
    · nomatch missing

/-- A new node with the old key in the old slot is another node. -/
theorem follows_node_reused_slot :
    Map.sample.Reached ∧ ∃ next replies,
      Map.sample.applyAll [.remove [1], .insert [1] 40 {}] = .ok (next, replies) ∧
      (({ map := 0, position := .positioned ⟨1, 0⟩ } : Cursor).resolve Map.sample).result = .ok (some 1) ∧
      Map.Evicted 1 [.remove [1], .insert [1] 40 {}] replies ∧
      ({ map := 0, position := .positioned ⟨1, 0⟩ } : Cursor).Refused next := by
  obtain ⟨next, replies, run, stands, _⟩ :=
    follows_node Map.sample_reached [.remove [1], .insert [1] 40 {}]
  obtain ⟨_, _, _, _, _, _, refused⟩ := stands { map := 0, position := .positioned ⟨1, 0⟩ } 1 rfl
  have out : Map.Evicted 1 [.remove [1], .insert [1] 40 {}] replies := by
    obtain ⟨_, rfl⟩ := Prod.mk.inj (Except.ok.inj run)
    exact ⟨_, List.mem_cons_self, 2, 2, List.mem_cons_self⟩
  exact ⟨Map.sample_reached, next, replies, run, rfl, out, refused out⟩

end Cursor

end SkipList
