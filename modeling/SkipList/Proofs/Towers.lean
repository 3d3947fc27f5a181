import SkipList.Proofs.Hosting
import SkipList.Proofs.Structure

/-!
# Towers

What the uses of a map do to the towers of its nodes, whatever the key order. `Deed` sorts the uses by what
their answers show, and `Turn.stirs` says what each deed does to the towers, to the draws and to the events.
-/

namespace SkipList

open Entry

variable {σ α : Type}

inductive Deed where
  /-- A new key went in. -/
  | raises
  /-- A new key had no memory. -/
  | fails
  /-- A new key had no slot, as the numbers of slots had run out. -/
  | lacks
  /-- A key went out. -/
  | razes
  | clears
  | spares
deriving DecidableEq

def Deed.draws : Deed → Nat
  | .raises | .fails | .lacks => 1
  | _ => 0

/-- What the use has done, by what was handed back. -/
def Use.deed : Use α → Except Refusal (Answer α) → Deed
  | .change (.insert _ _ _), .ok (.inserted .inserted) => .raises
  | .change (.insert _ _ _), .error (.error (.allocation _)) => .fails
  | .change (.insert _ _ _), .error (.error .full) => .lacks
  | .change (.remove _), .ok (.removed (.removed _)) => .razes
  | .change (.erase _), .ok (.flag true) => .razes
  | .change .clear, _ => .clears
  | _, _ => .spares

theorem Use.deed_of_reading {use : Use α} (reading : use.IsReading) (result : Except Refusal (Answer α)) :
    use.deed result = .spares := by
  cases use with
  | change _ | insertAll _ _ _ | removeAll _ | takeValues | discard => exact reading.elim
  | _ => rfl

theorem Use.full_of_lacks {use : Use α} {result : Except Refusal (Answer α)} (lacks : use.deed result = .lacks) :
    result = .error (.error .full) := by
  unfold Use.deed at lacks
  split at lacks <;> first | rfl | nomatch lacks

def Entry.tower (e : Entry α) : NodeId × Nat := (e.id, e.height)

def Layout.towers (layout : Layout α) : List (NodeId × Nat) := layout.entries.map tower

theorem Layout.towers_write {layout : Layout α} {before after : List (Entry α)} {e : Entry α} (value : α)
    (split : layout.entries = before ++ e :: after) :
    (layout.withEntries (before ++ { e with value } :: after)).towers = layout.towers := by
  simp only [towers, withEntries, split, List.map_append, List.map_cons, tower, Entry.id]

theorem Layout.towers_middle {layout : Layout α} {before after : List (Entry α)} {e : Entry α}
    (split : layout.entries = before ++ e :: after) :
    layout.towers = before.map tower ++ (e.id, e.height) :: after.map tower := by
  rw [towers, split, List.map_append, List.map_cons]
  rfl

theorem Layout.towers_remove (layout : Layout α) (before : List (Entry α)) (e : Entry α)
    (after : List (Entry α)) :
    (layout.remove before e after).towers = before.map tower ++ after.map tower := by
  rw [towers, remove_entries, List.map_append]

def Map.heightOf? (map : Map σ α) (id : NodeId) : Option Nat :=
  match map.arena.slots[id.index]? with
  | some (.occupied generation node) => if generation = id.generation then some node.height else none
  | _ => none

namespace Map

variable {map next : Map σ α} {layout rest : Layout α} {id : NodeId}

theorem Holds.heightOf?_eq_some (h : map.Holds layout) {height : Nat} :
    map.heightOf? id = some height ↔ (id, height) ∈ layout.towers := by
  constructor
  · intro found
    unfold heightOf? at found
    split at found
    · rename_i generation node occupied
      split at found
      · rename_i same
        obtain ⟨before, e, after, split, here, current, rfl⟩ := h.arena.entry_of_occupied occupied
        have identity : e.id = id := by rw [Entry.id, here, current, same]
        obtain rfl := Option.some.inj found
        rw [node_height, ← identity]
        exact List.mem_map_of_mem (split ▸ List.mem_append_cons_self)
      · cases found
    · cases found
  · intro listed
    obtain ⟨e, member, same⟩ := List.mem_map.mp listed
    obtain ⟨rfl, rfl⟩ := Prod.mk.inj same
    obtain ⟨after, occupied⟩ := h.arena.occupied_of_mem member
    simp only [heightOf?, Entry.id, occupied, if_true, node_height]

theorem Holds.heightOf?_eq_none (h : map.Holds layout) (apart : ∀ tower ∈ layout.towers, tower.1 ≠ id) :
    map.heightOf? id = none := by
  refine Option.eq_none_iff_forall_ne_some.mpr fun height found => ?_
  exact apart _ (h.heightOf?_eq_some.mp found) rfl

theorem Holds.towers_apart (h : map.Holds layout) {before after : List (NodeId × Nat)} {height : Nat}
    (split : layout.towers = before ++ (id, height) :: after) :
    ∀ tower ∈ before ++ after, tower.1.index ≠ id.index := by
  have distinct : (layout.towers.map fun tower => tower.1.index).Nodup := by
    rw [Layout.towers, List.map_map]
    exact h.arena.entries_nodup
  rw [split, List.map_append, List.map_cons, List.nodup_middle, ← List.map_append, List.nodup_cons] at distinct
  exact fun tower listed same => distinct.1 (List.mem_map.mpr ⟨tower, listed, same⟩)

theorem Holds.heightOf?_congr (h : map.Holds layout) (h' : next.Holds rest)
    (same : ∀ height, (id, height) ∈ rest.towers ↔ (id, height) ∈ layout.towers) :
    next.heightOf? id = map.heightOf? id :=
  Option.ext fun height =>
    h'.heightOf?_eq_some.trans ((same height).trans h.heightOf?_eq_some.symm)

/-- What a change does to the towers and the draws, and what it reports. -/
inductive Stirs [DrawSource σ] (map next : Map σ α) (layout rest : Layout α) : Deed → List Event → Prop where
  | raised {before after : List (NodeId × Nat)} {id : NodeId} {height : Height}
      (split : layout.towers = before ++ after) (left : rest.towers = before ++ (id, height.levels) :: after)
      (drawn : map.maxHeight.random map.source = .ok (height, next.source)) :
      Stirs map next layout rest .raises [.spliced id.index height.levels next.len]
  | failed (same : rest.towers = layout.towers) (drawn : next.source = (DrawSource.next map.source).2) :
      Stirs map next layout rest .fails []
  | lacked (same : rest.towers = layout.towers) (drawn : next.source = (DrawSource.next map.source).2) :
      Stirs map next layout rest .lacks []
  | razed {before after : List (NodeId × Nat)} {id : NodeId} {height : Nat}
      (split : layout.towers = before ++ (id, height) :: after) (left : rest.towers = before ++ after)
      (past : rest.Past id) (undrawn : next.source = map.source) :
      Stirs map next layout rest .razes [.unspliced id.index height next.len]
  | cleared (left : rest.towers = []) (past : ∀ tower ∈ layout.towers, rest.Past tower.1)
      (undrawn : next.source = map.source) : Stirs map next layout rest .clears []
  | spared (same : rest.towers = layout.towers) (undrawn : next.source = map.source) :
      Stirs map next layout rest .spares []

variable [DrawSource σ]

theorem Turn.stirs {change : Change α} {reply : Reply α (Except Error (Answer α))}
    (turn : Turn map layout change next rest reply) :
    Stirs map next layout rest ((Use.change change).deed (reply.result.mapError .error))
      reply.trace.events := by
  cases turn with
  | unfit _ => exact .spared rfl rfl
  | updated _ cuts _ => exact .spared (Layout.towers_write _ cuts.split) rfl
  | @inserted key value _ before after height _ _ _ cuts _ drawn _ =>
    have left := Layout.towers_middle (show (layout.add before after height.levels key value).entries =
      before ++ layout.newEntry height.levels key value :: after from rfl)
    refine .raised ?_ left drawn
    rw [Layout.towers, cuts.split, List.map_append]
  | refused _ _ _ drawn refused =>
    rcases Layout.permit_error refused with ⟨rfl, _⟩ | ⟨rfl, _⟩
    · exact .lacked rfl (Height.random_source drawn)
    · exact .failed rfl (Height.random_source drawn)
  | missed _ _ => exact .spared rfl rfl
  | removed _ cuts _ =>
    exact .razed (Layout.towers_middle cuts.split) (Layout.towers_remove ..) (Layout.past_remove ..) rfl
  | erased removal =>
    cases removal with
    | missed _ _ => exact .spared rfl rfl
    | removed _ cuts _ =>
      exact .razed (Layout.towers_middle cuts.split) (Layout.towers_remove ..) (Layout.past_remove ..) rfl
  | unmodified _ _ => exact .spared rfl rfl
  | modified _ split _ => exact .spared (Layout.towers_write _ split) rfl
  | cleared =>
    refine .cleared ?_ (fun tower listed => ?_) rfl
    · rw [Layout.towers, Layout.clear_entries, List.map_nil]
    · obtain ⟨e, member, rfl⟩ := List.mem_map.mp listed
      exact Layout.past_clear (Or.inr ⟨e, member, rfl⟩)

theorem Stirs.draws {deed : Deed} {events : List Event} (stirs : Stirs map next layout rest deed events) :
    next.source = DrawSource.skip deed.draws map.source := by
  cases stirs with
  | raised _ _ drawn => exact Height.random_source drawn
  | failed _ drawn | lacked _ drawn => exact drawn
  | razed _ _ _ undrawn | cleared _ _ undrawn | spared _ undrawn => exact undrawn

/-- A node stays as it is, or it comes in with the height of the next draw, or its identity is past. -/
theorem Stirs.fate {deed : Deed} {events : List Event} (stirs : Stirs map next layout rest deed events)
    (h : map.Holds layout) (kept : next.Holds rest) (id : NodeId) :
    next.heightOf? id = map.heightOf? id ∨
    (deed = .raises ∧ map.heightOf? id = none ∧ ∃ height,
      map.maxHeight.random map.source = .ok (height, next.source) ∧ next.heightOf? id = some height.levels) ∨
    rest.Past id := by
  cases stirs with
  | failed same _ | lacked same _ | spared same _ =>
    exact Or.inl (h.heightOf?_congr kept fun height => by rw [same])
  | @raised before after new height split left drawn =>
    by_cases here : new = id
    · subst here
      refine Or.inr (Or.inl ⟨rfl, h.heightOf?_eq_none fun tower listed same => ?_, height, drawn, ?_⟩)
      · exact kept.towers_apart left tower (split ▸ listed) (congrArg NodeId.index same)
      · rw [kept.heightOf?_eq_some, left]
        exact List.mem_append_cons_self
    · refine Or.inl (h.heightOf?_congr kept fun other => ?_)
      rw [split, left, List.perm_middle.mem_iff, List.mem_cons, Prod.mk.injEq]
      exact or_iff_right fun same => here same.1.symm
  | @razed before after old height split left past _ =>
    by_cases here : old = id
    · exact Or.inr (Or.inr (here ▸ past))
    · refine Or.inl (h.heightOf?_congr kept fun other => ?_)
      rw [split, left, List.perm_middle.mem_iff, List.mem_cons, Prod.mk.injEq]
      exact (or_iff_right fun same => here same.1.symm).symm
  | cleared left past _ =>
    by_cases here : ∃ tower ∈ layout.towers, tower.1 = id
    · obtain ⟨tower, listed, rfl⟩ := here
      exact Or.inr (Or.inr (past tower listed))
    · have absent : map.heightOf? id = none :=
        h.heightOf?_eq_none fun tower listed same => here ⟨tower, listed, same⟩
      have empty : next.heightOf? id = none :=
        kept.heightOf?_eq_none fun tower listed => by
          rw [left] at listed
          nomatch listed
      exact Or.inl (empty.trans absent.symm)

end Map

end SkipList
