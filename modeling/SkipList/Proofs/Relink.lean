import SkipList.Arena
import SkipList.Proofs.Layout

/-!
# Relinking

Linking a node in and taking one out change links and nothing else. `attach_eq` and `detach_eq` say
that each is one `relink`: on the levels of the node the recorded predecessors get a new link, and every
other link stays.
-/

namespace SkipList

variable {α : Type}

def Slot.relink (change : Nat → Link → Link) : Slot α → Slot α
  | .head tower => .head (tower.mapIdx change)
  | .occupied generation node => .occupied generation { node with tower := node.tower.mapIdx change }
  | .vacant generation nextFree => .vacant generation nextFree
  | .retired => .retired

namespace Slot

theorem relink_id (slot : Slot α) : slot.relink (fun _ link => link) = slot := by
  have same (tower : List Link) : (tower.mapIdx fun _ link => link) = tower := by
    apply List.ext_getElem?
    intro level
    simp
  cases slot <;> simp [relink, same]

theorem relink_relink (f g : Nat → Link → Link) (slot : Slot α) :
    (slot.relink f).relink g = slot.relink fun level link => g level (f level link) := by
  cases slot <;> simp [relink, Function.comp_def]

end Slot

namespace Arena

def relink (arena : Arena α) (change : Nat → Nat → Link → Link) : Arena α :=
  { arena with slots := arena.slots.mapIdx fun index slot => slot.relink (change index) }

/-- Only the recorded predecessors of the levels below `height` change, to the link that `target`
gives for the level. -/
def redirect (path : List Nat) (height : Nat) (target : Nat → Link) : Nat → Nat → Link → Link :=
  fun index level link => if level < height ∧ path[level]? = some index then target level else link

variable {arena : Arena α}

theorem relink_getElem? (arena : Arena α) (change : Nat → Nat → Link → Link) (index : Nat) :
    (arena.relink change).slots[index]? = arena.slots[index]?.map (·.relink (change index)) := by
  simp [relink]

theorem relink_size (change : Nat → Nat → Link → Link) :
    (arena.relink change).slots.size = arena.slots.size := by
  simp [relink]

theorem relink_id : arena.relink (fun _ _ link => link) = arena := by
  have same : (arena.slots.mapIdx fun _ slot => slot.relink fun _ link => link) = arena.slots := by
    apply Array.ext_getElem?
    intro index
    simp [Slot.relink_id]
  unfold relink
  rw [same]

theorem relink_relink (f g : Nat → Nat → Link → Link) :
    (arena.relink f).relink g = arena.relink fun index level link => g index level (f index level link) := by
  simp [relink, Function.comp_def, Slot.relink_relink]

theorem tower_relink (change : Nat → Nat → Link → Link) {index : Nat} {tower : List Link}
    (h : arena.tower index = .ok tower) :
    (arena.relink change).tower index = .ok (tower.mapIdx (change index)) := by
  obtain found | ⟨generation, node, found, rfl⟩ := tower_ok h
  · have changed := relink_getElem? arena change index
    rw [found] at changed
    exact tower_of_head changed
  · have changed := relink_getElem? arena change index
    rw [found] at changed
    exact tower_of_occupied changed

theorem next_relink (change : Nat → Nat → Link → Link) {index level : Nat} {link : Link}
    (h : arena.next index level = .ok link) :
    (arena.relink change).next index level = .ok (change index level link) := by
  obtain ⟨tower, read, at_level⟩ := next_ok h
  refine next_of_tower (tower_relink change read) ?_
  rw [List.getElem?_mapIdx, at_level]
  rfl

/-! ### Writing links -/

theorem set_eq_mapIdx {tower : List Link} {level : Nat} (link : Link) (inside : level < tower.length) :
    tower.set level link = tower.mapIdx fun l kept => if l = level then link else kept := by
  apply List.ext_getElem?
  intro l
  rw [List.getElem?_set, List.getElem?_mapIdx]
  by_cases here : level = l
  · subst here
    simp [inside]
  · have elsewhere : ¬ l = level := fun same => here same.symm
    simp [here, elsewhere]

theorem setSlot_relink {index level : Nat} {slot : Slot α} (link : Link)
    (found : arena.slots[index]? = some slot) :
    arena.setSlot index (slot.relink fun l kept => if l = level then link else kept) =
      arena.relink fun i l kept => if i = index ∧ l = level then link else kept := by
  unfold setSlot relink
  congr 1
  apply Array.ext_getElem?
  intro i
  rw [Array.getElem?_setIfInBounds, Array.getElem?_mapIdx]
  by_cases here : index = i
  · subst here
    have inside : index < arena.slots.size := (Array.getElem?_eq_some_iff.mp found).1
    rw [found, if_pos rfl, if_pos inside]
    simp
  · have elsewhere : ¬ i = index := fun same => here same.symm
    simp [here, elsewhere, Slot.relink_id]

theorem setLink_eq {index level : Nat} {old : Link} (link : Link) (h : arena.next index level = .ok old) :
    arena.setLink index level link =
      .ok (arena.relink fun i l kept => if i = index ∧ l = level then link else kept) := by
  obtain ⟨tower, read, at_level⟩ := next_ok h
  have inside : level < tower.length := (List.getElem?_eq_some_iff.mp at_level).1
  simp only [setLink, read, ok_bind, inside, if_true]
  obtain found | ⟨generation, node, found, rfl⟩ := tower_ok read
  · simp only [setTower, slot_of_getElem? found, ok_bind, pure_eq_ok]
    rw [set_eq_mapIdx link inside, ← setSlot_relink link found]
    rfl
  · simp only [setTower, slot_of_getElem? found, ok_bind, pure_eq_ok]
    rw [set_eq_mapIdx link inside, ← setSlot_relink link found]
    rfl

theorem redirect_succ {path : List Nat} {level before : Nat} (target : Nat → Link)
    (recorded : path[level]? = some before) (index l : Nat) (link : Link) :
    (if index = before ∧ l = level then target level else redirect path level target index l link) =
      redirect path (level + 1) target index l link := by
  unfold redirect
  by_cases here : l = level
  · subst here
    by_cases same : index = before
    · subst same
      simp [recorded]
    · have other : ¬ before = index := fun h => same h.symm
      simp [recorded, same, other]
  · have bounds : l < level + 1 ↔ l < level := by omega
    simp [here, bounds]

theorem relink_redirect_zero (path : List Nat) (target : Nat → Link) :
    arena.relink (redirect path 0 target) = arena := by
  have same : redirect path 0 target = fun _ _ link => link := by
    funext index level link
    simp [redirect]
  rw [same, relink_id]

theorem relink_redirect_succ {path : List Nat} {level before : Nat} (target : Nat → Link)
    (recorded : path[level]? = some before) :
    ((arena.relink (redirect path level target)).relink
        fun i l kept => if i = before ∧ l = level then target level else kept) =
      arena.relink (redirect path (level + 1) target) := by
  rw [relink_relink]
  congr 1
  funext index l link
  exact redirect_succ target recorded index l link

theorem predecessor_of_getElem? {path : List Nat} {level before : Nat}
    (recorded : path[level]? = some before) : predecessor path level = .ok before := by
  simp only [predecessor, recorded]

theorem attach_eq {path : List Nat} {slot : Nat} (height : Nat)
    (linked : ∀ level < height, ∃ before link, path[level]? = some before ∧
      arena.next before level = .ok link) :
    arena.attach path slot height = .ok (arena.relink (redirect path height fun _ => some slot)) := by
  induction height with
  | zero => rw [attach, relink_redirect_zero]; rfl
  | succ level ih =>
    obtain ⟨before, link, recorded, next⟩ := linked level (Nat.lt_succ_self _)
    rw [attach, ih fun l below => linked l (Nat.lt_succ_of_lt below)]
    simp only [ok_bind, predecessor_of_getElem? recorded]
    rw [setLink_eq (some slot) (next_relink _ next)]
    exact congrArg Except.ok (relink_redirect_succ (fun _ => some slot) recorded)

theorem detach_eq {path : List Nat} {slot : Nat} {target : Nat → Link} (height : Nat)
    (linked : ∀ level < height, ∃ before, path[level]? = some before ∧ before ≠ slot ∧
      arena.next before level = .ok (some slot) ∧ arena.next slot level = .ok (target level)) :
    arena.detach path slot height = .ok (arena.relink (redirect path height target)) := by
  induction height with
  | zero => rw [detach, relink_redirect_zero]; rfl
  | succ level ih =>
    obtain ⟨before, recorded, apart, next, after⟩ := linked level (Nat.lt_succ_self _)
    have below : ∀ l < level, ∃ before, path[l]? = some before ∧ before ≠ slot ∧
        arena.next before l = .ok (some slot) ∧ arena.next slot l = .ok (target l) :=
      fun l inside => linked l (Nat.lt_succ_of_lt inside)
    -- The links of this level are still the old ones: only lower levels have changed.
    have untouched (index : Nat) (link : Link) : redirect path level target index level link = link := by
      simp [redirect]
    have next' := next_relink (redirect path level target) next
    have after' := next_relink (redirect path level target) after
    rw [untouched] at next' after'
    rw [detach, ih below]
    simp only [ok_bind, after', predecessor_of_getElem? recorded, next', if_true]
    rw [setLink_eq _ next']
    exact congrArg Except.ok (relink_redirect_succ target recorded)

/-! ### New followers

Behind `before`, the entries `old` give way to `new`. On every level the link that leads out of `before`
belongs to the slot recorded for the level, so redirecting the recorded slots is all there is to do. -/

section Followers

open Entry

variable {levels height : Nat} {before old new : List (Entry α)} {target : Nat → Link}

theorem redirect_pathTo {level : Nat} (inside : level < levels) (index : Nat) (link : Link) :
    redirect (pathTo levels before) height target index level link =
      if level < height ∧ endOn level before = index then target level else link := by
  simp [redirect, pathTo_getElem?, inside]

theorem redirect_elsewhere {index : Nat} (not_head : index ≠ headSlot)
    (not_listed : index ∉ before.map (·.slot)) :
    (arena.relink (redirect (pathTo levels before) height target)).slots[index]? = arena.slots[index]? := by
  have kept : redirect (pathTo levels before) height target index = fun _ link => link := by
    funext level link
    unfold redirect
    apply if_neg
    rintro ⟨_, recorded⟩
    rw [pathTo_getElem?] at recorded
    split at recorded
    · exact endOn_ne not_head not_listed level (Option.some.inj recorded)
    · nomatch recorded
  rw [relink_getElem?, kept]
  cases arena.slots[index]? with
  | none => rfl
  | some slot => rw [Option.map_some, Slot.relink_id]

/-- The slot has `behind` ahead of it in `before`. On a level it is recorded if `behind` has no link there,
and then its link leads out of `before`. -/
theorem redirect_tower {index tall : Nat} {behind : List (Entry α)} (short : tall ≤ levels)
    (last : ∀ level < tall, endOn level before = index ↔ ∀ e ∈ behind, ¬ level < e.height)
    (follow : ∀ level, nextOn level new = if level < height then target level else nextOn level old) :
    (towerTo tall (behind ++ old)).mapIdx (redirect (pathTo levels before) height target index) =
      towerTo tall (behind ++ new) := by
  apply towerTo_mapIdx
  intro level inside
  rw [redirect_pathTo (Nat.lt_of_lt_of_le inside short), nextOn_append, nextOn_append]
  cases here : nextOn level behind with
  | none =>
    have low := (last level inside).mpr (nextOn_eq_none_iff.mp here)
    simp only [low, and_true, Option.none_or]
    exact (follow level).symm
  | some slot =>
    have high : endOn level before ≠ index := by
      intro same
      rw [nextOn_eq_none_iff.mpr ((last level inside).mp same)] at here
      nomatch here
    simp only [high, and_false, if_false, Option.some_or]

theorem redirect_before {first rest : List (Entry α)} {e : Entry α} (split : before = first ++ e :: rest)
    (distinct : (before.map (·.slot)).Nodup) (short : e.height ≤ levels)
    (follow : ∀ level, nextOn level new = if level < height then target level else nextOn level old)
    (found : arena.slots[e.slot]? = some (.occupied e.generation (e.node (rest ++ old)))) :
    (arena.relink (redirect (pathTo levels before) height target)).slots[e.slot]? =
      some (.occupied e.generation (e.node (rest ++ new))) := by
  have links := redirect_tower short (fun _ inside => endOn_eq_slot_iff split distinct inside) follow
  rw [relink_getElem?, found]
  simp only [Option.map_some, Slot.relink, Entry.node, links]

theorem redirect_head (not_head : ∀ e ∈ before, e.slot ≠ headSlot)
    (follow : ∀ level, nextOn level new = if level < height then target level else nextOn level old)
    (found : arena.slots[headSlot]? = some (.head (towerTo levels (before ++ old)))) :
    (arena.relink (redirect (pathTo levels before) height target)).slots[headSlot]? =
      some (.head (towerTo levels (before ++ new))) := by
  have links := redirect_tower (Nat.le_refl levels) (fun level _ => endOn_eq_head_iff level not_head) follow
  rw [relink_getElem?, found]
  simp only [Option.map_some, Slot.relink, links]

theorem redirect_shows {layout : Layout α} (entries : layout.entries = before ++ new)
    (distinct : (headSlot :: layout.slots).Nodup) (short : ∀ e ∈ before, e.height ≤ levels)
    (follow : ∀ level, nextOn level new = if level < height then target level else nextOn level old)
    (found : ∀ first e rest, before = first ++ e :: rest →
      arena.slots[e.slot]? = some (.occupied e.generation (e.node (rest ++ old))))
    (rest_shown : arena.Shows { layout with entries := new }) :
    (arena.relink (redirect (pathTo levels before) height target)).Shows layout := by
  obtain ⟨head_apart, slots_apart⟩ := List.nodup_cons.mp distinct
  obtain ⟨entries_apart, _, others_apart⟩ := List.nodup_append.mp slots_apart
  rw [entries, List.map_append] at entries_apart others_apart
  obtain ⟨before_apart, _, new_apart⟩ := List.nodup_append.mp entries_apart
  have kept {slot : Nat} (listed : slot ∈ layout.slots) (not_before : slot ∉ before.map (·.slot)) :
      (arena.relink (redirect (pathTo levels before) height target)).slots[slot]? = arena.slots[slot]? :=
    redirect_elsewhere (fun same => head_apart (same ▸ listed)) not_before
  have other {slot : Nat} (listed : slot ∈ layout.vacant.map Prod.fst ++ layout.retired) :
      slot ∉ before.map (·.slot) :=
    fun present => others_apart slot (List.mem_append_left _ present) slot listed rfl
  refine { occupied := fun first e rest parts => ?_, vacant := fun first place rest parts => ?_,
           retired := fun slot member => ?_ }
  · rw [entries] at parts
    obtain ⟨rest, split, rfl⟩ | ⟨middle, _, split⟩ := append_eq_split parts
    · have member : e ∈ before := split ▸ List.mem_append_cons_self
      exact redirect_before split before_apart (short e member) follow (found first e rest split)
    · have member : e ∈ new := split ▸ List.mem_append_cons_self
      have listed : e ∈ layout.entries := entries ▸ List.mem_append_right _ member
      rw [kept (Layout.entry_mem_slots listed) fun present =>
        new_apart e.slot present e.slot (List.mem_map_of_mem member) rfl]
      exact rest_shown.occupied middle e rest split
  · have member : place ∈ layout.vacant := parts ▸ List.mem_append_cons_self
    rw [kept (Layout.vacant_mem_slots member)
      (other (List.mem_append_left _ (List.mem_map_of_mem member)))]
    exact rest_shown.vacant first place rest parts
  · rw [kept (Layout.retired_mem_slots member) (other (List.mem_append_right _ member))]
    exact rest_shown.retired slot member

end Followers

end Arena

end SkipList
