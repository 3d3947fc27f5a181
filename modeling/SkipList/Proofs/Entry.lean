import SkipList.Arena

/-!
# Entries

The entries of a map, in the order of level 0 and with the height of each, determine every link: on
each level a link leads to the next entry that is tall enough. This module defines the links that a
list of entries lays down, forwards (`nextOn`, `towerTo`) and backwards (`endOn`).
-/

namespace SkipList

/-- An entry of a map and the place where it is kept. -/
structure Entry (α : Type) where
  slot : Nat
  generation : Nat
  height : Nat
  key : Key
  value : α

namespace Entry

variable {α : Type}

def id (e : Entry α) : NodeId := ⟨e.slot, e.generation⟩

/-- The link of `level` that leads into `entries`. -/
def nextOn (level : Nat) (entries : List (Entry α)) : Link :=
  (entries.find? (level < ·.height)).map slot

def towerTo (height : Nat) (entries : List (Entry α)) : List Link :=
  (List.range height).map (nextOn · entries)

def node (e : Entry α) (after : List (Entry α)) : Node α :=
  { key := e.key, value := e.value, tower := towerTo e.height after }

/-- The last slot of `entries` on `level`, which is the head if none is tall enough. -/
def endOn (level : Nat) (entries : List (Entry α)) : Nat :=
  entries.foldl (fun last e => if level < e.height then e.slot else last) Arena.headSlot

/-- The last slot on each level below `levels`, the lowest level first. -/
def pathTo (levels : Nat) (entries : List (Entry α)) : List Nat :=
  (List.range levels).map (endOn · entries)

/-! ### Following links -/

@[simp] theorem nextOn_nil (level : Nat) : nextOn level ([] : List (Entry α)) = none := rfl

theorem nextOn_cons (level : Nat) (e : Entry α) (entries : List (Entry α)) :
    nextOn level (e :: entries) = if level < e.height then some e.slot else nextOn level entries := by
  unfold nextOn
  rw [List.find?_cons]
  by_cases tall : level < e.height <;> simp [tall]

theorem nextOn_append (level : Nat) (before after : List (Entry α)) :
    nextOn level (before ++ after) = (nextOn level before).or (nextOn level after) := by
  unfold nextOn
  rw [List.find?_append, Option.map_or]

theorem nextOn_eq_none_iff {level : Nat} {entries : List (Entry α)} :
    nextOn level entries = none ↔ ∀ e ∈ entries, ¬ level < e.height := by
  simp [nextOn, List.find?_eq_none]

theorem nextOn_zero {entries : List (Entry α)} (tall : ∀ e ∈ entries, 1 ≤ e.height) :
    nextOn 0 entries = entries.head?.map slot := by
  cases entries with
  | nil => rfl
  | cons e rest =>
    have high : 0 < e.height := tall e List.mem_cons_self
    rw [nextOn_cons, if_pos high]
    rfl

@[simp] theorem towerTo_length (height : Nat) (entries : List (Entry α)) :
    (towerTo height entries).length = height := by
  simp [towerTo]

theorem towerTo_getElem? (height level : Nat) (entries : List (Entry α)) :
    (towerTo height entries)[level]? = if level < height then some (nextOn level entries) else none := by
  by_cases inside : level < height <;> simp [towerTo, inside]

theorem towerTo_nil (height : Nat) : towerTo height ([] : List (Entry α)) = List.replicate height none := by
  apply List.ext_getElem?
  intro level
  rw [towerTo_getElem?, List.getElem?_replicate]
  rfl

theorem towerTo_mapIdx {height : Nat} {old new : List (Entry α)} {change : Nat → Link → Link}
    (follow : ∀ level < height, change level (nextOn level old) = nextOn level new) :
    (towerTo height old).mapIdx change = towerTo height new := by
  apply List.ext_getElem?
  intro level
  rw [List.getElem?_mapIdx, towerTo_getElem?, towerTo_getElem?]
  by_cases inside : level < height
  · simp [inside, follow level inside]
  · simp [inside]

theorem towerTo_value (height : Nat) (before : List (Entry α)) (e : Entry α) (after : List (Entry α))
    (value : α) :
    towerTo height (before ++ { e with value } :: after) = towerTo height (before ++ e :: after) := by
  unfold towerTo
  congr 1
  funext level
  rw [nextOn_append, nextOn_append, nextOn_cons, nextOn_cons]

@[simp] theorem node_height (e : Entry α) (after : List (Entry α)) : (e.node after).height = e.height :=
  towerTo_length _ _

/-! ### Following links backwards -/

@[simp] theorem endOn_nil (level : Nat) : endOn level ([] : List (Entry α)) = Arena.headSlot := rfl

theorem endOn_concat (level : Nat) (entries : List (Entry α)) (e : Entry α) :
    endOn level (entries ++ [e]) = if level < e.height then e.slot else endOn level entries := by
  simp [endOn]

theorem endOn_append_low {level : Nat} {after : List (Entry α)} (before : List (Entry α))
    (low : ∀ e ∈ after, ¬ level < e.height) : endOn level (before ++ after) = endOn level before := by
  induction after generalizing before with
  | nil => rw [List.append_nil]
  | cons e rest ih =>
    have here : ¬ level < e.height := low e List.mem_cons_self
    rw [List.append_cons, ih _ (fun x hx => low x (List.mem_cons_of_mem _ hx)), endOn_concat, if_neg here]

theorem endOn_cases (level : Nat) (entries : List (Entry α)) :
    (endOn level entries = Arena.headSlot ∧ ∀ e ∈ entries, ¬ level < e.height) ∨
    ∃ before e after, entries = before ++ e :: after ∧ level < e.height ∧
      (∀ x ∈ after, ¬ level < x.height) ∧ endOn level entries = e.slot := by
  cases found : entries.reverse.find? (level < ·.height) with
  | none =>
    have low : ∀ e ∈ entries, ¬ level < e.height := by
      simpa using List.find?_eq_none.mp found
    exact Or.inl ⟨endOn_append_low [] low, low⟩
  | some e =>
    obtain ⟨tall, after, before, split, low⟩ := List.find?_eq_some_iff_append.mp found
    have tall : level < e.height := by simpa using tall
    have low : ∀ x ∈ after.reverse, ¬ level < x.height := by simpa using low
    have parts : entries = before.reverse ++ e :: after.reverse := by
      simpa using congrArg List.reverse split
    refine Or.inr ⟨before.reverse, e, after.reverse, parts, tall, low, ?_⟩
    rw [parts, List.append_cons, endOn_append_low _ low, endOn_concat, if_pos tall]

theorem endOn_ne {slot : Nat} {entries : List (Entry α)} (not_head : slot ≠ Arena.headSlot)
    (not_listed : slot ∉ entries.map (·.slot)) (level : Nat) : endOn level entries ≠ slot := by
  rintro rfl
  obtain ⟨head, _⟩ | ⟨before, e, after, rfl, _, _, here⟩ := endOn_cases level entries
  · exact not_head head
  · exact not_listed (here ▸ List.mem_map_of_mem List.mem_append_cons_self)

theorem endOn_split {level : Nat} {e : Entry α} {after : List (Entry α)} (before : List (Entry α))
    (tall : level < e.height) (low : ∀ x ∈ after, ¬ level < x.height) :
    endOn level (before ++ e :: after) = e.slot := by
  rw [List.append_cons, endOn_append_low _ low, endOn_concat, if_pos tall]

theorem endOn_append_tall {level : Nat} {x : Entry α} {after : List (Entry α)} (before : List (Entry α))
    (member : x ∈ after) (tall : level < x.height) :
    ∃ y ∈ after, endOn level (before ++ after) = y.slot := by
  obtain ⟨_, low⟩ | ⟨first, y, rest, rfl, high, low, _⟩ := endOn_cases level after
  · exact absurd tall (low x member)
  · refine ⟨y, List.mem_append_cons_self, ?_⟩
    rw [← List.append_assoc]
    exact endOn_split _ high low

theorem endOn_eq_head_iff (level : Nat) {entries : List (Entry α)}
    (not_head : ∀ e ∈ entries, e.slot ≠ Arena.headSlot) :
    endOn level entries = Arena.headSlot ↔ ∀ e ∈ entries, ¬ level < e.height := by
  obtain ⟨head, low⟩ | ⟨before, e, after, rfl, tall, _, here⟩ := endOn_cases level entries
  · exact ⟨fun _ => low, fun _ => head⟩
  · have member : e ∈ before ++ e :: after := List.mem_append_cons_self
    exact ⟨fun head => absurd (here.symm.trans head) (not_head e member),
      fun low => absurd tall (low e member)⟩

theorem endOn_eq_slot_iff {level : Nat} {entries before after : List (Entry α)} {e : Entry α}
    (split : entries = before ++ e :: after) (distinct : (entries.map (·.slot)).Nodup)
    (tall : level < e.height) : endOn level entries = e.slot ↔ ∀ x ∈ after, ¬ level < x.height := by
  subst split
  constructor
  · intro here x member high
    obtain ⟨y, present, last⟩ := endOn_append_tall (before ++ [e]) member high
    rw [← List.append_cons, here] at last
    rw [List.map_append, List.map_cons] at distinct
    have apart := (List.nodup_cons.mp (List.nodup_append.mp distinct).2.1).1
    exact apart (last ▸ List.mem_map_of_mem present)
  · exact endOn_split before tall

theorem endOn_of_getLast? {high low : Nat} {entries : List (Entry α)}
    (stands : ∀ e ∈ entries.getLast?, high < e.height) (below : low ≤ high) :
    endOn low entries = endOn high entries := by
  cases last : entries.getLast? with
  | none => rw [List.getLast?_eq_none_iff.mp last, endOn_nil, endOn_nil]
  | some e =>
    obtain ⟨before, rfl⟩ := List.getLast?_eq_some_iff.mp last
    have tall : high < e.height := stands e last
    rw [endOn_concat, endOn_concat, if_pos tall, if_pos (Nat.lt_of_le_of_lt below tall)]

theorem pathTo_succ (level : Nat) (entries : List (Entry α)) :
    pathTo (level + 1) entries = pathTo level entries ++ [endOn level entries] := by
  simp [pathTo, List.range_succ]

theorem pathTo_getElem? (levels level : Nat) (entries : List (Entry α)) :
    (pathTo levels entries)[level]? = if level < levels then some (endOn level entries) else none := by
  by_cases inside : level < levels <;> simp [pathTo, inside]

/-! ### Cutting lists -/

theorem mem_split {before after : List (Entry α)} {x e : Entry α} :
    x ∈ before ++ e :: after ↔ x = e ∨ x ∈ before ++ after :=
  List.perm_middle.mem_iff.trans List.mem_cons

theorem append_eq_split {γ : Type} {first second before after : List γ} {e : γ}
    (same : first ++ second = before ++ e :: after) :
    (∃ rest, first = before ++ e :: rest ∧ after = rest ++ second) ∨
    (∃ rest, before = first ++ rest ∧ second = rest ++ e :: after) := by
  obtain ⟨rest, hb, hs⟩ | ⟨rest, hf, hs⟩ := List.append_eq_append_iff.mp same
  · exact Or.inr ⟨rest, hb, hs⟩
  · cases rest with
    | nil => exact Or.inr ⟨[], by simpa using hf.symm, by simpa using hs.symm⟩
    | cons x rest =>
      obtain ⟨rfl, rfl⟩ := List.cons.inj hs
      exact Or.inl ⟨rest, hf, rfl⟩

theorem append_cons_eq_split {γ : Type} {first second before after : List γ} {x e : γ}
    (same : first ++ x :: second = before ++ e :: after) :
    (∃ rest, first = before ++ e :: rest ∧ after = rest ++ x :: second) ∨
    (before = first ∧ e = x ∧ after = second) ∨
    (∃ rest, before = first ++ x :: rest ∧ second = rest ++ e :: after) := by
  obtain left | ⟨rest, hb, hs⟩ := append_eq_split same
  · exact Or.inl left
  · cases rest with
    | nil =>
      obtain ⟨rfl, rfl⟩ := List.cons.inj hs
      exact Or.inr (Or.inl ⟨by simpa using hb, rfl, rfl⟩)
    | cons y rest =>
      obtain ⟨rfl, rfl⟩ := List.cons.inj hs
      exact Or.inr (Or.inr ⟨rest, hb, rfl⟩)

theorem map_of_views {β : Type} {view view' : Entry α → Entry α} {first second : List (Entry α)}
    {read : Entry α → β} (same : second.map view' = first.map view)
    (blind : ∀ e, read (view e) = read e) (blind' : ∀ e, read (view' e) = read e) :
    second.map read = first.map read := by
  have shown := congrArg (List.map read) same
  simpa only [List.map_map, Function.comp_def, blind, blind'] using shown

end Entry

end SkipList
