import Mathlib.Data.List.TakeWhile
import SkipList.KeyOrder.Catalogue
import SkipList.Map

/-!
# Listings

A listing is the reference for a map: the list of its entries, kept strictly increasing under a total
preorder. Its operations are those of lists; nothing here knows of levels or slots.
-/

namespace SkipList

variable {α : Type}

abbrev Listing (α : Type) := List (Key × α)

namespace Listing

variable (order : KeyOrder) (key : Key)

def Sorted (entries : Listing α) : Prop :=
  (entries.map Prod.fst).Pairwise (order.compare · · = .lt)

def lookup (entries : Listing α) : Option (Key × α) :=
  entries.find? (order.compare ·.1 key = .eq)

/-- Changes the value of the entry with that key; its stored key stays. -/
def replace (change : α → α) (entries : Listing α) : Listing α :=
  entries.map fun (stored, value) =>
    if order.compare stored key = .eq then (stored, change value) else (stored, value)

/-- Puts a value under a key: in the place of the old value, or behind all smaller keys. -/
def insert (value : α) (entries : Listing α) : Listing α × Insertion α :=
  match lookup order key entries with
  | some (_, previous) => (replace order key (fun _ => value) entries, .updated previous)
  | none =>
    (entries.takeWhile (order.compare ·.1 key = .lt) ++
      (key, value) :: entries.dropWhile (order.compare ·.1 key = .lt), .inserted)

def remove (entries : Listing α) : Listing α × Removal α :=
  match lookup order key entries with
  | some (_, value) => (entries.eraseP (order.compare ·.1 key = .eq), .removed value)
  | none => (entries, .notFound)

end Listing

/-! ### Total preorders -/

namespace KeyOrder.IsTotalPreorder

variable {order : KeyOrder} {size : Nat} {a b c : Key}

theorem gt_iff (lawful : order.IsTotalPreorder size) (ha : a.length = size) (hb : b.length = size) :
    order.compare a b = .gt ↔ order.compare b a = .lt := by
  rw [lawful.swap a b ha hb]
  cases order.compare a b <;> simp

theorem eq_comm (lawful : order.IsTotalPreorder size) (ha : a.length = size) (hb : b.length = size)
    (equal : order.compare a b = .eq) : order.compare b a = .eq := by
  rw [lawful.swap a b ha hb, equal]
  rfl

theorem lt_of_lt_of_le (lawful : order.IsTotalPreorder size) (ha : a.length = size)
    (hb : b.length = size) (hc : c.length = size) (less : order.compare a b = .lt)
    (le : order.compare b c ≠ .gt) : order.compare a c = .lt := by
  have reach := lawful.trans a b c ha hb hc (by simp [less]) le
  cases answer : order.compare a c with
  | lt => rfl
  | gt => exact absurd answer reach
  | eq =>
    have back := lawful.trans b c a hb hc ha le (by simp [lawful.eq_comm ha hc answer])
    exact absurd ((lawful.gt_iff hb ha).mpr less) back

theorem lt_of_le_of_lt (lawful : order.IsTotalPreorder size) (ha : a.length = size)
    (hb : b.length = size) (hc : c.length = size) (le : order.compare a b ≠ .gt)
    (less : order.compare b c = .lt) : order.compare a c = .lt := by
  have reach := lawful.trans a b c ha hb hc le (by simp [less])
  cases answer : order.compare a c with
  | lt => rfl
  | gt => exact absurd answer reach
  | eq =>
    have back := lawful.trans c a b hc ha hb (by simp [lawful.eq_comm ha hc answer]) le
    exact absurd ((lawful.gt_iff hc hb).mpr less) back

end KeyOrder.IsTotalPreorder

theorem KeyOrder.isTotalPreorder_of_trans (order : KeyOrder) [Std.TransCmp order.compare] (size : Nat) :
    order.IsTotalPreorder size where
  refl _ _ := Std.ReflCmp.compare_self
  swap _ _ _ _ := Std.OrientedCmp.eq_swap
  trans _ _ _ _ _ _ less more := by
    have reach := Std.TransCmp.isLE_trans (Ordering.isLE_iff_ne_gt.mpr less) (Ordering.isLE_iff_ne_gt.mpr more)
    exact Ordering.isLE_iff_ne_gt.mp reach

/-- Comparing keys by a number that they show is a total preorder, however many keys show the same. -/
theorem KeyOrder.isTotalPreorder_on (label : String) (view : Key → Nat) (size : Nat) :
    (KeyOrder.on label view).IsTotalPreorder size :=
  haveI : Std.TransCmp (KeyOrder.on label view).compare :=
    inferInstanceAs (Std.TransCmp (compareOn view))
  isTotalPreorder_of_trans _ _

theorem KeyOrder.isTotalPreorder_ascend (size : Nat) : KeyOrder.ascend.IsTotalPreorder size :=
  haveI : Std.TransCmp KeyOrder.ascend.compare :=
    inferInstanceAs (Std.TransCmp (List.compareLex (Ord.compare (α := UInt8))))
  isTotalPreorder_of_trans _ _

namespace Listing

/-! ### The place of a key -/

structure Around (order : KeyOrder) (key : Key) (before after : Listing α) : Prop where
  below : ∀ p ∈ before, order.compare p.1 key = .lt
  above : ∀ p ∈ after, order.compare p.1 key = .gt

variable {order : KeyOrder} {key : Key} {size : Nat} {before after : Listing α}

theorem sorted_append {first second : Listing α} : Sorted order (first ++ second) ↔
    Sorted order first ∧ Sorted order second ∧
      ∀ p ∈ first, ∀ q ∈ second, order.compare p.1 q.1 = .lt := by
  unfold Sorted
  rw [List.map_append, List.pairwise_append]
  simp only [List.mem_map, forall_exists_index, and_imp, forall_apply_eq_imp_iff₂]

theorem sorted_cons {p : Key × α} {rest : Listing α} : Sorted order (p :: rest) ↔
    (∀ q ∈ rest, order.compare p.1 q.1 = .lt) ∧ Sorted order rest := by
  unfold Sorted
  rw [List.map_cons, List.pairwise_cons]
  simp only [List.mem_map, forall_exists_index, and_imp, forall_apply_eq_imp_iff₂]

theorem around_of_equal (lawful : order.IsTotalPreorder size) (fit : key.length = size)
    {p : Key × α} (fits : ∀ q ∈ before ++ p :: after, q.1.length = size)
    (sorted : Sorted order (before ++ p :: after)) (equal : order.compare p.1 key = .eq) :
    Around order key before after := by
  obtain ⟨_, rest, below⟩ := sorted_append.mp sorted
  obtain ⟨above, _⟩ := sorted_cons.mp rest
  have fit_p : p.1.length = size := fits p (by simp)
  refine { below := fun q member => ?_, above := fun q member => ?_ }
  · exact lawful.lt_of_lt_of_le (fits q (by simp [member])) fit_p fit (below q member p (by simp))
      (by simp [equal])
  · have fit_q : q.1.length = size := fits q (by simp [member])
    rw [lawful.gt_iff fit_q fit]
    exact lawful.lt_of_le_of_lt fit fit_p fit_q (by simp [lawful.eq_comm fit_p fit equal])
      (above q member)

theorem around_of_ends (lawful : order.IsTotalPreorder size) (fit : key.length = size)
    (fits : ∀ q ∈ before ++ after, q.1.length = size) (sorted : Sorted order (before ++ after))
    (last : ∀ p ∈ before.getLast?, order.compare p.1 key = .lt)
    (first : ∀ p ∈ after.head?, order.compare p.1 key = .gt) : Around order key before after := by
  obtain ⟨sorted_before, sorted_after, _⟩ := sorted_append.mp sorted
  refine { below := fun q member => ?_, above := fun q member => ?_ }
  · cases final : before.getLast? with
    | none => rw [List.getLast?_eq_none_iff.mp final] at member; nomatch member
    | some p =>
      have less := last p final
      obtain ⟨init, rfl⟩ := List.getLast?_eq_some_iff.mp final
      rcases List.mem_append.mp member with inner | final
      · have under := (sorted_append.mp sorted_before).2.2 q inner p (by simp)
        exact lawful.lt_of_lt_of_le (fits q (by simp [inner])) (fits p (by simp)) fit under (by simp [less])
      · rw [List.mem_singleton.mp final]
        exact less
  · cases after with
    | nil => nomatch member
    | cons p rest =>
      have greater := first p rfl
      rcases List.mem_cons.mp member with rfl | later
      · exact greater
      · have fit_p : p.1.length = size := fits p (by simp)
        have fit_q : q.1.length = size := fits q (by simp [later])
        have higher := (sorted_cons.mp sorted_after).1 q later
        rw [lawful.gt_iff fit_q fit]
        rw [lawful.gt_iff fit_p fit] at greater
        exact lawful.lt_of_lt_of_le fit fit_p fit_q greater (by simp [higher])

theorem place_cases (lawful : order.IsTotalPreorder size) (fit : key.length = size) {entries : Listing α}
    (fits : ∀ q ∈ entries, q.1.length = size) (sorted : Sorted order entries) :
    (∃ before p after, entries = before ++ p :: after ∧ order.compare p.1 key = .eq ∧
      Around order key before after) ∨
    ∃ before after, entries = before ++ after ∧ Around order key before after := by
  by_cases found : ∃ p ∈ entries, order.compare p.1 key = .eq
  · obtain ⟨p, member, equal⟩ := found
    obtain ⟨before, after, rfl⟩ := List.append_of_mem member
    exact .inl ⟨before, p, after, rfl, equal, around_of_equal lawful fit fits sorted equal⟩
  · have whole : entries.takeWhile (order.compare ·.1 key = .lt) ++
        entries.dropWhile (order.compare ·.1 key = .lt) = entries := List.takeWhile_append_dropWhile
    rw [← whole] at fits sorted
    refine .inr ⟨_, _, whole.symm, around_of_ends lawful fit fits sorted (fun p last => ?_) fun p first => ?_⟩
    · simpa using List.mem_takeWhile_imp (List.mem_of_getLast? last)
    · have not_less : order.compare p.1 key ≠ .lt := by
        have stopped := List.head?_dropWhile_not (order.compare ·.1 key = .lt) entries
        rw [first] at stopped
        simpa using stopped
      have not_equal : order.compare p.1 key ≠ .eq := fun equal =>
        found ⟨p, whole ▸ List.mem_append_right _ (List.mem_of_mem_head? first), equal⟩
      cases answer : order.compare p.1 key with
      | lt => exact absurd answer not_less
      | eq => exact absurd answer not_equal
      | gt => rfl

/-! ### The operations at the place of a key -/

theorem replace_append (change : α → α) (first second : Listing α) :
    replace order key change (first ++ second) =
      replace order key change first ++ replace order key change second :=
  List.map_append

theorem replace_cons (change : α → α) (p : Key × α) (rest : Listing α) :
    replace order key change (p :: rest) =
      (if order.compare p.1 key = .eq then (p.1, change p.2) else p) :: replace order key change rest :=
  rfl

theorem replace_of_ne {entries : Listing α} (change : α → α)
    (apart : ∀ p ∈ entries, order.compare p.1 key ≠ .eq) : replace order key change entries = entries := by
  induction entries with
  | nil => rfl
  | cons p rest ih =>
    rw [replace_cons, if_neg (apart p List.mem_cons_self),
      ih fun q later => apart q (List.mem_cons_of_mem _ later)]

namespace Around

variable {p : Key × α}

theorem lookup_found (around : Around order key before after) (equal : order.compare p.1 key = .eq) :
    lookup order key (before ++ p :: after) = some p := by
  unfold lookup
  have skipped : before.find? (order.compare ·.1 key = .eq) = none := by
    rw [List.find?_eq_none]
    intro q member
    simp [around.below q member]
  rw [List.find?_append, skipped, Option.none_or, List.find?_cons_of_pos (by simpa using equal)]

theorem lookup_missing (around : Around order key before after) :
    lookup order key (before ++ after) = none := by
  unfold lookup
  rw [List.find?_eq_none]
  intro q member
  rcases List.mem_append.mp member with left | right
  · simp [around.below q left]
  · simp [around.above q right]

theorem replace_missing (around : Around order key before after) (change : α → α) :
    replace order key change (before ++ after) = before ++ after :=
  replace_of_ne change fun q member => by
    rcases List.mem_append.mp member with left | right
    · simp [around.below q left]
    · simp [around.above q right]

theorem replace_found (around : Around order key before after) (equal : order.compare p.1 key = .eq)
    (change : α → α) :
    replace order key change (before ++ p :: after) = before ++ (p.1, change p.2) :: after := by
  have unchanged_before : replace order key change before = before :=
    replace_of_ne change fun q member => by simp [around.below q member]
  have unchanged_after : replace order key change after = after :=
    replace_of_ne change fun q member => by simp [around.above q member]
  rw [replace_append, unchanged_before, replace_cons, unchanged_after, if_pos equal]

theorem insert_found (around : Around order key before after) (equal : order.compare p.1 key = .eq)
    (value : α) : insert order key value (before ++ p :: after) =
      (before ++ (p.1, value) :: after, .updated p.2) := by
  unfold insert
  rw [around.lookup_found equal, around.replace_found equal]

theorem insert_missing (around : Around order key before after) (value : α) :
    insert order key value (before ++ after) = (before ++ (key, value) :: after, .inserted) := by
  have stop : after.takeWhile (order.compare ·.1 key = .lt) = [] ∧
      after.dropWhile (order.compare ·.1 key = .lt) = after := by
    cases after with
    | nil => exact ⟨rfl, rfl⟩
    | cons q rest =>
      have greater := around.above q List.mem_cons_self
      exact ⟨List.takeWhile_cons_of_neg (by simp [greater]), List.dropWhile_cons_of_neg (by simp [greater])⟩
  have all : ∀ q ∈ before, decide (order.compare q.1 key = .lt) = true := fun q member => by
    simp [around.below q member]
  unfold insert
  rw [around.lookup_missing, List.takeWhile_append_of_pos all, List.dropWhile_append_of_pos all, stop.1,
    stop.2, List.append_nil]

theorem remove_found (around : Around order key before after) (equal : order.compare p.1 key = .eq) :
    remove order key (before ++ p :: after) = (before ++ after, .removed p.2) := by
  have apart : ∀ q ∈ before, ¬ decide (order.compare q.1 key = .eq) = true := fun q member => by
    simp [around.below q member]
  unfold remove
  rw [around.lookup_found equal, List.eraseP_append_right _ apart, List.eraseP_cons_of_pos (by simpa using equal)]

theorem remove_missing (around : Around order key before after) :
    remove order key (before ++ after) = (before ++ after, .notFound) := by
  unfold remove
  rw [around.lookup_missing]

end Around

/-! ### The order is kept -/

theorem replace_keys (order : KeyOrder) (key : Key) (change : α → α) (entries : Listing α) :
    (replace order key change entries).map Prod.fst = entries.map Prod.fst := by
  unfold replace
  rw [List.map_map]
  apply List.map_congr_left
  intro p _
  simp only [Function.comp_apply]
  split <;> rfl

theorem insert_sorted (lawful : order.IsTotalPreorder size) (fit : key.length = size) (value : α)
    {entries : Listing α} (fits : ∀ q ∈ entries, q.1.length = size) (sorted : Sorted order entries) :
    Sorted order (insert order key value entries).1 := by
  rcases place_cases lawful fit fits sorted with
    ⟨before, p, after, rfl, equal, around⟩ | ⟨before, after, rfl, around⟩
  · rw [around.insert_found equal]
    simpa only [Sorted, List.map_append, List.map_cons] using sorted
  · rw [around.insert_missing]
    obtain ⟨low, high, between⟩ := sorted_append.mp sorted
    refine sorted_append.mpr ⟨low, sorted_cons.mpr ⟨fun q member => ?_, high⟩, fun p left q right => ?_⟩
    · exact (lawful.gt_iff (fits q (List.mem_append_right _ member)) fit).mp (around.above q member)
    · rcases List.mem_cons.mp right with rfl | right
      · exact around.below p left
      · exact between p left q right

theorem remove_sorted {entries : Listing α} (sorted : Sorted order entries) :
    Sorted order (remove order key entries).1 := by
  unfold remove
  split
  · exact List.Pairwise.sublist (List.eraseP_sublist.map Prod.fst) sorted
  · exact sorted

end Listing

end SkipList
