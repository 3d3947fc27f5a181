import Mathlib.Algebra.Field.Rat
import Mathlib.Data.Set.Card
import Mathlib.Tactic.FieldSimp
import SkipList.Draws.Source
import SkipList.Proofs.Heights

/-!
# Heights are geometric

Of all draws exactly half reach one level more, as each level takes another leading zero. The counts are
exact: the thresholds are the halves of the largest draw rounded down, and a draw at the threshold passes.
-/

namespace SkipList.Height

/-- The draws that give a height of at least `k` levels. -/
def reaching (bound : Height) (k : Nat) : Set UInt32 :=
  {draw | ∃ height, bound.ofDraw draw = .ok height ∧ k ≤ height.levels}

theorem ncard_lt_two_pow {n : Nat} (inside : n ≤ 32) :
    {draw : UInt32 | draw.toNat < 2 ^ n}.ncard = 2 ^ n := by
  have bound : 2 ^ n ≤ 2 ^ 32 := Nat.pow_le_pow_right (by decide) inside
  have image : UInt32.toNat '' {draw : UInt32 | draw.toNat < 2 ^ n} = (Finset.range (2 ^ n) : Set Nat) := by
    ext number
    rw [Finset.coe_range, Set.mem_Iio]
    constructor
    · rintro ⟨draw, less, rfl⟩
      exact less
    · intro less
      have same : (UInt32.ofNat number).toNat = number :=
        UInt32.toNat_ofNat_of_lt' (Nat.lt_of_lt_of_le less bound)
      exact ⟨UInt32.ofNat number, by rw [Set.mem_ofPred_eq, same]; exact less, same⟩
  have injective : Function.Injective UInt32.toNat := fun _ _ => UInt32.toNat_inj.mp
  rw [← Set.ncard_image_of_injective _ injective, image, Set.ncard_coe_finset, Finset.card_range]

theorem reaching_eq (bound : Height) {k : Nat} (low : 1 ≤ k) (high : k ≤ bound.levels) :
    bound.reaching k = {draw : UInt32 | draw.toNat < 2 ^ (33 - k)} := by
  have greatest := bound.le_max
  ext draw
  obtain ⟨height, drawn, levels⟩ := bound.ofDraw_eq draw
  have zeros := le_leadingZeros_iff draw (show k - 1 ≤ 32 by omega)
  rw [show 32 - (k - 1) = 33 - k by omega] at zeros
  rw [Set.mem_ofPred_eq, ← zeros]
  constructor
  · rintro ⟨_, same, reached⟩
    obtain rfl := Except.ok.inj (drawn.symm.trans same)
    omega
  · intro reached
    exact ⟨height, drawn, by omega⟩

theorem ncard_reaching (bound : Height) {k : Nat} (low : 1 ≤ k) (high : k ≤ bound.levels) :
    (bound.reaching k).ncard = 2 ^ (33 - k) := by
  rw [bound.reaching_eq low high]
  exact ncard_lt_two_pow (by omega)

theorem ncard_univ : (Set.univ : Set UInt32).ncard = 2 ^ 32 := by
  rw [← ncard_lt_two_pow (Nat.le_refl 32)]
  congr 1
  ext draw
  simp [draw.toNat_lt]

theorem leadingZeros_antitone {draw draw' : UInt32} (less : draw' ≤ draw) :
    leadingZeros draw ≤ leadingZeros draw' := by
  have inside : leadingZeros draw ≤ 32 := BitVec.clz_le
  rw [le_leadingZeros_iff draw' inside]
  exact Nat.lt_of_le_of_lt (UInt32.le_iff_toNat_le.mp less) ((le_leadingZeros_iff draw inside).mp (Nat.le_refl _))

/-- Heights are exactly geometric. The thresholds are the largest draw divided by the powers of two and
rounded down; one draw is taken, and it gives one level more than its leading zeros, up to the bound. So of
all draws exactly one in `2 ^ (k - 1)` gives a height of at least `k`, and neither a smaller draw nor a
larger bound gives a smaller height. -/
theorem random_geometric {σ : Type} [DrawSource σ] (bound : Height) :
    (∀ level < 31, thresholds[level]?.map UInt32.toNat = some ((2 ^ 32 - 1) / 2 ^ level)) ∧
    (∀ draw, ∃ height, bound.ofDraw draw = .ok height ∧
      height.levels = min bound.levels (1 + draw.toBitVec.clz.toNat) ∧
      ∀ source rest : σ, DrawSource.next source = (draw, rest) →
        bound.random source = .ok (height, rest)) ∧
    (∀ k, 1 ≤ k → k ≤ bound.levels → (bound.reaching k).ncard = 2 ^ (33 - k) ∧
      ((bound.reaching k).ncard : ℚ) / (Set.univ : Set UInt32).ncard = 1 / 2 ^ (k - 1)) ∧
    ∀ (bound' : Height) (draw draw' : UInt32) (height height' : Height), bound.levels ≤ bound'.levels →
      draw' ≤ draw → bound.ofDraw draw = .ok height → bound'.ofDraw draw' = .ok height' →
        height.levels ≤ height'.levels := by
  refine ⟨fun level inside => ?_, fun draw => ?_, fun k low high => ?_,
    fun bound' draw draw' height height' wider less drawn drawn' => ?_⟩
  · obtain ⟨threshold, found, exact⟩ := threshold_exists inside
    rw [found, Option.map_some, exact]
  · obtain ⟨height, drawn, levels⟩ := bound.ofDraw_eq draw
    refine ⟨height, drawn, levels, fun source rest next => ?_⟩
    simp only [random, next, drawn, ok_bind, pure_eq_ok]
  · have count := bound.ncard_reaching low high
    have greatest := bound.le_max
    have parts : (2 : ℚ) ^ 32 = 2 ^ (33 - k) * 2 ^ (k - 1) := by
      rw [← pow_add]
      congr 1
      omega
    refine ⟨count, ?_⟩
    rw [count, ncard_univ, Nat.cast_pow, Nat.cast_pow, Nat.cast_ofNat, parts]
    field_simp
  · obtain ⟨_, same, levels⟩ := bound.ofDraw_eq draw
    obtain rfl := Except.ok.inj (drawn.symm.trans same)
    obtain ⟨_, same', levels'⟩ := bound'.ofDraw_eq draw'
    obtain rfl := Except.ok.inj (drawn'.symm.trans same')
    have zeros := leadingZeros_antitone less
    omega

/-- A quarter of all draws gives three levels or more, and a draw at a threshold is one level higher than
the next draw. -/
theorem random_geometric_quarter :
    1 ≤ 3 ∧ 3 ≤ standard.levels ∧ (standard.reaching 3).ncard = 2 ^ 30 ∧
      ((standard.reaching 3).ncard : ℚ) / (Set.univ : Set UInt32).ncard = 1 / 2 ^ 2 ∧
      (0x1FFFFFFF : UInt32) ≤ 0x20000000 ∧ standard.levels ≤ greatest.levels ∧
      ∃ low high : Height, standard.ofDraw 0x20000000 = .ok low ∧ low.levels = 3 ∧
        greatest.random ({ values := [0x1FFFFFFF] } : Script) =
          .ok (high, { values := [0x1FFFFFFF], used := 1 }) ∧
        high.levels = 4 ∧ low.levels ≤ high.levels := by
  obtain ⟨_, draws, counts, ordered⟩ := @random_geometric Script _ standard
  obtain ⟨_, draws', _⟩ := @random_geometric Script _ greatest
  obtain ⟨count, share⟩ := counts 3 (by decide) (by decide)
  obtain ⟨low, drawn, levels, _⟩ := draws 0x20000000
  obtain ⟨high, drawn', levels', taken⟩ := draws' 0x1FFFFFFF
  exact ⟨by decide, by decide, count, share, by decide, by decide, low, high, drawn, levels, taken _ _ rfl,
    levels', ordered greatest _ _ low high (by decide) (by decide) drawn drawn'⟩

end SkipList.Height
