import Mathlib.Algebra.Group.Nat.Defs
import SkipList.Height
import SkipList.Proofs.Layout

/-!
# Drawn heights

A draw is as high as its leading zeros take it: each threshold asks for one zero more than the one below
it. So drawing a height never fails, as a climb within the largest height only asks for levels that have a
threshold.
-/

namespace SkipList.Height

def leadingZeros (draw : UInt32) : Nat := draw.toBitVec.clz.toNat

theorem threshold_exists {level : Nat} (inside : level < 31) :
    ∃ threshold, thresholds[level]? = some threshold ∧ threshold.toNat = (2 ^ 32 - 1) / 2 ^ level := by
  refine ⟨UInt32.ofNat (0xFFFFFFFF >>> level), by simp [thresholds, inside], ?_⟩
  have small : 0xFFFFFFFF / 2 ^ level < UInt32.size :=
    Nat.lt_of_le_of_lt (Nat.div_le_self _ _) (by decide)
  rw [Nat.shiftRight_eq_div_pow]
  exact UInt32.toNat_ofNat_of_lt' small

theorem le_leadingZeros_iff (draw : UInt32) {n : Nat} (inside : n ≤ 32) :
    n ≤ leadingZeros draw ↔ draw.toNat < 2 ^ (32 - n) := by
  have below : draw.toNat < 2 ^ (32 - leadingZeros draw) := BitVec.toNat_lt_two_pow_sub_clz
  refine ⟨fun zeros => Nat.lt_of_lt_of_le below (Nat.pow_le_pow_right (by decide) (by omega)), fun less => ?_⟩
  by_cases zero : draw.toBitVec = 0#32
  · have all : leadingZeros draw = 32 := by
      rw [leadingZeros, BitVec.clz_eq_iff_eq_zero.mpr zero]
      rfl
    omega
  · have above : 2 ^ (31 - leadingZeros draw) ≤ draw.toNat :=
      BitVec.two_pow_sub_clz_le_toNat_of_ne_zero (by decide) zero
    have fewer := (Nat.pow_lt_pow_iff_right (by decide)).mp (Nat.lt_of_le_of_lt above less)
    omega

theorem le_threshold_iff (draw : UInt32) {threshold : UInt32} {level : Nat} (inside : level < 31)
    (exact : threshold.toNat = (2 ^ 32 - 1) / 2 ^ level) :
    draw ≤ threshold ↔ level ≤ leadingZeros draw := by
  have whole : 2 ^ 32 = 2 ^ (32 - level) * 2 ^ level := by
    rw [← Nat.pow_add, Nat.sub_add_cancel (by omega)]
  have some_draw : 0 < 2 ^ level := Nat.two_pow_pos level
  calc draw ≤ threshold
    _ ↔ draw.toNat ≤ (2 ^ 32 - 1) / 2 ^ level := by rw [UInt32.le_iff_toNat_le, exact]
    _ ↔ draw.toNat * 2 ^ level ≤ 2 ^ 32 - 1 := Nat.le_div_iff_mul_le some_draw
    _ ↔ draw.toNat * 2 ^ level < 2 ^ (32 - level) * 2 ^ level := by rw [← whole]; omega
    _ ↔ draw.toNat < 2 ^ (32 - level) := Nat.mul_lt_mul_right some_draw
    _ ↔ level ≤ leadingZeros draw := (le_leadingZeros_iff draw (by omega)).symm

/-- A climb goes as far as the leading zeros of the draw reach. -/
theorem climb_eq (draw : UInt32) {room level : Nat} (bound : level + room ≤ 31)
    (reached : level ≤ 1 + leadingZeros draw) :
    climb draw room level = .ok (min (level + room) (1 + leadingZeros draw)) := by
  induction room generalizing level with
  | zero => rw [climb, Nat.add_zero, Nat.min_eq_left reached]
  | succ room ih =>
    obtain ⟨threshold, found, exact⟩ := threshold_exists (show level < 31 by omega)
    have passes := le_threshold_iff draw (show level < 31 by omega) exact
    rw [climb, found]
    by_cases zeros : level ≤ leadingZeros draw
    · have further := ih (show level + 1 + room ≤ 31 by omega) (by omega)
      simp only [passes.mpr zeros, if_true, further]
      congr 2
      omega
    · simp only [mt passes.mp zeros, if_false]
      congr 1
      omega

theorem ofDraw_eq (bound : Height) (draw : UInt32) :
    ∃ height, bound.ofDraw draw = .ok height ∧
      height.levels = min bound.levels (1 + leadingZeros draw) := by
  have least := bound.one_le
  have greatest := bound.le_max
  have climbed := climb_eq draw (show 1 + (bound.levels - 1) ≤ 31 by omega) (Nat.le_add_right _ _)
  rw [Nat.add_sub_cancel' least] at climbed
  have inside : 1 ≤ min bound.levels (1 + leadingZeros draw) ∧
      min bound.levels (1 + leadingZeros draw) ≤ 31 := by omega
  refine ⟨⟨_, inside.1, inside.2⟩, ?_, rfl⟩
  simp only [ofDraw, climbed, ok_bind, ofNat?, inside, and_self, dite_true]

theorem ofDraw_ok (bound : Height) (draw : UInt32) :
    ∃ height, bound.ofDraw draw = .ok height ∧ height.levels ≤ bound.levels := by
  obtain ⟨height, drawn, levels⟩ := bound.ofDraw_eq draw
  exact ⟨height, drawn, levels ▸ Nat.min_le_left _ _⟩

theorem random_ok {σ : Type} [DrawSource σ] (bound : Height) (source : σ) :
    ∃ height, bound.random source = .ok (height, (DrawSource.next source).2) ∧
      height.levels ≤ bound.levels := by
  obtain ⟨height, drawn, low⟩ := bound.ofDraw_ok (DrawSource.next source).1
  refine ⟨height, ?_, low⟩
  simp only [random, drawn, ok_bind, pure_eq_ok]

theorem random_source {σ : Type} [DrawSource σ] {bound height : Height} {source rest : σ}
    (drawn : bound.random source = .ok (height, rest)) : rest = (DrawSource.next source).2 := by
  obtain ⟨_, draw, _⟩ := bound.random_ok source
  rw [drawn] at draw
  exact (Prod.mk.inj (Except.ok.inj draw)).2

theorem bytes_le (height : Height) (memory : Memory) :
    height.levels * Memory.linkBytes ≤ memory.blockLimit :=
  Nat.le_trans (Nat.mul_le_mul_right _ height.le_max) memory.towers_fit

end SkipList.Height
