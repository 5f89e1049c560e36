import Mathlib.Algebra.BigOperators.Group.List.Basic
import Mathlib.Data.Rat.Floor
import Mathlib.Tactic.Linarith

/-!
# Rounding to integers

A conversion to an integer type cuts the fraction off (`truncate`), which of a quotient
of integers leaves `Int.tdiv`; `Math.round` goes to the nearest integer, up from the
middle (`roundHalfUp`). Quotients that leave no remainder add up to the quotient of the sum
(`sum_tdiv_of_dvd`).
-/
namespace Android2Mouse.Library

/-- The conversion of a number to an integer type. -/
def truncate (q : ℚ) : ℤ := if 0 ≤ q then ⌊q⌋ else ⌈q⌉

/-- `Math.round` -/
def roundHalfUp (q : ℚ) : ℤ := ⌊q + 1 / 2⌋

theorem truncate_intCast (n : ℤ) : truncate n = n := by
  unfold truncate
  split
  · exact Int.floor_intCast n
  · exact Int.ceil_intCast n

theorem roundHalfUp_intCast (n : ℤ) : roundHalfUp n = n := by
  have hhalf : ⌊(1 / 2 : ℚ)⌋ = 0 := by decide +kernel
  rw [roundHalfUp, Int.floor_intCast_add, hhalf, Int.add_zero]

theorem roundHalfUp_of_near {q : ℚ} {n : ℤ} (h : |(n : ℚ) - q| < 1 / 2) : roundHalfUp q = n := by
  obtain ⟨hlow, hhigh⟩ := abs_lt.mp h
  exact Int.floor_eq_iff.mpr ⟨by linarith, by linarith⟩

theorem truncate_div (n : ℤ) {d : ℕ} (hd : 0 < d) : truncate (n / d) = n.tdiv d := by
  have hd' : (0 : ℚ) < d := Nat.cast_pos.mpr hd
  by_cases hn : 0 ≤ n
  · have hq : (0 : ℚ) ≤ n / d := div_nonneg (Int.cast_nonneg hn) hd'.le
    rw [truncate, if_pos hq, Rat.floor_intCast_div_natCast, Int.tdiv_eq_ediv_of_nonneg hn]
  · have hneg : 0 ≤ -n := by omega
    have hq : ¬ (0 : ℚ) ≤ n / d :=
      not_le.mpr (div_neg_of_neg_of_pos (Int.cast_lt_zero.mpr (not_le.mp hn)) hd')
    rw [truncate, if_neg hq, Rat.ceil_intCast_div_natCast, ← Int.tdiv_eq_ediv_of_nonneg hneg,
      Int.neg_tdiv, neg_neg]

theorem abs_truncate_sub_lt (q : ℚ) : |(truncate q : ℚ) - q| < 1 := by
  unfold truncate
  split
  · have hle := Int.floor_le q
    have hlt := Int.lt_floor_add_one q
    exact abs_lt.mpr ⟨by linarith, by linarith⟩
  · have hle := Int.le_ceil q
    have hlt := Int.ceil_lt_add_one q
    exact abs_lt.mpr ⟨by linarith, by linarith⟩

/-! ## Sums -/

theorem sum_tdiv_of_dvd {k : ℤ} {ds : List ℤ} (h : ∀ d ∈ ds, k ∣ d) :
    k * (ds.map (·.tdiv k)).sum = ds.sum := by
  induction ds with
  | nil => exact Int.mul_zero k
  | cons d ds ih =>
    rw [List.forall_mem_cons] at h
    rw [List.map_cons, List.sum_cons, List.sum_cons, mul_add, Int.mul_tdiv_cancel' h.1, ih h.2]

end Android2Mouse.Library
