import AvlCollections.Proofs.Tree.Height
import Mathlib.NumberTheory.Real.GoldenRatio
import Mathlib.Analysis.Complex.ExponentialBounds
import Mathlib.Analysis.SpecialFunctions.Log.Base

/-! # How tall an AVL tree can be

The sparsest AVL tree of height `h` has `F(h + 2) - 1` nodes: one side has height `h - 1`,
the other `h - 2`, so the node counts follow the Fibonacci recurrence. With Binet's formula
`F(k) ≥ φ^k / √5 - 1` this gives the familiar bound `h ≤ 1.4405 · log₂ (n + 2) - 0.3277`, and
for the `2^32 - 1` nodes that slot handles can name, `h ≤ 45`.
-/

namespace AvlCollections

open Real

namespace Tree

variable {α : Type}

/-- An AVL tree of height `h` has at least `F(h + 2) - 1` nodes. -/
theorem fib_height_le_size {t : Tree α} (ht : t.Avl) : Nat.fib (t.height + 2) ≤ t.size + 1 := by
  induction t with
  | nil => simp [height, size]
  | node l s v h r ihl ihr =>
    obtain ⟨hl, hr, rfl, h₁, h₂⟩ := ht
    have fl := ihl hl
    have fr := ihr hr
    show Nat.fib (max l.height r.height + 3) ≤ l.size + 1 + r.size + 1
    -- the taller side has height `h - 1`, and the other at least `h - 2`
    rcases le_total l.height r.height with hle | hle
    · have step : Nat.fib (r.height + 3) = Nat.fib (r.height + 1) + Nat.fib (r.height + 2) :=
        Nat.fib_add_two
      have low : Nat.fib (r.height + 1) ≤ Nat.fib (l.height + 2) := Nat.fib_mono (by omega)
      rw [max_eq_right hle, step]
      omega
    · have step : Nat.fib (l.height + 3) = Nat.fib (l.height + 1) + Nat.fib (l.height + 2) :=
        Nat.fib_add_two
      have low : Nat.fib (l.height + 1) ≤ Nat.fib (r.height + 2) := Nat.fib_mono (by omega)
      rw [max_eq_left hle, step]
      omega

/-- An AVL tree of fewer than `2^32` nodes is at most 45 levels tall: `F(48) > 2^32`. -/
theorem height_le_45 {t : Tree α} (ht : t.Avl) (hs : t.size < 2 ^ 32) : t.height ≤ 45 := by
  by_contra htall
  have hfib : Nat.fib 48 ≤ Nat.fib (t.height + 2) := Nat.fib_mono (by omega)
  have h48 : Nat.fib 48 = 4807526976 := by decide
  have := fib_height_le_size ht
  omega

end Tree

open goldenRatio

/-- Binet's formula, with `|ψ^k| ≤ 1`. -/
theorem goldenRatio_pow_div_le_fib_add_one (k : Nat) : φ ^ k / √5 ≤ Nat.fib k + 1 := by
  have h5 : (1 : ℝ) ≤ √5 := by
    rw [show (1 : ℝ) = √1 by simp]
    exact Real.sqrt_le_sqrt (by norm_num)
  have hψ : |ψ ^ k| ≤ 1 := by
    rw [abs_pow]
    exact pow_le_one₀ (abs_nonneg _)
      (abs_le.2 ⟨neg_one_lt_goldenConj.le, by linarith [goldenConj_neg]⟩)
  have hs : 0 < √5 := by positivity
  rw [coe_fib_eq, div_le_iff₀ hs, add_mul, div_mul_cancel₀ _ hs.ne']
  linarith [le_abs_self (ψ ^ k)]

theorem sqrt_five_gt_d6 : (2.236067 : ℝ) < √5 := by
  rw [Real.lt_sqrt (by norm_num)]
  norm_num

theorem log_goldenRatio_gt_d6 : (0.481211 : ℝ) < log φ := by
  rw [Real.lt_log_iff_exp_lt goldenRatio_pos]
  -- eight terms of the exponential series leave an error below `10⁻⁷`
  have hb : |exp 0.481211 - ∑ i ∈ Finset.range 8, (0.481211 : ℝ) ^ i / i.factorial| ≤
      |(0.481211 : ℝ)| ^ 8 * ((Nat.succ 8 : ℝ) / (Nat.factorial 8 * 8)) :=
    Real.exp_bound (by norm_num) (by norm_num)
  simp only [Finset.sum_range_succ, Finset.sum_range_zero, Nat.factorial] at hb
  have hup := (abs_le.1 hb).2
  norm_num at hup
  have h5 := sqrt_five_gt_d6
  show exp 0.481211 < (1 + √5) / 2
  linarith

/-- A height `h` whose sparsest AVL tree fits in `n` nodes is at most
`1.4405 · log₂ (n + 2) - 0.3277`. -/
theorem height_le_logb_of_fib_le {h n : ℕ} (hf : Nat.fib (h + 2) ≤ n + 1) :
    (h : ℝ) ≤ 1.4405 * logb 2 (n + 2) - 0.3277 := by
  have hbin : φ ^ (h + 2) / √5 ≤ (n : ℝ) + 2 := by
    have hc : (Nat.fib (h + 2) : ℝ) ≤ n + 1 := by exact_mod_cast hf
    linarith [goldenRatio_pow_div_le_fib_add_one (h + 2)]
  have hlog : (h + 2) * log φ - log 5 / 2 ≤ log (n + 2) := by
    have hmono := Real.log_le_log (by positivity) hbin
    rw [Real.log_div (by positivity) (by positivity), Real.log_pow,
      Real.log_sqrt (by norm_num)] at hmono
    push_cast at hmono
    exact hmono
  have h2 : 0 < log 2 := Real.log_pos (by norm_num)
  have hh : (0 : ℝ) ≤ h := Nat.cast_nonneg h
  rw [Real.logb, le_sub_iff_add_le, mul_div_assoc', le_div_iff₀ h2]
  -- `(h + 0.3277) · log 2 ≤ 1.4405 · ((h + 2) · log φ - log 5 / 2)`, with room of `3 · 10⁻⁵`
  linarith [mul_le_mul_of_nonneg_left log_two_lt_d9.le hh,
    mul_le_mul_of_nonneg_left log_goldenRatio_gt_d6.le hh, log_goldenRatio_gt_d6, log_five_lt_d9,
    log_two_lt_d9]

end AvlCollections
