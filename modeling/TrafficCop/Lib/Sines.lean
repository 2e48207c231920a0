import Mathlib.Analysis.SpecialFunctions.Trigonometric.Basic

/-!
# Sines of whole numbers

Fixed-point approximations of `cos k` and `sin k`, for whole `k`, by turns of one radian.

`floor_sin_eq` gives the first bits of a sine from that, by integer arithmetic.
-/

namespace Sines

open Complex

/-- One radian, in units of `2 ^ -64`. -/
def cosOne : ℤ := 9966818358784711826
def sinOne : ℤ := 15522399902203605025

/-- A product with a Gaussian integer close to `2 ^ 64 * exp i`, rounded down. -/
def turn (p : ℤ × ℤ) : ℤ × ℤ :=
  ((p.1 * cosOne - p.2 * sinOne) / 2 ^ 64, (p.1 * sinOne + p.2 * cosOne) / 2 ^ 64)

/-- The point 1 of the unit circle, turned again and again. -/
def around : ℕ → ℤ × ℤ
  | 0 => (2 ^ 64, 0)
  | k + 1 => turn (around k)

noncomputable def point (p : ℤ × ℤ) : ℂ := ((p.1 : ℝ) + (p.2 : ℝ) * I) / ((2 ^ 64 : ℕ) : ℂ)

lemma point_eq (p : ℤ × ℤ) : point p = ((p.1 : ℝ) + (p.2 : ℝ) * I) / 2 ^ 64 := by
  rw [point, Nat.cast_pow, Nat.cast_ofNat]

lemma norm_le_coordinates (x y : ℝ) : ‖(x : ℂ) + y * I‖ ≤ |x| + |y| := by
  have h := norm_le_abs_re_add_abs_im ((x : ℂ) + y * I)
  simpa using h

lemma norm_exp_sub_one_turn : ‖exp I - point (cosOne, sinOne)‖ ≤ 2 / 2 ^ 64 := by
  have htaylor := exp_bound (x := I) (by simp) (n := 22) (by omega)
  rw [norm_I, one_pow, one_mul] at htaylor
  -- the first 22 terms of the series
  obtain ⟨c, hc⟩ : ∃ c : ℝ, c = 1 - 1 / 2 + 1 / 24 - 1 / 720 + 1 / 40320 - 1 / 3628800 +
    1 / 479001600 - 1 / 87178291200 + 1 / 20922789888000 - 1 / 6402373705728000 +
    1 / 2432902008176640000 := ⟨_, rfl⟩
  obtain ⟨s, hs⟩ : ∃ s : ℝ, s = 1 - 1 / 6 + 1 / 120 - 1 / 5040 + 1 / 362880 - 1 / 39916800 +
    1 / 6227020800 - 1 / 1307674368000 + 1 / 355687428096000 - 1 / 121645100408832000 +
    1 / 51090942171709440000 := ⟨_, rfl⟩
  have hsum : ∑ m ∈ Finset.range 22, I ^ m / (m.factorial : ℂ) = (c : ℂ) + s * I := by
    have hperiod : ∀ m, I ^ (m + 4) = I ^ m := fun m => by rw [pow_add, I_pow_four, mul_one]
    rw [hc, hs]
    simp only [Finset.sum_range_succ, Finset.sum_range_zero, Nat.factorial, hperiod, I_sq,
      I_pow_three, pow_zero, pow_one]
    push_cast
    ring
  rw [hsum] at htaylor
  have hpoint : ((c : ℂ) + s * I) - point (cosOne, sinOne) =
      ((c - cosOne / 2 ^ 64 : ℝ) : ℂ) + ((s - sinOne / 2 ^ 64 : ℝ) : ℂ) * I := by
    rw [point_eq]
    push_cast
    ring
  have hnear : ‖((c : ℂ) + s * I) - point (cosOne, sinOne)‖ ≤ 3 / 2 / 2 ^ 64 := by
    rw [hpoint]
    refine (norm_le_coordinates _ _).trans ?_
    have hcos : |c - cosOne / 2 ^ 64| ≤ 3 / 4 / 2 ^ 64 := by
      rw [abs_le, hc, cosOne]
      constructor <;> norm_num
    have hsin : |s - sinOne / 2 ^ 64| ≤ 3 / 4 / 2 ^ 64 := by
      rw [abs_le, hs, sinOne]
      constructor <;> norm_num
    linarith
  calc ‖exp I - point (cosOne, sinOne)‖
      = ‖(exp I - (c + s * I)) + ((c + s * I) - point (cosOne, sinOne))‖ := by ring_nf
    _ ≤ _ := norm_add_le _ _
    _ ≤ (Nat.succ 22 : ℝ) * ((Nat.factorial 22 : ℝ) * (22 : ℕ))⁻¹ + 3 / 2 / 2 ^ 64 :=
        add_le_add htaylor hnear
    _ ≤ 2 / 2 ^ 64 := by norm_num [Nat.factorial]

lemma abs_div_sub_le (n : ℤ) : |(n : ℝ) / 2 ^ 64 - (n / 2 ^ 64 : ℤ)| ≤ 1 := by
  have hmod : 2 ^ 64 * ((n / 2 ^ 64 : ℤ) : ℝ) + ((n % 2 ^ 64 : ℤ) : ℝ) = n := by
    have hint := congrArg (Int.cast : ℤ → ℝ) (Int.mul_ediv_add_emod n (2 ^ 64))
    rwa [Int.cast_add, Int.cast_mul, Int.cast_pow, Int.cast_ofNat] at hint
  have hlow : (0 : ℝ) ≤ ((n % 2 ^ 64 : ℤ) : ℝ) := by
    exact_mod_cast Int.emod_nonneg n (by norm_num)
  have hhigh : ((n % 2 ^ 64 : ℤ) : ℝ) ≤ 2 ^ 64 := by
    exact_mod_cast (Int.emod_lt_of_pos n (by norm_num)).le
  have hlost : (n : ℝ) / 2 ^ 64 - (n / 2 ^ 64 : ℤ) = ((n % 2 ^ 64 : ℤ) : ℝ) / 2 ^ 64 := by
    rw [← hmod]
    field_simp
    simp
  rw [hlost, abs_of_nonneg (by positivity), div_le_one (by positivity)]
  exact hhigh

lemma norm_turn_sub (p : ℤ × ℤ) :
    ‖point p * point (cosOne, sinOne) - point (turn p)‖ ≤ 2 / 2 ^ 64 := by
  generalize hx : p.1 * cosOne - p.2 * sinOne = x
  generalize hy : p.1 * sinOne + p.2 * cosOne = y
  have hproduct : point p * point (cosOne, sinOne) - point (turn p) =
      (((x : ℝ) / 2 ^ 64 - (x / 2 ^ 64 : ℤ) : ℝ) + ((y : ℝ) / 2 ^ 64 - (y / 2 ^ 64 : ℤ) : ℝ) * I) /
        2 ^ 64 := by
    rw [turn, hx, hy, point_eq, point_eq, point_eq, ← hx, ← hy]
    push_cast
    ring_nf
    rw [I_sq]
    ring
  rw [hproduct, norm_div, norm_pow, Complex.norm_ofNat]
  have hcoordinates := norm_le_coordinates ((x : ℝ) / 2 ^ 64 - (x / 2 ^ 64 : ℤ))
    ((y : ℝ) / 2 ^ 64 - (y / 2 ^ 64 : ℤ))
  have hlost := add_le_add (abs_div_sub_le x) (abs_div_sub_le y)
  gcongr
  linarith

lemma norm_exp_pow (k : ℕ) : ‖exp I ^ k‖ = 1 := by
  have hone : ‖exp I‖ = 1 := by simpa using norm_exp_ofReal_mul_I 1
  rw [norm_pow, hone, one_pow]

/-- **The error grows by a fixed amount** with every turn. -/
theorem norm_sub_around {k : ℕ} (hk : k ≤ 64) :
    ‖exp I ^ k - point (around k)‖ ≤ 6 * k / 2 ^ 64 := by
  induction k with
  | zero => norm_num [around, point_eq]
  | succ k ih =>
    have herror := ih (by omega)
    have hk' : (k : ℝ) ≤ 64 := by exact_mod_cast (by omega : k ≤ 64)
    -- so the point is not far outside the circle
    have hsize : ‖point (around k)‖ ≤ 2 := by
      have hsplit : ‖point (around k)‖ ≤ ‖exp I ^ k‖ + ‖exp I ^ k - point (around k)‖ := by
        have := norm_sub_le (exp I ^ k) (exp I ^ k - point (around k))
        simpa using this
      rw [norm_exp_pow] at hsplit
      have hsmall : 6 * (k : ℝ) / 2 ^ 64 ≤ 1 := by
        rw [div_le_one (by positivity)]
        linarith
      linarith
    have hfirst : ‖(exp I ^ k - point (around k)) * exp I‖ ≤ 6 * k / 2 ^ 64 := by
      rw [norm_mul, ← pow_one (exp I), norm_exp_pow, pow_one, mul_one]
      exact herror
    have hsecond : ‖point (around k) * (exp I - point (cosOne, sinOne))‖ ≤ 2 * (2 / 2 ^ 64) := by
      rw [norm_mul]
      exact mul_le_mul hsize norm_exp_sub_one_turn (norm_nonneg _) (by norm_num)
    calc ‖exp I ^ (k + 1) - point (around (k + 1))‖
        = ‖(exp I ^ k - point (around k)) * exp I +
            point (around k) * (exp I - point (cosOne, sinOne)) +
            (point (around k) * point (cosOne, sinOne) - point (turn (around k)))‖ := by
          rw [around]
          ring_nf
      _ ≤ 6 * k / 2 ^ 64 + 2 * (2 / 2 ^ 64) + 2 / 2 ^ 64 :=
          (norm_add₃_le).trans (add_le_add (add_le_add hfirst hsecond) (norm_turn_sub _))
      _ = 6 * (k + 1 : ℕ) / 2 ^ 64 := by
          push_cast
          ring

lemma abs_sin_sub_le {k : ℕ} (hk : k ≤ 64) :
    |Real.sin k - ((around k).2 : ℝ) / 2 ^ 64| ≤ 6 * (k : ℝ) / 2 ^ 64 := by
  have hsin : (exp I ^ k).im = Real.sin k := by
    rw [← exp_nat_mul]
    exact_mod_cast exp_ofReal_mul_I_im k
  have hpoint : (point (around k)).im = (around k).2 / 2 ^ 64 := by
    rw [point_eq, show (2 ^ 64 : ℂ) = ((2 ^ 64 : ℝ) : ℂ) by norm_num, div_ofReal_im]
    simp
  rw [← hsin, ← hpoint, ← sub_im]
  exact (abs_im_le_norm _).trans (norm_sub_around hk)

/-- **The first bits of a sine**, by integer arithmetic. -/
theorem floor_sin_eq {k t : ℕ} (hk : k ≤ 64)
    (hlow : (t * 2 ^ 64 + 2 ^ 32 * (6 * k) : ℕ) ≤ 2 ^ 32 * (around k).2.natAbs)
    (hhigh : 2 ^ 32 * (around k).2.natAbs + 2 ^ 32 * (6 * k) < (t + 1) * 2 ^ 64) :
    ⌊4294967296 * |Real.sin k|⌋₊ = t := by
  have herror := abs_le.mp ((abs_abs_sub_abs_le _ _).trans (abs_sin_sub_le hk))
  have habs : |((around k).2 : ℝ) / 2 ^ 64| = ((around k).2.natAbs : ℝ) / 2 ^ 64 := by
    rw [abs_div, abs_of_pos (show (0 : ℝ) < 2 ^ 64 by positivity), Nat.cast_natAbs, Int.cast_abs]
  rw [habs] at herror
  have hlow' : (t : ℝ) * 2 ^ 64 + 2 ^ 32 * (6 * k) ≤ 2 ^ 32 * ((around k).2.natAbs : ℝ) := by
    exact_mod_cast hlow
  have hhigh' : 2 ^ 32 * ((around k).2.natAbs : ℝ) + 2 ^ 32 * (6 * k) < (t + 1) * 2 ^ 64 := by
    exact_mod_cast hhigh
  rw [Nat.floor_eq_iff (by positivity)]
  constructor <;> linarith

end Sines
