import Mathlib

/-!
# Polynomials for the arc tangent

Two polynomials that enclose the arc tangent for arguments that are not negative, and a short one
that is close to it between zero and one. The enclosure comes from derivatives that differ from the
one of the arc tangent by squares; it is evaluated where the error of the short polynomial is
largest.
-/

namespace ArctanPolynomial

open Real Set

lemma hasDerivAt_monomial (c : ℝ) (n : ℕ) (z : ℝ) :
    HasDerivAt (fun z => c * z ^ n) (c * (n * z ^ (n - 1))) z :=
  (hasDerivAt_pow n z).const_mul c

/-! ### Enclosure -/

/-- What the derivatives of the enclosing polynomials are off by. -/
noncomputable def ripple (u : ℝ) : ℝ := (32 * u ^ 3 - 48 * u ^ 2 + 18 * u - 1) / 99

noncomputable def lower (z : ℝ) : ℝ :=
  9800 / 9801 * z ^ 1 + -9764 / 29403 * z ^ 3 + 9344 / 49005 * z ^ 5 + -7552 / 68607 * z ^ 7
    + 4096 / 88209 * z ^ 9 + -1024 / 107811 * z ^ 11

noncomputable def upper (z : ℝ) : ℝ :=
  1 * z ^ 1 + -9800 / 29403 * z ^ 3 + 9764 / 49005 * z ^ 5 + -9344 / 68607 * z ^ 7
    + 7552 / 88209 * z ^ 9 + -4096 / 107811 * z ^ 11 + 1024 / 127413 * z ^ 13

lemma hasDerivAt_lower (z : ℝ) :
    HasDerivAt lower (1 / (1 + z ^ 2) - ripple (z ^ 2) ^ 2 / (1 + z ^ 2)) z := by
  have hpos : (1 : ℝ) + z ^ 2 ≠ 0 := by positivity
  refine ((((((hasDerivAt_monomial _ 1 z).add (hasDerivAt_monomial _ 3 z)).add
    (hasDerivAt_monomial _ 5 z)).add (hasDerivAt_monomial _ 7 z)).add
    (hasDerivAt_monomial _ 9 z)).add (hasDerivAt_monomial _ 11 z)).congr_deriv ?_
  rw [ripple, ← sub_div, eq_div_iff hpos]
  push_cast
  ring

lemma hasDerivAt_upper (z : ℝ) :
    HasDerivAt upper (1 / (1 + z ^ 2) + (z * ripple (z ^ 2)) ^ 2 / (1 + z ^ 2)) z := by
  have hpos : (1 : ℝ) + z ^ 2 ≠ 0 := by positivity
  refine (((((((hasDerivAt_monomial _ 1 z).add (hasDerivAt_monomial _ 3 z)).add
    (hasDerivAt_monomial _ 5 z)).add (hasDerivAt_monomial _ 7 z)).add
    (hasDerivAt_monomial _ 9 z)).add (hasDerivAt_monomial _ 11 z)).add
    (hasDerivAt_monomial _ 13 z)).congr_deriv ?_
  rw [ripple, ← add_div, eq_div_iff hpos]
  push_cast
  ring

/-- A function with a derivative that is not negative, and that starts at zero. -/
lemma nonneg_of_hasDerivAt {f f' : ℝ → ℝ} (hf : ∀ z, HasDerivAt f (f' z) z) (hf' : ∀ z, 0 ≤ f' z)
    (h0 : f 0 = 0) {z : ℝ} (hz : 0 ≤ z) : 0 ≤ f z := by
  have hmono : Monotone f := monotone_of_deriv_nonneg (fun z => (hf z).differentiableAt) fun z => by
    rw [(hf z).deriv]
    exact hf' z
  exact h0 ▸ hmono hz

theorem lower_le_arctan {z : ℝ} (hz : 0 ≤ z) : lower z ≤ arctan z := by
  refine sub_nonneg.1 (nonneg_of_hasDerivAt
    (fun z => (hasDerivAt_arctan z).sub (hasDerivAt_lower z)) (fun z => ?_) ?_ hz)
  · rw [sub_sub_cancel]
    positivity
  · simp [lower]

theorem arctan_le_upper {z : ℝ} (hz : 0 ≤ z) : arctan z ≤ upper z := by
  refine sub_nonneg.1 (nonneg_of_hasDerivAt
    (fun z => (hasDerivAt_upper z).sub (hasDerivAt_arctan z)) (fun z => ?_) ?_ hz)
  · rw [add_sub_cancel_left]
    positivity
  · simp [upper]

/-- The arc tangent does not stretch. -/
lemma arctan_sub_le {x y : ℝ} (h : x ≤ y) : arctan y - arctan x ≤ y - x := by
  have hderiv (z : ℝ) : HasDerivAt (fun z => z - arctan z) (1 - 1 / (1 + z ^ 2)) z :=
    (hasDerivAt_id z).sub (hasDerivAt_arctan z)
  have hmono : Monotone fun z => z - arctan z := by
    refine monotone_of_deriv_nonneg (fun z => (hderiv z).differentiableAt) fun z => ?_
    rw [(hderiv z).deriv, sub_nonneg]
    exact div_le_one_of_le₀ (le_add_of_nonneg_right (sq_nonneg z)) (by positivity)
  have hle : x - arctan x ≤ y - arctan y := hmono h
  linarith

/-! ### The short polynomial -/

noncomputable def short (z : ℝ) : ℝ :=
  1 * z ^ 1 + -327622764 / 1000000000 * z ^ 3 + 15931422 / 100000000 * z ^ 5
    + -464964749 / 10000000000 * z ^ 7

/-- The slope of its error is this cubic, scaled down. -/
noncomputable def slope (u : ℝ) : ℝ :=
  17131708 / 1000000000 - 186297192 / 1000000000 * u + 4710957757 / 10000000000 * u ^ 2
    - 3254753243 / 10000000000 * u ^ 3

lemma hasDerivAt_error (z : ℝ) :
    HasDerivAt (fun z => short z - arctan z) (z ^ 2 / (1 + z ^ 2) * slope (z ^ 2)) z := by
  have hpos : (1 : ℝ) + z ^ 2 ≠ 0 := by positivity
  refine (((((hasDerivAt_monomial _ 1 z).add (hasDerivAt_monomial _ 3 z)).add
    (hasDerivAt_monomial _ 5 z)).add (hasDerivAt_monomial _ 7 z)).sub
    (hasDerivAt_arctan z)).congr_deriv ?_
  rw [slope]
  field_simp
  push_cast
  ring

/-- Where the slope is small, the error grows little. -/
lemma error_sub_le {a b delta : ℝ} (ha : 0 ≤ a) (hab : a ≤ b) (hdelta : 0 ≤ delta)
    (hslope : ∀ u ∈ Icc (a ^ 2) (b ^ 2), slope u ≤ delta) :
    (short b - arctan b) - (short a - arctan a) ≤ delta * (b - a) := by
  refine Convex.image_sub_le_mul_sub_of_deriv_le (convex_Icc a b)
    (fun z _ => (hasDerivAt_error z).continuousAt.continuousWithinAt)
    (fun z _ => (hasDerivAt_error z).differentiableAt.differentiableWithinAt) (fun z hz => ?_)
    a (left_mem_Icc.2 hab) b (right_mem_Icc.2 hab) hab
  obtain ⟨hza, hzb⟩ := interior_subset hz
  have hz0 : 0 ≤ z := ha.trans hza
  have hu := hslope (z ^ 2) ⟨pow_le_pow_left₀ ha hza 2, pow_le_pow_left₀ hz0 hzb 2⟩
  have hfraction : z ^ 2 / (1 + z ^ 2) ≤ 1 :=
    div_le_one_of_le₀ (le_add_of_nonneg_left zero_le_one) (by positivity)
  have hnonneg : 0 ≤ z ^ 2 / (1 + z ^ 2) := by positivity
  rw [(hasDerivAt_error z).deriv]
  calc z ^ 2 / (1 + z ^ 2) * slope (z ^ 2) ≤ z ^ 2 / (1 + z ^ 2) * delta :=
        mul_le_mul_of_nonneg_left hu hnonneg
    _ ≤ 1 * delta := mul_le_mul_of_nonneg_right hfraction hdelta
    _ = delta := one_mul delta

lemma le_error_sub {a b delta : ℝ} (ha : 0 ≤ a) (hab : a ≤ b) (hdelta : 0 ≤ delta)
    (hslope : ∀ u ∈ Icc (a ^ 2) (b ^ 2), -delta ≤ slope u) :
    -delta * (b - a) ≤ (short b - arctan b) - (short a - arctan a) := by
  refine Convex.mul_sub_le_image_sub_of_le_deriv (convex_Icc a b)
    (fun z _ => (hasDerivAt_error z).continuousAt.continuousWithinAt)
    (fun z _ => (hasDerivAt_error z).differentiableAt.differentiableWithinAt) (fun z hz => ?_)
    a (left_mem_Icc.2 hab) b (right_mem_Icc.2 hab) hab
  obtain ⟨hza, hzb⟩ := interior_subset hz
  have hz0 : 0 ≤ z := ha.trans hza
  have hu := hslope (z ^ 2) ⟨pow_le_pow_left₀ ha hza 2, pow_le_pow_left₀ hz0 hzb 2⟩
  have hfraction : z ^ 2 / (1 + z ^ 2) ≤ 1 :=
    div_le_one_of_le₀ (le_add_of_nonneg_left zero_le_one) (by positivity)
  have hnonneg : 0 ≤ z ^ 2 / (1 + z ^ 2) := by positivity
  rw [(hasDerivAt_error z).deriv]
  calc -delta = 1 * -delta := (one_mul _).symm
    _ ≤ z ^ 2 / (1 + z ^ 2) * -delta := by
        rw [mul_neg, mul_neg]
        exact neg_le_neg (mul_le_mul_of_nonneg_right hfraction hdelta)
    _ ≤ z ^ 2 / (1 + z ^ 2) * slope (z ^ 2) := mul_le_mul_of_nonneg_left hu hnonneg

/-- The slope changes its sign three times, close to the squares of these arguments. -/
lemma slope_near {u : ℝ} (h0 : 0 ≤ u) (h1 : u ≤ 1) :
    |slope u - 3254753243 / 10000000000 *
      ((0.3633 ^ 2 - u) * (0.6883 ^ 2 - u) * (0.9174 ^ 2 - u))| ≤ 2 / 100000 := by
  unfold slope
  rw [abs_le]
  constructor <;> nlinarith

/-- The signs of the factors, in each of the four pieces. -/
lemma slope_le {u : ℝ} (h0 : 0 ≤ u) (h1 : u ≤ 1)
    (h : (0.3633 ^ 2 - u) * (0.6883 ^ 2 - u) * (0.9174 ^ 2 - u) ≤ 0) : slope u ≤ 2 / 100000 := by
  have hnear := (abs_le.1 (slope_near h0 h1)).2
  linarith

lemma le_slope {u : ℝ} (h0 : 0 ≤ u) (h1 : u ≤ 1)
    (h : 0 ≤ (0.3633 ^ 2 - u) * (0.6883 ^ 2 - u) * (0.9174 ^ 2 - u)) :
    -(2 / 100000) ≤ slope u := by
  have hnear := (abs_le.1 (slope_near h0 h1)).1
  linarith

lemma error_first {a b : ℝ} (ha : 0 ≤ a) (hab : a ≤ b) (hb : b ≤ 0.3633) :
    -(2 / 100000) * (b - a) ≤ (short b - arctan b) - (short a - arctan a) := by
  refine le_error_sub ha hab (by norm_num) fun u hu => ?_
  have hu0 : 0 ≤ u := (sq_nonneg a).trans hu.1
  have hu1 : u ≤ 0.3633 ^ 2 := hu.2.trans (pow_le_pow_left₀ (ha.trans hab) hb 2)
  refine le_slope hu0 (hu1.trans (by norm_num)) ?_
  exact mul_nonneg (mul_nonneg (by linarith) (by linarith)) (by linarith)

lemma error_second {a b : ℝ} (ha : 0.3633 ≤ a) (hab : a ≤ b) (hb : b ≤ 0.6883) :
    (short b - arctan b) - (short a - arctan a) ≤ 2 / 100000 * (b - a) := by
  have ha0 : 0 ≤ a := le_trans (by norm_num) ha
  refine error_sub_le ha0 hab (by norm_num) fun u hu => ?_
  have hu0 : 0.3633 ^ 2 ≤ u := (pow_le_pow_left₀ (by norm_num) ha 2).trans hu.1
  have hu1 : u ≤ 0.6883 ^ 2 := hu.2.trans (pow_le_pow_left₀ (ha0.trans hab) hb 2)
  refine slope_le (le_trans (by norm_num) hu0) (hu1.trans (by norm_num)) ?_
  exact mul_nonpos_of_nonpos_of_nonneg
    (mul_nonpos_of_nonpos_of_nonneg (by linarith) (by linarith)) (by linarith)

lemma error_third {a b : ℝ} (ha : 0.6883 ≤ a) (hab : a ≤ b) (hb : b ≤ 0.9174) :
    -(2 / 100000) * (b - a) ≤ (short b - arctan b) - (short a - arctan a) := by
  have ha0 : 0 ≤ a := le_trans (by norm_num) ha
  refine le_error_sub ha0 hab (by norm_num) fun u hu => ?_
  have hu0 : 0.6883 ^ 2 ≤ u := (pow_le_pow_left₀ (by norm_num) ha 2).trans hu.1
  have hu1 : u ≤ 0.9174 ^ 2 := hu.2.trans (pow_le_pow_left₀ (ha0.trans hab) hb 2)
  refine le_slope (le_trans (by norm_num) hu0) (hu1.trans (by norm_num)) ?_
  exact mul_nonneg (mul_nonneg_of_nonpos_of_nonpos (by linarith) (by linarith)) (by linarith)

lemma error_fourth {a b : ℝ} (ha : 0.9174 ≤ a) (hab : a ≤ b) (hb : b ≤ 1) :
    (short b - arctan b) - (short a - arctan a) ≤ 2 / 100000 * (b - a) := by
  have ha0 : 0 ≤ a := le_trans (by norm_num) ha
  refine error_sub_le ha0 hab (by norm_num) fun u hu => ?_
  have hu0 : 0.9174 ^ 2 ≤ u := (pow_le_pow_left₀ (by norm_num) ha 2).trans hu.1
  have hu1 : u ≤ 1 := hu.2.trans (pow_le_one₀ (ha0.trans hab) hb)
  refine slope_le (le_trans (by norm_num) hu0) hu1 ?_
  exact mul_nonpos_of_nonneg_of_nonpos
    (mul_nonneg_of_nonpos_of_nonpos (by linarith) (by linarith)) (by linarith)

/-! ### Where the error is largest -/

lemma error_zero : short 0 - arctan 0 = 0 := by
  simp [short]

lemma error_at_first : short 0.3633 - arctan 0.3633 ≤ 20 / 100000 := by
  have harctan := lower_le_arctan (show (0 : ℝ) ≤ 0.3633 by norm_num)
  have hvalue : short 0.3633 - lower 0.3633 ≤ 20 / 100000 := by
    norm_num [short, lower]
  linarith

lemma error_at_second : -(20 / 100000) ≤ short 0.6883 - arctan 0.6883 := by
  have harctan := arctan_le_upper (show (0 : ℝ) ≤ 0.6883 by norm_num)
  have hvalue : -(20 / 100000) ≤ short 0.6883 - upper 0.6883 := by
    norm_num [short, upper]
  linarith

lemma error_at_third : short 0.9174 - arctan 0.9174 ≤ 24 / 100000 := by
  have harctan := lower_le_arctan (show (0 : ℝ) ≤ 0.9174 by norm_num)
  have hvalue : short 0.9174 - lower 0.9174 ≤ 24 / 100000 := by
    norm_num [short, lower]
  linarith

lemma error_at_one : -(22 / 100000) ≤ short 1 - arctan 1 := by
  have harctan := arctan_le_upper (show (0 : ℝ) ≤ 1 by norm_num)
  have hvalue : -(22 / 100000) ≤ short 1 - upper 1 := by
    norm_num [short, upper]
  linarith

/-- **The short polynomial is close to the arc tangent** between zero and one. -/
theorem abs_short_sub_arctan_le {z : ℝ} (h0 : 0 ≤ z) (h1 : z ≤ 1) :
    |short z - arctan z| ≤ 249 / 1000000 := by
  rw [abs_le]
  rcases le_total z 0.3633 with hfirst | hfirst
  · have hbelow := error_first le_rfl h0 hfirst
    have habove := error_first h0 hfirst le_rfl
    constructor <;> linarith [error_zero, error_at_first]
  rcases le_total z 0.6883 with hsecond | hsecond
  · have hbelow := error_second hfirst hsecond le_rfl
    have habove := error_second le_rfl hfirst hsecond
    constructor <;> linarith [error_at_first, error_at_second]
  rcases le_total z 0.9174 with hthird | hthird
  · have hbelow := error_third le_rfl hsecond hthird
    have habove := error_third hsecond hthird le_rfl
    constructor <;> linarith [error_at_second, error_at_third]
  · have hbelow := error_fourth hthird h1 le_rfl
    have habove := error_fourth le_rfl hthird h1
    constructor <;> linarith [error_at_third, error_at_one]

end ArctanPolynomial
