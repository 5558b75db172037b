import Mathlib
import Mpxcast.Core.CFloat

/-!
# The angle of a point of the plane

`angle y x` is the direction of the point with these coordinates. It is found in the first octant
and unfolded from there. The angle between two points is the difference of their phases, up to whole
turns. The arc tangent of two floating-point numbers is this angle but for the signs of zeros: on
the negative half axis it is half a turn to the side of the sign.
-/

namespace PlaneAngle

open CFloat Real

/-- The direction of a point, and 0 for the origin. -/
noncomputable def angle (y x : ℝ) : ℝ := Complex.arg ⟨x, y⟩

lemma angle_mul_sin_cos {r θ : ℝ} (hr : 0 < r) (hθ : θ ∈ Set.Ioc (-π) π) :
    angle (r * sin θ) (r * cos θ) = θ := by
  have hpoint : (⟨r * cos θ, r * sin θ⟩ : ℂ)
      = r * (Complex.cos θ + Complex.sin θ * Complex.I) := by
    apply Complex.ext <;> simp [← Complex.ofReal_cos, ← Complex.ofReal_sin]
  rw [angle, hpoint, Complex.arg_mul_cos_add_sin_mul_I hr hθ]

/-! ### Octants -/

/-- The smaller of the coordinates over the larger one. -/
noncomputable def ratio (y x : ℝ) : ℝ := min |x| |y| / max |x| |y|

lemma ratio_le_one (y x : ℝ) : ratio y x ≤ 1 :=
  div_le_one_of_le₀ min_le_max (le_max_of_le_left (abs_nonneg x))

/-- An angle of the first octant, unfolded to the quadrant and to the half plane of the point. -/
noncomputable def unfolded (quarter half y x a : ℝ) : ℝ :=
  let a := if |x| < |y| then quarter - a else a
  if x < 0 then half - a else a

/-- A point of the first quadrant. -/
lemma angle_of_nonneg {y x : ℝ} (hy : 0 ≤ y) (hx : 0 ≤ x) :
    angle y x = unfolded (π / 2) π y x (arctan (ratio y x)) := by
  have hpi := pi_pos
  rw [unfolded, ratio, abs_of_nonneg hx, abs_of_nonneg hy, if_neg (not_lt.2 hx)]
  split_ifs with hsteep
  · have hpos : 0 < y := hx.trans_lt hsteep
    rw [min_eq_left hsteep.le, max_eq_right hsteep.le]
    have hcos := cos_arctan_pos (x / y)
    have hsin : sin (arctan (x / y)) = x / y * cos (arctan (x / y)) := by
      rw [← tan_mul_cos hcos.ne', tan_arctan]
    have hrange : π / 2 - arctan (x / y) ∈ Set.Ioc (-π) π :=
      ⟨by linarith [arctan_lt_pi_div_two (x / y)], by linarith [neg_pi_div_two_lt_arctan (x / y)]⟩
    have hpoint := angle_mul_sin_cos (div_pos hpos hcos) hrange
    rw [sin_pi_div_two_sub, cos_pi_div_two_sub, hsin, div_mul_cancel₀ _ hcos.ne'] at hpoint
    rw [← hpoint]
    congr 1
    field_simp
  · rcases hx.eq_or_lt with rfl | hpos
    · obtain rfl : y = 0 := le_antisymm (not_lt.1 hsteep) hy
      rw [min_self, zero_div, arctan_zero]
      exact Complex.arg_zero
    · rw [min_eq_right (not_lt.1 hsteep), max_eq_left (not_lt.1 hsteep)]
      have hcos := cos_arctan_pos (y / x)
      have hsin : sin (arctan (y / x)) = y / x * cos (arctan (y / x)) := by
        rw [← tan_mul_cos hcos.ne', tan_arctan]
      have hrange : arctan (y / x) ∈ Set.Ioc (-π) π :=
        ⟨by linarith [neg_pi_div_two_lt_arctan (y / x)], by linarith [arctan_lt_pi_div_two (y / x)]⟩
      have hpoint := angle_mul_sin_cos (div_pos hpos hcos) hrange
      rw [hsin, div_mul_cancel₀ _ hcos.ne'] at hpoint
      rw [← hpoint]
      congr 1
      field_simp

/-- On the other side of the vertical axis. -/
lemma angle_of_neg {y x : ℝ} (hy : 0 ≤ y) (hx : x < 0) : angle y x = π - angle y (-x) := by
  have hpos : 0 < ‖(⟨-x, y⟩ : ℂ)‖ := by
    rw [norm_pos_iff]
    intro hzero
    have hre := congrArg Complex.re hzero
    simp only [Complex.zero_re] at hre
    linarith
  have hrange : angle y (-x) ∈ Set.Icc 0 (π / 2) :=
    ⟨Complex.arg_nonneg_iff.2 hy, Complex.arg_le_pi_div_two_iff.2 (Or.inl (by simpa using hx.le))⟩
  have hpi := pi_pos
  have hmirrored : π - angle y (-x) ∈ Set.Ioc (-π) π :=
    ⟨by linarith [hrange.2], by linarith [hrange.1]⟩
  have hpoint := angle_mul_sin_cos hpos hmirrored
  rw [sin_pi_sub, cos_pi_sub, mul_neg] at hpoint
  have hcos : ‖(⟨-x, y⟩ : ℂ)‖ * cos (angle y (-x)) = -x := Complex.norm_mul_cos_arg _
  have hsin : ‖(⟨-x, y⟩ : ℂ)‖ * sin (angle y (-x)) = y := Complex.norm_mul_sin_arg _
  rwa [hcos, hsin, neg_neg] at hpoint

/-- A point of the upper half plane. -/
lemma angle_abs (y x : ℝ) : angle |y| x = unfolded (π / 2) π y x (arctan (ratio y x)) := by
  have hratio (x : ℝ) : ratio |y| x = ratio y x := by rw [ratio, ratio, abs_abs]
  rcases lt_or_ge x 0 with hx | hx
  · have hflip : ratio |y| (-x) = ratio y x := by rw [hratio, ratio, ratio, abs_neg]
    rw [angle_of_neg (abs_nonneg y) hx, angle_of_nonneg (abs_nonneg y) (neg_nonneg.2 hx.le), hflip,
      unfolded, unfolded, if_pos hx, if_neg (not_lt.2 (neg_nonneg.2 hx.le)), abs_neg, abs_abs]
  · rw [angle_of_nonneg (abs_nonneg y) hx, hratio, unfolded, unfolded, abs_abs]

/-- The lower half plane mirrors the upper one. -/
lemma angle_of_im_neg {y : ℝ} (hy : y < 0) (x : ℝ) : angle y x = -angle |y| x := by
  have hconj : (⟨x, y⟩ : ℂ) = (starRingEnd ℂ) ⟨x, |y|⟩ := by
    apply Complex.ext
    · simp
    · simp [abs_of_neg hy]
  have hne : Complex.arg ⟨x, |y|⟩ ≠ π := by
    intro harg
    have him : |y| = 0 := (Complex.arg_eq_pi_iff.1 harg).2
    exact hy.ne (abs_eq_zero.1 him)
  rw [angle, hconj, Complex.arg_conj, if_neg hne]
  rfl

lemma angle_abs_nonneg (y x : ℝ) : 0 ≤ angle |y| x := Complex.arg_nonneg_iff.2 (abs_nonneg y)

/-! ### Signed zeros -/

/-- `atan2` of `<math.h>`. -/
noncomputable def atan2 (y x : Signed ℝ) : ℝ :=
  if y.value = 0 ∧ x.negative = true then if y.negative then -π else π
  else angle y.value x.value

lemma angle_zero {x : ℝ} (hx : 0 ≤ x) : angle 0 x = 0 := by
  have hzero : (⟨x, 0⟩ : ℂ) = (x : ℂ) := rfl
  rw [angle, hzero, Complex.arg_ofReal_of_nonneg hx]

/-- Away from the origin the sign of the first argument is the sign of the angle. -/
lemma atan2_eq {y x : Signed ℝ} (h : y.value ≠ 0 ∨ x.value ≠ 0) :
    atan2 y x = if y.negative then -angle |y.value| x.value else angle |y.value| x.value := by
  rcases eq_or_ne y.value 0 with hy | hy
  · have hx : x.value ≠ 0 := h.resolve_left (not_not_intro hy)
    have hside : x.negative = true ↔ x.value < 0 := by
      rw [Signed.negative_of_ne_zero hx, decide_eq_true_iff]
    rw [atan2, hy, abs_zero]
    rcases hx.lt_or_gt with hneg | hpos
    · rw [if_pos ⟨rfl, hside.2 hneg⟩, angle_of_neg le_rfl hneg, angle_zero (neg_nonneg.2 hneg.le),
        sub_zero]
    · rw [if_neg fun hboth => (hside.1 hboth.2).not_gt hpos, angle_zero hpos.le, neg_zero, ite_self]
  · rw [atan2, if_neg fun hboth => hy hboth.1, Signed.negative_of_ne_zero hy]
    simp only [decide_eq_true_eq]
    split_ifs with hneg
    · exact angle_of_im_neg hneg x.value
    · rw [abs_of_nonneg (not_lt.1 hneg)]

/-- It is the angle, or half a turn to the other side. -/
lemma atan2_near_angle {y x : Signed ℝ} (h : y.value ≠ 0 ∨ x.value ≠ 0) :
    |atan2 y x| = |angle y.value x.value| ∧
      (angle y.value x.value ≠ π → atan2 y x = angle y.value x.value) := by
  rcases eq_or_ne y.value 0 with hy | hy
  · have hx : x.value ≠ 0 := h.resolve_left (not_not_intro hy)
    rw [atan2_eq h, hy, abs_zero]
    rcases hx.lt_or_gt with hneg | hpos
    · have hturn : angle 0 x.value = π := by
        rw [angle_of_neg le_rfl hneg, angle_zero (neg_nonneg.2 hneg.le), sub_zero]
      refine ⟨?_, fun hne => absurd hturn hne⟩
      split_ifs
      · exact abs_neg _
      · rfl
    · rw [angle_zero hpos.le, neg_zero, ite_self]
      exact ⟨rfl, fun _ => rfl⟩
  · rw [atan2, if_neg fun hboth => hy hboth.1]
    exact ⟨rfl, fun _ => rfl⟩

/-- The origin has no direction. -/
lemma atan2_origin {y x : Signed ℝ} (hy : y.value = 0) (hx : x.value = 0) :
    atan2 y x = 0 ∨ |atan2 y x| = π := by
  rw [atan2, hy, hx]
  split_ifs
  · exact .inr (by rw [abs_neg, abs_of_pos pi_pos])
  · exact .inr (abs_of_pos pi_pos)
  · exact .inl (angle_zero le_rfl)

/-! ### Phases -/

/-- The angle between two points of given amplitudes and phases. -/
theorem angle_between {a b : ℝ} (ha : 0 < a) (hb : 0 < b) (p q : ℝ) :
    angle (b * cos q * (a * sin p) - b * sin q * (a * cos p))
        (b * cos q * (a * cos p) + b * sin q * (a * sin p))
      = toIocMod two_pi_pos (-π) (p - q) := by
  have hpoint : (⟨b * cos q * (a * cos p) + b * sin q * (a * sin p),
      b * cos q * (a * sin p) - b * sin q * (a * cos p)⟩ : ℂ)
        = ((a * b : ℝ) : ℂ) * (Complex.cos (p - q : ℝ) + Complex.sin (p - q : ℝ) * Complex.I) := by
    apply Complex.ext
    · simp [← Complex.ofReal_cos, ← Complex.ofReal_sin, -Complex.ofReal_sub, cos_sub]
      ring
    · simp [← Complex.ofReal_cos, ← Complex.ofReal_sin, -Complex.ofReal_sub, sin_sub]
      ring
  rw [angle, hpoint, Complex.arg_mul_cos_add_sin_mul_I_eq_toIocMod (mul_pos ha hb)]

/-- There is an angle between them. -/
lemma angle_point_ne_zero {a b : ℝ} (ha : 0 < a) (hb : 0 < b) (p q : ℝ) :
    b * cos q * (a * sin p) - b * sin q * (a * cos p) ≠ 0 ∨
      b * cos q * (a * cos p) + b * sin q * (a * sin p) ≠ 0 := by
  by_contra! hzero
  have hpower : (a * b) ^ 2 = (b * cos q * (a * sin p) - b * sin q * (a * cos p)) ^ 2
      + (b * cos q * (a * cos p) + b * sin q * (a * sin p)) ^ 2 := by
    calc (a * b) ^ 2 = (a * b) ^ 2 * (sin p ^ 2 + cos p ^ 2) * (sin q ^ 2 + cos q ^ 2) := by
          rw [sin_sq_add_cos_sq, sin_sq_add_cos_sq, mul_one, mul_one]
      _ = _ := by ring
  rw [hzero.1, hzero.2] at hpower
  exact (pow_pos (mul_pos ha hb) 2).ne' (by rw [hpower]; ring)

/-- A step of less than half a turn is its own representative. -/
lemma toIocMod_of_abs_lt {d : ℝ} (h : |d| < π) : toIocMod two_pi_pos (-π) d = d := by
  rw [toIocMod_eq_self]
  obtain ⟨hlo, hhi⟩ := abs_lt.1 h
  exact ⟨hlo, by linarith⟩

end PlaneAngle
