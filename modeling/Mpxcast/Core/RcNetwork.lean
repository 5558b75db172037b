import Mathlib
import Mpxcast.Core.OnePole

/-!
# RC networks

The voltage of a capacitor that is charged through a resistor moves towards the input with a speed
proportional to the distance. When each sample of a stream is held for one period, the voltages at
the ends of the periods are the stream smoothed with one pole.
-/

namespace RcNetwork

open OnePole Real Set

/-- The network with time constant `tau` responds to samples that are held for `dt` each. -/
structure Responds (tau dt : ℝ) (samples : List ℝ) (y : ℝ → ℝ) : Prop where
  rest : y 0 = 0
  continuous : Continuous y
  charges : ∀ n < samples.length, ∀ t ∈ Ioo (n * dt) ((n + 1) * dt),
    HasDerivAt y ((samples.getD n 0 - y t) / tau) t

/-- The part of the distance that is covered in one period. -/
noncomputable def covered (tau dt : ℝ) : ℝ := 1 - exp (-dt / tau)

variable {tau dt : ℝ} {samples : List ℝ} {y : ℝ → ℝ}

/-! ### One period -/

/-- The exponential approach from `v` at time `a` to the input `x`. -/
noncomputable def approach (tau x v a t : ℝ) : ℝ := x + (v - x) * exp (-(t - a) / tau)

lemma approach_start (tau x v a : ℝ) : approach tau x v a a = v := by
  simp [approach]

lemma hasDerivAt_approach (tau x v a t : ℝ) :
    HasDerivAt (approach tau x v a) ((x - approach tau x v a t) / tau) t := by
  have hexponent : HasDerivAt (fun t => -(t - a) / tau) (-1 / tau) t :=
    (((hasDerivAt_id t).sub_const a).neg).div_const tau
  refine ((hexponent.exp.const_mul (v - x)).const_add x).congr_deriv ?_
  rw [approach]
  ring

lemma continuous_approach (tau x v a : ℝ) : Continuous (approach tau x v a) := by
  unfold approach
  fun_prop

/-- There is no other way from one end of a period to the other. -/
lemma eq_step_of_charges (htau : tau ≠ 0) (hdt : 0 < dt) {x a : ℝ} (hcontinuous : Continuous y)
    (hcharges : ∀ t ∈ Ioo a (a + dt), HasDerivAt y ((x - y t) / tau) t) :
    y (a + dt) = step (covered tau dt) (y a) x := by
  have hscale (t : ℝ) :
      HasDerivAt (fun t => exp ((t - a) / tau)) (exp ((t - a) / tau) * (1 / tau)) t :=
    (((hasDerivAt_id t).sub_const a).div_const tau).exp
  -- the distance, scaled up by what it has shrunk, stays the same
  obtain ⟨c, -, hslope⟩ := exists_hasDerivAt_eq_slope
    (fun t => (y t - x) * exp ((t - a) / tau)) (fun _ => 0) (lt_add_of_pos_right a hdt)
    ((by fun_prop : Continuous fun t => (y t - x) * exp ((t - a) / tau)).continuousOn)
    fun t ht => by
      refine ((((hcharges t ht).sub_const x).mul (hscale t)).congr_deriv ?_)
      field_simp
      ring
  rw [eq_div_iff (by rw [add_sub_cancel_left]; exact hdt.ne'), zero_mul, sub_self, zero_div,
    exp_zero, mul_one, add_sub_cancel_left] at hslope
  have hback : (y (a + dt) - x) * exp (dt / tau) * exp (-dt / tau) = y (a + dt) - x := by
    rw [mul_assoc, ← exp_add, neg_div, add_neg_cancel, exp_zero, mul_one]
  have hend : y (a + dt) - x = (y a - x) * exp (-dt / tau) := by
    rw [← hback, ← sub_eq_zero.1 hslope.symm]
  rw [step, covered]
  linarith

/-! ### Streams -/

/-- The voltages at the ends of the periods. -/
theorem Responds.eq_last (h : Responds tau dt samples y) (htau : tau ≠ 0) (hdt : 0 < dt) :
    ∀ n ≤ samples.length, y (n * dt) = last (covered tau dt) 0 (samples.take n) := by
  intro n
  induction n with
  | zero =>
    intro _
    rw [Nat.cast_zero, zero_mul, h.rest]
    rfl
  | succ n ih =>
    intro hn
    have hend : ((n + 1 : ℕ) : ℝ) * dt = n * dt + dt := by
      push_cast
      ring
    have hperiod := eq_step_of_charges htau hdt h.continuous fun t ht =>
      h.charges n hn t (by rwa [add_mul, one_mul])
    rw [hend, hperiod, ih (Nat.le_of_succ_le hn), List.take_add_one, last_append,
      List.getD_eq_getElem?_getD, List.getElem?_eq_getElem hn]
    rfl

/-- The network does respond. -/
theorem exists_responds (tau : ℝ) (hdt : 0 < dt) (samples : List ℝ) :
    ∃ y, Responds tau dt samples y := by
  induction samples using List.reverseRecOn with
  | nil => exact ⟨fun _ => 0, rfl, continuous_const, fun n hn => absurd hn (Nat.not_lt_zero n)⟩
  | append_singleton xs x ih =>
    obtain ⟨y, h⟩ := ih
    obtain ⟨a, ha⟩ : ∃ a, a = (xs.length : ℝ) * dt := ⟨_, rfl⟩
    have ha0 : 0 ≤ a := ha ▸ mul_nonneg (Nat.cast_nonneg _) hdt.le
    refine ⟨fun t => if t ≤ a then y t else approach tau x (y a) a t, ?_, ?_, ?_⟩
    · rw [if_pos ha0, h.rest]
    · refine Continuous.if_le h.continuous (continuous_approach _ _ _ _) continuous_id
        continuous_const ?_
      rintro t rfl
      rw [approach_start]
    · intro n hn t ht
      rw [List.length_append, List.length_singleton] at hn
      rcases Nat.lt_succ_iff_lt_or_eq.1 hn with hlt | rfl
      · -- before the last period nothing has changed
        have hta : t < a := by
          refine ht.2.trans_le ?_
          rw [ha]
          exact mul_le_mul_of_nonneg_right (by exact_mod_cast hlt) hdt.le
        have hsame : (fun t => if t ≤ a then y t else approach tau x (y a) a t) =ᶠ[nhds t] y := by
          filter_upwards [Iio_mem_nhds hta] with u hu
          exact if_pos (le_of_lt hu)
        rw [if_pos hta.le, List.getD_append _ _ _ _ hlt]
        exact (h.charges n hlt t ht).congr_of_eventuallyEq hsame
      · have hat : a < t := ha ▸ ht.1
        have hsame : (fun t => if t ≤ a then y t else approach tau x (y a) a t)
            =ᶠ[nhds t] approach tau x (y a) a := by
          filter_upwards [Ioi_mem_nhds hat] with u hu
          exact if_neg (not_le.2 hu)
        have hnewest : (xs ++ [x]).getD xs.length 0 = x := by simp
        rw [if_neg (not_le.2 hat), hnewest]
        exact (hasDerivAt_approach tau x (y a) a t).congr_of_eventuallyEq hsame

end RcNetwork
