import Mpxcast.Core.ArctanPolynomial
import Mpxcast.Core.PlaneAngle
import Mpxcast.Dsp.FmDiscriminator

/-!
# FM demodulation

In exact real arithmetic with signed zeros, the discriminator that uses the arc tangent puts out the
steps of the phase, whatever the amplitude does. The fast arc tangent stays close to the exact one
over every stream.
-/

namespace Mpxcast

open ArctanPolynomial CFloat PlaneAngle Real

/-! ### The exact arc tangent -/

/-- A sample of a carrier: coordinates that are zero have any sign. -/
structure CarrierSample where
  amplitude : ℝ
  phase : ℝ
  negativeZeros : Bool × Bool
  amplitude_pos : 0 < amplitude

noncomputable def CarrierSample.pair (sample : CarrierSample) : Signed ℝ × Signed ℝ :=
  (⟨sample.amplitude * cos sample.phase, sample.negativeZeros.1⟩,
    ⟨sample.amplitude * sin sample.phase, sample.negativeZeros.2⟩)

/-- The step of the phase, as an angle, with its sign changed. -/
noncomputable def CarrierSample.turn (prev sample : CarrierSample) : ℝ :=
  toIocMod two_pi_pos (-π) (prev.phase - sample.phase)

lemma fmDiscriminatorAnswer_carrier (prev sample : CarrierSample) :
    |fmDiscriminatorAnswer atan2 .atan2Libm prev.pair sample.pair| = |prev.turn sample| ∧
      (prev.turn sample ≠ π →
        fmDiscriminatorAnswer atan2 .atan2Libm prev.pair sample.pair = prev.turn sample) := by
  have hprev := prev.amplitude_pos
  have hsample := sample.amplitude_pos
  have hangle : angle (iqCross sample.pair.1 sample.pair.2 prev.pair.1 prev.pair.2).value
      (iqDot sample.pair.1 sample.pair.2 prev.pair.1 prev.pair.2).value = prev.turn sample :=
    angle_between hprev hsample prev.phase sample.phase
  rw [← hangle]
  exact atan2_near_angle (angle_point_ne_zero hprev hsample prev.phase sample.phase)

/-- **The phase is demodulated exactly.** In exact arithmetic, however a carrier is cut into blocks
and whatever its amplitude does, what comes out behind the first sample are the steps of its phase,
with their sign changed: each reduced to half a turn, and unchanged when it is shorter than that.
Only a step of just half a turn may come out to the other side. -/
theorem fmDiscriminator_demodulates (blocks : List (List CarrierSample)) :
    ∃ next outputs,
      Loop.calls (fun state block => fmDiscriminatorProcessBlockFloat atan2 state
          (interleaved (block.map CarrierSample.pair)) block.length) fmDiscriminatorInit blocks
        = some (next, outputs) ∧
      outputs.flatten.length = blocks.flatten.length ∧
      ∀ (n : ℕ) (prev sample : CarrierSample), blocks.flatten[n]? = some prev →
        blocks.flatten[n + 1]? = some sample →
        ∃ out, outputs.flatten[n + 1]? = some out ∧ |out| = |prev.turn sample| ∧
          (prev.turn sample ≠ π → out = prev.turn sample) ∧
          (|prev.phase - sample.phase| < π → out = prev.phase - sample.phase) := by
  obtain ⟨next, outputs, hcalls, hflatten⟩ := fmDiscriminatorProcessBlocks atan2
    fmDiscriminatorInit .atan2Libm CarrierSample.pair blocks
  refine ⟨next, outputs, hcalls, ?_, fun n prev sample hprev hsample => ?_⟩
  · rw [hflatten, length_demodulated, List.length_map]
  · have hbefore : (blocks.flatten.map CarrierSample.pair)[n]? = some prev.pair := by
      rw [List.getElem?_map, hprev, Option.map_some]
    have hafter : (blocks.flatten.map CarrierSample.pair)[n + 1]? = some sample.pair := by
      rw [List.getElem?_map, hsample, Option.map_some]
    have hstep := getElem?_demodulated (fmDiscriminatorAnswer atan2 .atan2Libm) hbefore hafter
    obtain ⟨habs, hturn⟩ := fmDiscriminatorAnswer_carrier prev sample
    rw [← hflatten] at hstep
    refine ⟨_, hstep, habs, hturn, fun hshort => ?_⟩
    have hsame : prev.turn sample = prev.phase - sample.phase := toIocMod_of_abs_lt hshort
    rw [hturn, hsame]
    rw [hsame]
    exact (lt_of_abs_lt hshort).ne

/-- A carrier of changing amplitude that is turned by one radian forth and back, in two blocks. -/
theorem fmDiscriminator_demodulates_turn :
    ∃ next outputs,
      Loop.calls (fun state block => fmDiscriminatorProcessBlockFloat atan2 state
          (interleaved (block.map CarrierSample.pair)) block.length) fmDiscriminatorInit
          [[⟨1, 0, (false, false), one_pos⟩],
            [⟨2, 1, (false, false), two_pos⟩, ⟨3, 0, (false, true), three_pos⟩]]
        = some (next, outputs) ∧
      outputs.flatten[(1 : ℕ)]? = some (-1) ∧ outputs.flatten[(2 : ℕ)]? = some 1 := by
  have hpi := pi_gt_three
  obtain ⟨next, outputs, hcalls, -, hsteps⟩ := fmDiscriminator_demodulates
    [[⟨1, 0, (false, false), one_pos⟩],
      [⟨2, 1, (false, false), two_pos⟩, ⟨3, 0, (false, true), three_pos⟩]]
  refine ⟨next, outputs, hcalls, ?_, ?_⟩
  · obtain ⟨out, hout, -, -, hstep⟩ := hsteps 0 _ _ rfl rfl
    rw [hout, hstep (by rw [abs_lt]; constructor <;> norm_num <;> linarith)]
    norm_num
  · obtain ⟨out, hout, -, -, hstep⟩ := hsteps 1 _ _ rfl rfl
    rw [hout, hstep (by rw [abs_lt]; constructor <;> norm_num <;> linarith)]
    norm_num

/-! ### The fast arc tangent -/

lemma halfPiF_near : |(halfPiF : ℝ) - π / 2| ≤ 1 / 10000000 := by
  have hlo := pi_gt_d20
  have hhi := pi_lt_d20
  unfold halfPiF
  rw [abs_le]
  push_cast
  constructor <;> norm_num at * <;> linarith

lemma piF_near : |(piF : ℝ) - π| ≤ 1 / 10000000 := by
  have hlo := pi_gt_d20
  have hhi := pi_lt_d20
  unfold piF
  rw [abs_le]
  push_cast
  constructor <;> norm_num at * <;> linarith

lemma fltMin_pos : (0 : ℝ) < fltMin := by
  unfold fltMin
  positivity

/-- A turn that is taken when the flag is set. -/
lemma add_floatOfBool (flag : Bool) (turn a : ℝ) :
    a + floatOfBool flag * (turn - ((2 : ℕ) : ℝ) * a) = if flag then turn - a else a := by
  unfold floatOfBool
  split_ifs
  · push_cast
    ring
  · ring

/-- The quotient that the short polynomial is evaluated at. -/
noncomputable def guardedRatio (y x : ℝ) : ℝ := min |x| |y| / (max |x| |y| + fltMin)

lemma atan2Fast_eq (y x : Signed ℝ) :
    atan2Fast y x = Signed.copysign (unfolded halfPiF piF y.value x.value
      (short (guardedRatio y.value x.value))) y := by
  have hshort (z : ℝ) : ((-((464964749 : ℕ) : ℝ) / ((10000000000 : ℕ) : ℝ) * (z * z)
      + ((15931422 : ℕ) : ℝ) / ((100000000 : ℕ) : ℝ)) * (z * z)
      - ((327622764 : ℕ) : ℝ) / ((1000000000 : ℕ) : ℝ)) * (z * z) * z + z = short z := by
    rw [short]
    push_cast
    ring
  unfold atan2Fast unfolded guardedRatio
  dsimp only
  rw [hshort, add_floatOfBool, add_floatOfBool]
  simp only [decide_eq_true_eq, gt_iff_lt]

lemma div_sub_div_add_le {lo hi guard : ℝ} (hle : lo ≤ hi) (hhi : 0 < hi) (hguard : 0 < guard) :
    lo / hi - lo / (hi + guard) ≤ guard / hi := by
  have hpart : lo / (hi + guard) ≤ 1 :=
    div_le_one_of_le₀ (by linarith) (by linarith)
  calc lo / hi - lo / (hi + guard) = lo / (hi + guard) * (guard / hi) := by
        field_simp
        ring
    _ ≤ 1 * (guard / hi) := mul_le_mul_of_nonneg_right hpart (div_nonneg hguard.le hhi.le)
    _ = guard / hi := one_mul _

/-- The guard against a division by zero makes the quotient a little smaller. -/
lemma guardedRatio_near (y x : ℝ) :
    guardedRatio y x ≤ ratio y x ∧ ratio y x - guardedRatio y x ≤ fltMin / max |x| |y| := by
  have hmin : 0 ≤ min |x| |y| := by positivity
  have hle : min |x| |y| ≤ max |x| |y| := min_le_max
  have hguard := fltMin_pos
  rw [guardedRatio, ratio]
  rcases (hmin.trans hle).eq_or_lt with hzero | hpos
  · have hsmall : min |x| |y| = 0 := le_antisymm (hle.trans hzero.ge) hmin
    rw [hsmall, ← hzero, zero_div, zero_div, div_zero, sub_zero]
    exact ⟨le_rfl, le_rfl⟩
  · exact ⟨div_le_div_of_nonneg_left hmin hpos (le_add_of_nonneg_right hguard.le),
      div_sub_div_add_le hle hpos hguard⟩

lemma short_guardedRatio_near (y x : ℝ) :
    |short (guardedRatio y x) - arctan (ratio y x)| ≤ 249 / 1000000 + fltMin / max |x| |y| := by
  obtain ⟨hle, hnear⟩ := guardedRatio_near y x
  have hguard := fltMin_pos
  have hnonneg : 0 ≤ guardedRatio y x := by
    unfold guardedRatio
    positivity
  have hshort := abs_le.1 (abs_short_sub_arctan_le hnonneg (hle.trans (ratio_le_one y x)))
  have hstretch := arctan_sub_le hle
  have hmono := arctan_mono hle
  rw [abs_le]
  constructor <;> linarith

/-- Errors are carried along and not enlarged. -/
lemma unfolded_near (q h q' h' y x a a' : ℝ) :
    |unfolded q h y x a - unfolded q' h' y x a'| ≤ |q - q'| + |h - h'| + |a - a'| := by
  have hq := abs_nonneg (q - q')
  have hh := abs_nonneg (h - h')
  unfold unfolded
  dsimp only
  rw [abs_le]
  split_ifs <;> constructor <;>
    linarith [le_abs_self (q - q'), neg_abs_le (q - q'), le_abs_self (h - h'),
      neg_abs_le (h - h'), le_abs_self (a - a'), neg_abs_le (a - a')]

lemma copysign_near {t : ℝ} (ht : 0 ≤ t) (m : ℝ) (y : Signed ℝ) :
    |Signed.copysign m y - if y.negative then -t else t| ≤ |m - t| := by
  have hnear := abs_abs_sub_abs_le m t
  rw [abs_of_nonneg ht] at hnear
  unfold Signed.copysign
  split_ifs
  · rwa [neg_sub_neg, abs_sub_comm]
  · exact hnear

/-- **The fast arc tangent** is as close as its polynomial, but for the guard. -/
theorem atan2Fast_near {y x : Signed ℝ} (h : y.value ≠ 0 ∨ x.value ≠ 0) :
    |atan2Fast y x - atan2 y x| ≤ 25 / 100000 + fltMin / max |x.value| |y.value| := by
  have hunfolded := unfolded_near halfPiF piF (π / 2) π y.value x.value
    (short (guardedRatio y.value x.value)) (arctan (ratio y.value x.value))
  rw [← angle_abs] at hunfolded
  rw [atan2Fast_eq, atan2_eq h]
  refine (copysign_near (angle_abs_nonneg y.value x.value) _ y).trans ?_
  linarith [halfPiF_near, piF_near, short_guardedRatio_near y.value x.value]

/-- At the origin it is zero. -/
lemma atan2Fast_origin {y x : Signed ℝ} (hy : y.value = 0) (hx : x.value = 0) :
    atan2Fast y x = 0 := by
  have hratio : guardedRatio y.value x.value = 0 := by
    rw [guardedRatio, hy, hx, abs_zero, min_self, zero_div]
  have hunfolded : unfolded (halfPiF : ℝ) piF y.value x.value (short 0) = 0 := by
    rw [unfolded, hy, hx, if_neg (lt_irrefl _), short]
    simp
  rw [atan2Fast_eq, hratio, hunfolded, Signed.copysign, abs_zero, neg_zero, ite_self]

/-- **The fast discriminator follows the exact one.** In exact arithmetic, over every stream of
pairs, however it is cut into blocks, the two put out as many samples, and behind the first they
differ by a quarter of a thousandth of a radian at most, but for the guard against a division by
zero. Where there is no angle, because dot and cross are both zero, the fast one puts out zero,
and the exact one zero or half a turn. -/
theorem fmDiscriminator_fast_follows (blocks : List (List (Signed ℝ × Signed ℝ))) :
    ∃ fast exact fastOutputs exactOutputs,
      Loop.calls (fun state block => fmDiscriminatorProcessBlockFloat atan2 state
          (interleaved block) block.length)
        (fmDiscriminatorSetImpl fmDiscriminatorInit .atan2Approx) blocks
        = some (fast, fastOutputs) ∧
      Loop.calls (fun state block => fmDiscriminatorProcessBlockFloat atan2 state
          (interleaved block) block.length)
        (fmDiscriminatorSetImpl fmDiscriminatorInit .atan2Libm) blocks
        = some (exact, exactOutputs) ∧
      fastOutputs.flatten.length = exactOutputs.flatten.length ∧
      ∀ (n : ℕ) (prev pair : Signed ℝ × Signed ℝ), blocks.flatten[n]? = some prev →
        blocks.flatten[n + 1]? = some pair →
        let dot := (iqDot pair.1 pair.2 prev.1 prev.2).value
        let cross := (iqCross pair.1 pair.2 prev.1 prev.2).value
        ∃ a b, fastOutputs.flatten[n + 1]? = some a ∧ exactOutputs.flatten[n + 1]? = some b ∧
          (cross ≠ 0 ∨ dot ≠ 0 → |a - b| ≤ 25 / 100000 + fltMin / max |dot| |cross|) ∧
          (cross = 0 → dot = 0 → a = 0 ∧ (b = 0 ∨ |b| = π)) := by
  obtain ⟨fast, fastOutputs, hfast, hfastFlatten⟩ := fmDiscriminatorProcessBlocks atan2
    fmDiscriminatorInit .atan2Approx id blocks
  obtain ⟨exact, exactOutputs, hexact, hexactFlatten⟩ := fmDiscriminatorProcessBlocks atan2
    fmDiscriminatorInit .atan2Libm id blocks
  simp only [List.map_id] at hfast hexact hfastFlatten hexactFlatten
  refine ⟨fast, exact, fastOutputs, exactOutputs, hfast, hexact, ?_, ?_⟩
  · rw [hfastFlatten, hexactFlatten, length_demodulated, length_demodulated]
  · intro n prev pair hprev hpair dot cross
    rw [hfastFlatten, hexactFlatten]
    exact ⟨_, _, getElem?_demodulated _ hprev hpair, getElem?_demodulated _ hprev hpair,
      atan2Fast_near, fun hcross hdot =>
        ⟨atan2Fast_origin hcross hdot, atan2_origin hcross hdot⟩⟩

end Mpxcast
