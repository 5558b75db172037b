import Mpxcast.Dsp.FmStereoReceiver

/-!
# A mono receiver next to a stereo one

Both are fed the same blocks, in exact arithmetic. Before they are quantised, the left and the right
sample of a frame add up to twice the mono sample; afterwards, where no channel is clipped, they
miss it by two at most. A multiplex without anything in the stereo band is received in stereo as it
is in mono.
-/

namespace Mpxcast

open Convolution OnePole ToneDoubler

variable {K : Type*} [Field K] [LinearOrder K]

/-! ### The channels -/

omit [LinearOrder K] in
/-- The channels of the matrix add up to twice the sum. -/
lemma zipWith_add_sub (sum : List K) {diff : List K} (h : sum.length ≤ diff.length) :
    List.zipWith (· + ·) (List.zipWith (· + ·) sum diff) (List.zipWith (· - ·) sum diff)
      = sum.map (((2 : ℕ) : K) * ·) := by
  induction sum generalizing diff with
  | nil => rfl
  | cons s sum ih =>
    cases diff with
    | nil => simp at h
    | cons d diff =>
      have hframe : s + d + (s - d) = ((2 : ℕ) : K) * s := by
        push_cast
        ring
      rw [List.zipWith_cons_cons, List.zipWith_cons_cons, List.zipWith_cons_cons, hframe,
        ih (Nat.le_of_succ_le_succ h), List.map_cons]

lemma StereoTuning.channels_add (tuning : StereoTuning K) (xs : List K) :
    List.zipWith (· + ·) (tuning.channel (· + ·) xs) (tuning.channel (· - ·) xs)
      = (monoAudio tuning.monoTaps tuning.alpha xs).map (((2 : ℕ) : K) * ·) := by
  have hlength : (tuning.sumAudio xs).length ≤ (tuning.diffAudio xs).length := by simp
  rw [channel, channel, smoothed_zipWith_add, matrixed, matrixed, zipWith_add_sub _ hlength,
    monoAudio, ← smoothed_mul, mul_zero, add_zero]
  rfl

/-- The samples of a frame, and the mono sample next to them. -/
lemma StereoTuning.frame (tuning : StereoTuning K) {xs : List K} {n : ℕ}
    (hn : n < xs.length / fmPipelineAudioDecimationFactor) :
    ∃ l r m, (tuning.channel (· + ·) xs)[n]? = some l ∧ (tuning.channel (· - ·) xs)[n]? = some r ∧
      (monoAudio tuning.monoTaps tuning.alpha xs)[n]? = some m ∧ l + r = m + m := by
  have hl : n < (tuning.channel (· + ·) xs).length := by simpa using hn
  have hr : n < (tuning.channel (· - ·) xs).length := by simpa using hn
  have hm : n < (monoAudio tuning.monoTaps tuning.alpha xs).length := by
    rw [monoAudio, length_smoothed, length_audioDecimated, length_convolved]
    exact hn
  refine ⟨_, _, _, List.getElem?_eq_getElem hl, List.getElem?_eq_getElem hr,
    List.getElem?_eq_getElem hm, ?_⟩
  have hsum := congrArg (·[n]?) (tuning.channels_add xs)
  simp only [List.getElem?_map, List.getElem?_eq_getElem hm, Option.map_some] at hsum
  obtain ⟨l, r, hleft, hright, hframe⟩ := List.getElem?_zipWith_eq_some.1 hsum
  rw [List.getElem?_eq_getElem hl, Option.some.injEq] at hleft
  rw [List.getElem?_eq_getElem hr, Option.some.injEq] at hright
  rw [hleft, hright, hframe]
  push_cast
  exact two_mul _

/-! ### Silence -/

omit [LinearOrder K] in
lemma convolved_zero (taps : List K) {xs : List K} (h : ∀ x ∈ xs, x = 0) :
    ∀ y ∈ convolved taps xs, y = 0 := by
  have hget (n : ℕ) : xs.getD n 0 = 0 := by
    rcases lt_or_ge n xs.length with hn | hn
    · rw [List.getD_eq_getElem _ _ hn]
      exact h _ (List.getElem_mem hn)
    · exact List.getD_eq_default _ _ hn
  intro y hy
  obtain ⟨n, -, rfl⟩ := List.mem_map.1 hy
  refine Finset.sum_eq_zero fun k _ => ?_
  split_ifs
  · rw [hget, mul_zero]
  · rw [mul_zero]

omit [LinearOrder K] in
lemma audioDecimated_zero (taps : List K) {xs : List K} (h : ∀ x ∈ xs, x = 0) :
    ∀ y ∈ audioDecimated taps xs, y = 0 := by
  intro y hy
  obtain ⟨j, -, rfl⟩ := List.mem_map.1 hy
  have hzero := convolved_zero (mirrored taps) h
  obtain ⟨ys, hys⟩ : ∃ ys, ys = convolved (mirrored taps) xs := ⟨_, rfl⟩
  rw [← hys] at hzero ⊢
  rcases lt_or_ge ((j + 1) * fmPipelineAudioDecimationFactor - 1) ys.length with hn | hn
  · rw [List.getD_eq_getElem _ _ hn]
    exact hzero _ (List.getElem_mem hn)
  · exact List.getD_eq_default _ _ hn

/-- Without a difference signal the channels are the mono audio. -/
lemma StereoTuning.channels_silent (tuning : StereoTuning K) {xs : List K}
    (h : ∀ x ∈ convolved (mirrored tuning.stereoTaps) xs, x = 0) :
    tuning.channel (· + ·) xs = monoAudio tuning.monoTaps tuning.alpha xs ∧
      tuning.channel (· - ·) xs = monoAudio tuning.monoTaps tuning.alpha xs := by
  have hdifference : ∀ x ∈ tuning.difference xs, x = 0 := by
    intro x hx
    obtain ⟨n, hn⟩ := List.getElem?_of_mem hx
    obtain ⟨y, d, hy, -, rfl⟩ := List.getElem?_zipWith_eq_some.1 hn
    rw [h y (List.mem_of_getElem? hy), zero_mul]
  have hdiff := audioDecimated_zero tuning.monoTaps hdifference
  have hmatrixed (op : K → K → K) (hop : ∀ s, op s 0 = s) :
      tuning.matrixed op xs = tuning.sumAudio xs := by
    have hreplicate : tuning.diffAudio xs = List.replicate (tuning.sumAudio xs).length 0 :=
      List.eq_replicate_iff.2 ⟨by simp, hdiff⟩
    rw [matrixed, hreplicate]
    refine List.ext_getElem? fun n => ?_
    rcases lt_or_ge n (tuning.sumAudio xs).length with hn | hn
    · rw [List.getElem?_eq_getElem hn, List.getElem?_zipWith_eq_some]
      exact ⟨_, 0, List.getElem?_eq_getElem hn, List.getElem?_replicate_of_lt hn, hop _⟩
    · rw [List.getElem?_eq_none hn, List.getElem?_eq_none]
      simpa using hn
  rw [channel, channel, hmatrixed _ add_zero, hmatrixed _ sub_zero]
  exact ⟨rfl, rfl⟩

/-! ### PCM -/

variable [FloorRing K]

/-- The sample is neither the largest nor the smallest one there is. -/
def Unclipped (sample : Int16) : Prop := int16Min < sample.toInt ∧ sample.toInt < int16Max

variable [IsStrictOrderedRing K]

/-- A frame whose samples add up to twice the mono sample, as it is put out. -/
lemma pcmSaturateS16_frame {l r m : K} (scale : K) (h : l + r = m + m)
    (hl : Unclipped (pcmSaturateS16 (l * scale))) (hr : Unclipped (pcmSaturateS16 (r * scale))) :
    |(pcmSaturateS16 (l * scale)).toInt + (pcmSaturateS16 (r * scale)).toInt
      - 2 * (pcmSaturateS16 (m * scale)).toInt| ≤ 2 := by
  have hleft := mem_of_pcmSaturateS16 hl.1 hl.2
  have hright := mem_of_pcmSaturateS16 hr.1 hr.2
  have hmean : l * scale + r * scale = m * scale + m * scale := by
    rw [← add_mul, h, add_mul]
  have hmono : m * scale ∈ Set.Icc (int16Min : K) (int16Max : K) := by
    obtain ⟨hl₀, hl₁⟩ := hleft
    obtain ⟨hr₀, hr₁⟩ := hright
    constructor <;> linarith
  rw [pcmSaturateS16_toInt_of_mem hleft, pcmSaturateS16_toInt_of_mem hright,
    pcmSaturateS16_toInt_of_mem hmono]
  exact abs_truncate_add_sub_le hmean

/-- **Stereo reception is compatible with mono.** In exact arithmetic, on the same blocks, whatever
they carry, every stereo frame that is not clipped adds up to twice the mono sample, but for two
steps of the quantiser; and without anything in the stereo band both channels are the mono signal
exactly. -/
theorem fmStereo_compatible_with_mono (math : MathLibrary K) (volumeGain deemphasisTauSeconds : K)
    (blocks : List (MpxBlock K)) :
    ∃ mono stereo monoOutputs stereoOutputs,
      Loop.calls fmMonoProcessBlock
          (fmMonoConfigure math fmMonoInit volumeGain deemphasisTauSeconds) blocks
        = some (mono, monoOutputs) ∧
      Loop.calls fmStereoProcessBlock
          (fmStereoConfigure math fmStereoReceiverInit volumeGain deemphasisTauSeconds) blocks
        = some (stereo, stereoOutputs) ∧
      ∀ n < monoOutputs.flatten.length, ∃ l r m,
        stereoOutputs.flatten[n * 2]? = some l ∧ stereoOutputs.flatten[n * 2 + 1]? = some r ∧
        monoOutputs.flatten[n]? = some m ∧
        (Unclipped l → Unclipped r → |l.toInt + r.toInt - 2 * m.toInt| ≤ 2) ∧
        ((∀ x ∈ convolved (mirrored (stereoTuning math volumeGain deemphasisTauSeconds).stereoTaps)
          (blocks.flatMap MpxBlock.samples), x = 0) → l = m ∧ r = m) := by
  obtain ⟨mono, monoOutputs, hmono, -, hmonoPcm⟩ :=
    fmMonoProcessBlocks math volumeGain deemphasisTauSeconds blocks
  obtain ⟨stereo, stereoOutputs, hstereo, -, hstereoPcm⟩ :=
    fmStereoProcessBlocks math volumeGain deemphasisTauSeconds blocks
  refine ⟨mono, stereo, monoOutputs, stereoOutputs, hmono, hstereo, fun n hn => ?_⟩
  obtain ⟨tuning, htuning⟩ : ∃ tuning, tuning = stereoTuning math volumeGain deemphasisTauSeconds :=
    ⟨_, rfl⟩
  obtain ⟨xs, hxs⟩ : ∃ xs, xs = blocks.flatMap MpxBlock.samples := ⟨_, rfl⟩
  have hmonoTuned : monoOutputs.flatten = monoPcm tuning.monoTaps tuning.alpha tuning.scale xs := by
    rw [hmonoPcm, htuning, hxs]
    rfl
  rw [← htuning, ← hxs] at hstereoPcm ⊢
  have hlength : n < xs.length / fmPipelineAudioDecimationFactor := by
    rwa [hmonoTuned, monoPcm, pcmConvertF32ToS16, List.length_map, monoAudio, length_smoothed,
      length_audioDecimated, length_convolved] at hn
  obtain ⟨l, r, m, hl, hr, hm, hframe⟩ := tuning.frame hlength
  obtain ⟨hleft, hright⟩ := pcmConvertStereoF32ToS16_frame tuning.scale hl hr
  refine ⟨_, _, pcmSaturateS16 (m * tuning.scale), hstereoPcm ▸ hleft, hstereoPcm ▸ hright, ?_,
    pcmSaturateS16_frame tuning.scale hframe, ?_⟩
  · rw [hmonoTuned, monoPcm, pcmConvertF32ToS16, List.getElem?_map, hm, Option.map_some]
  · intro hsilent
    obtain ⟨hsum, hdiff⟩ := tuning.channels_silent hsilent
    rw [hsum, hm, Option.some.injEq] at hl
    rw [hdiff, hm, Option.some.injEq] at hr
    rw [← hl, ← hr]
    exact ⟨rfl, rfl⟩

/-- A block of a ramp, through filters without a zero tap. -/
theorem fmStereo_compatible_with_mono_ramp :
    ∃ mono stereo monoOutputs stereoOutputs,
      Loop.calls fmMonoProcessBlock (fmMonoConfigure ⟨id, id, fun _ => 0⟩
          (fmMonoInit : FmMonoState ℚ) 1 1) [.ofFn fun i => i] = some (mono, monoOutputs) ∧
      Loop.calls fmStereoProcessBlock (fmStereoConfigure ⟨id, id, fun _ => 0⟩
          (fmStereoReceiverInit : FmStereoReceiver ℚ) 1 1) [.ofFn fun i => i]
        = some (stereo, stereoOutputs) ∧
      monoOutputs.flatten[0]? = some 1237 ∧
      stereoOutputs.flatten[0]? = some 932 ∧ stereoOutputs.flatten[1]? = some 1543 ∧
      ∀ n < monoOutputs.flatten.length, ∃ l r m,
        stereoOutputs.flatten[n * 2]? = some l ∧ stereoOutputs.flatten[n * 2 + 1]? = some r ∧
        monoOutputs.flatten[n]? = some m ∧
        (Unclipped l → Unclipped r → |l.toInt + r.toInt - 2 * m.toInt| ≤ 2) := by
  obtain ⟨mono, stereo, monoOutputs, stereoOutputs, hmono, hstereo, hframes⟩ :=
    fmStereo_compatible_with_mono ⟨id, id, fun _ => 0⟩ (1 : ℚ) 1 [.ofFn fun i => i]
  obtain ⟨_, _, hmonoCalls, -, hmonoPcm⟩ :=
    fmMonoProcessBlocks ⟨id, id, fun _ => 0⟩ (1 : ℚ) 1 [.ofFn fun i => i]
  obtain ⟨_, _, hstereoCalls, -, hstereoPcm⟩ :=
    fmStereoProcessBlocks ⟨id, id, fun _ => 0⟩ (1 : ℚ) 1 [.ofFn fun i => i]
  obtain ⟨rfl, rfl⟩ := Prod.mk.inj (Option.some.inj (hmonoCalls.symm.trans hmono))
  obtain ⟨rfl, rfl⟩ := Prod.mk.inj (Option.some.inj (hstereoCalls.symm.trans hstereo))
  refine ⟨_, _, _, _, hmono, hstereo, ?_, ?_, ?_, fun n hn => ?_⟩
  · rw [hmonoPcm]
    exact monoPcm_ramp []
  · rw [hstereoPcm]
    exact (stereoPcm_ramp []).1
  · rw [hstereoPcm]
    exact (stereoPcm_ramp []).2
  · obtain ⟨l, r, m, hl, hr, hm, hsum, -⟩ := hframes n hn
    exact ⟨l, r, m, hl, hr, hm, hsum⟩

end Mpxcast
