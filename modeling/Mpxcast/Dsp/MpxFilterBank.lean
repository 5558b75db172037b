import Mpxcast.Core.Causal
import Mpxcast.Dsp.FirSpecialized
import Mpxcast.Dsp.FmStereo

/-!
# The filter bank of the multiplex

`dsp/mpx_filter_bank.c`: low and band passes that are designed for the sample rate and run side by
side over the multiplex. The constants of `core/math_constants.h` and the functions of `<math.h>`
are numbers and functions of an ordered field `K`.
-/

namespace Mpxcast

open CMemory Convolution DelayLine

/-- What is used of `<math.h>`. -/
structure MathLibrary (K : Type*) where
  sinf : K → K
  cosf : K → K
  expf : K → K

def mpxFilterBankTapCount : ℕ := 90

def mpxFilterBankMonoCutoffHz : ℕ := 16000

def mpxFilterBankPilotLowHz : ℕ := 18000

def mpxFilterBankPilotHighHz : ℕ := 20000

def mpxFilterBankStereoLowHz : ℕ := 21000

def mpxFilterBankStereoHighHz : ℕ := 55000

def fmPipelineMpxRateHz : ℕ := 240000

def fmPipelineAudioOutputRateHz : ℕ := 48000

structure MpxFilterBankState (K : Type*) where
  configuredSampleRate : K
  stereoEnabled : Bool
  monoFilter : FirState K
  pilotFilter : FirState K
  stereoFilter : FirState K

variable {K : Type*} [Field K]

/-- `PI2_F` -/
def pi2F : K := ((628318531 : ℕ) : K) / ((100000000 : ℕ) : K)

/-- `PI_F` -/
def piF : K := ((314159265 : ℕ) : K) / ((100000000 : ℕ) : K)

def mpxFilterBankHamming (math : MathLibrary K) (tapCount i : ℕ) : K :=
  ((54 : ℕ) : K) / ((100 : ℕ) : K)
    - ((46 : ℕ) : K) / ((100 : ℕ) : K) * math.cosf ((pi2F * i) / ((tapCount : K) - 1))

section Design

variable [LinearOrder K]

def mpxFilterBankDesignLowpassTaps (math : MathLibrary K) (sampleRate cutoffHz : K)
    (tapCount : ℕ) : List K :=
  let center := ((tapCount : K) - 1) * (1 / ((2 : ℕ) : K))
  let normalizedCutoff := cutoffHz / sampleRate
  (List.range tapCount).map fun i : ℕ =>
    let x := (i : K) - center
    let sinc :=
      if |x| < 1 / ((1000000000 : ℕ) : K) then ((2 : ℕ) : K) * normalizedCutoff
      else math.sinf (pi2F * normalizedCutoff * x) / (piF * x)
    sinc * mpxFilterBankHamming math tapCount i

def mpxFilterBankDesignBandpassTaps (math : MathLibrary K) (sampleRate lowHz highHz : K) :
    List K :=
  let center := ((mpxFilterBankTapCount : K) - 1) * (1 / ((2 : ℕ) : K))
  let normalizedLow := lowHz / sampleRate
  let normalizedHigh := highHz / sampleRate
  (List.range mpxFilterBankTapCount).map fun i : ℕ =>
    let x := (i : K) - center
    let band :=
      if |x| < 1 / ((1000000000 : ℕ) : K) then ((2 : ℕ) : K) * (normalizedHigh - normalizedLow)
      else
        (math.sinf (pi2F * normalizedHigh * x) - math.sinf (pi2F * normalizedLow * x)) / (piF * x)
    band * mpxFilterBankHamming math mpxFilterBankTapCount i

@[simp] lemma length_designLowpassTaps (math : MathLibrary K) (sampleRate cutoffHz : K)
    (tapCount : ℕ) :
    (mpxFilterBankDesignLowpassTaps math sampleRate cutoffHz tapCount).length = tapCount := by
  simp [mpxFilterBankDesignLowpassTaps]

@[simp] lemma length_designBandpassTaps (math : MathLibrary K) (sampleRate lowHz highHz : K) :
    (mpxFilterBankDesignBandpassTaps math sampleRate lowHz highHz).length
      = mpxFilterBankTapCount := by
  simp [mpxFilterBankDesignBandpassTaps]

/-! ### Configuration -/

omit [LinearOrder K] in
def mpxFilterBankInit : MpxFilterBankState K where
  configuredSampleRate := 0
  stereoEnabled := false
  monoFilter := firInit
  pilotFilter := firInit
  stereoFilter := firInit

/-- A bank that is configured like this already keeps its filters, and what they have seen. -/
def mpxFilterBankConfigure (math : MathLibrary K) (state : MpxFilterBankState K) (sampleRate : K)
    (stereoEnabled : Bool) : MpxFilterBankState K :=
  if state.configuredSampleRate = sampleRate ∧ state.stereoEnabled = stereoEnabled then state
  else
    let monoFilter := firConfigure (mpxFilterBankDesignLowpassTaps math sampleRate
      mpxFilterBankMonoCutoffHz mpxFilterBankTapCount) mpxFilterBankTapCount
    let (pilotFilter, stereoFilter) :=
      if stereoEnabled then
        (firConfigure (mpxFilterBankDesignBandpassTaps math sampleRate mpxFilterBankPilotLowHz
            mpxFilterBankPilotHighHz) mpxFilterBankTapCount,
          firConfigure (mpxFilterBankDesignBandpassTaps math sampleRate mpxFilterBankStereoLowHz
            mpxFilterBankStereoHighHz) mpxFilterBankTapCount)
      else (firInit, firInit)
    { configuredSampleRate := sampleRate
      stereoEnabled := stereoEnabled
      monoFilter := monoFilter
      pilotFilter := pilotFilter
      stereoFilter := stereoFilter }

end Design

/-! ### Blocks -/

/-- Samples are written to the start of the array; `none` where they do not fit. -/
def MpxBlock.write (block : MpxBlock K) (samples : List K) : Option (MpxBlock K) :=
  if h : samples.length ≤ fmPipelineDspBlockSamples then
    some ⟨memcpy block.samples 0 samples, by
      rw [memcpy_length (by rw [block.length_eq, Nat.zero_add]; exact h), block.length_eq]⟩
  else none

omit [Field K] in
lemma MpxBlock.write_eq (block : MpxBlock K) {samples : List K}
    (h : samples.length ≤ fmPipelineDspBlockSamples) :
    ∃ next, block.write samples = some next ∧
      next.samples = samples ++ block.samples.drop samples.length := by
  refine ⟨_, dif_pos h, ?_⟩
  dsimp only
  rw [memcpy_zero]

omit [Field K] in
/-- The front of an array that was just written. -/
lemma MpxBlock.take_write {block next : MpxBlock K} {samples : List K}
    (h : next.samples = samples ++ block.samples.drop samples.length) :
    next.samples.take samples.length = samples := by
  rw [h, List.take_left]

omit [Field K] in
/-- A whole array is replaced. -/
lemma MpxBlock.write_whole (block whole : MpxBlock K) : block.write whole.samples = some whole := by
  obtain ⟨next, hwrite, hnext⟩ := block.write_eq whole.length_eq.le
  rw [List.drop_of_length_le (by rw [block.length_eq, whole.length_eq]), List.append_nil] at hnext
  obtain ⟨samples, hlength⟩ := next
  obtain rfl : samples = whole.samples := hnext
  exact hwrite

omit [Field K] in
/-- A sample of the front of an array. -/
lemma MpxBlock.load_front {block : MpxBlock K} {front rest : List K}
    (h : block.samples = front ++ rest) {i : ℕ} (hi : i < front.length) :
    block.load i = front[i]? := by
  rw [load, h, List.getElem?_append_left hi]

omit [Field K] in
/-- What was loaded sample by sample. -/
lemma MpxBlock.take_eq_of_load {block : MpxBlock K} {samples : List K}
    (h : ∀ i < samples.length, block.load i = samples[i]?) :
    block.samples.take samples.length = samples := by
  refine List.ext_getElem? fun i => ?_
  rcases lt_or_ge i samples.length with hi | hi
  · rw [List.getElem?_take_of_lt hi]
    exact h i hi
  · rw [List.getElem?_eq_none hi, List.getElem?_eq_none]
    rw [List.length_take]
    omega

/-- One filter of the bank, when there is an array for what it puts out. -/
def mpxFilterBankRunFilter (enabled : Bool) (filter : FirState K) (input : List K) :
    Option (MpxBlock K) → Option (FirState K × Option (MpxBlock K))
  | none => some (filter, none)
  | some output =>
    if enabled && filter.configured then do
      let (filter, samples) ← firExecuteBlock filter input
      let output ← output.write samples
      return (filter, some output)
    else some (filter, some output)

structure MpxFilterBankOutputs (K : Type*) where
  mono : Option (MpxBlock K)
  pilot : Option (MpxBlock K)
  stereo : Option (MpxBlock K)

def mpxFilterBankProcessBlock (state : MpxFilterBankState K) (input : List K)
    (outputs : MpxFilterBankOutputs K) :
    Option (MpxFilterBankState K × MpxFilterBankOutputs K) := do
  let (monoFilter, mono) ← mpxFilterBankRunFilter true state.monoFilter input outputs.mono
  let (pilotFilter, pilot) ←
    mpxFilterBankRunFilter state.stereoEnabled state.pilotFilter input outputs.pilot
  let (stereoFilter, stereo) ←
    mpxFilterBankRunFilter state.stereoEnabled state.stereoFilter input outputs.stereo
  return ({ state with
    monoFilter := monoFilter
    pilotFilter := pilotFilter
    stereoFilter := stereoFilter }, ⟨mono, pilot, stereo⟩)

/-! ### Streams -/

/-- What a filter puts out for a block of its stream. -/
def filteredBlock (taps history : List K) (input : MpxBlock K) : MpxBlock K :=
  ⟨due 1 (firResponse taps) history input.samples, by
    rw [length_due, Nat.div_one, Nat.div_one, Nat.add_sub_cancel_left, input.length_eq]⟩

/-- A filter is a causal function of its stream. -/
lemma causal_filtered (taps : List K) : Causal (convolved (mirrored taps)) := by
  have hfiltered : convolved (mirrored taps) = due 1 (firResponse taps) [] :=
    funext fun xs => (due_one_eq_convolved taps xs).symm
  rw [hfiltered]
  exact Causal.due 1 (firResponse taps)

lemma filteredBlock_samples (taps history : List K) (input : MpxBlock K) :
    (filteredBlock taps history input).samples
      = Causal.since (convolved (mirrored taps)) history input.samples := by
  have hfiltered : convolved (mirrored taps) = due 1 (firResponse taps) [] :=
    funext fun xs => (due_one_eq_convolved taps xs).symm
  rw [hfiltered, Causal.since_due]
  rfl

/-- A filter that runs answers a whole block. -/
lemma mpxFilterBankRunFilter_represents {filter : FirState K} {taps history : List K}
    (h : filter.Represents taps history) (input output : MpxBlock K) :
    ∃ next, mpxFilterBankRunFilter true filter input.samples (some output)
        = some (next, some (filteredBlock taps history input)) ∧
      next.Represents taps (history ++ input.samples) := by
  obtain ⟨next, hexecute, hnext⟩ := h.execute input.samples
  refine ⟨next, ?_, hnext⟩
  have hwrite := output.write_whole (filteredBlock taps history input)
  rw [mpxFilterBankRunFilter, h.configured, Bool.and_self, if_pos rfl, hexecute]
  simp only [Option.bind_eq_bind, Option.bind_some]
  exact congrArg (fun written : Option (MpxBlock K) =>
    written.bind fun block => some (next, some block)) hwrite

/-- Without arrays for the bands only the low pass runs. -/
lemma mpxFilterBankProcessBlock_mono {state : MpxFilterBankState K} {taps history : List K}
    (h : state.monoFilter.Represents taps history) (input mono : MpxBlock K) :
    ∃ next, mpxFilterBankProcessBlock state input.samples ⟨some mono, none, none⟩
        = some (next, ⟨some (filteredBlock taps history input), none, none⟩) ∧
      next.monoFilter.Represents taps (history ++ input.samples) := by
  obtain ⟨filter, hrun, hfilter⟩ := mpxFilterBankRunFilter_represents h input mono
  refine ⟨{ state with monoFilter := filter }, ?_, hfilter⟩
  rw [mpxFilterBankProcessBlock, hrun]
  rfl

/-- The bank hears the multiplex through its three filters. -/
structure MpxFilterBankState.Hears (state : MpxFilterBankState K)
    (monoTaps pilotTaps stereoTaps history : List K) : Prop where
  enabled : state.stereoEnabled = true
  mono : state.monoFilter.Represents monoTaps history
  pilot : state.pilotFilter.Represents pilotTaps history
  stereo : state.stereoFilter.Represents stereoTaps history

lemma MpxFilterBankState.Hears.process {state : MpxFilterBankState K}
    {monoTaps pilotTaps stereoTaps history : List K}
    (h : state.Hears monoTaps pilotTaps stereoTaps history) (input mono pilot stereo : MpxBlock K) :
    ∃ next, mpxFilterBankProcessBlock state input.samples ⟨some mono, some pilot, some stereo⟩
        = some (next, ⟨some (filteredBlock monoTaps history input),
            some (filteredBlock pilotTaps history input),
            some (filteredBlock stereoTaps history input)⟩) ∧
      next.Hears monoTaps pilotTaps stereoTaps (history ++ input.samples) := by
  obtain ⟨monoFilter, hmono, hmonoNext⟩ := mpxFilterBankRunFilter_represents h.mono input mono
  obtain ⟨pilotFilter, hpilot, hpilotNext⟩ := mpxFilterBankRunFilter_represents h.pilot input pilot
  obtain ⟨stereoFilter, hstereo, hstereoNext⟩ :=
    mpxFilterBankRunFilter_represents h.stereo input stereo
  refine ⟨{ state with
      monoFilter := monoFilter, pilotFilter := pilotFilter, stereoFilter := stereoFilter },
    ?_, h.enabled, hmonoNext, hpilotNext, hstereoNext⟩
  rw [mpxFilterBankProcessBlock, h.enabled, hmono]
  simp only [Option.bind_eq_bind, Option.bind_some]
  rw [hpilot, Option.bind_some, hstereo]
  rfl

section Configured

variable [LinearOrder K] [IsStrictOrderedRing K]

lemma mpxFilterBankTapCount_bounds :
    0 < mpxFilterBankTapCount ∧ mpxFilterBankTapCount ≤ firMaxTaps := by decide

omit [LinearOrder K] [IsStrictOrderedRing K] in
/-- Filters that were just designed have seen nothing. -/
lemma firConfigure_designed {taps : List K} (h : taps.length = mpxFilterBankTapCount) :
    (firConfigure taps mpxFilterBankTapCount).Represents taps [] := by
  have hconfigure : (firConfigure taps taps.length).Represents taps [] :=
    firConfigure_represents (h ▸ mpxFilterBankTapCount_bounds.1)
      (h ▸ mpxFilterBankTapCount_bounds.2)
  rwa [h] at hconfigure

lemma fmPipelineMpxRateHz_ne_zero : (fmPipelineMpxRateHz : K) ≠ 0 :=
  Nat.cast_ne_zero.2 (by decide)

/-- A bank that was just initialised is configured anew. -/
lemma mpxFilterBankConfigure_init_mono (math : MathLibrary K) :
    (mpxFilterBankConfigure math mpxFilterBankInit fmPipelineMpxRateHz false).monoFilter.Represents
      (mpxFilterBankDesignLowpassTaps math fmPipelineMpxRateHz mpxFilterBankMonoCutoffHz
        mpxFilterBankTapCount) [] := by
  unfold mpxFilterBankConfigure
  rw [if_neg fun hsame => fmPipelineMpxRateHz_ne_zero hsame.1.symm]
  exact firConfigure_designed (length_designLowpassTaps math _ _ _)

lemma mpxFilterBankConfigure_init_hears (math : MathLibrary K) :
    (mpxFilterBankConfigure math mpxFilterBankInit fmPipelineMpxRateHz true).Hears
      (mpxFilterBankDesignLowpassTaps math fmPipelineMpxRateHz mpxFilterBankMonoCutoffHz
        mpxFilterBankTapCount)
      (mpxFilterBankDesignBandpassTaps math fmPipelineMpxRateHz mpxFilterBankPilotLowHz
        mpxFilterBankPilotHighHz)
      (mpxFilterBankDesignBandpassTaps math fmPipelineMpxRateHz mpxFilterBankStereoLowHz
        mpxFilterBankStereoHighHz) [] := by
  unfold mpxFilterBankConfigure
  rw [if_neg fun hsame => fmPipelineMpxRateHz_ne_zero hsame.1.symm]
  exact ⟨rfl, firConfigure_designed (length_designLowpassTaps math _ _ _),
    firConfigure_designed (length_designBandpassTaps math _ _ _),
    firConfigure_designed (length_designBandpassTaps math _ _ _)⟩

end Configured

/-! ### The audio decimator -/

/-- The hand-written decimator is chosen when the filter bank and the pipeline have its taps and its
factor. -/
def firAudioDecimatorProcessBlock (state : FirDecimatorState K) (input : List K)
    (maxOutputSampleCount : ℕ) : Option (FirDecimatorState K × List K) :=
  if fmPipelineAudioDecimationFactor = firSpecializedDecimatorFactor ∧
      mpxFilterBankTapCount = firSpecializedDecimatorTapCount then
    firDecimatorProcessBlockSpecialized90x5 state input maxOutputSampleCount
  else firDecimatorProcessBlock state input maxOutputSampleCount

/-- The low pass at the audio rate, as a function of the whole stream. -/
def audioDecimated (taps xs : List K) : List K :=
  decimated fmPipelineAudioDecimationFactor (convolved (mirrored taps) xs)

lemma audioDecimated_eq (taps : List K) :
    audioDecimated taps = due fmPipelineAudioDecimationFactor (firResponse taps) [] :=
  funext fun xs => (due_eq_decimated (by decide) taps xs).symm

lemma audioDecimated_nil (taps : List K) : audioDecimated taps [] = [] := by
  rw [audioDecimated_eq, due_nil]

lemma convolved_nil (taps : List K) : convolved taps [] = [] := rfl

lemma causal_audioDecimated (taps : List K) : Causal (audioDecimated taps) := by
  rw [audioDecimated_eq]
  exact Causal.due _ (firResponse taps)

lemma length_audioDecimated (taps xs : List K) :
    (audioDecimated taps xs).length = xs.length / fmPipelineAudioDecimationFactor := by
  rw [audioDecimated, length_decimated, length_convolved]

/-- A block is answered with a block of audio. -/
lemma length_since_audioDecimated (taps : List K) {history : List K}
    (hhistory : fmPipelineAudioDecimationFactor ∣ history.length) (block : MpxBlock K) :
    (Causal.since (audioDecimated taps) history block.samples).length
      = fmPipelineAudioBlockSamples := by
  obtain ⟨k, hk⟩ := hhistory
  have hfactor : 0 < fmPipelineAudioDecimationFactor := by decide
  rw [audioDecimated_eq, Causal.since_due, length_due, hk, block.length_eq,
    fmPipelineDspBlockSamples, Nat.mul_comm fmPipelineAudioBlockSamples, ← Nat.mul_add,
    Nat.mul_div_cancel_left _ hfactor, Nat.mul_div_cancel_left _ hfactor, Nat.add_sub_cancel_left]

lemma FirDecimatorState.Overlaps.processAudio {state : FirDecimatorState K} {taps history : List K}
    (htaps : taps.length = mpxFilterBankTapCount) (h : state.Overlaps taps history)
    (input : MpxBlock K) :
    ∃ next, firAudioDecimatorProcessBlock state input.samples fmPipelineAudioBlockSamples
        = some (next, Causal.since (audioDecimated taps) history input.samples) ∧
      next.Overlaps taps (history ++ input.samples) := by
  have hwhole : firSpecializedDecimatorFactor ∣ input.samples.length := by
    rw [input.length_eq]
    exact Nat.dvd_mul_left _ _
  obtain ⟨next, hprocess, hnext⟩ := h.process htaps input.samples hwhole fmPipelineAudioBlockSamples
  refine ⟨next, ?_, hnext⟩
  have hanswer : Causal.since (audioDecimated taps) history input.samples
      = due firSpecializedDecimatorFactor (firResponse taps) history input.samples := by
    rw [audioDecimated_eq, Causal.since_due]
    rfl
  have hlength := length_since_audioDecimated taps h.frames input
  rw [hanswer] at hlength
  rw [firAudioDecimatorProcessBlock, if_pos ⟨rfl, rfl⟩, hprocess, hanswer,
    List.take_of_length_le hlength.le]

lemma firDecimatorConfigure_audio {taps : List K} (h : taps.length = mpxFilterBankTapCount) :
    (firDecimatorConfigure fmPipelineAudioDecimationFactor taps mpxFilterBankTapCount).Overlaps taps
      [] :=
  firDecimatorConfigure_overlaps h

end Mpxcast
