import Mpxcast.Audio.Pcm
import Mpxcast.Dsp.Deemphasis
import Mpxcast.Dsp.MpxFilterBank

/-!
# FM mono

`dsp/fm_mono.c`: the low pass of the filter bank, decimation to the audio rate, deemphasis and
conversion to PCM. Over any sequence of blocks this is one function of the stream of samples, which
are elements of an ordered field `K`.
-/

namespace Mpxcast

open CMemory Convolution OnePole

def fmMonoAudioBlockSamples : ℕ := fmPipelineAudioBlockSamples

structure FmMonoState (K : Type*) where
  deemphasis : DeemphasisState K
  mpxFilterBank : MpxFilterBankState K
  audioDecimator : FirDecimatorState K
  outputScale : K
  monoMpx : MpxBlock K
  audioBlock : MpxBlock K

variable {K : Type*} [Field K] [LinearOrder K]

omit [LinearOrder K] in
def fmMonoInit : FmMonoState K where
  deemphasis := ⟨0, 0⟩
  mpxFilterBank := mpxFilterBankInit
  audioDecimator := firDecimatorInit
  outputScale := 0
  monoMpx := .ofFn fun _ => 0
  audioBlock := .ofFn fun _ => 0

/-- The taps of the low pass, for the filter bank and for the decimators. -/
def lowpassTaps (math : MathLibrary K) : List K :=
  mpxFilterBankDesignLowpassTaps math fmPipelineMpxRateHz mpxFilterBankMonoCutoffHz
    mpxFilterBankTapCount

def fmMonoConfigureAudioDecimator (math : MathLibrary K) (state : FmMonoState K) : FmMonoState K :=
  { state with
    audioDecimator := firDecimatorConfigure fmPipelineAudioDecimationFactor (lowpassTaps math)
      mpxFilterBankTapCount }

def fmMonoConfigure (math : MathLibrary K) (state : FmMonoState K)
    (volumeGain deemphasisTauSeconds : K) : FmMonoState K :=
  fmMonoConfigureAudioDecimator math { state with
    deemphasis := deemphasisInit math.expf fmPipelineAudioOutputRateHz deemphasisTauSeconds
    outputScale := pcmAudioOutputScale volumeGain
    mpxFilterBank :=
      mpxFilterBankConfigure math state.mpxFilterBank fmPipelineMpxRateHz false }

variable [FloorRing K]

def fmMonoOutputAudioBlock (state : FmMonoState K) (sampleCount : ℕ) :
    Option (FmMonoState K × List Int16) := do
  let sampleCount :=
    if sampleCount > fmMonoAudioBlockSamples then fmMonoAudioBlockSamples else sampleCount
  let (deemphasis, samples) :=
    deemphasisProcessBuffer state.deemphasis (state.audioBlock.samples.take sampleCount)
  let audioBlock ← state.audioBlock.write samples
  return ({ state with deemphasis := deemphasis, audioBlock := audioBlock },
    pcmConvertF32ToS16 (audioBlock.samples.take sampleCount) state.outputScale)

def fmMonoProcessMpxBlock (state : FmMonoState K) (demodulated : MpxBlock K) :
    Option (FmMonoState K × List Int16) := do
  let (mpxFilterBank, outputs) ← mpxFilterBankProcessBlock state.mpxFilterBank demodulated.samples
    ⟨some state.monoMpx, none, none⟩
  let monoMpx ← outputs.mono
  let (audioDecimator, produced) ←
    firAudioDecimatorProcessBlock state.audioDecimator monoMpx.samples fmMonoAudioBlockSamples
  let audioBlock ← state.audioBlock.write produced
  fmMonoOutputAudioBlock { state with
    mpxFilterBank := mpxFilterBank
    monoMpx := monoMpx
    audioDecimator := audioDecimator
    audioBlock := audioBlock } produced.length

/-- What is not written is zero. -/
def fmMonoProcessBlock (state : FmMonoState K) (demodulated : MpxBlock K) :
    Option (FmMonoState K × List Int16) := do
  let (state, written) ← fmMonoProcessMpxBlock state demodulated
  return (state, written ++ List.replicate (fmMonoAudioBlockSamples - written.length) 0)

/-! ### The stream -/

omit [LinearOrder K] [FloorRing K] in
/-- The audio of a multiplex: twice through the low pass, at the audio rate, smoothed. -/
def monoAudio (taps : List K) (alpha : K) (xs : List K) : List K :=
  smoothed alpha 0 (audioDecimated taps (convolved (mirrored taps) xs))

def monoPcm (taps : List K) (alpha scale : K) (xs : List K) : List Int16 :=
  pcmConvertF32ToS16 (monoAudio taps alpha xs) scale

omit [LinearOrder K] [FloorRing K] in
lemma causal_monoAudio (taps : List K) (alpha : K) : Causal (monoAudio taps alpha) :=
  (causal_smoothed alpha 0).comp ((causal_audioDecimated taps).comp (causal_filtered taps))

lemma causal_monoPcm (taps : List K) (alpha scale : K) : Causal (monoPcm taps alpha scale) :=
  (Causal.map _).comp (causal_monoAudio taps alpha)

lemma monoPcm_nil (taps : List K) (alpha scale : K) : monoPcm taps alpha scale [] = [] := by
  rw [monoPcm, monoAudio, convolved_nil, audioDecimated_nil]
  rfl

/-- The stages answer one after the other. -/
lemma since_monoPcm (taps : List K) (alpha scale : K) (history input : List K) :
    Causal.since (monoPcm taps alpha scale) history input
      = pcmConvertF32ToS16 (smoothed alpha
          (last alpha 0 (audioDecimated taps (convolved (mirrored taps) history)))
          (Causal.since (audioDecimated taps) (convolved (mirrored taps) history)
            (Causal.since (convolved (mirrored taps)) history input))) scale := by
  have hfiltered := causal_filtered taps
  have haudio := (causal_audioDecimated taps).comp hfiltered
  unfold monoPcm monoAudio pcmConvertF32ToS16
  rw [Causal.since_comp (f := List.map _) ((causal_smoothed alpha 0).comp haudio),
    Causal.since_map, Causal.since_comp (f := smoothed alpha 0) haudio, since_smoothed,
    Causal.since_comp hfiltered]

/-- The receiver has heard the history. -/
structure FmMonoState.Heard (state : FmMonoState K) (taps : List K) (alpha scale : K)
    (history : List K) : Prop where
  mono : state.mpxFilterBank.monoFilter.Represents taps history
  decimator : state.audioDecimator.Overlaps taps (convolved (mirrored taps) history)
  alpha_eq : state.deemphasis.alpha = alpha
  output : state.deemphasis.output
    = last alpha 0 (audioDecimated taps (convolved (mirrored taps) history))
  scale_eq : state.outputScale = scale

omit [FloorRing K] in
lemma lowpassTaps_length (math : MathLibrary K) :
    (lowpassTaps math).length = mpxFilterBankTapCount := length_designLowpassTaps math _ _ _

omit [FloorRing K] in
lemma fmMonoConfigure_heard [IsStrictOrderedRing K] (math : MathLibrary K)
    (volumeGain deemphasisTauSeconds : K) :
    (fmMonoConfigure math fmMonoInit volumeGain deemphasisTauSeconds).Heard (lowpassTaps math)
      (deemphasisInit math.expf fmPipelineAudioOutputRateHz deemphasisTauSeconds).alpha
      (pcmAudioOutputScale volumeGain) [] where
  mono := mpxFilterBankConfigure_init_mono math
  decimator := firDecimatorConfigure_audio (lowpassTaps_length math)
  alpha_eq := rfl
  output := by
    rw [convolved_nil, audioDecimated_nil]
    exact deemphasisInit_output _ _ _
  scale_eq := rfl

/-- The audio at the start of the array is smoothed and converted; filters are left alone. -/
lemma fmMonoOutputAudioBlock_eq (state : FmMonoState K) {audio rest : List K}
    (haudio : audio.length = fmMonoAudioBlockSamples)
    (hblock : state.audioBlock.samples = audio ++ rest) :
    ∃ next, fmMonoOutputAudioBlock state audio.length = some (next, pcmConvertF32ToS16
        (smoothed state.deemphasis.alpha state.deemphasis.output audio) state.outputScale) ∧
      next.mpxFilterBank = state.mpxFilterBank ∧ next.audioDecimator = state.audioDecimator ∧
      next.outputScale = state.outputScale ∧ next.deemphasis.alpha = state.deemphasis.alpha ∧
      next.deemphasis.output = last state.deemphasis.alpha state.deemphasis.output audio := by
  have hfits : (smoothed state.deemphasis.alpha state.deemphasis.output audio).length
      ≤ fmPipelineDspBlockSamples := by
    rw [length_smoothed, haudio]
    decide
  obtain ⟨audioBlock, hwrite, hwritten⟩ := state.audioBlock.write_eq hfits
  have htake := MpxBlock.take_write hwritten
  rw [length_smoothed] at htake
  refine ⟨{ state with
    deemphasis :=
      { state.deemphasis with output := last state.deemphasis.alpha state.deemphasis.output audio }
    audioBlock := audioBlock }, ?_, rfl, rfl, rfl, rfl, rfl⟩
  rw [fmMonoOutputAudioBlock, if_neg haudio.le.not_gt, hblock, List.take_left,
    deemphasisProcessBuffer_eq]
  dsimp only
  rw [hwrite, Option.bind_eq_bind, Option.bind_some, htake]
  rfl

/-- A block is answered with what it adds to the PCM of the stream. -/
lemma FmMonoState.Heard.process {state : FmMonoState K} {taps history : List K} {alpha scale : K}
    (htaps : taps.length = mpxFilterBankTapCount) (h : state.Heard taps alpha scale history)
    (block : MpxBlock K) :
    ∃ next, fmMonoProcessBlock state block
        = some (next, Causal.since (monoPcm taps alpha scale) history block.samples) ∧
      next.Heard taps alpha scale (history ++ block.samples) := by
  obtain ⟨bank, hbank, hmono⟩ := mpxFilterBankProcessBlock_mono h.mono block state.monoMpx
  obtain ⟨filtered, hfiltered⟩ : ∃ filtered, filtered = filteredBlock taps history block :=
    ⟨_, rfl⟩
  have hsamples : filtered.samples
      = Causal.since (convolved (mirrored taps)) history block.samples :=
    hfiltered ▸ filteredBlock_samples taps history block
  have hhistory := Causal.append_since (causal_filtered taps) history block.samples
  obtain ⟨decimator, hdecimate, hdecimator⟩ := h.decimator.processAudio htaps filtered
  obtain ⟨audio, haudio⟩ : ∃ audio, audio = Causal.since (audioDecimated taps)
      (convolved (mirrored taps) history) filtered.samples := ⟨_, rfl⟩
  have hlength : audio.length = fmMonoAudioBlockSamples :=
    haudio ▸ length_since_audioDecimated taps h.decimator.frames filtered
  obtain ⟨written, hwrite, hwritten⟩ := state.audioBlock.write_eq
    (hlength.trans_le (by decide))
  rw [← hfiltered] at hbank
  rw [← haudio] at hdecimate
  obtain ⟨next, houtput, hnextBank, hnextDecimator, hnextScale, hnextAlpha, hnextOutput⟩ :=
    fmMonoOutputAudioBlock_eq { state with
      mpxFilterBank := bank
      monoMpx := filtered
      audioDecimator := decimator
      audioBlock := written } hlength hwritten
  dsimp only at houtput hnextBank hnextDecimator hnextScale hnextAlpha hnextOutput
  have hpadding : fmPipelineAudioBlockSamples - (pcmConvertF32ToS16 (smoothed alpha
      (last alpha 0 (audioDecimated taps (convolved (mirrored taps) history))) audio) scale).length
        = 0 := by
    rw [pcmConvertF32ToS16, List.length_map, length_smoothed, hlength]
    exact Nat.sub_self _
  refine ⟨next, ?_, ?_, ?_, ?_, ?_, ?_⟩
  · rw [fmMonoProcessBlock, fmMonoProcessMpxBlock, hbank]
    simp only [Option.bind_eq_bind, Option.bind_some]
    rw [show fmMonoAudioBlockSamples = fmPipelineAudioBlockSamples from rfl, hdecimate]
    simp only [Option.bind_some]
    rw [hwrite, Option.bind_some, houtput, Option.bind_some, h.alpha_eq, h.output, h.scale_eq,
      hpadding, List.replicate_zero, List.append_nil, since_monoPcm, ← hsamples, ← haudio]
    rfl
  · rw [hnextBank]
    exact hmono
  · rw [hnextDecimator, ← hhistory, ← hsamples]
    exact hdecimator
  · rw [hnextAlpha, h.alpha_eq]
  · rw [hnextOutput, h.alpha_eq, h.output, ← last_append, haudio, hsamples,
      Causal.append_since (causal_audioDecimated taps), hhistory]
  · rw [hnextScale, h.scale_eq]

/-- Every block of audio is full. -/
lemma fmMonoProcessBlock_length {state next : FmMonoState K} {block : MpxBlock K}
    {output : List Int16} (h : fmMonoProcessBlock state block = some (next, output)) :
    output.length = fmMonoAudioBlockSamples := by
  simp only [fmMonoProcessBlock, fmMonoProcessMpxBlock, Option.bind_eq_bind,
    Option.bind_eq_some_iff] at h
  obtain ⟨⟨last, written⟩, ⟨_, -, _, -, _, -, _, -, houtput⟩, h⟩ := h
  obtain ⟨-, rfl⟩ := Prod.mk.inj (Option.some.inj h)
  simp only [fmMonoOutputAudioBlock, Option.bind_eq_bind, Option.bind_eq_some_iff] at houtput
  obtain ⟨audioBlock, -, houtput⟩ := houtput
  obtain ⟨-, rfl⟩ := Prod.mk.inj (Option.some.inj houtput)
  rw [List.length_append, List.length_replicate, pcmConvertF32ToS16, List.length_map,
    List.length_take]
  split_ifs <;> omega

/-- A sequence of blocks, of which each is answered with what it adds. -/
lemma fmMonoProcessBlocks [IsStrictOrderedRing K] (math : MathLibrary K)
    (volumeGain deemphasisTauSeconds : K) (blocks : List (MpxBlock K)) :
    ∃ next outputs,
      Loop.calls fmMonoProcessBlock
          (fmMonoConfigure math fmMonoInit volumeGain deemphasisTauSeconds) blocks
        = some (next, outputs) ∧
      (∀ output ∈ outputs, output.length = fmMonoAudioBlockSamples) ∧
      outputs.flatten = monoPcm (lowpassTaps math)
        (deemphasisInit math.expf fmPipelineAudioOutputRateHz deemphasisTauSeconds).alpha
        (pcmAudioOutputScale volumeGain) (blocks.flatMap MpxBlock.samples) := by
  obtain ⟨next, outputs, hcalls, -, hflatten, -⟩ := Causal.calls_compute
    (causal_monoPcm (lowpassTaps math) _ _) (monoPcm_nil _ _ _) MpxBlock.samples
    (fun (state : FmMonoState K) history => state.Heard (lowpassTaps math) _ _ history)
    (fun state history block h => h.process (lowpassTaps_length math) block)
    (fmMonoConfigure_heard math volumeGain deemphasisTauSeconds) blocks
  exact ⟨next, outputs, hcalls,
    Loop.calls_forall (fun _ _ _ _ => fmMonoProcessBlock_length) blocks hcalls, hflatten⟩

/-! ### Every sample -/

omit [LinearOrder K] [FloorRing K] in
lemma getD_audioDecimated (taps xs : List K) {j : ℕ}
    (hj : j < xs.length / fmPipelineAudioDecimationFactor) :
    (audioDecimated taps xs).getD j 0 = convolve (mirrored taps) xs
      ((j + 1) * fmPipelineAudioDecimationFactor - 1) := by
  have hle : (j + 1) * fmPipelineAudioDecimationFactor ≤ xs.length :=
    (Nat.mul_le_mul_right _ hj).trans (Nat.div_mul_le_self _ _)
  have hpos : 0 < (j + 1) * fmPipelineAudioDecimationFactor := Nat.mul_pos j.succ_pos (by decide)
  rw [audioDecimated, decimated, List.getD_eq_getElem?_getD, List.getElem?_map, length_convolved,
    List.getElem?_range hj, Option.map_some, Option.getD_some, getD_convolved _ _ (by omega)]

omit [LinearOrder K] [FloorRing K] in
/-- What an impulse response leaves of the audio so far. -/
lemma monoAudio_getElem? (taps : List K) (alpha : K) {xs : List K} {n : ℕ}
    (hn : n < xs.length / fmPipelineAudioDecimationFactor) :
    (monoAudio taps alpha xs)[n]? = some (∑ k ∈ Finset.range (n + 1), alpha * (1 - alpha) ^ k *
      convolve (mirrored taps) (convolved (mirrored taps) xs)
        ((n - k + 1) * fmPipelineAudioDecimationFactor - 1)) := by
  have hlength : n < (audioDecimated taps (convolved (mirrored taps) xs)).length := by
    rwa [length_audioDecimated, length_convolved]
  rw [monoAudio, smoothed_zero_getElem? hlength]
  refine congrArg some (Finset.sum_congr rfl fun k _ => ?_)
  rw [getD_audioDecimated]
  rw [length_convolved]
  omega

/-- What is put out for it. -/
lemma monoPcm_getElem? (taps : List K) (alpha scale : K) {xs : List K} {n : ℕ}
    (hn : n < xs.length / fmPipelineAudioDecimationFactor) :
    (monoPcm taps alpha scale xs)[n]? = some (pcmSaturateS16
      ((∑ k ∈ Finset.range (n + 1), alpha * (1 - alpha) ^ k *
        convolve (mirrored taps) (convolved (mirrored taps) xs)
          ((n - k + 1) * fmPipelineAudioDecimationFactor - 1)) * scale)) := by
  rw [monoPcm, pcmConvertF32ToS16, List.getElem?_map, monoAudio_getElem? _ _ hn, Option.map_some]

omit [Field K] [LinearOrder K] [FloorRing K] in
lemma length_flatMap_samples (blocks : List (MpxBlock K)) :
    (blocks.flatMap MpxBlock.samples).length = blocks.length * fmPipelineDspBlockSamples := by
  induction blocks with
  | nil => exact (Nat.zero_mul _).symm
  | cons block blocks ih =>
    rw [List.flatMap_cons, List.length_append, block.length_eq, ih, List.length_cons, Nat.succ_mul,
      Nat.add_comm]

omit [Field K] [LinearOrder K] [FloorRing K] in
lemma length_flatMap_samples_div (blocks : List (MpxBlock K)) :
    (blocks.flatMap MpxBlock.samples).length / fmPipelineAudioDecimationFactor
      = blocks.length * fmPipelineAudioBlockSamples := by
  rw [length_flatMap_samples, fmPipelineDspBlockSamples, ← Nat.mul_assoc,
    Nat.mul_div_cancel _ (by decide)]

/-- **Mono reception.** In exact arithmetic, over any number of blocks, each is answered with a
whole block of audio, and every sample of it is quantised from one weighted sum over the whole
multiplex so far: nothing is lost, repeated or disturbed where two blocks meet. -/
theorem fmMono_streams [IsStrictOrderedRing K] (math : MathLibrary K)
    (volumeGain deemphasisTauSeconds : K) (blocks : List (MpxBlock K)) :
    ∃ next outputs,
      Loop.calls fmMonoProcessBlock
          (fmMonoConfigure math fmMonoInit volumeGain deemphasisTauSeconds) blocks
        = some (next, outputs) ∧
      (∀ output ∈ outputs, output.length = fmMonoAudioBlockSamples) ∧
      outputs.flatten.length = blocks.length * fmMonoAudioBlockSamples ∧
      ∀ n < blocks.length * fmMonoAudioBlockSamples,
        let taps := mirrored (lowpassTaps math)
        let alpha := (deemphasisInit math.expf fmPipelineAudioOutputRateHz
          deemphasisTauSeconds).alpha
        outputs.flatten[n]? = some (pcmSaturateS16
          ((∑ k ∈ Finset.range (n + 1), alpha * (1 - alpha) ^ k *
              convolve taps (convolved taps (blocks.flatMap MpxBlock.samples))
                ((n - k + 1) * fmPipelineAudioDecimationFactor - 1)) *
            pcmAudioOutputScale volumeGain)) := by
  obtain ⟨next, outputs, hcalls, hwhole, hflatten⟩ :=
    fmMonoProcessBlocks math volumeGain deemphasisTauSeconds blocks
  refine ⟨next, outputs, hcalls, hwhole, ?_, fun n hn => ?_⟩
  · rw [hflatten, monoPcm, pcmConvertF32ToS16, List.length_map, monoAudio, length_smoothed,
      length_audioDecimated, length_convolved, length_flatMap_samples_div]
    rfl
  · rw [hflatten]
    refine monoPcm_getElem? _ _ _ ?_
    rwa [length_flatMap_samples_div]

/-- The sample that the start of a ramp leads to. -/
lemma monoPcm_ramp (blocks : List (MpxBlock ℚ)) :
    (monoPcm (lowpassTaps ⟨id, id, fun _ => 0⟩)
      (deemphasisInit (fun _ => 0) (fmPipelineAudioOutputRateHz : ℚ) 1).alpha
      (pcmAudioOutputScale 1)
      (((.ofFn fun i => i) :: blocks).flatMap MpxBlock.samples))[0]? = some 1237 := by
  have hfits : fmPipelineAudioDecimationFactor ≤ fmPipelineDspBlockSamples := by decide
  exact (causal_monoPcm _ _ _).getElem?_of_early (MpxBlock.prefix_flatMap_ofFn _ hfits blocks)
    (by decide +kernel)

/-- Two blocks of a ramp. -/
theorem fmMono_streams_ramp :
    ∃ next outputs,
      Loop.calls fmMonoProcessBlock
          (fmMonoConfigure ⟨id, id, fun _ => 0⟩ (fmMonoInit : FmMonoState ℚ) 1 1)
          [.ofFn fun i => i, .ofFn fun i => i] = some (next, outputs) ∧
      outputs.flatten.length = 2 * fmMonoAudioBlockSamples ∧
      outputs.flatten[0]? = some 1237 := by
  obtain ⟨next, outputs, hcalls, -, hlength, hsamples⟩ :=
    fmMono_streams ⟨id, id, fun _ => 0⟩ (1 : ℚ) 1 [.ofFn fun i => i, .ofFn fun i => i]
  refine ⟨next, outputs, hcalls, hlength, ?_⟩
  rw [hsamples 0 (by decide), ← monoPcm_ramp [.ofFn fun i => i],
    monoPcm_getElem? _ _ _ (by rw [length_flatMap_samples_div]; decide)]

end Mpxcast
