import Mpxcast.Dsp.FmMono
import Mpxcast.Dsp.StereoSeparation

/-!
# FM stereo, from the multiplex to PCM

The rest of `dsp/fm_stereo.c`: filter bank, difference signal, decimation of sum and difference,
the matrix, deemphasis of both channels and conversion to PCM. Over any sequence of blocks this is
one function of the stream of samples.
-/

namespace Mpxcast

open CMemory Convolution OnePole ToneDoubler

def fmStereoAudioBlockFrames : ℕ := fmPipelineAudioBlockSamples

def fmStereoPilotNominalHz : ℕ := 19000

/-- `struct fm_stereo_state`; the doubler and the arrays it works on are a state of their own. -/
structure FmStereoReceiver (K : Type*) where
  deemphasisLeft : DeemphasisState K
  deemphasisRight : DeemphasisState K
  mpxFilterBank : MpxFilterBankState K
  sumAudioDecimator : FirDecimatorState K
  diffAudioDecimator : FirDecimatorState K
  outputScale : K
  monoMpx : MpxBlock K
  stereo : FmStereoState K

variable {K : Type*} [Field K] [LinearOrder K]

def fmStereoReceiverInit : FmStereoReceiver K where
  deemphasisLeft := ⟨0, 0⟩
  deemphasisRight := ⟨0, 0⟩
  mpxFilterBank := mpxFilterBankInit
  sumAudioDecimator := firDecimatorInit
  diffAudioDecimator := firDecimatorInit
  outputScale := 0
  monoMpx := .ofFn fun _ => 0
  stereo := fmStereoInit

/-! ### Configuration -/

omit [LinearOrder K] in
/-- What the pilot advances from one sample to the next. -/
def fmStereoPilotStep : K := pi2F * (fmStereoPilotNominalHz : K) / (fmPipelineMpxRateHz : K)

def fmStereoConfigureAudioDecimators (math : MathLibrary K) (state : FmStereoReceiver K) :
    FmStereoReceiver K :=
  { state with
    sumAudioDecimator := firDecimatorConfigure fmPipelineAudioDecimationFactor (lowpassTaps math)
      mpxFilterBankTapCount
    diffAudioDecimator := firDecimatorConfigure fmPipelineAudioDecimationFactor (lowpassTaps math)
      mpxFilterBankTapCount }

def fmStereoConfigure (math : MathLibrary K) (state : FmStereoReceiver K)
    (volumeGain deemphasisTauSeconds : K) : FmStereoReceiver K :=
  let state := { state with
    deemphasisLeft := deemphasisInit math.expf fmPipelineAudioOutputRateHz deemphasisTauSeconds
    deemphasisRight := deemphasisInit math.expf fmPipelineAudioOutputRateHz deemphasisTauSeconds
    outputScale := pcmAudioOutputScale volumeGain
    mpxFilterBank :=
      mpxFilterBankConfigure math state.mpxFilterBank fmPipelineMpxRateHz true }
  let state := fmStereoConfigureAudioDecimators math state
  { state with
    stereo := fmStereoConfigurePilotDoubler state.stereo math.sinf math.cosf fmStereoPilotStep }

/-! ### Blocks -/

/-- Sum and difference are decimated into the arrays of the pilot and of the subchannel. -/
def fmStereoDecimateAudioBlock (state : FmStereoReceiver K) :
    Option (FmStereoReceiver K × ℕ) := do
  let (sumAudioDecimator, sum) ← firAudioDecimatorProcessBlock state.sumAudioDecimator
    state.monoMpx.samples fmStereoAudioBlockFrames
  let pilotMpx ← state.stereo.pilotMpx.write sum
  let (diffAudioDecimator, diff) ← firAudioDecimatorProcessBlock state.diffAudioDecimator
    state.stereo.stereoDifference.samples fmStereoAudioBlockFrames
  let stereoSubchannel ← state.stereo.stereoSubchannel.write diff
  return ({ state with
    sumAudioDecimator := sumAudioDecimator
    diffAudioDecimator := diffAudioDecimator
    stereo := { state.stereo with pilotMpx := pilotMpx, stereoSubchannel := stereoSubchannel } },
    if sum.length < diff.length then sum.length else diff.length)

/-- `deemphasis_process_buffer` on the front of an array. -/
def deemphasisProcessFront (state : DeemphasisState K) (channel : MpxBlock K) (sampleCount : ℕ) :
    Option (DeemphasisState K × MpxBlock K) := do
  let (state, samples) := deemphasisProcessBuffer state (channel.samples.take sampleCount)
  let channel ← channel.write samples
  return (state, channel)

variable [FloorRing K]

/-- `fm_stereo_output_audio_block`, from the matrix on. -/
def fmStereoOutputFrames (state : FmStereoReceiver K) (frameCount : ℕ) :
    Option (FmStereoReceiver K × List Int16) := do
  let stereo ← fmStereoOutputAudioBlock state.stereo frameCount
  let frameCount :=
    if frameCount > fmStereoAudioBlockFrames then fmStereoAudioBlockFrames else frameCount
  let (deemphasisLeft, leftChannel) ←
    deemphasisProcessFront state.deemphasisLeft stereo.pilotMpx frameCount
  let (deemphasisRight, rightChannel) ←
    deemphasisProcessFront state.deemphasisRight stereo.stereoSubchannel frameCount
  return ({ state with
    deemphasisLeft := deemphasisLeft
    deemphasisRight := deemphasisRight
    stereo := { stereo with pilotMpx := leftChannel, stereoSubchannel := rightChannel } },
    pcmConvertStereoF32ToS16 (leftChannel.samples.take frameCount)
      (rightChannel.samples.take frameCount) state.outputScale)

def fmStereoProcessMpxBlock (state : FmStereoReceiver K) (demodulated : MpxBlock K) :
    Option (FmStereoReceiver K × List Int16) := do
  let (mpxFilterBank, outputs) ← mpxFilterBankProcessBlock state.mpxFilterBank demodulated.samples
    ⟨some state.monoMpx, some state.stereo.pilotMpx, some state.stereo.stereoSubchannel⟩
  let monoMpx ← outputs.mono
  let pilotMpx ← outputs.pilot
  let stereoSubchannel ← outputs.stereo
  let stereo ← fmStereoProcessStereoDifference
    { state.stereo with pilotMpx := pilotMpx, stereoSubchannel := stereoSubchannel }
  let (state, frameCount) ← fmStereoDecimateAudioBlock
    { state with mpxFilterBank := mpxFilterBank, monoMpx := monoMpx, stereo := stereo }
  fmStereoOutputFrames state frameCount

/-- What is not written is zero. -/
def fmStereoProcessBlock (state : FmStereoReceiver K) (demodulated : MpxBlock K) :
    Option (FmStereoReceiver K × List Int16) := do
  let (state, written) ← fmStereoProcessMpxBlock state demodulated
  return (state, written ++ List.replicate (fmStereoAudioBlockFrames * 2 - written.length) 0)

/-! ### The stream -/

/-- What the receiver is set to. -/
structure StereoTuning (K : Type*) where
  monoTaps : List K
  pilotTaps : List K
  stereoTaps : List K
  sinStep : K
  cosStep : K
  alpha : K
  scale : K

namespace StereoTuning

variable (tuning : StereoTuning K)

omit [FloorRing K] in
/-- The subchannel times the doubled pilot. -/
def difference (xs : List K) : List K :=
  List.zipWith (· * ·) (convolved (mirrored tuning.stereoTaps) xs)
    (doubleAll tuning.sinStep tuning.cosStep 0 (convolved (mirrored tuning.pilotTaps) xs))

omit [LinearOrder K] [FloorRing K] in
def sumAudio (xs : List K) : List K :=
  audioDecimated tuning.monoTaps (convolved (mirrored tuning.monoTaps) xs)

omit [FloorRing K] in
def diffAudio (xs : List K) : List K := audioDecimated tuning.monoTaps (tuning.difference xs)

omit [FloorRing K] in
def matrixed (op : K → K → K) (xs : List K) : List K :=
  List.zipWith op (tuning.sumAudio xs) (tuning.diffAudio xs)

omit [FloorRing K] in
/-- A channel of the audio. -/
def channel (op : K → K → K) (xs : List K) : List K :=
  smoothed tuning.alpha 0 (tuning.matrixed op xs)

def pcm (xs : List K) : List Int16 :=
  pcmConvertStereoF32ToS16 (tuning.channel (· + ·) xs) (tuning.channel (· - ·) xs) tuning.scale

omit [FloorRing K] in
@[simp] lemma length_difference (xs : List K) : (tuning.difference xs).length = xs.length := by
  simp [difference]

omit [LinearOrder K] [FloorRing K] in
@[simp] lemma length_sumAudio (xs : List K) :
    (tuning.sumAudio xs).length = xs.length / fmPipelineAudioDecimationFactor := by
  rw [sumAudio, length_audioDecimated, length_convolved]

omit [FloorRing K] in
@[simp] lemma length_diffAudio (xs : List K) :
    (tuning.diffAudio xs).length = xs.length / fmPipelineAudioDecimationFactor := by
  rw [diffAudio, length_audioDecimated, length_difference]

omit [FloorRing K] in
@[simp] lemma length_channel (op : K → K → K) (xs : List K) :
    (tuning.channel op xs).length = xs.length / fmPipelineAudioDecimationFactor := by
  simp [channel, matrixed]

omit [LinearOrder K] [FloorRing K] in
lemma causal_sumAudio : Causal tuning.sumAudio :=
  (causal_audioDecimated _).comp (causal_filtered _)

omit [FloorRing K] in
lemma causal_doubledPilot : Causal fun xs =>
    doubleAll tuning.sinStep tuning.cosStep 0 (convolved (mirrored tuning.pilotTaps) xs) :=
  Causal.comp (Causal.of_append fun xs ys => ⟨_, doubleAll_append _ _ 0 xs ys⟩) (causal_filtered _)

omit [FloorRing K] in
lemma causal_difference : Causal tuning.difference :=
  (causal_filtered _).zipWith tuning.causal_doubledPilot (fun xs => by simp) _

omit [FloorRing K] in
lemma causal_diffAudio : Causal tuning.diffAudio :=
  (causal_audioDecimated _).comp tuning.causal_difference

omit [FloorRing K] in
lemma causal_matrixed (op : K → K → K) : Causal (tuning.matrixed op) :=
  tuning.causal_sumAudio.zipWith tuning.causal_diffAudio (fun xs => by simp) op

omit [FloorRing K] in
lemma causal_channel (op : K → K → K) : Causal (tuning.channel op) :=
  (causal_smoothed _ 0).comp (tuning.causal_matrixed op)

lemma pcm_nil : tuning.pcm [] = [] := by
  refine List.eq_nil_of_length_eq_zero ?_
  rw [pcm, length_pcmConvertStereoF32ToS16, length_channel, length_channel, List.length_nil,
    Nat.zero_div]
  rfl

lemma causal_pcm : Causal tuning.pcm :=
  Causal.flatten.comp ((tuning.causal_channel _).zipWith (tuning.causal_channel _)
    (fun xs => by simp) _)

/-! ### Blocks of the stream -/

omit [FloorRing K] in
lemma since_difference (history input : List K) :
    Causal.since tuning.difference history input
      = List.zipWith (· * ·) (Causal.since (convolved (mirrored tuning.stereoTaps)) history input)
          (doubleAll tuning.sinStep tuning.cosStep
            ((convolved (mirrored tuning.pilotTaps) history).getLastD 0)
            (Causal.since (convolved (mirrored tuning.pilotTaps)) history input)) := by
  have hdoubled : Causal.since (fun xs =>
      doubleAll tuning.sinStep tuning.cosStep 0 (convolved (mirrored tuning.pilotTaps) xs))
        history input
      = doubleAll tuning.sinStep tuning.cosStep
          ((convolved (mirrored tuning.pilotTaps) history).getLastD 0)
          (Causal.since (convolved (mirrored tuning.pilotTaps)) history input) := by
    rw [Causal.since_comp (f := doubleAll tuning.sinStep tuning.cosStep 0) (causal_filtered _),
      Causal.since_eq (doubleAll_append _ _ 0 _ _)]
  rw [← hdoubled]
  exact Causal.since_zipWith (causal_filtered _) tuning.causal_doubledPilot (fun xs => by simp)
    _ _ _

omit [FloorRing K] in
lemma since_channel (op : K → K → K) (history input : List K) :
    Causal.since (tuning.channel op) history input
      = smoothed tuning.alpha (last tuning.alpha 0 (tuning.matrixed op history))
          (List.zipWith op (Causal.since tuning.sumAudio history input)
            (Causal.since tuning.diffAudio history input)) := by
  have hmatrixed : Causal.since (tuning.matrixed op) history input
      = List.zipWith op (Causal.since tuning.sumAudio history input)
          (Causal.since tuning.diffAudio history input) :=
    Causal.since_zipWith tuning.causal_sumAudio tuning.causal_diffAudio (fun xs => by simp) op _ _
  rw [← hmatrixed, ← since_smoothed]
  exact Causal.since_comp (tuning.causal_matrixed op) history input

lemma since_pcm (history input : List K) :
    Causal.since tuning.pcm history input
      = pcmConvertStereoF32ToS16 (Causal.since (tuning.channel (· + ·)) history input)
          (Causal.since (tuning.channel (· - ·)) history input) tuning.scale := by
  let frame (left right : K) : List Int16 :=
    [pcmSaturateS16 (left * tuning.scale), pcmSaturateS16 (right * tuning.scale)]
  have hframes := Causal.since_zipWith (tuning.causal_channel (· + ·))
    (tuning.causal_channel (· - ·)) (fun xs => by simp) frame history input
  have hcausal := (tuning.causal_channel (· + ·)).zipWith (tuning.causal_channel (· - ·))
    (fun xs => by simp) frame
  rw [pcmConvertStereoF32ToS16, ← hframes, ← Causal.since_flatten]
  exact Causal.since_comp hcausal history input

end StereoTuning

/-! ### The stages of a block -/

omit [FloorRing K] in
lemma fmStereoProcessStereoDifference_eq (state : FmStereoState K) (pilot subchannel : MpxBlock K) :
    ∃ next, fmStereoProcessStereoDifference
        { state with pilotMpx := pilot, stereoSubchannel := subchannel } = some next ∧
      next.stereoDifference.samples = List.zipWith (· * ·) subchannel.samples
        (doubleAll state.pilotSinStep state.pilotCosStep state.prevPilotSample pilot.samples) ∧
      next.pilotSinStep = state.pilotSinStep ∧ next.pilotCosStep = state.pilotCosStep ∧
      next.prevPilotSample = pilot.samples.getLastD state.prevPilotSample := by
  obtain ⟨next, doubled, hreceive, -, hdoubled, hsin, hcos, hprev⟩ :=
    fmStereoReceiveBlock_doubled state (pilot, subchannel)
  obtain ⟨after, hprocess, hafter⟩ := Option.map_eq_some_iff.1 hreceive
  obtain ⟨rfl, hdifference⟩ := Prod.mk.inj hafter
  exact ⟨after, hprocess, hdoubled ▸ hdifference, hsin, hcos, hprev⟩

omit [LinearOrder K] [FloorRing K] in
/-- The matrix leaves the doubler alone. -/
lemma fmStereoMatrixRounds_doubler (n : ℕ) {state next : FmStereoState K}
    (h : (List.range n).foldlM fmStereoMatrixRound state = some next) :
    next.pilotSinStep = state.pilotSinStep ∧ next.pilotCosStep = state.pilotCosStep ∧
      next.prevPilotSample = state.prevPilotSample := by
  induction n generalizing next with
  | zero =>
    obtain rfl : state = next := Option.some.inj h
    exact ⟨rfl, rfl, rfl⟩
  | succ n ih =>
    rw [List.range_succ, List.foldlM_append, Option.bind_eq_bind, Option.bind_eq_some_iff] at h
    obtain ⟨before, hbefore, h⟩ := h
    simp only [List.foldlM_cons, List.foldlM_nil, fmStereoMatrixRound, Option.bind_eq_bind,
      Option.bind_eq_some_iff] at h
    obtain ⟨_, ⟨_, -, _, -, _, -, _, -, hround⟩, hnext⟩ := h
    obtain rfl := Option.some.inj hround
    obtain rfl := Option.some.inj hnext
    obtain ⟨hsin, hcos, hprev⟩ := ih hbefore
    exact ⟨hsin, hcos, hprev⟩

omit [LinearOrder K] [FloorRing K] in
/-- A block of audio is replaced by its channels. -/
lemma fmStereoOutputAudioBlock_frames (state : FmStereoState K) {sum diff sumRest diffRest : List K}
    (hsum : state.pilotMpx.samples = sum ++ sumRest)
    (hdiff : state.stereoSubchannel.samples = diff ++ diffRest)
    (hsumLength : sum.length = fmStereoAudioBlockFrames)
    (hdiffLength : diff.length = fmStereoAudioBlockFrames) :
    ∃ next, fmStereoOutputAudioBlock state fmStereoAudioBlockFrames = some next ∧
      next.pilotMpx.samples.take fmStereoAudioBlockFrames = List.zipWith (· + ·) sum diff ∧
      next.stereoSubchannel.samples.take fmStereoAudioBlockFrames
        = List.zipWith (· - ·) sum diff ∧
      next.pilotSinStep = state.pilotSinStep ∧ next.pilotCosStep = state.pilotCosStep ∧
      next.prevPilotSample = state.prevPilotSample := by
  obtain ⟨next, houtput, hseparated⟩ :=
    fmStereoOutputAudioBlock_separated state fmStereoAudioBlockFrames
  rw [show min fmStereoAudioBlockFrames fmPipelineAudioBlockSamples = fmStereoAudioBlockFrames from
    min_self _] at hseparated
  have hrounds : (List.range fmStereoAudioBlockFrames).foldlM fmStereoMatrixRound state
      = some next := houtput
  have hlength (op : K → K → K) : (List.zipWith op sum diff).length = fmStereoAudioBlockFrames := by
    rw [List.length_zipWith, hsumLength, hdiffLength, min_self]
  have hloads {i : ℕ} (hi : i < fmStereoAudioBlockFrames) :
      ∃ s d, sum[i]? = some s ∧ diff[i]? = some d ∧ state.pilotMpx.load i = some s ∧
        state.stereoSubchannel.load i = some d := by
    have hs : i < sum.length := hsumLength ▸ hi
    have hd : i < diff.length := hdiffLength ▸ hi
    exact ⟨sum[i], diff[i], List.getElem?_eq_getElem hs, List.getElem?_eq_getElem hd,
      (MpxBlock.load_front hsum hs).trans (List.getElem?_eq_getElem hs),
      (MpxBlock.load_front hdiff hd).trans (List.getElem?_eq_getElem hd)⟩
  refine ⟨next, houtput, ?_, ?_, fmStereoMatrixRounds_doubler _ hrounds⟩
  · rw [← hlength (· + ·)]
    refine MpxBlock.take_eq_of_load fun i hi => ?_
    rw [hlength] at hi
    obtain ⟨s, d, hs, hd, hloadSum, hloadDiff⟩ := hloads hi
    rw [hseparated.left i s d hloadSum hloadDiff, if_pos hi]
    exact (List.getElem?_zipWith_eq_some.2 ⟨s, d, hs, hd, rfl⟩).symm
  · rw [← hlength (· - ·)]
    refine MpxBlock.take_eq_of_load fun i hi => ?_
    rw [hlength] at hi
    obtain ⟨s, d, hs, hd, hloadSum, hloadDiff⟩ := hloads hi
    rw [hseparated.right i s d hloadSum hloadDiff, if_pos hi]
    exact (List.getElem?_zipWith_eq_some.2 ⟨s, d, hs, hd, rfl⟩).symm

omit [LinearOrder K] [FloorRing K] in
lemma deemphasisProcessFront_eq (state : DeemphasisState K) {channel : MpxBlock K}
    {samples : List K} {n : ℕ} (h : channel.samples.take n = samples) (hlength : samples.length = n)
    (hn : n ≤ fmPipelineDspBlockSamples) :
    ∃ next, deemphasisProcessFront state channel n
        = some ({ state with output := last state.alpha state.output samples }, next) ∧
      next.samples.take n = smoothed state.alpha state.output samples := by
  obtain ⟨next, hwrite, hwritten⟩ := channel.write_eq
    (show (smoothed state.alpha state.output samples).length ≤ fmPipelineDspBlockSamples by
      rw [length_smoothed, hlength]
      exact hn)
  have htake := MpxBlock.take_write hwritten
  rw [length_smoothed, hlength] at htake
  refine ⟨next, ?_, htake⟩
  rw [deemphasisProcessFront, h, deemphasisProcessBuffer_eq]
  dsimp only
  rw [hwrite]
  rfl

/-! ### The receiver -/

/-- The receiver has heard the history. -/
structure FmStereoReceiver.Heard (state : FmStereoReceiver K) (tuning : StereoTuning K)
    (history : List K) : Prop where
  bank : state.mpxFilterBank.Hears tuning.monoTaps tuning.pilotTaps tuning.stereoTaps history
  sinStep : state.stereo.pilotSinStep = tuning.sinStep
  cosStep : state.stereo.pilotCosStep = tuning.cosStep
  prev : state.stereo.prevPilotSample = (convolved (mirrored tuning.pilotTaps) history).getLastD 0
  sum : state.sumAudioDecimator.Overlaps tuning.monoTaps
    (convolved (mirrored tuning.monoTaps) history)
  diff : state.diffAudioDecimator.Overlaps tuning.monoTaps (tuning.difference history)
  leftAlpha : state.deemphasisLeft.alpha = tuning.alpha
  rightAlpha : state.deemphasisRight.alpha = tuning.alpha
  left : state.deemphasisLeft.output = last tuning.alpha 0 (tuning.matrixed (· + ·) history)
  right : state.deemphasisRight.output = last tuning.alpha 0 (tuning.matrixed (· - ·) history)
  scale : state.outputScale = tuning.scale

/-- The tuning of a receiver that was configured for this volume and this deemphasis. -/
def stereoTuning (math : MathLibrary K) (volumeGain deemphasisTauSeconds : K) : StereoTuning K where
  monoTaps := lowpassTaps math
  pilotTaps := mpxFilterBankDesignBandpassTaps math fmPipelineMpxRateHz mpxFilterBankPilotLowHz
    mpxFilterBankPilotHighHz
  stereoTaps := mpxFilterBankDesignBandpassTaps math fmPipelineMpxRateHz mpxFilterBankStereoLowHz
    mpxFilterBankStereoHighHz
  sinStep := math.sinf fmStereoPilotStep
  cosStep := math.cosf fmStereoPilotStep
  alpha := (deemphasisInit math.expf fmPipelineAudioOutputRateHz deemphasisTauSeconds).alpha
  scale := pcmAudioOutputScale volumeGain

omit [FloorRing K] in
lemma fmStereoConfigure_heard [IsStrictOrderedRing K] (math : MathLibrary K)
    (volumeGain deemphasisTauSeconds : K) :
    (fmStereoConfigure math fmStereoReceiverInit volumeGain deemphasisTauSeconds).Heard
      (stereoTuning math volumeGain deemphasisTauSeconds) [] where
  bank := mpxFilterBankConfigure_init_hears math
  sinStep := rfl
  cosStep := rfl
  prev := rfl
  sum := firDecimatorConfigure_audio (lowpassTaps_length math)
  diff := firDecimatorConfigure_audio (lowpassTaps_length math)
  leftAlpha := rfl
  rightAlpha := rfl
  left := by
    rw [StereoTuning.matrixed, StereoTuning.sumAudio, convolved_nil, audioDecimated_nil]
    exact deemphasisInit_output _ _ _
  right := by
    rw [StereoTuning.matrixed, StereoTuning.sumAudio, convolved_nil, audioDecimated_nil]
    exact deemphasisInit_output _ _ _
  scale := rfl

omit [LinearOrder K] [FloorRing K] in
/-- The decimators answer a block with a block of audio each. -/
lemma fmStereoDecimateAudioBlock_eq (state : FmStereoReceiver K)
    {taps sumHistory diffHistory : List K} (htaps : taps.length = mpxFilterBankTapCount)
    (hsum : state.sumAudioDecimator.Overlaps taps sumHistory)
    (hdiff : state.diffAudioDecimator.Overlaps taps diffHistory) :
    ∃ sumDecimator diffDecimator pilotMpx stereoSubchannel sumRest diffRest,
      fmStereoDecimateAudioBlock state = some ({ state with
        sumAudioDecimator := sumDecimator
        diffAudioDecimator := diffDecimator
        stereo :=
          { state.stereo with pilotMpx := pilotMpx, stereoSubchannel := stereoSubchannel } },
        fmStereoAudioBlockFrames) ∧
      sumDecimator.Overlaps taps (sumHistory ++ state.monoMpx.samples) ∧
      diffDecimator.Overlaps taps (diffHistory ++ state.stereo.stereoDifference.samples) ∧
      pilotMpx.samples
        = Causal.since (audioDecimated taps) sumHistory state.monoMpx.samples ++ sumRest ∧
      stereoSubchannel.samples = Causal.since (audioDecimated taps) diffHistory
        state.stereo.stereoDifference.samples ++ diffRest := by
  obtain ⟨sumDecimator, hsumProcess, hsumNext⟩ := hsum.processAudio htaps state.monoMpx
  obtain ⟨diffDecimator, hdiffProcess, hdiffNext⟩ :=
    hdiff.processAudio htaps state.stereo.stereoDifference
  have hsumLength := length_since_audioDecimated taps hsum.frames state.monoMpx
  have hdiffLength := length_since_audioDecimated taps hdiff.frames state.stereo.stereoDifference
  obtain ⟨pilotMpx, hpilotWrite, hpilot⟩ :=
    state.stereo.pilotMpx.write_eq (hsumLength.trans_le (by decide))
  obtain ⟨stereoSubchannel, hstereoWrite, hstereo⟩ :=
    state.stereo.stereoSubchannel.write_eq (hdiffLength.trans_le (by decide))
  refine ⟨sumDecimator, diffDecimator, pilotMpx, stereoSubchannel, _, _, ?_, hsumNext, hdiffNext,
    hpilot, hstereo⟩
  rw [fmStereoDecimateAudioBlock,
    show fmStereoAudioBlockFrames = fmPipelineAudioBlockSamples from rfl, hsumProcess]
  simp only [Option.bind_eq_bind, Option.bind_some]
  rw [hpilotWrite, Option.bind_some, hdiffProcess, Option.bind_some, hstereoWrite, Option.bind_some,
    hsumLength, hdiffLength, if_neg (lt_irrefl _)]
  rfl

/-- The channels of a block of audio are smoothed and put out frame by frame. -/
lemma fmStereoOutputFrames_eq (state : FmStereoReceiver K) {sum diff sumRest diffRest : List K}
    (hsum : state.stereo.pilotMpx.samples = sum ++ sumRest)
    (hdiff : state.stereo.stereoSubchannel.samples = diff ++ diffRest)
    (hsumLength : sum.length = fmStereoAudioBlockFrames)
    (hdiffLength : diff.length = fmStereoAudioBlockFrames) :
    ∃ next, fmStereoOutputFrames state fmStereoAudioBlockFrames = some (next,
        pcmConvertStereoF32ToS16
          (smoothed state.deemphasisLeft.alpha state.deemphasisLeft.output
            (List.zipWith (· + ·) sum diff))
          (smoothed state.deemphasisRight.alpha state.deemphasisRight.output
            (List.zipWith (· - ·) sum diff)) state.outputScale) ∧
      next.mpxFilterBank = state.mpxFilterBank ∧
      next.sumAudioDecimator = state.sumAudioDecimator ∧
      next.diffAudioDecimator = state.diffAudioDecimator ∧
      next.outputScale = state.outputScale ∧
      next.stereo.pilotSinStep = state.stereo.pilotSinStep ∧
      next.stereo.pilotCosStep = state.stereo.pilotCosStep ∧
      next.stereo.prevPilotSample = state.stereo.prevPilotSample ∧
      next.deemphasisLeft = { state.deemphasisLeft with
        output := last state.deemphasisLeft.alpha state.deemphasisLeft.output
          (List.zipWith (· + ·) sum diff) } ∧
      next.deemphasisRight = { state.deemphasisRight with
        output := last state.deemphasisRight.alpha state.deemphasisRight.output
          (List.zipWith (· - ·) sum diff) } := by
  obtain ⟨stereo, hmatrix, hleft, hright, hsin, hcos, hprev⟩ :=
    fmStereoOutputAudioBlock_frames state.stereo hsum hdiff hsumLength hdiffLength
  have hlength (op : K → K → K) : (List.zipWith op sum diff).length = fmStereoAudioBlockFrames := by
    rw [List.length_zipWith, hsumLength, hdiffLength, min_self]
  obtain ⟨leftChannel, hleftFront, hleftTake⟩ :=
    deemphasisProcessFront_eq state.deemphasisLeft hleft (hlength _) (by decide)
  obtain ⟨rightChannel, hrightFront, hrightTake⟩ :=
    deemphasisProcessFront_eq state.deemphasisRight hright (hlength _) (by decide)
  refine ⟨{ state with
      deemphasisLeft := { state.deemphasisLeft with
        output := last state.deemphasisLeft.alpha state.deemphasisLeft.output
          (List.zipWith (· + ·) sum diff) }
      deemphasisRight := { state.deemphasisRight with
        output := last state.deemphasisRight.alpha state.deemphasisRight.output
          (List.zipWith (· - ·) sum diff) }
      stereo := { stereo with pilotMpx := leftChannel, stereoSubchannel := rightChannel } },
    ?_, rfl, rfl, rfl, rfl, hsin, hcos, hprev, rfl, rfl⟩
  rw [fmStereoOutputFrames, hmatrix, Option.bind_eq_bind, Option.bind_some,
    if_neg (lt_irrefl _)]
  dsimp only
  rw [hleftFront]
  simp only [Option.bind_eq_bind, Option.bind_some]
  rw [hrightFront, Option.bind_some, hleftTake, hrightTake]
  rfl

omit [Field K] [LinearOrder K] [FloorRing K] in
lemma getLastD_append (xs ys : List K) (x : K) :
    (xs ++ ys).getLastD x = ys.getLastD (xs.getLastD x) := by
  simp [List.getLast?_append, Option.getD_or]

/-- A block is answered with what it adds to the PCM of the stream. -/
lemma FmStereoReceiver.Heard.process {state : FmStereoReceiver K} {tuning : StereoTuning K}
    {history : List K} (htaps : tuning.monoTaps.length = mpxFilterBankTapCount)
    (h : state.Heard tuning history) (block : MpxBlock K) :
    ∃ next, fmStereoProcessBlock state block
        = some (next, Causal.since tuning.pcm history block.samples) ∧
      next.Heard tuning (history ++ block.samples) := by
  obtain ⟨bank, hbank, hbankNext⟩ := h.bank.process block state.monoMpx state.stereo.pilotMpx
    state.stereo.stereoSubchannel
  obtain ⟨stereo, hdifference, hsamples, hsin, hcos, hprev⟩ :=
    fmStereoProcessStereoDifference_eq state.stereo (filteredBlock tuning.pilotTaps history block)
      (filteredBlock tuning.stereoTaps history block)
  rw [h.sinStep, h.cosStep, h.prev, filteredBlock_samples, filteredBlock_samples,
    ← tuning.since_difference] at hsamples
  obtain ⟨sumDecimator, diffDecimator, pilotMpx, stereoSubchannel, sumRest, diffRest, hdecimate,
    hsumNext, hdiffNext, hpilot, hsubchannel⟩ := fmStereoDecimateAudioBlock_eq { state with
      mpxFilterBank := bank
      monoMpx := filteredBlock tuning.monoTaps history block
      stereo := stereo } htaps h.sum h.diff
  have hsumSince : Causal.since (audioDecimated tuning.monoTaps)
      (convolved (mirrored tuning.monoTaps) history)
      (filteredBlock tuning.monoTaps history block).samples
        = Causal.since tuning.sumAudio history block.samples := by
    rw [filteredBlock_samples]
    exact (Causal.since_comp (causal_filtered _) _ _).symm
  have hdiffSince : Causal.since (audioDecimated tuning.monoTaps) (tuning.difference history)
      stereo.stereoDifference.samples = Causal.since tuning.diffAudio history block.samples := by
    rw [hsamples]
    exact (Causal.since_comp tuning.causal_difference _ _).symm
  have hsumLength := length_since_audioDecimated tuning.monoTaps h.sum.frames
    (filteredBlock tuning.monoTaps history block)
  have hdiffLength := length_since_audioDecimated tuning.monoTaps h.diff.frames
    stereo.stereoDifference
  dsimp only at hpilot hsubchannel hsumNext hdiffNext hdecimate
  rw [hsumSince] at hpilot hsumLength
  rw [hdiffSince] at hsubchannel hdiffLength
  obtain ⟨next, houtput, hnextBank, hnextSum, hnextDiff, hnextScale, hnextSin, hnextCos, hnextPrev,
    hnextLeft, hnextRight⟩ := fmStereoOutputFrames_eq { state with
      mpxFilterBank := bank
      monoMpx := filteredBlock tuning.monoTaps history block
      sumAudioDecimator := sumDecimator
      diffAudioDecimator := diffDecimator
      stereo := { stereo with pilotMpx := pilotMpx, stereoSubchannel := stereoSubchannel } }
    hpilot hsubchannel hsumLength hdiffLength
  dsimp only at houtput hnextBank hnextSum hnextDiff hnextScale
  dsimp only at hnextSin hnextCos hnextPrev hnextLeft hnextRight
  have hmatrixed (op : K → K → K) : tuning.matrixed op (history ++ block.samples)
      = tuning.matrixed op history
        ++ List.zipWith op (Causal.since tuning.sumAudio history block.samples)
          (Causal.since tuning.diffAudio history block.samples) := by
    rw [← Causal.append_since (tuning.causal_matrixed op)]
    exact congrArg _ (Causal.since_zipWith tuning.causal_sumAudio tuning.causal_diffAudio
      (fun xs => by simp) op _ _)
  have hlength : (Causal.since tuning.pcm history block.samples).length
      = fmStereoAudioBlockFrames * 2 := by
    rw [tuning.since_pcm, length_pcmConvertStereoF32ToS16, tuning.since_channel,
      tuning.since_channel, length_smoothed, length_smoothed, List.length_zipWith,
      List.length_zipWith, hsumLength, hdiffLength, min_self, min_self]
    rfl
  refine ⟨next, ?_, ?_⟩
  · rw [fmStereoProcessBlock, fmStereoProcessMpxBlock, hbank]
    simp only [Option.bind_eq_bind, Option.bind_some]
    rw [hdifference, Option.bind_some, hdecimate, Option.bind_some, houtput, Option.bind_some,
      h.leftAlpha, h.rightAlpha, h.left, h.right, h.scale, ← tuning.since_channel,
      ← tuning.since_channel, ← tuning.since_pcm, hlength, Nat.sub_self, List.replicate_zero,
      List.append_nil]
    rfl
  · refine ⟨?_, ?_, ?_, ?_, ?_, ?_, ?_, ?_, ?_, ?_, ?_⟩
    · rw [hnextBank]
      exact hbankNext
    · rw [hnextSin, hsin, h.sinStep]
    · rw [hnextCos, hcos, h.cosStep]
    · rw [hnextPrev, hprev, h.prev, filteredBlock_samples, ← getLastD_append,
        Causal.append_since (causal_filtered _)]
    · rw [hnextSum, ← Causal.append_since (causal_filtered tuning.monoTaps),
        ← filteredBlock_samples]
      exact hsumNext
    · rw [hnextDiff, ← Causal.append_since tuning.causal_difference, ← hsamples]
      exact hdiffNext
    · rw [hnextLeft, h.leftAlpha]
    · rw [hnextRight, h.rightAlpha]
    · rw [hnextLeft, h.leftAlpha, h.left, hmatrixed, last_append]
    · rw [hnextRight, h.rightAlpha, h.right, hmatrixed, last_append]
    · rw [hnextScale, h.scale]

/-- Every block of audio is full. -/
lemma fmStereoProcessBlock_length {state next : FmStereoReceiver K} {block : MpxBlock K}
    {output : List Int16} (h : fmStereoProcessBlock state block = some (next, output)) :
    output.length = fmStereoAudioBlockFrames * 2 := by
  simp only [fmStereoProcessBlock, fmStereoProcessMpxBlock, Option.bind_eq_bind,
    Option.bind_eq_some_iff] at h
  obtain ⟨⟨last, written⟩, ⟨_, -, _, -, _, -, _, -, _, -, _, -, houtput⟩, h⟩ := h
  obtain ⟨-, rfl⟩ := Prod.mk.inj (Option.some.inj h)
  simp only [fmStereoOutputFrames, Option.bind_eq_bind, Option.bind_eq_some_iff] at houtput
  obtain ⟨_, -, _, -, _, -, houtput⟩ := houtput
  obtain ⟨-, rfl⟩ := Prod.mk.inj (Option.some.inj houtput)
  rw [List.length_append, List.length_replicate, length_pcmConvertStereoF32ToS16, List.length_take,
    List.length_take]
  split_ifs <;> omega

/-- A sequence of blocks, of which each is answered with what it adds. -/
lemma fmStereoProcessBlocks [IsStrictOrderedRing K] (math : MathLibrary K)
    (volumeGain deemphasisTauSeconds : K) (blocks : List (MpxBlock K)) :
    ∃ next outputs,
      Loop.calls fmStereoProcessBlock
          (fmStereoConfigure math fmStereoReceiverInit volumeGain deemphasisTauSeconds) blocks
        = some (next, outputs) ∧
      (∀ output ∈ outputs, output.length = fmStereoAudioBlockFrames * 2) ∧
      outputs.flatten = (stereoTuning math volumeGain deemphasisTauSeconds).pcm
        (blocks.flatMap MpxBlock.samples) := by
  obtain ⟨next, outputs, hcalls, -, hflatten, -⟩ := Causal.calls_compute
    (stereoTuning math volumeGain deemphasisTauSeconds).causal_pcm (StereoTuning.pcm_nil _)
    MpxBlock.samples
    (fun (state : FmStereoReceiver K) history =>
      state.Heard (stereoTuning math volumeGain deemphasisTauSeconds) history)
    (fun state history block h => h.process (lowpassTaps_length math) block)
    (fmStereoConfigure_heard math volumeGain deemphasisTauSeconds) blocks
  exact ⟨next, outputs, hcalls,
    Loop.calls_forall (fun _ _ _ _ => fmStereoProcessBlock_length) blocks hcalls, hflatten⟩

/-! ### Every sample -/

namespace StereoTuning

variable (tuning : StereoTuning K)

omit [FloorRing K] in
/-- What is decimated for sample `j` of the audio. -/
def sumSample (xs : List K) (j : ℕ) : K :=
  convolve (mirrored tuning.monoTaps) (convolved (mirrored tuning.monoTaps) xs)
    ((j + 1) * fmPipelineAudioDecimationFactor - 1)

omit [FloorRing K] in
def diffSample (xs : List K) (j : ℕ) : K :=
  convolve (mirrored tuning.monoTaps) (tuning.difference xs)
    ((j + 1) * fmPipelineAudioDecimationFactor - 1)

omit [FloorRing K] in
lemma channel_getElem? (op : K → K → K) {xs : List K} {n : ℕ}
    (hn : n < xs.length / fmPipelineAudioDecimationFactor) :
    (tuning.channel op xs)[n]? = some (∑ k ∈ Finset.range (n + 1),
      tuning.alpha * (1 - tuning.alpha) ^ k *
        op (tuning.sumSample xs (n - k)) (tuning.diffSample xs (n - k))) := by
  have hlength : n < (tuning.matrixed op xs).length := by simpa [matrixed] using hn
  rw [channel, smoothed_zero_getElem? hlength]
  refine congrArg some (Finset.sum_congr rfl fun k _ => ?_)
  have hsum : n - k < (tuning.sumAudio xs).length := by
    rw [length_sumAudio]
    omega
  have hdiff : n - k < (tuning.diffAudio xs).length := by
    rw [length_diffAudio]
    omega
  have hmatrixed : (tuning.matrixed op xs)[n - k]?
      = some (op ((tuning.sumAudio xs).getD (n - k) 0) ((tuning.diffAudio xs).getD (n - k) 0)) := by
    rw [List.getD_eq_getElem _ _ hsum, List.getD_eq_getElem _ _ hdiff]
    exact List.getElem?_zipWith_eq_some.2
      ⟨_, _, List.getElem?_eq_getElem hsum, List.getElem?_eq_getElem hdiff, rfl⟩
  rw [List.getD_eq_getElem?_getD, hmatrixed, Option.getD_some, sumAudio, diffAudio,
    getD_audioDecimated, getD_audioDecimated]
  · rfl
  · rw [length_difference]
    omega
  · rw [length_convolved]
    omega

/-- What is put out for both. -/
lemma pcm_frame {xs : List K} {n : ℕ} (hn : n < xs.length / fmPipelineAudioDecimationFactor) :
    (tuning.pcm xs)[n * 2]? = some (pcmSaturateS16 ((∑ k ∈ Finset.range (n + 1),
        tuning.alpha * (1 - tuning.alpha) ^ k *
          (tuning.sumSample xs (n - k) + tuning.diffSample xs (n - k))) * tuning.scale)) ∧
      (tuning.pcm xs)[n * 2 + 1]? = some (pcmSaturateS16 ((∑ k ∈ Finset.range (n + 1),
        tuning.alpha * (1 - tuning.alpha) ^ k *
          (tuning.sumSample xs (n - k) - tuning.diffSample xs (n - k))) * tuning.scale)) :=
  pcmConvertStereoF32ToS16_frame _ (tuning.channel_getElem? _ hn) (tuning.channel_getElem? _ hn)

end StereoTuning

/-- **Stereo reception.** In exact arithmetic, over any number of blocks, each is answered with a
whole block of frames, left before right. The channels are the sum and the difference of two signals
that are filtered, decimated and smoothed alike over the whole multiplex so far: the low pass, and
the subchannel times the doubled pilot. -/
theorem fmStereo_streams [IsStrictOrderedRing K] (math : MathLibrary K)
    (volumeGain deemphasisTauSeconds : K) (blocks : List (MpxBlock K)) :
    ∃ next outputs,
      Loop.calls fmStereoProcessBlock
          (fmStereoConfigure math fmStereoReceiverInit volumeGain deemphasisTauSeconds) blocks
        = some (next, outputs) ∧
      (∀ output ∈ outputs, output.length = fmStereoAudioBlockFrames * 2) ∧
      outputs.flatten.length = blocks.length * fmStereoAudioBlockFrames * 2 ∧
      ∀ n < blocks.length * fmStereoAudioBlockFrames,
        let tuning := stereoTuning math volumeGain deemphasisTauSeconds
        let xs := blocks.flatMap MpxBlock.samples
        let weight := fun k => tuning.alpha * (1 - tuning.alpha) ^ k
        outputs.flatten[n * 2]? = some (pcmSaturateS16 ((∑ k ∈ Finset.range (n + 1),
          weight k * (tuning.sumSample xs (n - k) + tuning.diffSample xs (n - k))) *
            tuning.scale)) ∧
        outputs.flatten[n * 2 + 1]? = some (pcmSaturateS16 ((∑ k ∈ Finset.range (n + 1),
          weight k * (tuning.sumSample xs (n - k) - tuning.diffSample xs (n - k))) *
            tuning.scale)) := by
  obtain ⟨next, outputs, hcalls, hwhole, hflatten⟩ :=
    fmStereoProcessBlocks math volumeGain deemphasisTauSeconds blocks
  refine ⟨next, outputs, hcalls, hwhole, ?_, fun n hn => ?_⟩
  · rw [hflatten, StereoTuning.pcm, length_pcmConvertStereoF32ToS16, StereoTuning.length_channel,
      StereoTuning.length_channel, min_self, length_flatMap_samples_div]
    rfl
  · rw [hflatten]
    exact StereoTuning.pcm_frame _ (by rwa [length_flatMap_samples_div])

/-- The frame that the start of a ramp leads to. -/
lemma stereoPcm_ramp (blocks : List (MpxBlock ℚ)) :
    ((stereoTuning ⟨id, id, fun _ => 0⟩ 1 1).pcm
        (((.ofFn fun i => i) :: blocks).flatMap MpxBlock.samples))[0 * 2]? = some 932 ∧
      ((stereoTuning ⟨id, id, fun _ => 0⟩ 1 1).pcm
        (((.ofFn fun i => i) :: blocks).flatMap MpxBlock.samples))[0 * 2 + 1]? = some 1543 := by
  have hfits : fmPipelineAudioDecimationFactor ≤ fmPipelineDspBlockSamples := by decide
  have hstart := MpxBlock.prefix_flatMap_ofFn (fun i => (i : ℚ)) hfits blocks
  exact ⟨(StereoTuning.causal_pcm _).getElem?_of_early hstart (by decide +kernel),
    (StereoTuning.causal_pcm _).getElem?_of_early hstart (by decide +kernel)⟩

/-- A block of a ramp. -/
theorem fmStereo_streams_ramp :
    ∃ next outputs,
      Loop.calls fmStereoProcessBlock
          (fmStereoConfigure ⟨id, id, fun _ => 0⟩ (fmStereoReceiverInit : FmStereoReceiver ℚ) 1 1)
          [.ofFn fun i => i] = some (next, outputs) ∧
      outputs.flatten.length = fmStereoAudioBlockFrames * 2 ∧
      outputs.flatten[0]? = some 932 ∧ outputs.flatten[1]? = some 1543 := by
  obtain ⟨next, outputs, hcalls, -, hlength, hframes⟩ :=
    fmStereo_streams ⟨id, id, fun _ => 0⟩ (1 : ℚ) 1 [.ofFn fun i => i]
  have hdue : 0 < ([MpxBlock.ofFn fun i => (i : ℚ)].flatMap MpxBlock.samples).length
      / fmPipelineAudioDecimationFactor := by
    rw [length_flatMap_samples_div]
    decide
  obtain ⟨hleft, hright⟩ := hframes 0 (by decide)
  dsimp only at hleft hright
  obtain ⟨hleftValue, hrightValue⟩ := stereoPcm_ramp []
  obtain ⟨hleftHeard, hrightHeard⟩ := (stereoTuning ⟨id, id, fun _ => 0⟩ 1 1).pcm_frame hdue
  refine ⟨next, outputs, hcalls, hlength, ?_, ?_⟩
  · rw [← hleftValue, hleftHeard]
    exact hleft
  · rw [← hrightValue, hrightHeard]
    exact hright

end Mpxcast
