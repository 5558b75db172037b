import Mathlib.Algebra.Field.Basic
import Mathlib.Order.Defs.LinearOrder
import Mpxcast.Core.CMemory

/-!
# FM stereo

`dsp/fm_stereo.c`: the pilot is doubled from two successive samples, the stereo subchannel is
multiplied with it, and sum and difference are turned into the left and the right channel. What the
filter bank writes and what the audio decimators write are inputs here; `FmStereoReceiver` is the
whole receiver, with the filter bank, the decimators, deemphasis and the conversion to PCM. Samples
are elements of an ordered field `K`, so that nothing is rounded.
-/

namespace Mpxcast

open CMemory

def fmPipelineAudioBlockSamples : ℕ := 1024

def fmPipelineAudioDecimationFactor : ℕ := 5

def fmPipelineDspBlockSamples : ℕ := fmPipelineAudioBlockSamples * fmPipelineAudioDecimationFactor

/-- An array of `FM_PIPELINE_MAX_DECIMATED_SAMPLES` samples. -/
structure MpxBlock (K : Type*) where
  samples : List K
  length_eq : samples.length = fmPipelineDspBlockSamples

namespace MpxBlock

variable {K : Type*}

def ofFn (f : ℕ → K) : MpxBlock K :=
  ⟨(List.range fmPipelineDspBlockSamples).map f, by rw [List.length_map, List.length_range]⟩

def load (block : MpxBlock K) (i : ℕ) : Option K := block.samples[i]?

/-- `block[i] = x`; `none` outside of the array. -/
def store (block : MpxBlock K) (i : ℕ) (x : K) : Option (MpxBlock K) :=
  if i < fmPipelineDspBlockSamples then
    some ⟨block.samples.set i x, by rw [List.length_set, block.length_eq]⟩
  else none

lemma load_ofFn (f : ℕ → K) {i : ℕ} (hi : i < fmPipelineDspBlockSamples) :
    (ofFn f).load i = some (f i) := by
  rw [load, ofFn, List.getElem?_map, List.getElem?_range hi, Option.map_some]

lemma samples_ofFn (f : ℕ → K) :
    (ofFn f).samples = (List.range fmPipelineDspBlockSamples).map f := by
  rw [ofFn]

/-- The first samples of the block. -/
lemma prefix_ofFn (f : ℕ → K) {n : ℕ} (hn : n ≤ fmPipelineDspBlockSamples) :
    (List.range n).map f <+: (ofFn f).samples := by
  have hrange : (List.range fmPipelineDspBlockSamples).take n = List.range n :=
    List.take_range.trans (by rw [min_eq_left hn])
  rw [samples_ofFn, ← hrange, List.map_take]
  exact List.take_prefix n _

/-- The first samples of a stream of blocks. -/
lemma prefix_flatMap_ofFn (f : ℕ → K) {n : ℕ} (hn : n ≤ fmPipelineDspBlockSamples)
    (blocks : List (MpxBlock K)) :
    (List.range n).map f <+: (ofFn f :: blocks).flatMap samples :=
  (prefix_ofFn f hn).trans (List.prefix_append _ _)

lemma exists_load (block : MpxBlock K) {i : ℕ} (hi : i < fmPipelineDspBlockSamples) :
    ∃ x, block.load i = some x :=
  ⟨_, List.getElem?_eq_getElem (by rw [block.length_eq]; exact hi)⟩

lemma store_eq (block : MpxBlock K) {i : ℕ} (hi : i < fmPipelineDspBlockSamples) (x : K) :
    ∃ next, block.store i x = some next ∧ next.samples = block.samples.set i x :=
  ⟨_, if_pos hi, rfl⟩

lemma load_of_store {block next : MpxBlock K} {n : ℕ} {x : K}
    (hn : n < fmPipelineDspBlockSamples) (h : next.samples = block.samples.set n x) (i : ℕ) :
    next.load i = if i = n then some x else block.load i := by
  rw [load, load, h]
  split_ifs with hi
  · rw [hi, List.getElem?_set_self (by rw [block.length_eq]; exact hn)]
  · exact List.getElem?_set_ne (Ne.symm hi)

/-- Storing one sample after the other, the stored part grows by one. -/
lemma take_store {block next : MpxBlock K} {n : ℕ} {x : K} (hn : n < fmPipelineDspBlockSamples)
    (h : next.samples = block.samples.set n x) :
    next.samples.take (n + 1) = block.samples.take n ++ [x] := by
  have hlength : n < block.samples.length := by
    rw [block.length_eq]
    exact hn
  rw [h, take_set_succ hlength]

lemma take_load {block : MpxBlock K} {n : ℕ} {x : K} (h : block.load n = some x) :
    block.samples.take (n + 1) = block.samples.take n ++ [x] := by
  rw [List.take_add_one]
  exact congrArg (fun last => block.samples.take n ++ last.toList) h

end MpxBlock

structure FmStereoState (K : Type*) where
  prevPilotSample : K
  pilotSinStep : K
  pilotCosStep : K
  pilotMpx : MpxBlock K
  stereoSubchannel : MpxBlock K
  stereoDifference : MpxBlock K

variable {K : Type*} [Field K] [LinearOrder K]

def fmStereoInit : FmStereoState K where
  prevPilotSample := 0
  pilotSinStep := 0
  pilotCosStep := 0
  pilotMpx := .ofFn fun _ => 0
  stereoSubchannel := .ofFn fun _ => 0
  stereoDifference := .ofFn fun _ => 0

/-- `fm_stereo_configure_pilot_doubler`, for a step of the pilot by `wf`. -/
def fmStereoConfigurePilotDoubler (state : FmStereoState K) (sinf cosf : K → K) (wf : K) :
    FmStereoState K :=
  { state with prevPilotSample := 0, pilotSinStep := sinf wf, pilotCosStep := cosf wf }

/-! ### The difference signal -/

/-- The pilot of twice the frequency. -/
def fmStereoDoubledPilot (state : FmStereoState K) (pilotSample : K) : K :=
  let x := pilotSample * state.pilotSinStep
  let y := pilotSample * state.pilotCosStep - state.prevPilotSample
  let denom := x * x + y * y
  if denom ≤ 0 then 0 else (((2 : ℕ) : K) * x * y) / denom

def fmStereoDifferenceRound (state : FmStereoState K) (i : ℕ) : Option (FmStereoState K) := do
  let pilotSample ← state.pilotMpx.load i
  let subchannel ← state.stereoSubchannel.load i
  let stereoDifference ←
    state.stereoDifference.store i (subchannel * fmStereoDoubledPilot state pilotSample)
  return { state with stereoDifference := stereoDifference, prevPilotSample := pilotSample }

def fmStereoProcessStereoDifference (state : FmStereoState K) : Option (FmStereoState K) :=
  (List.range fmPipelineDspBlockSamples).foldlM fmStereoDifferenceRound state

/-- The first half of `fm_stereo_process_mpx_block`: the filter bank has written the pilot and the
subchannel. -/
def fmStereoReceiveBlock (state : FmStereoState K) (bank : MpxBlock K × MpxBlock K) :
    Option (FmStereoState K × List K) :=
  (fmStereoProcessStereoDifference
    { state with pilotMpx := bank.1, stereoSubchannel := bank.2 }).map fun next =>
      (next, next.stereoDifference.samples)

/-! ### The channels -/

/-- The left and the right sample of a frame. -/
def fmStereoMatrix (sumSample diffSample : K) : K × K :=
  (sumSample + diffSample, sumSample - diffSample)

/-- A frame is replaced by its channels. -/
def fmStereoMatrixRound (state : FmStereoState K) (i : ℕ) : Option (FmStereoState K) := do
  let sumSample ← state.pilotMpx.load i
  let diffSample ← state.stereoSubchannel.load i
  let leftChannel ← state.pilotMpx.store i (fmStereoMatrix sumSample diffSample).1
  let rightChannel ← state.stereoSubchannel.store i (fmStereoMatrix sumSample diffSample).2
  return { state with pilotMpx := leftChannel, stereoSubchannel := rightChannel }

/-- The loop of `fm_stereo_output_audio_block`, on the decimated sum and difference. -/
def fmStereoOutputAudioBlock (state : FmStereoState K) (frameCount : ℕ) :
    Option (FmStereoState K) :=
  let frameCount :=
    if frameCount > fmPipelineAudioBlockSamples then fmPipelineAudioBlockSamples else frameCount
  (List.range frameCount).foldlM fmStereoMatrixRound state

end Mpxcast
