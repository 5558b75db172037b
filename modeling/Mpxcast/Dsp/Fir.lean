import Mpxcast.Core.CMemory
import Mpxcast.Core.Convolution
import Mpxcast.Core.Loop

/-!
# FIR filters

`dsp/fir.c`: a filter over a ring of samples that is stored twice, a decimator on top of it, and the
decimator for 90 taps and factor 5 that is written out by hand. Samples are elements of a ring `K`;
an access outside of an array makes the model return `none`.
-/

namespace Mpxcast

open CMemory Convolution

def firMaxTaps : ℕ := 128

structure FirState (K : Type*) where
  configured : Bool
  tapCount : ℕ
  pairCount : ℕ
  taps : List K
  history : List K
  writeIndex : ℕ

structure FirDecimatorState (K : Type*) where
  configured : Bool
  factor : ℕ
  phase : ℕ
  fir : FirState K

variable {K : Type*} [CommRing K]

def firInit : FirState K where
  configured := false
  tapCount := 0
  pairCount := 0
  taps := List.replicate firMaxTaps 0
  history := List.replicate (firMaxTaps * 2) 0
  writeIndex := 0

def firConfigure (taps : List K) (tapCount : ℕ) : FirState K :=
  let tapCount := if tapCount > firMaxTaps then firMaxTaps else tapCount
  { firInit with
    taps := memcpy firInit.taps 0 (taps.take tapCount)
    tapCount := tapCount
    pairCount := tapCount / 2
    configured := true }

/-- `fir_compute_current_from_window`, for the window that starts at the given slot of the history.
-/
def firComputeCurrentFromWindow (state : FirState K) (window : ℕ) : Option K := do
  let acc ← (List.range state.pairCount).foldlM (fun acc tapIndex => do
    let front ← state.history[window + tapIndex]?
    let back ← state.history[window + (state.tapCount - 1 - tapIndex)]?
    let tap ← state.taps[tapIndex]?
    return acc + (front + back) * tap) (0 : K)
  if state.tapCount % 2 = 1 then
    let middle ← state.history[window + state.pairCount]?
    let tap ← state.taps[state.pairCount]?
    return acc + middle * tap
  else
    return acc

/-- A sample enters both copies of the ring. -/
def firPush (state : FirState K) (sample : K) : Option (FirState K) := do
  let history ← store state.history state.writeIndex sample
  let history ← store history (state.writeIndex + state.tapCount) sample
  let writeIndex := state.writeIndex + 1
  return { state with
    history := history
    writeIndex := if writeIndex = state.tapCount then 0 else writeIndex }

def firExecuteBlock : FirState K → List K → Option (FirState K × List K)
  | state, [] => some (state, [])
  | state, sample :: input => do
    let state ← firPush state sample
    let acc ← firComputeCurrentFromWindow state state.writeIndex
    let (state, output) ← firExecuteBlock state input
    return (state, acc :: output)

/-! ### The decimator -/

def firDecimatorInit : FirDecimatorState K where
  configured := false
  factor := 0
  phase := 0
  fir := firInit

def firDecimatorConfigure (factor : ℕ) (taps : List K) (tapCount : ℕ) : FirDecimatorState K :=
  let fir := firConfigure taps tapCount
  { (firDecimatorInit : FirDecimatorState K) with
    fir := fir
    factor := factor
    configured := factor ≥ 2 && fir.configured }

/-- The loop of `fir_decimator_process_block`, with the input that is left. -/
structure FirDecimatorLoop (K : Type*) where
  fir : FirState K
  phase : ℕ
  input : List K
  output : List K
  stopped : Bool

def firDecimatorMore (loop : FirDecimatorLoop K) : Bool :=
  !loop.stopped && 0 < loop.input.length

/-- An output is dropped when there is no room for it. -/
def firOutput (maxOutputSampleCount : ℕ) (output : List K) (acc : K) : List K :=
  if output.length < maxOutputSampleCount then output ++ [acc] else output

/-- One round: the samples up to the next output, or all that are left. -/
def firDecimatorRound (factor maxOutputSampleCount : ℕ) (loop : FirDecimatorLoop K) :
    Option (FirDecimatorLoop K) :=
  (usub factor loop.phase).bind fun samplesUntilOutput => do
    let batchSampleCount :=
      if loop.input.length < samplesUntilOutput then loop.input.length else samplesUntilOutput
    let fir ← (loop.input.take batchSampleCount).foldlM firPush loop.fir
    let phase := loop.phase + batchSampleCount
    let loop := { loop with fir := fir, phase := phase, input := loop.input.drop batchSampleCount }
    if phase ≠ factor then
      return { loop with stopped := true }
    else
      let acc ← firComputeCurrentFromWindow fir fir.writeIndex
      return { loop with phase := 0, output := firOutput maxOutputSampleCount loop.output acc }

def firDecimatorProcessBlock (state : FirDecimatorState K) (input : List K)
    (maxOutputSampleCount : ℕ) : Option (FirDecimatorState K × List K) :=
  if !state.configured ∨ state.factor < 2 then
    some (state, [])
  else do
    let loop ← Loop.run firDecimatorMore (firDecimatorRound state.factor maxOutputSampleCount)
      input.length ⟨state.fir, state.phase, input, [], false⟩
    return ({ state with fir := loop.fir, phase := loop.phase }, loop.output)

/-! ### 90 taps and factor 5 -/

def firSpecializedDecimatorTapCount : ℕ := 90

def firSpecializedDecimatorFactor : ℕ := 5

def firSpecializedDecimatorOverlapSamples : ℕ :=
  firSpecializedDecimatorTapCount - firSpecializedDecimatorFactor

/-- The products that are summed up: a tap, and the two samples of the window it is for. -/
def firSpecializedProducts : List (ℕ × ℕ × ℕ) :=
  [(0, 0, 89), (1, 1, 88), (2, 2, 87), (3, 3, 86), (4, 4, 85), (5, 5, 84), (6, 6, 83), (7, 7, 82),
    (8, 8, 81), (9, 9, 80), (10, 10, 79), (11, 11, 78), (12, 12, 77), (13, 13, 76), (14, 14, 75),
    (15, 15, 74), (16, 16, 73), (17, 17, 72), (18, 18, 71), (19, 19, 70), (20, 20, 69),
    (21, 21, 68), (22, 22, 67), (23, 23, 66), (24, 24, 65), (25, 25, 64), (26, 26, 63),
    (27, 27, 62), (28, 28, 61), (29, 29, 60), (30, 30, 59), (31, 31, 58), (32, 32, 57),
    (33, 33, 56), (34, 34, 55), (35, 35, 54), (36, 36, 53), (37, 37, 52), (38, 38, 51),
    (39, 39, 50), (40, 40, 49), (41, 41, 48), (42, 42, 47), (43, 43, 46), (44, 44, 45)]

/-- The loop over the local window, whose slots are `none` until they are written. -/
structure FirSpecializedLoop (K : Type*) where
  window : List (Option K)
  windowStart : ℕ
  input : List K
  output : List K

def firSpecializedMore (loop : FirSpecializedLoop K) : Bool :=
  firSpecializedDecimatorFactor ≤ loop.input.length

/-- At the end of the window its last samples are moved to its start. -/
def firSpecializedRebase (window : List (Option K)) (windowStart : ℕ) :
    Option (List (Option K) × ℕ) :=
  if windowStart = firSpecializedDecimatorTapCount then do
    let overlap ← slice window windowStart firSpecializedDecimatorOverlapSamples
    return (memcpy window 0 overlap, 0)
  else
    return (window, windowStart)

/-- Five samples are stored behind the overlap. -/
def firSpecializedStore (window : List (Option K)) (windowStart : ℕ) (input : List K) :
    Option (List (Option K)) := do
  let window ← store window (windowStart + 85) input[0]?
  let window ← store window (windowStart + 86) input[1]?
  let window ← store window (windowStart + 87) input[2]?
  let window ← store window (windowStart + 88) input[3]?
  store window (windowStart + 89) input[4]?

/-- The products and their sum. -/
def firSpecializedSum (taps : List K) (window : List (Option K)) (windowStart : ℕ) : Option K :=
  productSum firSpecializedProducts (taps[·]?) fun i => window[windowStart + i]?.join

/-- One round: five samples in, one output. -/
def firSpecializedRound (taps : List K) (maxOutputSampleCount : ℕ) (loop : FirSpecializedLoop K) :
    Option (FirSpecializedLoop K) := do
  let (window, windowStart) ← firSpecializedRebase loop.window loop.windowStart
  let window ← firSpecializedStore window windowStart loop.input
  let acc ← firSpecializedSum taps window windowStart
  return {
    window := window
    windowStart := windowStart + firSpecializedDecimatorFactor
    input := loop.input.drop firSpecializedDecimatorFactor
    output := firOutput maxOutputSampleCount loop.output acc }

def firDecimatorProcessBlockSpecialized90x5 (state : FirDecimatorState K) (input : List K)
    (maxOutputSampleCount : ℕ) : Option (FirDecimatorState K × List K) := do
  let overlap ← slice state.fir.history 0 firSpecializedDecimatorOverlapSamples
  let window := memcpy (List.replicate (firSpecializedDecimatorTapCount * 2) none) 0
    (overlap.map some)
  let loop ← Loop.run firSpecializedMore
    (firSpecializedRound state.fir.taps maxOutputSampleCount) input.length ⟨window, 0, input, []⟩
  let overlap ← slice loop.window loop.windowStart firSpecializedDecimatorOverlapSamples
  let overlap ← overlap.mapM id
  return ({ state with
    phase := 0
    fir := { state.fir with history := memcpy state.fir.history 0 overlap, writeIndex := 0 } },
    loop.output)

end Mpxcast
