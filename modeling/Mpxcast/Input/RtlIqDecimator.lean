import Mpxcast.Core.CMemory
import Mpxcast.Core.Convolution

/-!
# The IQ decimator

`input/rtl/rtl_iq_decimator.c`: blocks of I/Q bytes are filtered and decimated, in two ways. One
keeps both components in rings that are stored twice, the other in windows that are shifted by hand.
What a call of `rtl_source_read` returns is an input; the design of the taps in floating point is
left open. Samples are elements of a ring `K`, and an access outside of an array makes the model
return `none`.
-/

namespace Mpxcast

open CMemory Convolution

def rtlIqDecimatorFactor : ℕ := 8

def rtlIqDecimatorTapCount : ℕ := 16

def rtlIqDecimatorOutputBlockSamples : ℕ := 5120

def rtlIqDecimatorBlockInputBytes : ℕ :=
  rtlIqDecimatorOutputBlockSamples * rtlIqDecimatorFactor * 2

def rtlIqDecimatorSpecializedOverlapSamples : ℕ := rtlIqDecimatorTapCount - rtlIqDecimatorFactor

structure RtlIqDecimatorTaps (K : Type*) where
  configured : Bool
  values : List K

structure RtlIqDecimatorState (K : Type*) where
  configured : Bool
  taps : RtlIqDecimatorTaps K
  historyInPhase : List K
  historyQuadrature : List K
  historyWriteIndex : ℕ
  inputBytes : List UInt8

/-- What `rtl_source_read` returned, and what is in the block of input bytes afterwards. -/
structure RtlBlockRead where
  result : Int
  inputBytes : List UInt8
  length_eq : inputBytes.length = rtlIqDecimatorBlockInputBytes

variable {K : Type*} [CommRing K]

def rtlIqDecimatorInit : RtlIqDecimatorState K where
  configured := false
  taps := ⟨false, List.replicate rtlIqDecimatorTapCount 0⟩
  historyInPhase := List.replicate (rtlIqDecimatorTapCount * 2) 0
  historyQuadrature := List.replicate (rtlIqDecimatorTapCount * 2) 0
  historyWriteIndex := 0
  inputBytes := List.replicate rtlIqDecimatorBlockInputBytes 0

/-- `rtl_iq_decimator_design_taps`, for the values that the design comes to. -/
def rtlIqDecimatorDesignTaps (taps : RtlIqDecimatorTaps K) (designed : List K) :
    RtlIqDecimatorTaps K :=
  if taps.configured then taps else ⟨true, designed⟩

def rtlIqDecimatorConfigure (state : RtlIqDecimatorState K) (designed : List K) :
    RtlIqDecimatorState K :=
  { state with taps := rtlIqDecimatorDesignTaps state.taps designed, configured := true }

/-- `((float)byte * 2.0f) - 255.0f`. -/
def iqSample (byte : UInt8) : K := (byte.toNat : K) * ((2 : ℕ) : K) - ((255 : ℕ) : K)

/-- The products of both components: a tap, and the two samples of the window it is for. -/
def rtlIqDecimatorProducts : List (ℕ × ℕ × ℕ) :=
  [(0, 0, 15), (1, 1, 14), (2, 2, 13), (3, 3, 12), (4, 4, 11), (5, 5, 10), (6, 6, 9), (7, 7, 8)]

/-! ### Rings -/

/-- The I/Q pair at the given input byte enters both copies of the rings. -/
def rtlIqDecimatorPush (state : RtlIqDecimatorState K) (input : ℕ) :
    Option (RtlIqDecimatorState K) := do
  let inPhase ← state.inputBytes[input]?.map iqSample
  let quadrature ← state.inputBytes[input + 1]?.map iqSample
  let writeIndex := state.historyWriteIndex
  let historyInPhase ← store state.historyInPhase writeIndex inPhase
  let historyInPhase ← store historyInPhase (writeIndex + rtlIqDecimatorTapCount) inPhase
  let historyQuadrature ← store state.historyQuadrature writeIndex quadrature
  let historyQuadrature ← store historyQuadrature (writeIndex + rtlIqDecimatorTapCount) quadrature
  return { state with
    historyInPhase := historyInPhase
    historyQuadrature := historyQuadrature
    historyWriteIndex := if writeIndex + 1 = rtlIqDecimatorTapCount then 0 else writeIndex + 1 }

/-- One round: eight pairs in, one pair out. -/
def rtlIqDecimatorGenericRound (loop : RtlIqDecimatorState K × List K) (outputIndex : ℕ) :
    Option (RtlIqDecimatorState K × List K) := do
  let state ← (List.range rtlIqDecimatorFactor).foldlM (fun state sampleIndex =>
    rtlIqDecimatorPush state (outputIndex * rtlIqDecimatorFactor * 2 + sampleIndex * 2)) loop.1
  let inPhase ← productSum rtlIqDecimatorProducts (state.taps.values[·]?) fun i =>
    state.historyInPhase[state.historyWriteIndex + i]?
  let quadrature ← productSum rtlIqDecimatorProducts (state.taps.values[·]?) fun i =>
    state.historyQuadrature[state.historyWriteIndex + i]?
  return (state, loop.2 ++ [inPhase, quadrature])

/-- The status, and what was written to the output. -/
def rtlIqDecimatorReadBlockGeneric (state : RtlIqDecimatorState K) (read : RtlBlockRead) :
    Option (RtlIqDecimatorState K × Int × List K) :=
  let state := { state with inputBytes := read.inputBytes }
  if read.result ≠ 0 then
    some (state, -1, [])
  else do
    let (state, output) ← (List.range rtlIqDecimatorOutputBlockSamples).foldlM
      rtlIqDecimatorGenericRound (state, [])
    return (state, 0, output)

/-! ### Shifted windows -/

/-- The local windows, whose slots are `none` until they are written. -/
structure RtlIqWindows (K : Type*) where
  inPhase : List (Option K)
  quadrature : List (Option K)

/-- The loads of a round: a slot of the windows, and the input bytes of both components. -/
def rtlIqDecimatorLoads : List (ℕ × ℕ × ℕ) :=
  [(8, 0, 1), (9, 2, 3), (10, 4, 5), (11, 6, 7), (12, 8, 9), (13, 10, 11), (14, 12, 13),
    (15, 14, 15)]

/-- The moves of a round: a slot of a window, and the slot it is set to. -/
def rtlIqDecimatorMoves : List (ℕ × ℕ) :=
  [(0, 8), (1, 9), (2, 10), (3, 11), (4, 12), (5, 13), (6, 14), (7, 15)]

def rtlIqDecimatorLoad (inputBytes : List UInt8) (input : ℕ) (windows : RtlIqWindows K)
    (load : ℕ × ℕ × ℕ) : Option (RtlIqWindows K) := do
  let inPhase ← inputBytes[input + load.2.1]?.map iqSample
  let quadrature ← inputBytes[input + load.2.2]?.map iqSample
  let windowI ← store windows.inPhase load.1 (some inPhase)
  let windowQ ← store windows.quadrature load.1 (some quadrature)
  return ⟨windowI, windowQ⟩

def rtlIqDecimatorMove (window : List (Option K)) (move : ℕ × ℕ) : Option (List (Option K)) := do
  let sample ← window[move.2]?.join
  store window move.1 (some sample)

/-- One round: eight pairs in, one pair out, and the windows shifted. -/
def rtlIqDecimatorSpecializedRound (taps : List K) (inputBytes : List UInt8)
    (loop : RtlIqWindows K × List K) (outputIndex : ℕ) : Option (RtlIqWindows K × List K) := do
  let windows ← rtlIqDecimatorLoads.foldlM
    (rtlIqDecimatorLoad inputBytes (outputIndex * rtlIqDecimatorFactor * 2)) loop.1
  let inPhase ← productSum rtlIqDecimatorProducts (taps[·]?) (windows.inPhase[·]?.join)
  let quadrature ← productSum rtlIqDecimatorProducts (taps[·]?) (windows.quadrature[·]?.join)
  let windowI ← rtlIqDecimatorMoves.foldlM rtlIqDecimatorMove windows.inPhase
  let windowQ ← rtlIqDecimatorMoves.foldlM rtlIqDecimatorMove windows.quadrature
  return (⟨windowI, windowQ⟩, loop.2 ++ [inPhase, quadrature])

/-- A local window that starts with the overlap kept in a history. -/
def rtlIqDecimatorOpenWindow (history : List K) : Option (List (Option K)) := do
  let overlap ← slice history 0 rtlIqDecimatorSpecializedOverlapSamples
  return memcpy (List.replicate rtlIqDecimatorTapCount none) 0 (overlap.map some)

/-- The history with the overlap that a local window ends with. -/
def rtlIqDecimatorCloseWindow (history : List K) (window : List (Option K)) :
    Option (List K) := do
  let overlap ← slice window 0 rtlIqDecimatorSpecializedOverlapSamples
  let overlap ← overlap.mapM id
  return memcpy history 0 overlap

/-- The status, and what was written to the output. -/
def rtlIqDecimatorReadBlockSpecialized16x8 (state : RtlIqDecimatorState K) (read : RtlBlockRead) :
    Option (RtlIqDecimatorState K × Int × List K) :=
  let state := { state with inputBytes := read.inputBytes }
  if read.result ≠ 0 then
    some (state, -1, [])
  else do
    let windowI ← rtlIqDecimatorOpenWindow state.historyInPhase
    let windowQ ← rtlIqDecimatorOpenWindow state.historyQuadrature
    let (windows, output) ← (List.range rtlIqDecimatorOutputBlockSamples).foldlM
      (rtlIqDecimatorSpecializedRound state.taps.values state.inputBytes) (⟨windowI, windowQ⟩, [])
    let historyInPhase ← rtlIqDecimatorCloseWindow state.historyInPhase windows.inPhase
    let historyQuadrature ← rtlIqDecimatorCloseWindow state.historyQuadrature windows.quadrature
    return ({ state with
      historyInPhase := historyInPhase
      historyQuadrature := historyQuadrature
      historyWriteIndex := 0 }, 0, output)

end Mpxcast
