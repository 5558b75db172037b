import Mpxcast.Core.CMemory
import Mpxcast.Dsp.RdsDemod

/-!
# The front end of the RDS demodulator

`dsp/rds_demod.c` up to the symbols: the multiplex is mixed down from 57 kHz, decimated in frames of
24 samples, levelled, corrected by the carrier loop and handed to the symbol synchroniser. The
objects of liquid-dsp are parameters: what a call returns and what it leaves behind are functions of
the object and the arguments. A complex sample is a pair, a null pointer is `none`, and so is the
result of a call on one or of an access outside of an array.
-/

namespace Mpxcast

open CMemory

universe u

def rdsDecimationFactor : ℕ := 24

def rdsInputBlockSamples : ℕ := 3648

def rdsInputBlockSlackSamples : ℕ := 16

def rdsMaxInputSamples : ℕ := rdsInputBlockSamples + rdsInputBlockSlackSamples

def rdsMaxResampledBlockSamples : ℕ :=
  (rdsMaxInputSamples + rdsDecimationFactor - 1) / rdsDecimationFactor

def rdsFirTapCount : ℕ := 255

def rdsSymbolPhases : ℕ := 3

def rdsSymsyncFilterDelay : ℕ := 3

def rdsSymsyncFilterBanks : ℕ := 32

def rdsCarrierRotatorRenormPeriod : ℕ := 32

/-- The objects of liquid-dsp, and `sqrtf`. -/
structure LiquidDsp (K Nco Decimator Agc SymbolSync : Type u) where
  ncoCreate : Nco
  ncoReset : Nco → Nco
  ncoSetFrequency : Nco → K → Nco
  ncoSetPhase : Nco → K → Nco
  ncoMixDown : Nco → K × K → K × K
  ncoStep : Nco → Nco
  /-- The number of taps, the cutoff, the stopband attenuation and the offset. -/
  firdesKaiser : ℕ → K → K → K → List K
  firdecimCreate : ℕ → List K → Decimator
  firdecimExecute : Decimator → List (K × K) → Decimator × (K × K)
  agcCreate : Agc
  agcReset : Agc → Agc
  agcSetBandwidth : Agc → K → Agc
  agcSetGain : Agc → K → Agc
  agcExecute : Agc → K × K → Agc × (K × K)
  /-- Samples per symbol, filter delay, excess bandwidth and number of filters. -/
  symsyncCreateRnyquist : ℕ → ℕ → K → ℕ → SymbolSync
  symsyncReset : SymbolSync → SymbolSync
  symsyncSetOutputRate : SymbolSync → ℕ → SymbolSync
  symsyncSetLfBw : SymbolSync → K → SymbolSync
  symsyncExecute : SymbolSync → List (K × K) → SymbolSync × List (K × K)
  sqrtf : K → K

/-- The front end, and the demodulator behind it. -/
structure RdsFrontEndState (K Nco Decimator Agc SymbolSync : Type u) where
  configuredInputRate : K
  subcarrierNco : Option Nco
  decimatorInput : List (K × K)
  decimatorInputCount : ℕ
  carrierFrequency : K
  carrierRotationI : K
  carrierRotationQ : K
  carrierRotationRenormCount : ℕ
  basebandDecimator : Option Decimator
  symbolSync : Option SymbolSync
  agc : Option Agc
  demod : RdsDemodState K

variable {K Nco Decimator Agc SymbolSync : Type u} [Field K] [LinearOrder K]

/-- `numerator / denominator` as a constant of the program. -/
def rdsConstant (numerator denominator : ℕ) : K := (numerator : K) / (denominator : K)

/-! ### Configuration -/

/-- `rds_demod_init`. -/
def rdsFrontEndInit : RdsFrontEndState K Nco Decimator Agc SymbolSync where
  configuredInputRate := 0
  subcarrierNco := none
  decimatorInput := List.replicate rdsDecimationFactor (0, 0)
  decimatorInputCount := 0
  carrierFrequency := 0
  carrierRotationI := 0
  carrierRotationQ := 0
  carrierRotationRenormCount := 0
  basebandDecimator := none
  symbolSync := none
  agc := none
  demod := rdsDemodInit

def rdsCreateBasebandDecimator (liquid : LiquidDsp K Nco Decimator Agc SymbolSync)
    (sampleRate : K) : Decimator :=
  liquid.firdecimCreate rdsDecimationFactor
    (liquid.firdesKaiser rdsFirTapCount (rdsConstant 2400 1 / sampleRate) (rdsConstant 70 1) 0)

def rdsCreateSymbolSync (liquid : LiquidDsp K Nco Decimator Agc SymbolSync) : SymbolSync :=
  liquid.symsyncCreateRnyquist rdsSymbolPhases rdsSymsyncFilterDelay (rdsConstant 8 10)
    rdsSymsyncFilterBanks

def rdsConfigureNco (liquid : LiquidDsp K Nco Decimator Agc SymbolSync) (nco : Option Nco)
    (sampleRate : K) : Nco :=
  let step := rdsConstant 628318531 100000000 * rdsConstant 57000 1 / sampleRate
  let nco := nco.elim liquid.ncoCreate liquid.ncoReset
  liquid.ncoSetPhase (liquid.ncoSetFrequency nco step) 0

/-- A new synchroniser is set up, one that is there is reset. -/
def rdsConfigureSymbolSync (liquid : LiquidDsp K Nco Decimator Agc SymbolSync)
    (symbolSync : Option SymbolSync) : SymbolSync :=
  symbolSync.elim
    (liquid.symsyncSetLfBw (liquid.symsyncSetOutputRate (rdsCreateSymbolSync liquid) 1)
      (rdsConstant 12865 1000000))
    liquid.symsyncReset

def rdsConfigureAgc (liquid : LiquidDsp K Nco Decimator Agc SymbolSync) (agc : Option Agc) : Agc :=
  let agc := agc.elim (liquid.agcSetBandwidth liquid.agcCreate (rdsConstant 45 10000))
    liquid.agcReset
  liquid.agcSetGain agc (rdsConstant 12 100)

def rdsDemodConfigure (liquid : LiquidDsp K Nco Decimator Agc SymbolSync)
    (state : RdsFrontEndState K Nco Decimator Agc SymbolSync) (sampleRate : K) :
    RdsFrontEndState K Nco Decimator Agc SymbolSync :=
  if state.configuredInputRate = sampleRate then state
  else
    { configuredInputRate := sampleRate
      subcarrierNco := some (rdsConfigureNco liquid state.subcarrierNco sampleRate)
      decimatorInput := List.replicate rdsDecimationFactor (0, 0)
      decimatorInputCount := 0
      carrierFrequency := 0
      carrierRotationI := 1
      carrierRotationQ := 0
      carrierRotationRenormCount := 0
      basebandDecimator := some (rdsCreateBasebandDecimator liquid sampleRate)
      symbolSync := some (rdsConfigureSymbolSync liquid state.symbolSync)
      agc := some (rdsConfigureAgc liquid state.agc)
      demod := { state.demod with activePhase := -1, parser := rdsParserInit } }

/-! ### The carrier loop -/

def rdsClamp (value minValue maxValue : K) : K :=
  if value < minValue then minValue
  else if value > maxValue then maxValue
  else value

/-- The rotation is normalised again after every 32 samples. -/
def rdsCarrierRenormalize (sqrtf : K → K)
    (state : RdsFrontEndState K Nco Decimator Agc SymbolSync) :
    RdsFrontEndState K Nco Decimator Agc SymbolSync :=
  let count := state.carrierRotationRenormCount + 1
  if count = rdsCarrierRotatorRenormPeriod then
    let magnitude := sqrtf (state.carrierRotationI * state.carrierRotationI +
      state.carrierRotationQ * state.carrierRotationQ)
    { state with
      carrierRotationI := if magnitude > 0 then state.carrierRotationI / magnitude else 1
      carrierRotationQ := if magnitude > 0 then state.carrierRotationQ / magnitude else 0
      carrierRotationRenormCount := 0 }
  else { state with carrierRotationRenormCount := count }

/-- The state after a sample, and the corrected sample. -/
def rdsCarrierCorrectSample (sqrtf : K → K)
    (state : RdsFrontEndState K Nco Decimator Agc SymbolSync) (sample : K × K) :
    RdsFrontEndState K Nco Decimator Agc SymbolSync × (K × K) :=
  let rotationI := state.carrierRotationI
  let rotationQ := state.carrierRotationQ
  let correctedI := sample.1 * rotationI - sample.2 * rotationQ
  let correctedQ := sample.1 * rotationQ + sample.2 * rotationI
  let energy := correctedI * correctedI + correctedQ * correctedQ + rdsConstant 1 1000000
  let error := rdsClamp (correctedI * correctedQ / energy) (-1) 1
  let carrierFrequency := state.carrierFrequency + rdsConstant 6 100000 * error
  let delta := carrierFrequency + rdsConstant 4 1000 * error
  let stepI := 1 - rdsConstant 1 2 * delta * delta
  let stepQ := -delta
  (rdsCarrierRenormalize sqrtf { state with
    carrierFrequency := carrierFrequency
    carrierRotationI := rotationI * stepI - rotationQ * stepQ
    carrierRotationQ := rotationI * stepQ + rotationQ * stepI }, (correctedI, correctedQ))

/-! ### Blocks -/

/-- What the decimator was given, and which of its outputs the guard has dropped. -/
structure RdsDecimatorRecord (K : Type u) where
  frames : List (List (K × K)) := []
  dropped : List (K × K) := []

/-- The state and the local variables of `rds_demod_process_mpx_block`, with a record. -/
structure RdsMpxBlockRun (K Nco Decimator Agc SymbolSync : Type u) where
  state : RdsFrontEndState K Nco Decimator Agc SymbolSync
  symbolSyncInput : List (K × K)
  resampledCount : ℕ
  record : RdsDecimatorRecord K

/-- A decimator output is levelled, corrected and stored, when there is room for it. -/
def rdsStoreResampled (liquid : LiquidDsp K Nco Decimator Agc SymbolSync)
    (run : RdsMpxBlockRun K Nco Decimator Agc SymbolSync) (decimatorOutput : K × K) :
    Option (RdsMpxBlockRun K Nco Decimator Agc SymbolSync) :=
  if run.resampledCount < rdsMaxResampledBlockSamples then do
    let agc ← run.state.agc
    let (agc, agcOutput) := liquid.agcExecute agc decimatorOutput
    let (state, corrected) :=
      rdsCarrierCorrectSample liquid.sqrtf { run.state with agc := some agc } agcOutput
    let symbolSyncInput ← store run.symbolSyncInput run.resampledCount corrected
    return { run with
      state := state
      symbolSyncInput := symbolSyncInput
      resampledCount := run.resampledCount + 1 }
  else some { run with
    record := { run.record with dropped := run.record.dropped ++ [decimatorOutput] } }

/-- The full input goes through the decimator. -/
def rdsDecimate (liquid : LiquidDsp K Nco Decimator Agc SymbolSync)
    (run : RdsMpxBlockRun K Nco Decimator Agc SymbolSync) :
    Option (RdsMpxBlockRun K Nco Decimator Agc SymbolSync) := do
  let decimator ← run.state.basebandDecimator
  let (decimator, decimatorOutput) := liquid.firdecimExecute decimator run.state.decimatorInput
  rdsStoreResampled liquid { run with
    state := { run.state with basebandDecimator := some decimator, decimatorInputCount := 0 }
    record := { run.record with frames := run.record.frames ++ [run.state.decimatorInput] } }
    decimatorOutput

/-- A round of the loop over the samples. -/
def rdsMixSample (liquid : LiquidDsp K Nco Decimator Agc SymbolSync)
    (run : RdsMpxBlockRun K Nco Decimator Agc SymbolSync) (mpxSample : K) :
    Option (RdsMpxBlockRun K Nco Decimator Agc SymbolSync) := do
  let nco ← run.state.subcarrierNco
  let mixed := liquid.ncoMixDown nco (mpxSample, 0)
  let decimatorInput ← store run.state.decimatorInput run.state.decimatorInputCount mixed
  let run := { run with
    state := { run.state with
      subcarrierNco := some (liquid.ncoStep nco)
      decimatorInput := decimatorInput
      decimatorInputCount := run.state.decimatorInputCount + 1 } }
  if run.state.decimatorInputCount = rdsDecimationFactor then rdsDecimate liquid run else some run

/-- The stored samples become symbols, and these are decoded. -/
def rdsProcessResampled (liquid : LiquidDsp K Nco Decimator Agc SymbolSync)
    (state : RdsFrontEndState K Nco Decimator Agc SymbolSync) (resampled : List (K × K)) :
    RdsFrontEndState K Nco Decimator Agc SymbolSync :=
  state.symbolSync.elim state fun symbolSync =>
    let (symbolSync, symbols) := liquid.symsyncExecute symbolSync resampled
    { state with
      symbolSync := some symbolSync
      demod := (rdsDemodReceive state.demod symbols).1 }

/-- `rds_demod_process_mpx_block`. The array of resampled samples starts uninitialised; only what
was stored in it is read. -/
def rdsDemodProcessMpxBlock (liquid : LiquidDsp K Nco Decimator Agc SymbolSync)
    (state : RdsFrontEndState K Nco Decimator Agc SymbolSync) (mpxSamples : List K) :
    Option (RdsFrontEndState K Nco Decimator Agc SymbolSync × RdsDecimatorRecord K) :=
  if mpxSamples.length = 0 ∨ mpxSamples.length > rdsMaxInputSamples then some (state, {})
  else
    (mpxSamples.foldlM (rdsMixSample liquid)
      { state := state
        symbolSyncInput := List.replicate rdsMaxResampledBlockSamples (0, 0)
        resampledCount := 0
        record := {} }).map fun run =>
      if run.resampledCount = 0 then (run.state, run.record)
      else (rdsProcessResampled liquid run.state (run.symbolSyncInput.take run.resampledCount),
        run.record)

end Mpxcast
