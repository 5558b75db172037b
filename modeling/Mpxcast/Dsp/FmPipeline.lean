import Mpxcast.Dsp.FmDiscriminator
import Mpxcast.Dsp.FmQuality
import Mpxcast.Dsp.FmStereoReceiver
import Mpxcast.Dsp.RdsFraming
import Mpxcast.Input.IqDecimation

/-!
# The FM pipeline

`dsp/fm_pipeline.c` and `dsp/liquid_resampler.c`: a block of the source is decimated and
demodulated, and the multiplex goes to the quality monitor and, resampled, to the RDS demodulator. A
block that could not be read is demodulated as a block of zeros.
-/

namespace Mpxcast

open CFloat DelayLine

universe u

/-! ### The resampler -/

/-- `msresamp_rrrf`: created for a rate and a stopband attenuation. -/
structure Msresamp (K Resampler : Type u) where
  create : K → K → Resampler
  execute : Resampler → List K → Resampler × List K

structure LiquidResamplerState (K Resampler : Type u) where
  configuredInputRate : K
  configuredOutputRate : K
  resampler : Option Resampler

variable {K Nco Decimator Agc SymbolSync Resampler Filter : Type u} [Field K] [LinearOrder K]

omit [LinearOrder K] in
def liquidResamplerInit : LiquidResamplerState K Resampler := ⟨0, 0, none⟩

def liquidResamplerConfigure (msresamp : Msresamp K Resampler)
    (state : LiquidResamplerState K Resampler) (inputRate outputRate : K) :
    LiquidResamplerState K Resampler :=
  if state.configuredInputRate = inputRate ∧ state.configuredOutputRate = outputRate then state
  else ⟨inputRate, outputRate, some (msresamp.create (outputRate / inputRate) ((70 : ℕ) : K))⟩

omit [Field K] [LinearOrder K] in
def liquidResamplerProcessBlock (msresamp : Msresamp K Resampler)
    (state : LiquidResamplerState K Resampler) (inputSamples : List K) :
    LiquidResamplerState K Resampler × List K :=
  match state.resampler with
  | none => (state, [])
  | some resampler =>
    if inputSamples.length = 0 then (state, [])
    else
      let (resampler, outputSamples) := msresamp.execute resampler inputSamples
      ({ state with resampler := some resampler }, outputSamples)

/-! ### The pipeline -/

/-- What the pipeline calls of other libraries. -/
structure PipelineLibrary (K Nco Decimator Agc SymbolSync Resampler Filter : Type u) where
  liquid : LiquidDsp K Nco Decimator Agc SymbolSync
  msresamp : Msresamp K Resampler
  iirfilt : Iirfilt Filter K
  math : MathLibrary K
  qualityMath : QualityMath K
  atan2f : Signed K → Signed K → K

def fmPipelineRdsSampleRate : ℕ := 171000

/-- Arrays that are filled again in every block before they are read are local values. -/
structure FmPipelineState (K Nco Decimator Agc SymbolSync Resampler Filter : Type u) where
  rdsEnabled : Bool
  rdsResampler : LiquidResamplerState K Resampler
  discriminator : FmDiscriminatorState K
  quality : FmQualityState Filter K
  rtlIqDecimator : RtlIqDecimatorState K
  rdsDemod : RdsFrontEndState K Nco Decimator Agc SymbolSync
  demodulated : MpxBlock K

namespace FmPipelineState

def init : FmPipelineState K Nco Decimator Agc SymbolSync Resampler Filter where
  rdsEnabled := false
  rdsResampler := liquidResamplerInit
  discriminator := fmDiscriminatorInit
  quality := fmQualityDestroy
  rtlIqDecimator := rtlIqDecimatorInit
  rdsDemod := rdsFrontEndInit
  demodulated := .ofFn fun _ => 0

variable (library : PipelineLibrary K Nco Decimator Agc SymbolSync Resampler Filter)

/-- `rtl_iq_decimator_design_taps` computes what the filter bank does for its low pass. -/
def designedTaps (math : MathLibrary K) : List K :=
  mpxFilterBankDesignLowpassTaps math ((1920000 : ℕ) : K) ((120000 : ℕ) : K) rtlIqDecimatorTapCount

lemma length_designedTaps (math : MathLibrary K) :
    (designedTaps math).length = rtlIqDecimatorTapCount := length_designLowpassTaps _ _ _ _

def configure (state : FmPipelineState K Nco Decimator Agc SymbolSync Resampler Filter)
    (rdsEnabled : Bool) (qualityIntervalSeconds : K) :
    FmPipelineState K Nco Decimator Agc SymbolSync Resampler Filter :=
  let state := { state with
    rtlIqDecimator := rtlIqDecimatorConfigure state.rtlIqDecimator (designedTaps library.math)
    rdsEnabled := rdsEnabled
    quality :=
      if qualityIntervalSeconds > 0 then fmQualityInit library.iirfilt qualityIntervalSeconds
      else fmQualityDestroy }
  if rdsEnabled then
    { state with
      rdsResampler := liquidResamplerConfigure library.msresamp state.rdsResampler
        (fmPipelineMpxRateHz : K) (fmPipelineRdsSampleRate : K)
      rdsDemod := rdsDemodConfigure library.liquid state.rdsDemod (fmPipelineRdsSampleRate : K) }
  else state

/-- The block for the discriminator, and whether it was read. -/
def readBlock (decimator : RtlIqDecimatorState K) (read : RtlBlockRead) :
    Option (RtlIqDecimatorState K × Bool × List K) := do
  let (decimator, status, output) ← rtlIqDecimatorReadBlockSpecialized16x8 decimator read
  if status = 0 then return (decimator, true, output)
  else return (decimator, false, List.replicate (fmPipelineDspBlockSamples * 2) 0)

def measureQuality (quality : FmQualityState Filter K) (inputValid : Bool)
    (demodulated : MpxBlock K) : FmQualityState Filter K :=
  if quality.reportIntervalSeconds > 0 then
    if inputValid then
      fmQualityProcessBlock library.iirfilt library.qualityMath quality
        (demodulated.samples.map some)
    else fmQualityReset library.iirfilt quality
  else quality

/-- The array for the samples of RDS, as far as it is written. -/
def fillRdsInput (produced : List K) : Option (List K) :=
  if produced.length ≤ rdsMaxInputSamples then some produced else none

def demodulateRds (rdsDemod : RdsFrontEndState K Nco Decimator Agc SymbolSync) (rdsInput : List K) :
    Option (RdsFrontEndState K Nco Decimator Agc SymbolSync) :=
  if rdsInput.length > 0 ∧ rdsInput.length ≤ rdsMaxInputSamples then
    (rdsDemodProcessMpxBlock library.liquid rdsDemod rdsInput).map Prod.fst
  else some rdsDemod

/-- The part of a block for RDS. -/
def receiveRds (state : FmPipelineState K Nco Decimator Agc SymbolSync Resampler Filter) :
    Option (FmPipelineState K Nco Decimator Agc SymbolSync Resampler Filter) :=
  if state.rdsEnabled then do
    let (rdsResampler, produced) :=
      liquidResamplerProcessBlock library.msresamp state.rdsResampler state.demodulated.samples
    let rdsInput ← fillRdsInput produced
    let rdsDemod ← demodulateRds library state.rdsDemod rdsInput
    return { state with rdsResampler := rdsResampler, rdsDemod := rdsDemod }
  else some state

/-- The zeros among the samples are positive: those of the decimator come from sums that cancel (the
taps in the middle of its low pass are positive), the others from `memset`. -/
def processLiveBlock (state : FmPipelineState K Nco Decimator Agc SymbolSync Resampler Filter)
    (read : RtlBlockRead) :
    Option (FmPipelineState K Nco Decimator Agc SymbolSync Resampler Filter) := do
  let decimator :=
    if !state.rtlIqDecimator.configured then
      rtlIqDecimatorConfigure state.rtlIqDecimator (designedTaps library.math)
    else state.rtlIqDecimator
  let (decimator, inputValid, decimatedIq) ← readBlock decimator read
  let (discriminator, output) ← fmDiscriminatorProcessBlockFloat library.atan2f state.discriminator
    (decimatedIq.map .plain) fmPipelineDspBlockSamples
  let demodulated ← state.demodulated.write output
  receiveRds library { state with
    rtlIqDecimator := decimator
    discriminator := discriminator
    demodulated := demodulated
    quality := measureQuality library state.quality inputValid demodulated }

/-! ### What the parser is given -/

end FmPipelineState

/-- The parser has been given some groups, one after the other. -/
def ParsedFrom (before after : RdsParserState K) : Prop :=
  ∃ groups : List (RdsGroup K),
    after = groups.foldl (fun parser group => (rdsParserProcessGroup parser group).1) before

lemma ParsedFrom.refl (parser : RdsParserState K) : ParsedFrom parser parser := ⟨[], rfl⟩

lemma ParsedFrom.trans {a b c : RdsParserState K} (hab : ParsedFrom a b) (hbc : ParsedFrom b c) :
    ParsedFrom a c := by
  obtain ⟨groups, rfl⟩ := hab
  obtain ⟨later, rfl⟩ := hbc
  exact ⟨groups ++ later, List.foldl_append.symm⟩

lemma rdsDemodTakeGroups_parsed (state : RdsDemodState K) :
    ParsedFrom state.parser (rdsDemodTakeGroups state).parser :=
  ⟨_, rdsDemodTakeGroup_foldl_parsed _ _⟩

omit [Field K] [LinearOrder K] in
lemma rdsDemodTakeSyncAcquired_sameParser (state : RdsDemodState K) :
    (rdsDemodTakeSyncAcquired state).parser = state.parser := by
  unfold rdsDemodTakeSyncAcquired rdsDemodActivatePhase
  dsimp only
  split_ifs <;> rfl

omit [Field K] [LinearOrder K] in
lemma rdsDemodTakeSyncLost_sameParser (state : RdsDemodState K) :
    (rdsDemodTakeSyncLost state).parser = state.parser := by
  unfold rdsDemodTakeSyncLost
  dsimp only
  split_ifs <;> rfl

lemma rdsDemodPushBit_parsed (state : RdsDemodState K) (bit : Bool) (confidence : K) :
    ParsedFrom state.parser (rdsDemodPushBit state bit confidence).parser := by
  have hgroups := rdsDemodTakeGroups_parsed (rdsDemodTakeSyncLost (rdsDemodTakeSyncAcquired
    (rdsDemodSetStream state
      (rdsBlockStreamPushBitWithConfidence state.phase.blockStream bit confidence))))
  rw [rdsDemodTakeSyncLost_sameParser, rdsDemodTakeSyncAcquired_sameParser] at hgroups
  exact hgroups

lemma rdsDemodReceive_parsed (symbols : List (K × K)) :
    ∀ state : RdsDemodState K,
      ParsedFrom state.parser (rdsDemodReceive state symbols).1.parser := by
  induction symbols with
  | nil => exact fun state => ParsedFrom.refl state.parser
  | cons symbol symbols ih =>
    intro state
    have hsymbol : ParsedFrom state.parser
        (rdsDemodProcessSymbolSample state symbol.1 symbol.2).1.parser := by
      unfold rdsDemodProcessSymbolSample rdsDemodKeepSymbol
      dsimp only
      cases (rdsDecodeSymbol { state.phase with phaseScore := state.phase.phaseScore - 1 }
        symbol.1).2 with
      | none => exact ParsedFrom.refl _
      | some pushed => exact rdsDemodPushBit_parsed _ pushed.1 pushed.2
    exact hsymbol.trans (ih _)

/-- The front end leaves the demodulator to the symbols. -/
lemma rdsMixSample_demod {liquid : LiquidDsp K Nco Decimator Agc SymbolSync}
    {run next : RdsMpxBlockRun K Nco Decimator Agc SymbolSync} {mpxSample : K}
    (h : rdsMixSample liquid run mpxSample = some next) : next.state.demod = run.state.demod := by
  have hstore {run next : RdsMpxBlockRun K Nco Decimator Agc SymbolSync} {output : K × K}
      (h : rdsStoreResampled liquid run output = some next) :
      next.state.demod = run.state.demod := by
    unfold rdsStoreResampled at h
    split_ifs at h
    · simp only [Option.bind_eq_bind, Option.bind_eq_some_iff] at h
      obtain ⟨agc, -, input, -, h⟩ := h
      obtain rfl := Option.some.inj h
      dsimp only
      unfold rdsCarrierCorrectSample rdsCarrierRenormalize
      dsimp only
      split_ifs <;> rfl
    · obtain rfl := Option.some.inj h
      rfl
  simp only [rdsMixSample, Option.bind_eq_bind, Option.bind_eq_some_iff] at h
  obtain ⟨nco, -, input, -, h⟩ := h
  split_ifs at h
  · simp only [rdsDecimate, Option.bind_eq_bind, Option.bind_eq_some_iff] at h
    obtain ⟨decimator, -, h⟩ := h
    have hkept := hstore h
    exact hkept
  · obtain rfl := Option.some.inj h
    rfl

lemma rdsMixSamples_demod {liquid : LiquidDsp K Nco Decimator Agc SymbolSync}
    (mpxSamples : List K) : ∀ {run next : RdsMpxBlockRun K Nco Decimator Agc SymbolSync},
    mpxSamples.foldlM (rdsMixSample liquid) run = some next →
      next.state.demod = run.state.demod := by
  induction mpxSamples with
  | nil =>
    intro run next h
    obtain rfl := Option.some.inj h
    rfl
  | cons sample mpxSamples ih =>
    intro run next h
    rw [List.foldlM_cons, Option.bind_eq_bind, Option.bind_eq_some_iff] at h
    obtain ⟨middle, hfirst, h⟩ := h
    exact (ih h).trans (rdsMixSample_demod hfirst)

lemma rdsDemodProcessMpxBlock_parsed {liquid : LiquidDsp K Nco Decimator Agc SymbolSync}
    {state next : RdsFrontEndState K Nco Decimator Agc SymbolSync} {record : RdsDecimatorRecord K}
    {mpxSamples : List K}
    (h : rdsDemodProcessMpxBlock liquid state mpxSamples = some (next, record)) :
    ParsedFrom state.demod.parser next.demod.parser := by
  unfold rdsDemodProcessMpxBlock at h
  split_ifs at h
  · obtain ⟨rfl, -⟩ := Prod.mk.inj (Option.some.inj h)
    exact ParsedFrom.refl _
  · obtain ⟨run, hrounds, h⟩ := Option.map_eq_some_iff.1 h
    have hdemod : run.state.demod = state.demod := rdsMixSamples_demod mpxSamples hrounds
    rw [← hdemod]
    split_ifs at h
    · obtain ⟨rfl, -⟩ := Prod.mk.inj h
      exact ParsedFrom.refl _
    · obtain ⟨rfl, -⟩ := Prod.mk.inj h
      unfold rdsProcessResampled
      cases run.state.symbolSync with
      | none => exact ParsedFrom.refl _
      | some symbolSync => exact rdsDemodReceive_parsed _ _

/-! ### Streams -/

/-- What the discriminator hears of a block: of one that could not be read, zeros. -/
def heardPairs (taps : List K) (history : List (K × K)) (read : RtlBlockRead) : List (K × K) :=
  if read.result ≠ 0 then List.replicate fmPipelineDspBlockSamples (0, 0)
  else due rtlIqDecimatorFactor (iqResponse taps) history (iqSamples read.inputBytes)

/-- The decimated pairs of a sequence of blocks. -/
def receivedPairs (taps : List K) (reads : List RtlBlockRead) : List (K × K) :=
  (Loop.answers (heardPairs taps) iqExtend [] reads).flatten

omit [LinearOrder K] in
lemma length_heardPairs (taps : List K) (history : List (K × K)) (read : RtlBlockRead) :
    (heardPairs taps history read).length = fmPipelineDspBlockSamples := by
  unfold heardPairs
  split_ifs
  · exact List.length_replicate
  · rw [length_due, read.length_samples, Nat.add_mul_div_left _ _ (by decide),
      Nat.add_sub_cancel_left]
    rfl

def signedPair (pair : K × K) : Signed K × Signed K := (.plain pair.1, .plain pair.2)

/-- What the discriminator answers to a decimated pair, next to the pair before it. -/
def pipelineAnswer (atan2f : Signed K → Signed K → K) (impl : FmDiscriminatorImpl)
    (prev pair : K × K) : K :=
  fmDiscriminatorAnswer atan2f impl (signedPair prev) (signedPair pair)

namespace FmPipelineState

variable (library : PipelineLibrary K Nco Decimator Agc SymbolSync Resampler Filter)

/-- The pipeline has read one history of pairs, and the discriminator has heard another one. -/
structure Heard (state : FmPipelineState K Nco Decimator Agc SymbolSync Resampler Filter)
    (taps : List K) (impl : FmDiscriminatorImpl) (input heard : List (K × K)) : Prop where
  configured : state.rtlIqDecimator.configured = true
  decimator : state.rtlIqDecimator.Overlaps taps input
  frames : rtlIqDecimatorFactor ∣ input.length
  discriminator : state.discriminator.Heard impl (heard.map signedPair)
  rds : state.rdsEnabled = true → ∃ nco pending, state.rdsDemod.Pending nco pending

omit [Field K] [LinearOrder K] in
lemma interleaved_signed (pairs : List (K × K)) :
    interleaved (pairs.map signedPair) = (interleaved pairs).map .plain :=
  interleaved_map Signed.plain pairs

/-- What the pairs add to the multiplex. -/
lemma since_demodulated_signed (atan2f : Signed K → Signed K → K) (impl : FmDiscriminatorImpl)
    (history pairs : List (K × K)) :
    Causal.since (Mpxcast.demodulated (fmDiscriminatorAnswer atan2f impl))
        (history.map signedPair) (pairs.map signedPair)
      = Causal.since (Mpxcast.demodulated (pipelineAnswer atan2f impl)) history pairs := by
  rw [Causal.since, ← List.map_append, demodulated_map, demodulated_map]
  rfl

/-- The resampler fills its array at most. -/
def ResamplerFits : Prop := ∀ (resampler : Resampler) (block : MpxBlock K),
  (library.msresamp.execute resampler block.samples).2.length ≤ rdsMaxInputSamples

variable {library} {state : FmPipelineState K Nco Decimator Agc SymbolSync Resampler Filter}
  {taps : List K} {impl : FmDiscriminatorImpl} {input heard : List (K × K)}

omit [LinearOrder K] in
lemma interleaved_replicate_zero (n : ℕ) :
    interleaved (List.replicate n ((0 : K), (0 : K))) = List.replicate (n * 2) 0 := by
  induction n with
  | zero => rfl
  | succ n ih =>
    rw [Nat.succ_mul]
    exact congrArg (fun samples => 0 :: 0 :: samples) ih

omit [LinearOrder K] in
lemma readBlockSpecialized_configured {decimator next : RtlIqDecimatorState K} {read : RtlBlockRead}
    {answer : Int × List K}
    (h : rtlIqDecimatorReadBlockSpecialized16x8 decimator read = some (next, answer)) :
    next.configured = decimator.configured := by
  unfold rtlIqDecimatorReadBlockSpecialized16x8 at h
  dsimp only at h
  split_ifs at h
  · obtain ⟨rfl, -⟩ := Prod.mk.inj (Option.some.inj h)
    rfl
  · simp only [Option.bind_eq_bind, Option.bind_eq_some_iff] at h
    obtain ⟨_, -, _, -, _, -, _, -, _, -, h⟩ := h
    obtain ⟨rfl, -⟩ := Prod.mk.inj (Option.some.inj h)
    rfl

omit [LinearOrder K] in
/-- A block is answered with its pairs, or with zeros. -/
lemma readBlock_eq (htaps : taps.length = rtlIqDecimatorTapCount)
    (hframes : rtlIqDecimatorFactor ∣ input.length) {decimator : RtlIqDecimatorState K}
    (hdecimator : decimator.Overlaps taps input) (read : RtlBlockRead) :
    ∃ next, readBlock decimator read = some (next, decide (read.result = 0),
        interleaved (heardPairs taps input read)) ∧
      next.Overlaps taps (iqExtend input read) ∧ next.configured = decimator.configured := by
  obtain ⟨next, hread, hnext⟩ := hdecimator.readBlock htaps hframes read
  refine ⟨next, ?_, hnext, readBlockSpecialized_configured hread⟩
  rw [readBlock, hread, Option.bind_eq_bind, Option.bind_some, iqAnswer, heardPairs]
  by_cases hread : read.result = 0
  · rw [if_neg (not_not.2 hread), if_neg (not_not.2 hread), decide_eq_true hread]
    rfl
  · rw [if_pos hread, if_pos hread, decide_eq_false hread, interleaved_replicate_zero]
    rfl

omit [Field K] [LinearOrder K] in
lemma liquidResamplerProcessBlock_length (hfits : ResamplerFits library)
    (resampler : LiquidResamplerState K Resampler) (block : MpxBlock K) :
    (liquidResamplerProcessBlock library.msresamp resampler block.samples).2.length
      ≤ rdsMaxInputSamples := by
  unfold liquidResamplerProcessBlock
  cases resampler.resampler with
  | none => exact Nat.zero_le _
  | some resampler =>
    dsimp only
    split_ifs
    · exact Nat.zero_le _
    · exact hfits resampler block

/-- The part for RDS is always possible, and gives some groups to the parser, unless it is disabled.
-/
lemma Heard.receiveRds (h : state.Heard taps impl input heard) (hfits : ResamplerFits library) :
    ∃ rdsResampler rdsDemod, FmPipelineState.receiveRds library state
        = some { state with rdsResampler := rdsResampler, rdsDemod := rdsDemod } ∧
      (state.rdsEnabled = true → ∃ nco pending, rdsDemod.Pending nco pending) ∧
      ParsedFrom state.rdsDemod.demod.parser rdsDemod.demod.parser ∧
      (state.rdsEnabled = false → rdsDemod = state.rdsDemod) := by
  unfold FmPipelineState.receiveRds
  cases hrds : state.rdsEnabled with
  | false =>
    refine ⟨state.rdsResampler, state.rdsDemod, ?_, fun h => absurd h Bool.false_ne_true,
      ParsedFrom.refl _, fun _ => rfl⟩
    rw [← hrds]
    exact if_neg (by rw [hrds]; exact Bool.false_ne_true)
  | true =>
    obtain ⟨nco, pending, hpending⟩ := h.rds hrds
    have hlength := liquidResamplerProcessBlock_length hfits state.rdsResampler state.demodulated
    rcases hresampled : liquidResamplerProcessBlock library.msresamp state.rdsResampler
      state.demodulated.samples with ⟨rdsResampler, produced⟩
    rw [hresampled] at hlength
    have hfill : fillRdsInput produced = some produced := if_pos hlength
    obtain ⟨next, record, hprocess, hnext, -, -⟩ := hpending.processMpxBlock library.liquid produced
    rw [if_pos rfl]
    simp only [hfill, Option.bind_eq_bind, Option.bind_some]
    unfold demodulateRds
    split_ifs with hproduced
    · rw [hprocess]
      exact ⟨rdsResampler, next, by rw [← hrds]; rfl, fun _ => ⟨_, _, hnext⟩,
        rdsDemodProcessMpxBlock_parsed hprocess, fun hfalse => nomatch hfalse⟩
    · exact ⟨rdsResampler, state.rdsDemod, by rw [← hrds]; rfl, fun _ => ⟨nco, pending, hpending⟩,
        ParsedFrom.refl _, fun hfalse => nomatch hfalse⟩

/-- A block is demodulated behind what has been heard. -/
lemma Heard.processLiveBlock (htaps : taps.length = rtlIqDecimatorTapCount)
    (h : state.Heard taps impl input heard) (hfits : ResamplerFits library) (read : RtlBlockRead) :
    ∃ next, FmPipelineState.processLiveBlock library state read = some next ∧
      next.Heard taps impl (iqExtend input read) (heard ++ heardPairs taps input read) ∧
      next.demodulated.samples = Causal.since
        (Mpxcast.demodulated (pipelineAnswer library.atan2f impl)) heard
        (heardPairs taps input read) ∧
      next.rdsEnabled = state.rdsEnabled ∧
      ParsedFrom state.rdsDemod.demod.parser next.rdsDemod.demod.parser ∧
      (state.rdsEnabled = false → next.rdsDemod = state.rdsDemod) := by
  obtain ⟨decimator, hread, hdecimator, hconfigured⟩ := readBlock_eq htaps h.frames h.decimator read
  obtain ⟨discriminator, hdemodulate, hdiscriminator⟩ :=
    h.discriminator.process library.atan2f ((heardPairs taps input read).map signedPair)
  obtain ⟨output, houtput⟩ : ∃ output, output = Causal.since
      (Mpxcast.demodulated (pipelineAnswer library.atan2f impl)) heard
      (heardPairs taps input read) := ⟨_, rfl⟩
  rw [since_demodulated_signed, ← houtput, List.length_map, length_heardPairs,
    interleaved_signed] at hdemodulate
  rw [← List.map_append] at hdiscriminator
  have hlength : output.length = fmPipelineDspBlockSamples := by
    rw [houtput, Causal.since, List.length_drop, length_demodulated, length_demodulated,
      List.length_append, length_heardPairs, Nat.add_sub_cancel_left]
  have hwrite : state.demodulated.write output = some ⟨output, hlength⟩ :=
    state.demodulated.write_whole ⟨output, hlength⟩
  obtain ⟨middle, hmiddle⟩ : ∃ middle, middle = { state with
      rtlIqDecimator := decimator
      discriminator := discriminator
      demodulated := ⟨output, hlength⟩
      quality := measureQuality library state.quality (decide (read.result = 0))
        ⟨output, hlength⟩ } := ⟨_, rfl⟩
  have hprocess : FmPipelineState.processLiveBlock library state read
      = FmPipelineState.receiveRds library middle := by
    rw [hmiddle]
    simp only [FmPipelineState.processLiveBlock, h.configured, Bool.not_true, Bool.false_eq_true,
      if_false, hread, hdemodulate, hwrite, Option.bind_eq_bind, Option.bind_some]
  have hheard : middle.Heard taps impl (iqExtend input read)
      (heard ++ heardPairs taps input read) := by
    rw [hmiddle]
    exact ⟨hconfigured.trans h.configured, hdecimator, dvd_length_iqExtend h.frames read,
      hdiscriminator, h.rds⟩
  obtain ⟨rdsResampler, rdsDemod, hreceive, hpending, hparsed, hdisabled⟩ := hheard.receiveRds hfits
  refine ⟨_, hprocess.trans hreceive, ⟨hheard.configured, hheard.decimator, hheard.frames,
    hheard.discriminator, hpending⟩, ?_, ?_, ?_, ?_⟩
  · rw [hmiddle]
    exact houtput
  · rw [hmiddle]
  · rw [hmiddle] at hparsed
    exact hparsed
  · rw [hmiddle] at hdisabled
    exact hdisabled

lemma configure_sameParser (rdsEnabled : Bool) (qualityIntervalSeconds : K) :
    (configure library init rdsEnabled qualityIntervalSeconds).rdsDemod.demod.parser
      = rdsParserInit := by
  have hparser : (rdsDemodConfigure library.liquid rdsFrontEndInit
      (fmPipelineRdsSampleRate : K)).demod.parser = rdsParserInit := by
    unfold rdsDemodConfigure
    split_ifs <;> rfl
  cases rdsEnabled with
  | false => rfl
  | true => exact hparser

/-- A pipeline that was just configured has heard nothing. -/
lemma configure_heard (rdsEnabled : Bool) (qualityIntervalSeconds : K)
    (hrate : (fmPipelineRdsSampleRate : K) ≠ 0) (impl : FmDiscriminatorImpl) :
    Heard { configure library init rdsEnabled qualityIntervalSeconds with
        discriminator := fmDiscriminatorSetImpl
          (configure library init rdsEnabled qualityIntervalSeconds).discriminator impl }
      (designedTaps library.math) impl [] [] := by
  have hwindows : (rtlIqDecimatorConfigure rtlIqDecimatorInit
      (designedTaps library.math)).Overlaps (designedTaps library.math) [] := by
    refine ⟨rfl, ⟨List.replicate 24 0, ?_⟩, ⟨List.replicate 24 0, ?_⟩⟩
    · rw [List.map_nil, RecentWindow.window_nil, List.replicate_append_replicate]
      rfl
    · rw [List.map_nil, RecentWindow.window_nil, List.replicate_append_replicate]
      rfl
  cases rdsEnabled with
  | false =>
    exact ⟨rfl, hwindows, dvd_zero _, fmDiscriminatorSetImpl_heard _ impl,
      fun h => absurd h Bool.false_ne_true⟩
  | true =>
    exact ⟨rfl, hwindows, dvd_zero _, fmDiscriminatorSetImpl_heard _ impl,
      fun _ => ⟨_, _, rdsDemodConfigure_pending library.liquid rdsFrontEndInit hrate.symm⟩⟩

end FmPipelineState

end Mpxcast
