import Mpxcast.Dsp.FmPipeline
import Mpxcast.Stream.Session

/-!
# Reception

A session with its whole signal processing: `stream_session_configure` and
`stream_session_fill_pcm_chunk` of `stream/session.c`, from what the source returns to the PCM of a
chunk. What listeners receive is one function of the bytes, and the session of `Session.lean` is
what is left of it when the samples and the RDS groups are inputs. Samples are elements of an
ordered field `K`, with signed zeros where the discriminator tells them apart.
-/

namespace Mpxcast

open CMemory Causal

universe u

variable {K Nco Decimator Agc SymbolSync Resampler Filter : Type u} [Field K] [LinearOrder K]

/-- The arguments of `stream_session_configure`. -/
structure ReceptionSettings (K : Type u) where
  requestedFrequencyHz : ℕ
  volumeGain : K
  deemphasisTauUs : K
  mode : StreamMode
  rdsEnabled : Bool
  icyMetadataEnabled : Bool
  demodMath : FmDiscriminatorImpl
  fmQualityIntervalSeconds : K

/-- `struct stream_session`, as far as a chunk is concerned. -/
structure StreamReceiver (K Nco Decimator Agc SymbolSync Resampler Filter : Type u) where
  rdsEnabled : Bool
  metadataLength : ℕ
  requestedFrequencyHz : ℕ
  mode : StreamMode
  icy : IcyMetadataState
  fmPipeline : FmPipelineState K Nco Decimator Agc SymbolSync Resampler Filter
  fmMono : FmMonoState K
  fmStereo : FmStereoReceiver K
  pcmBuffer : List Int16

/-- What a block of the source and the clock return. -/
structure LiveRead where
  read : RtlBlockRead
  clock : Option (ℕ × ℕ)

def streamSessionMaxChannels : ℕ := 2

namespace StreamReceiver

def init : StreamReceiver K Nco Decimator Agc SymbolSync Resampler Filter where
  rdsEnabled := false
  metadataLength := 0
  requestedFrequencyHz := 0
  mode := .mono
  icy := ⟨false, 0, 0, List.replicate icyMetadataBlockCapacity 0, []⟩
  fmPipeline := .init
  fmMono := fmMonoInit
  fmStereo := fmStereoReceiverInit
  pcmBuffer := List.replicate (streamSessionMaxAudioFramesPerChunk * streamSessionMaxChannels) 0

variable (library : PipelineLibrary K Nco Decimator Agc SymbolSync Resampler Filter)

def deemphasisTauSeconds (settings : ReceptionSettings K) : K :=
  settings.deemphasisTauUs * (1 / ((10 : ℕ) : K) ^ 6)

def configuredPipeline (settings : ReceptionSettings K) :
    FmPipelineState K Nco Decimator Agc SymbolSync Resampler Filter :=
  let fmPipeline := FmPipelineState.configure library .init settings.rdsEnabled
    settings.fmQualityIntervalSeconds
  { fmPipeline with
    discriminator := fmDiscriminatorSetImpl fmPipeline.discriminator settings.demodMath }

def configure (receiver : StreamReceiver K Nco Decimator Agc SymbolSync Resampler Filter)
    (settings : ReceptionSettings K) :
    StreamReceiver K Nco Decimator Agc SymbolSync Resampler Filter :=
  { receiver with
    fmPipeline := configuredPipeline library settings
    fmMono :=
      match settings.mode with
      | .stereo => fmMonoInit
      | .mono => fmMonoConfigure library.math fmMonoInit settings.volumeGain
          (deemphasisTauSeconds settings)
    fmStereo :=
      match settings.mode with
      | .stereo => fmStereoConfigure library.math fmStereoReceiverInit settings.volumeGain
          (deemphasisTauSeconds settings)
      | .mono => fmStereoReceiverInit
    rdsEnabled := settings.rdsEnabled
    requestedFrequencyHz := settings.requestedFrequencyHz
    mode := settings.mode
    icy := icyMetadataInit (settings.rdsEnabled && settings.icyMetadataEnabled) }

/-- `stream_session_current_rds_info`, of which the session reads the radiotext. -/
def currentRadiotext (receiver : StreamReceiver K Nco Decimator Agc SymbolSync Resampler Filter) :
    List UInt8 :=
  if !receiver.rdsEnabled then []
  else cString receiver.fmPipeline.rdsDemod.demod.parser.info.radiotext.toList

def hasCompleteRadiotext
    (receiver : StreamReceiver K Nco Decimator Agc SymbolSync Resampler Filter) : Bool :=
  if !receiver.rdsEnabled then false
  else rdsParserHasCompleteRadiotext receiver.fmPipeline.rdsDemod.demod.parser

def refreshMetadata (receiver : StreamReceiver K Nco Decimator Agc SymbolSync Resampler Filter) :
    StreamReceiver K Nco Decimator Agc SymbolSync Resampler Filter × Int :=
  if !receiver.icy.enabled then (receiver, 0)
  else
    let (icy, result) := icyMetadataUpdate receiver.icy (currentRadiotext receiver)
      (hasCompleteRadiotext receiver)
    if result ≠ 0 then ({ receiver with icy }, -1)
    else ({ receiver with icy, metadataLength := icy.metadataLength }, 0)

/-- Samples are written to the start of the buffer. -/
def writePcm (pcmBuffer output : List Int16) : Option (List Int16) :=
  if output.length ≤ pcmBuffer.length then some (memcpy pcmBuffer 0 output) else none

variable [FloorRing K]

/-- The part of a chunk for its mode. -/
def fillPcmBuffer (receiver : StreamReceiver K Nco Decimator Agc SymbolSync Resampler Filter) :
    Option (StreamReceiver K Nco Decimator Agc SymbolSync Resampler Filter) :=
  match receiver.mode with
  | .stereo =>
    (fmStereoProcessBlock receiver.fmStereo receiver.fmPipeline.demodulated).bind
      fun (fmStereo, output) => (writePcm receiver.pcmBuffer output).map
        fun pcmBuffer => { receiver with fmStereo := fmStereo, pcmBuffer := pcmBuffer }
  | .mono =>
    (fmMonoProcessBlock receiver.fmMono receiver.fmPipeline.demodulated).bind
      fun (fmMono, output) => (writePcm receiver.pcmBuffer output).map
        fun pcmBuffer => { receiver with fmMono := fmMono, pcmBuffer := pcmBuffer }

/-- The receiver, the frame count, and the return value. -/
def fillPcmChunk (receiver : StreamReceiver K Nco Decimator Agc SymbolSync Resampler Filter)
    (live : LiveRead) :
    Option (StreamReceiver K Nco Decimator Agc SymbolSync Resampler Filter × ℕ × Int) := do
  let frameCount := streamSessionMaxAudioFramesPerChunk
  let fmPipeline ← FmPipelineState.processLiveBlock library receiver.fmPipeline live.read
  let quality :=
    if fmPipeline.quality.reportIntervalSeconds > 0 then
      (fmQualityReport fmPipeline.quality receiver.requestedFrequencyHz live.clock).1
    else fmPipeline.quality
  let receiver ← fillPcmBuffer
    { receiver with fmPipeline := { fmPipeline with quality := quality } }
  if receiver.icy.enabled then
    let (receiver, result) := refreshMetadata receiver
    if result ≠ 0 then return (receiver, frameCount, -1) else return (receiver, frameCount, 0)
  else return (receiver, frameCount, 0)

/-- A call, with the frames that it leaves in the buffer. -/
def produce (receiver : StreamReceiver K Nco Decimator Agc SymbolSync Resampler Filter)
    (live : LiveRead) :
    Option (StreamReceiver K Nco Decimator Agc SymbolSync Resampler Filter ×
      ℕ × Int × List Int16) :=
  (fillPcmChunk library receiver live).map fun (next, frameCount, result) =>
    (next, frameCount, result, next.pcmBuffer.take (frameCount * next.mode.channels))

/-! ### The stream -/

omit [FloorRing K] in
def multiplex (settings : ReceptionSettings K) (heard : List (K × K)) : List K :=
  demodulated (pipelineAnswer library.atan2f settings.demodMath) heard

/-- The PCM of the decimated pairs. -/
def receivedPcm (settings : ReceptionSettings K) (heard : List (K × K)) : List Int16 :=
  match settings.mode with
  | .mono => monoPcm (lowpassTaps library.math) (deemphasisInit library.math.expf
      fmPipelineAudioOutputRateHz (deemphasisTauSeconds settings)).alpha
      (pcmAudioOutputScale settings.volumeGain) (multiplex library settings heard)
  | .stereo => (stereoTuning library.math settings.volumeGain (deemphasisTauSeconds settings)).pcm
      (multiplex library settings heard)

/-- The receiver has read one history of pairs, and its discriminator has heard another one. -/
structure Heard (receiver : StreamReceiver K Nco Decimator Agc SymbolSync Resampler Filter)
    (settings : ReceptionSettings K) (input heard : List (K × K)) : Prop where
  mode_eq : receiver.mode = settings.mode
  rds_eq : receiver.fmPipeline.rdsEnabled = receiver.rdsEnabled
  pipeline : receiver.fmPipeline.Heard (FmPipelineState.designedTaps library.math)
    settings.demodMath input heard
  mono : settings.mode = .mono → receiver.fmMono.Heard (lowpassTaps library.math)
    (deemphasisInit library.math.expf fmPipelineAudioOutputRateHz
      (deemphasisTauSeconds settings)).alpha
    (pcmAudioOutputScale settings.volumeGain) (multiplex library settings heard)
  stereo : settings.mode = .stereo → receiver.fmStereo.Heard
    (stereoTuning library.math settings.volumeGain (deemphasisTauSeconds settings))
    (multiplex library settings heard)
  pcm_length : receiver.pcmBuffer.length
    = streamSessionMaxAudioFramesPerChunk * streamSessionMaxChannels
  icy : IcyReady receiver.icy

variable {library} {receiver : StreamReceiver K Nco Decimator Agc SymbolSync Resampler Filter}
  {settings : ReceptionSettings K} {input heard : List (K × K)}

lemma configure_heard [IsStrictOrderedRing K] (settings : ReceptionSettings K) :
    (configure library init settings).Heard library settings [] [] := by
  have hrate : (fmPipelineRdsSampleRate : K) ≠ 0 := Nat.cast_ne_zero.2 (by decide)
  constructor
  · rfl
  · unfold configure configuredPipeline FmPipelineState.configure
    dsimp only
    split_ifs <;> rfl
  · exact FmPipelineState.configure_heard settings.rdsEnabled settings.fmQualityIntervalSeconds
      hrate settings.demodMath
  · intro hmode
    rw [configure, hmode]
    exact fmMonoConfigure_heard library.math settings.volumeGain (deemphasisTauSeconds settings)
  · intro hmode
    rw [configure, hmode]
    exact fmStereoConfigure_heard library.math settings.volumeGain (deemphasisTauSeconds settings)
  · exact List.length_replicate
  · exact icyReady_init _

lemma causal_receivedPcm (settings : ReceptionSettings K) :
    Causal (receivedPcm library settings) := by
  have hmultiplex := causal_demodulated (pipelineAnswer library.atan2f settings.demodMath)
  unfold receivedPcm multiplex
  cases settings.mode with
  | mono => exact (causal_monoPcm _ _ _).comp hmultiplex
  | stereo => exact (StereoTuning.causal_pcm _).comp hmultiplex

omit [Field K] [LinearOrder K] [FloorRing K] in
lemma writePcm_front {pcmBuffer output : List Int16} (hle : output.length ≤ pcmBuffer.length) :
    ∃ written, writePcm pcmBuffer output = some written ∧ written.length = pcmBuffer.length ∧
      written.take output.length = output := by
  refine ⟨memcpy pcmBuffer 0 output, if_pos hle, memcpy_length (by rwa [Nat.zero_add]), ?_⟩
  rw [memcpy_zero, List.take_left]

lemma fillPcmBuffer_mono {fmMono : FmMonoState K} {output pcmBuffer : List Int16}
    (hmode : receiver.mode = .mono)
    (hprocess : fmMonoProcessBlock receiver.fmMono receiver.fmPipeline.demodulated
      = some (fmMono, output)) (hwrite : writePcm receiver.pcmBuffer output = some pcmBuffer) :
    fillPcmBuffer receiver
      = some { receiver with fmMono := fmMono, pcmBuffer := pcmBuffer } := by
  unfold fillPcmBuffer
  rw [hmode]
  dsimp only
  rw [hprocess, Option.bind_some, hwrite, Option.map_some]

lemma fillPcmBuffer_stereo {fmStereo : FmStereoReceiver K} {output pcmBuffer : List Int16}
    (hmode : receiver.mode = .stereo)
    (hprocess : fmStereoProcessBlock receiver.fmStereo receiver.fmPipeline.demodulated
      = some (fmStereo, output)) (hwrite : writePcm receiver.pcmBuffer output = some pcmBuffer) :
    fillPcmBuffer receiver
      = some { receiver with fmStereo := fmStereo, pcmBuffer := pcmBuffer } := by
  unfold fillPcmBuffer
  rw [hmode]
  dsimp only
  rw [hprocess, Option.bind_some, hwrite, Option.map_some]

/-- The buffer is filled with what the pairs add to the PCM. -/
lemma Heard.fillPcmBuffer (h : receiver.Heard library settings input heard)
    {pairs : List (K × K)}
    {fmPipeline : FmPipelineState K Nco Decimator Agc SymbolSync Resampler Filter}
    (hsamples : fmPipeline.demodulated.samples = since (multiplex library settings) heard pairs) :
    ∃ fmMono fmStereo pcmBuffer,
      StreamReceiver.fillPcmBuffer { receiver with fmPipeline := fmPipeline }
        = some { receiver with
            fmPipeline := fmPipeline
            fmMono := fmMono
            fmStereo := fmStereo
            pcmBuffer := pcmBuffer } ∧
      (settings.mode = .mono → fmMono.Heard (lowpassTaps library.math)
        (deemphasisInit library.math.expf fmPipelineAudioOutputRateHz
          (deemphasisTauSeconds settings)).alpha
        (pcmAudioOutputScale settings.volumeGain) (multiplex library settings (heard ++ pairs))) ∧
      (settings.mode = .stereo → fmStereo.Heard
        (stereoTuning library.math settings.volumeGain (deemphasisTauSeconds settings))
        (multiplex library settings (heard ++ pairs))) ∧
      pcmBuffer.length = streamSessionMaxAudioFramesPerChunk * streamSessionMaxChannels ∧
      pcmBuffer.take (streamSessionMaxAudioFramesPerChunk * settings.mode.channels)
        = since (receivedPcm library settings) heard pairs := by
  have hmultiplex : Causal (multiplex library settings) :=
    causal_demodulated (pipelineAnswer library.atan2f settings.demodMath)
  have hhistory : multiplex library settings heard ++ fmPipeline.demodulated.samples
      = multiplex library settings (heard ++ pairs) := by
    rw [hsamples, append_since hmultiplex]
  have hpcm := h.pcm_length
  have htaps := lowpassTaps_length library.math
  unfold receivedPcm
  cases hmode : settings.mode with
  | mono =>
    obtain ⟨fmMono, hprocess, hnext⟩ := (h.mono hmode).process htaps fmPipeline.demodulated
    have hlength := fmMonoProcessBlock_length hprocess
    have hle : _ ≤ receiver.pcmBuffer.length := hlength.trans_le (by rw [hpcm]; decide)
    obtain ⟨pcmBuffer, hwrite, hkept, hfront⟩ := writePcm_front hle
    refine ⟨fmMono, receiver.fmStereo, pcmBuffer,
      fillPcmBuffer_mono (h.mode_eq.trans hmode) hprocess hwrite, fun _ => hhistory ▸ hnext,
      fun hfalse => (nomatch hfalse), hkept.trans hpcm, ?_⟩
    · rw [hlength] at hfront
      rw [since_comp (f := monoPcm _ _ _) hmultiplex, ← hsamples]
      exact hfront
  | stereo =>
    obtain ⟨fmStereo, hprocess, hnext⟩ := (h.stereo hmode).process htaps fmPipeline.demodulated
    have hlength := fmStereoProcessBlock_length hprocess
    have hle : _ ≤ receiver.pcmBuffer.length := hlength.trans_le (by rw [hpcm]; decide)
    obtain ⟨pcmBuffer, hwrite, hkept, hfront⟩ := writePcm_front hle
    refine ⟨receiver.fmMono, fmStereo, pcmBuffer,
      fillPcmBuffer_stereo (h.mode_eq.trans hmode) hprocess hwrite, fun hfalse => (nomatch hfalse),
      fun _ => hhistory ▸ hnext, hkept.trans hpcm, ?_⟩
    · rw [hlength] at hfront
      rw [since_comp (f := StereoTuning.pcm _) hmultiplex, ← hsamples]
      exact hfront

omit [Field K] [LinearOrder K] [FloorRing K] in
/-- Refreshing the metadata succeeds and changes nothing else. -/
lemma refreshMetadata_eq (hicy : IcyReady receiver.icy) :
    ∃ icy metadataLength,
      refreshMetadata receiver = ({ receiver with icy, metadataLength }, 0) ∧ IcyReady icy := by
  have hlength : (currentRadiotext receiver).length ≤ 65 := by
    unfold currentRadiotext
    split_ifs
    · exact Nat.zero_le _
    · refine (cString_length_le _).trans ?_
      rw [Vector.length_toList]
  unfold refreshMetadata
  cases henabled : receiver.icy.enabled with
  | false => exact ⟨receiver.icy, receiver.metadataLength, rfl, hicy⟩
  | true =>
    obtain ⟨hresult, hready, -, -⟩ :=
      icyMetadataUpdate_spec hicy hlength (hasCompleteRadiotext receiver)
    rcases hupdate : icyMetadataUpdate receiver.icy (currentRadiotext receiver)
      (hasCompleteRadiotext receiver) with ⟨icy, result⟩
    rw [hupdate] at hresult hready
    have hzero : result = 0 := hresult
    exact ⟨icy, icy.metadataLength, by simp [hzero], hready⟩

/-- What a chunk leaves alone before the metadata is refreshed, and what its parser was given. -/
structure Continues
    (receiver next : StreamReceiver K Nco Decimator Agc SymbolSync Resampler Filter) : Prop where
  rdsEnabled : next.rdsEnabled = receiver.rdsEnabled
  metadataLength : next.metadataLength = receiver.metadataLength
  requestedFrequencyHz : next.requestedFrequencyHz = receiver.requestedFrequencyHz
  mode : next.mode = receiver.mode
  icy : next.icy = receiver.icy
  parsed : ParsedFrom receiver.fmPipeline.rdsDemod.demod.parser
    next.fmPipeline.rdsDemod.demod.parser
  disabled : receiver.rdsEnabled = false →
    next.fmPipeline.rdsDemod.demod.parser = receiver.fmPipeline.rdsDemod.demod.parser

/-- A chunk is filled, and the metadata refreshed. -/
lemma Heard.fillPcmChunk (hfits : FmPipelineState.ResamplerFits library)
    (h : receiver.Heard library settings input heard) (live : LiveRead) :
    ∃ filled, StreamReceiver.fillPcmChunk library receiver live
        = some ((refreshMetadata filled).1, streamSessionMaxAudioFramesPerChunk,
            (refreshMetadata filled).2) ∧
      receiver.Continues filled ∧
      filled.Heard library settings (iqExtend input live.read) (heard
        ++ heardPairs (FmPipelineState.designedTaps library.math) input live.read) ∧
      filled.pcmBuffer.take (streamSessionMaxAudioFramesPerChunk * settings.mode.channels)
        = since (receivedPcm library settings) heard
            (heardPairs (FmPipelineState.designedTaps library.math) input live.read) := by
  obtain ⟨fmPipeline, hprocess, hpipeline, hsamples, hrds, hparsed, hdisabled⟩ :=
    h.pipeline.processLiveBlock (FmPipelineState.length_designedTaps _) hfits live.read
  obtain ⟨quality, hquality⟩ : ∃ quality, quality =
      if fmPipeline.quality.reportIntervalSeconds > 0 then
        (fmQualityReport fmPipeline.quality receiver.requestedFrequencyHz live.clock).1
      else fmPipeline.quality := ⟨_, rfl⟩
  obtain ⟨monitored, hmonitored⟩ :
      ∃ monitored, monitored = { fmPipeline with quality := quality } := ⟨_, rfl⟩
  have hmultiplexed : monitored.demodulated.samples = since (multiplex library settings) heard
      (heardPairs (FmPipelineState.designedTaps library.math) input live.read) := by
    rw [hmonitored]
    exact hsamples
  obtain ⟨fmMono, fmStereo, pcmBuffer, hfill, hmono, hstereo, hlength, hpcm⟩ :=
    h.fillPcmBuffer hmultiplexed
  subst hmonitored
  obtain ⟨filled, hfilled⟩ : ∃ filled, filled = { receiver with
      fmPipeline := { fmPipeline with quality := quality }
      fmMono := fmMono
      fmStereo := fmStereo
      pcmBuffer := pcmBuffer } := ⟨_, rfl⟩
  have hicy : IcyReady filled.icy := by
    rw [hfilled]
    exact h.icy
  obtain ⟨icy, metadataLength, hrefresh, -⟩ := refreshMetadata_eq hicy
  refine ⟨filled, ?_, ?_, ?_, ?_⟩
  · rw [← hfilled] at hfill
    unfold StreamReceiver.fillPcmChunk
    simp only [hprocess, Option.bind_eq_bind, Option.bind_some, ← hquality]
    rw [hfill, Option.bind_some]
    cases henabled : filled.icy.enabled with
    | false =>
      have hskip : refreshMetadata filled = (filled, 0) := by
        unfold refreshMetadata
        rw [henabled]
        rfl
      rw [hskip]
      rfl
    | true =>
      rw [hrefresh]
      rfl
  · rw [hfilled]
    exact ⟨rfl, rfl, rfl, rfl, rfl, hparsed, fun hoff => congrArg (fun demod => demod.demod.parser)
      (hdisabled (h.rds_eq.trans hoff))⟩
  · rw [hfilled]
    exact ⟨h.mode_eq, hrds.trans h.rds_eq, ⟨hpipeline.configured, hpipeline.decimator,
      hpipeline.frames, hpipeline.discriminator, hpipeline.rds⟩, hmono, hstereo, hlength, h.icy⟩
  · rw [hfilled]
    exact hpcm

omit [FloorRing K] in
lemma Heard.refreshMetadata (h : receiver.Heard library settings input heard) :
    (refreshMetadata receiver).1.Heard library settings input heard ∧
      (refreshMetadata receiver).2 = 0 ∧
      (refreshMetadata receiver).1.pcmBuffer = receiver.pcmBuffer := by
  obtain ⟨icy, metadataLength, hrefresh, hicy⟩ := refreshMetadata_eq h.icy
  rw [hrefresh]
  exact ⟨⟨h.mode_eq, h.rds_eq, h.pipeline, h.mono, h.stereo, h.pcm_length, hicy⟩, rfl, rfl⟩

/-- A call adds what its block adds to the PCM. -/
lemma Heard.produce (hfits : FmPipelineState.ResamplerFits library)
    (h : receiver.Heard library settings input heard) (live : LiveRead) :
    let pairs := heardPairs (FmPipelineState.designedTaps library.math) input live.read
    ∃ next, StreamReceiver.produce library receiver live
        = some (next, streamSessionMaxAudioFramesPerChunk, 0,
            since (receivedPcm library settings) heard pairs) ∧
      next.Heard library settings (iqExtend input live.read) (heard ++ pairs) ∧
      (since (receivedPcm library settings) heard pairs).length
        = streamSessionMaxAudioFramesPerChunk * settings.mode.channels := by
  intro pairs
  obtain ⟨filled, hfill, -, hfilled, hpcm⟩ := h.fillPcmChunk hfits live
  obtain ⟨hnext, hresult, hbuffer⟩ := hfilled.refreshMetadata
  refine ⟨_, ?_, hnext, ?_⟩
  · rw [StreamReceiver.produce, hfill, Option.map_some, hresult]
    dsimp only
    rw [hnext.mode_eq, hbuffer, hpcm]
  · have hchannels : settings.mode.channels ≤ streamSessionMaxChannels := by
      cases settings.mode <;> decide
    rw [← hpcm, List.length_take, hfilled.pcm_length,
      Nat.min_eq_left (Nat.mul_le_mul_left _ hchannels)]

lemma Heard.produces (hfits : FmPipelineState.ResamplerFits library) (lives : List LiveRead) :
    ∀ {receiver : StreamReceiver K Nco Decimator Agc SymbolSync Resampler Filter}
      {input heard : List (K × K)}, receiver.Heard library settings input heard →
      ∃ next outputs, Loop.calls (StreamReceiver.produce library) receiver lives
          = some (next, outputs) ∧
        (∀ output ∈ outputs, output.1 = streamSessionMaxAudioFramesPerChunk ∧ output.2.1 = 0 ∧
          output.2.2.length = streamSessionMaxAudioFramesPerChunk * settings.mode.channels) ∧
        outputs.flatMap (fun output => output.2.2) = since (receivedPcm library settings) heard
          (Loop.answers (heardPairs (FmPipelineState.designedTaps library.math)) iqExtend input
            (lives.map LiveRead.read)).flatten := by
  induction lives with
  | nil =>
    intro receiver input heard h
    refine ⟨receiver, [], rfl, fun output houtput => absurd houtput List.not_mem_nil, ?_⟩
    exact (since_nil heard).symm
  | cons live lives ih =>
    intro receiver input heard h
    obtain ⟨middle, hproduce, hmiddle, hlength⟩ := h.produce hfits live
    obtain ⟨next, outputs, hcalls, hwhole, hflat⟩ := ih hmiddle
    refine ⟨next, (streamSessionMaxAudioFramesPerChunk, 0,
      since (receivedPcm library settings) heard
        (heardPairs (FmPipelineState.designedTaps library.math) input live.read)) :: outputs,
      ?_, ?_, ?_⟩
    · rw [Loop.calls, hproduce, Option.bind_some, hcalls, Option.map_some]
    · rintro output (_ | ⟨_, houtput⟩)
      · exact ⟨rfl, rfl, hlength⟩
      · exact hwhole output houtput
    · rw [List.flatMap_cons, hflat, List.map_cons, Loop.answers, List.flatten_cons,
        since_append (causal_receivedPcm settings)]

/-- **Reception is one function of the bytes.** In exact arithmetic, whatever a listening session is
set to, and however blocks fail, every call fills a whole chunk and succeeds, and the chunks
together are the PCM of the decimated pairs, where a block that could not be read counts as pairs of
zeros. RDS, metadata and the quality monitor cannot be heard. -/
theorem reception_streams [IsStrictOrderedRing K]
    (library : PipelineLibrary K Nco Decimator Agc SymbolSync Resampler Filter)
    (hfits : FmPipelineState.ResamplerFits library) (settings : ReceptionSettings K)
    (lives : List LiveRead) :
    ∃ next outputs, Loop.calls (produce library) (configure library init settings) lives
        = some (next, outputs) ∧
      (∀ output ∈ outputs, output.1 = streamSessionMaxAudioFramesPerChunk ∧ output.2.1 = 0 ∧
        output.2.2.length = streamSessionMaxAudioFramesPerChunk * settings.mode.channels) ∧
      outputs.flatMap (fun output => output.2.2) = receivedPcm library settings
        (receivedPairs (FmPipelineState.designedTaps library.math) (lives.map LiveRead.read)) := by
  obtain ⟨next, outputs, hcalls, hwhole, hflat⟩ :=
    (configure_heard settings).produces hfits lives
  refine ⟨next, outputs, hcalls, hwhole, ?_⟩
  have hstart : receivedPcm library settings [] = [] := by
    unfold receivedPcm
    cases settings.mode with
    | mono => exact monoPcm_nil _ _ _
    | stereo => exact StereoTuning.pcm_nil _
  rw [hflat, since_start hstart]
  rfl

end StreamReceiver

/-- Stand-ins for the libraries: the resampler puts out 171 zeros for 240 samples. -/
def standInLibrary : PipelineLibrary ℚ Unit Unit Unit ℕ Unit Unit where
  liquid := silentLiquid
  msresamp :=
    { create := fun _ _ => ()
      execute := fun resampler samples =>
        (resampler, List.replicate (samples.length * 171 / 240) 0) }
  iirfilt :=
    { created := ()
      reset := id
      execute := fun filter _ => (filter, some 0)
      reset_eq := fun _ => rfl }
  math := ⟨id, id, fun _ => 0⟩
  qualityMath := ⟨fun _ => -1, fun _ => -20⟩
  atan2f := fun y _ => y.value

lemma standInLibrary_fits : FmPipelineState.ResamplerFits standInLibrary := by
  intro resampler block
  show (List.replicate (block.samples.length * 171 / 240) (0 : ℚ)).length ≤ rdsMaxInputSamples
  rw [List.length_replicate, block.length_eq]
  decide

/-- A block of one byte, which was read if the result is 0. -/
def steadyRead (result : Int) (byte : UInt8) : LiveRead :=
  ⟨⟨result, List.replicate rtlIqDecimatorBlockInputBytes byte, List.length_replicate⟩, none⟩

/-- A stereo session with RDS, from a source that fails between two blocks. -/
theorem StreamReceiver.reception_streams_gap :
    let settings : ReceptionSettings ℚ := ⟨100000000, 1, 50, .stereo, true, true, .atan2Libm, 1⟩
    let lives := [steadyRead 0 200, steadyRead (-1) 0, steadyRead 0 7]
    ∃ next outputs, Loop.calls (StreamReceiver.produce standInLibrary)
        (StreamReceiver.configure standInLibrary .init settings) lives = some (next, outputs) ∧
      (∀ output ∈ outputs, output.1 = streamSessionMaxAudioFramesPerChunk ∧ output.2.1 = 0) ∧
      outputs.flatMap (fun output => output.2.2) = receivedPcm standInLibrary settings
        (receivedPairs (FmPipelineState.designedTaps standInLibrary.math)
          (lives.map LiveRead.read)) := by
  intro settings lives
  obtain ⟨next, outputs, hcalls, hwhole, hpcm⟩ :=
    StreamReceiver.reception_streams standInLibrary standInLibrary_fits settings lives
  refine ⟨next, outputs, hcalls, fun output houtput => ?_, hpcm⟩
  obtain ⟨hframes, hresult, -⟩ := hwhole output houtput
  exact ⟨hframes, hresult⟩

/-! ### The session without its signal processing -/

section Refinement

variable {Nco Decimator Agc SymbolSync Resampler Filter : Type}

/-- What is left of a session, when what a block delivers is an input. -/
structure StreamReceiver.Refines
    (receiver : StreamReceiver ℚ Nco Decimator Agc SymbolSync Resampler Filter)
    (session : StreamSession) : Prop where
  rdsEnabled : session.rdsEnabled = receiver.rdsEnabled
  pipelineRds : session.fmPipeline.rdsEnabled = receiver.rdsEnabled
  parser : session.fmPipeline.parser = receiver.fmPipeline.rdsDemod.demod.parser
  metadataLength : session.metadataLength = receiver.metadataLength
  requestedFrequencyHz : session.requestedFrequencyHz = receiver.requestedFrequencyHz
  mode : session.mode = receiver.mode
  icy : session.icy = receiver.icy
  pcm : ∀ i, session.pcmBuffer i = receiver.pcmBuffer.getD i 0

/-- The settings of a request; the implementation of the discriminator and the interval of the
quality monitor come from the command line. -/
def receptionSettings (request : StreamHttpRequest) (demodMath : FmDiscriminatorImpl)
    (fmQualityIntervalSeconds : ℚ) : ReceptionSettings ℚ where
  requestedFrequencyHz := request.frequencyHz
  volumeGain := request.volumeGain
  deemphasisTauUs := request.deemphasisTauUs
  mode := request.mode
  rdsEnabled := request.rdsEnabled
  icyMetadataEnabled := request.icyMetadataRequested
  demodMath := demodMath
  fmQualityIntervalSeconds := fmQualityIntervalSeconds

/-- A call on the session, with the frames that it leaves in the buffer. -/
def streamSessionProduce (session : StreamSession) (live : LiveBlock) :
    StreamSession × ℕ × Int × List Int16 :=
  let (next, frameCount, result) := streamSessionFillPcmChunk session live
  (next, frameCount, result,
    (List.range (frameCount * next.mode.channels)).map next.pcmBuffer)

namespace StreamReceiver

variable {library : PipelineLibrary ℚ Nco Decimator Agc SymbolSync Resampler Filter}
  {receiver : StreamReceiver ℚ Nco Decimator Agc SymbolSync Resampler Filter}
  {session : StreamSession}

lemma configure_refines (request : StreamHttpRequest) (demodMath : FmDiscriminatorImpl)
    (fmQualityIntervalSeconds : ℚ) :
    (configure library init
      (receptionSettings request demodMath fmQualityIntervalSeconds)).Refines
      (streamSessionConfigure streamSessionInit request) := by
  constructor
  · rfl
  · rfl
  · exact (FmPipelineState.configure_sameParser _ _).symm
  · rfl
  · rfl
  · rfl
  · rfl
  · intro i
    rw [init, configure, List.getD_eq_getElem?_getD, List.getElem?_getD_replicate_default_eq]
    rfl

/-- Both refresh their metadata alike. -/
lemma Refines.refreshMetadata (h : receiver.Refines session) :
    (refreshMetadata receiver).1.Refines (streamSessionRefreshMetadata session).1 ∧
      (refreshMetadata receiver).2 = (streamSessionRefreshMetadata session).2 := by
  have htext : streamSessionCurrentRadiotext session = currentRadiotext receiver := by
    rw [streamSessionCurrentRadiotext, currentRadiotext, h.rdsEnabled, h.parser]
  have hcomplete : streamSessionHasCompleteRadiotext session = hasCompleteRadiotext receiver := by
    rw [streamSessionHasCompleteRadiotext, hasCompleteRadiotext, h.rdsEnabled, h.parser]
  unfold StreamReceiver.refreshMetadata streamSessionRefreshMetadata
  rw [htext, hcomplete, h.icy]
  dsimp only
  split_ifs
  · exact ⟨h, rfl⟩
  · exact ⟨⟨h.rdsEnabled, h.pipelineRds, h.parser, h.metadataLength, h.requestedFrequencyHz, h.mode,
      rfl, h.pcm⟩, rfl⟩
  · exact ⟨⟨h.rdsEnabled, h.pipelineRds, h.parser, rfl, h.requestedFrequencyHz, h.mode,
      rfl, h.pcm⟩, rfl⟩

/-- What a block delivers to the session: the groups that the parser was given, and the PCM. -/
lemma Refines.fill (h : receiver.Refines session)
    {filled : StreamReceiver ℚ Nco Decimator Agc SymbolSync Resampler Filter}
    (hfilled : receiver.Continues filled) :
    ∃ live : LiveBlock, filled.Refines { session with
      fmPipeline := fmPipelineProcessLiveBlock session.fmPipeline live
      pcmBuffer := live.samples } := by
  obtain ⟨groups, hgroups⟩ := hfilled.parsed
  refine ⟨⟨groups, fun i => filled.pcmBuffer.getD i 0⟩, ?_⟩
  have hpipeline : fmPipelineProcessLiveBlock session.fmPipeline
      ⟨groups, fun i => filled.pcmBuffer.getD i 0⟩
        = ⟨receiver.rdsEnabled, filled.fmPipeline.rdsDemod.demod.parser⟩ := by
    unfold fmPipelineProcessLiveBlock
    rw [h.pipelineRds]
    cases hrds : receiver.rdsEnabled with
    | false =>
      rw [if_neg Bool.false_ne_true, hfilled.disabled hrds, ← h.parser, ← hrds, ← h.pipelineRds]
    | true =>
      rw [if_pos rfl, hgroups, h.parser, ← hrds, ← h.pipelineRds]
  rw [hpipeline]
  exact ⟨h.rdsEnabled.trans hfilled.rdsEnabled.symm, hfilled.rdsEnabled.symm, rfl,
    h.metadataLength.trans hfilled.metadataLength.symm,
    h.requestedFrequencyHz.trans hfilled.requestedFrequencyHz.symm,
    h.mode.trans hfilled.mode.symm, h.icy.trans hfilled.icy.symm, fun _ => rfl⟩

/-- The frames at the start of both buffers are the same. -/
lemma Refines.frames (h : receiver.Refines session) {n : ℕ} (hn : n ≤ receiver.pcmBuffer.length) :
    (List.range n).map session.pcmBuffer = receiver.pcmBuffer.take n := by
  refine List.ext_getElem (by simp [hn]) fun i hi _ => ?_
  have hlt : i < n := by simpa using hi
  rw [List.getElem_map, List.getElem_range, h.pcm, List.getElem_take,
    List.getD_eq_getElem _ _ (hlt.trans_le hn)]

/-- A call of the receiver is a call of the session, with the same result and the same frames. -/
lemma Refines.produce (hfits : FmPipelineState.ResamplerFits library)
    {settings : ReceptionSettings ℚ} {input heard : List (ℚ × ℚ)}
    (h : receiver.Refines session) (hheard : receiver.Heard library settings input heard)
    (live : LiveRead) :
    ∃ next block, StreamReceiver.produce library receiver live
        = some (next, (streamSessionProduce session block).2) ∧
      next.Refines (streamSessionProduce session block).1 ∧
      ∃ input heard, next.Heard library settings input heard := by
  obtain ⟨filled, hfill, hcontinues, hfilled, -⟩ := hheard.fillPcmChunk hfits live
  obtain ⟨block, hblock⟩ := h.fill hcontinues
  obtain ⟨hnext, hresult⟩ := hblock.refreshMetadata
  obtain ⟨hnextHeard, -, -⟩ := hfilled.refreshMetadata
  have hroom : streamSessionMaxAudioFramesPerChunk
      * (StreamReceiver.refreshMetadata filled).1.mode.channels
      ≤ (StreamReceiver.refreshMetadata filled).1.pcmBuffer.length := by
    rw [hnextHeard.pcm_length]
    refine Nat.mul_le_mul_left _ ?_
    cases (StreamReceiver.refreshMetadata filled).1.mode <;> decide
  refine ⟨_, block, ?_, ?_, _, _, hnextHeard⟩
  · rw [StreamReceiver.produce, hfill, Option.map_some, streamSessionProduce,
      streamSessionFillPcmChunk_eq]
    dsimp only
    rw [hnext.mode, hnext.frames hroom, hresult]
  · rw [streamSessionProduce, streamSessionFillPcmChunk_eq]
    exact hnext

/-- **The session refines.** With what a block delivers taken from the signal processing, every run
of a listening session over a source is a run of the session of the server, with the same results,
the same frames, and the same metadata at the end. -/
theorem reception_refines_session
    (library : PipelineLibrary ℚ Nco Decimator Agc SymbolSync Resampler Filter)
    (hfits : FmPipelineState.ResamplerFits library) (request : StreamHttpRequest)
    (demodMath : FmDiscriminatorImpl) (fmQualityIntervalSeconds : ℚ) (lives : List LiveRead) :
    ∃ next outputs blocks session,
      Loop.calls (StreamReceiver.produce library) (configure library init
        (receptionSettings request demodMath fmQualityIntervalSeconds)) lives
        = some (next, outputs) ∧
      Loop.calls (fun session block => some (streamSessionProduce session block))
        (streamSessionConfigure streamSessionInit request) blocks = some (session, outputs) ∧
      blocks.length = lives.length ∧ next.Refines session := by
  have hruns : ∀ {receiver : StreamReceiver ℚ Nco Decimator Agc SymbolSync Resampler Filter}
      {session : StreamSession} {settings : ReceptionSettings ℚ} {input heard : List (ℚ × ℚ)},
      receiver.Refines session → receiver.Heard library settings input heard →
      ∃ next outputs blocks last,
        Loop.calls (StreamReceiver.produce library) receiver lives = some (next, outputs) ∧
        Loop.calls (fun session block => some (streamSessionProduce session block)) session blocks
          = some (last, outputs) ∧
        blocks.length = lives.length ∧ next.Refines last := by
    induction lives with
    | nil => exact fun h _ => ⟨_, [], [], _, rfl, rfl, rfl, h⟩
    | cons live lives ih =>
      intro receiver session settings input heard h hheard
      obtain ⟨middle, block, hproduce, hmiddle, _, _, hmiddleHeard⟩ := h.produce hfits hheard live
      obtain ⟨next, outputs, blocks, last, hcalls, hsession, hlength, hnext⟩ :=
        ih hmiddle hmiddleHeard
      refine ⟨next, (streamSessionProduce session block).2 :: outputs, block :: blocks, last,
        ?_, ?_, congrArg Nat.succ hlength, hnext⟩
      · rw [Loop.calls, hproduce, Option.bind_some, hcalls, Option.map_some]
      · rw [Loop.calls, Option.bind_some, hsession, Option.map_some]
  exact hruns (configure_refines request demodMath fmQualityIntervalSeconds)
    (configure_heard (receptionSettings request demodMath fmQualityIntervalSeconds))

end StreamReceiver

/-- A mono session with metadata, from a source that fails between two blocks. -/
theorem StreamReceiver.reception_refines_session_gap :
    let lives := [steadyRead 0 200, steadyRead (-1) 0, steadyRead 0 7]
    ∃ next outputs blocks session,
      Loop.calls (StreamReceiver.produce standInLibrary)
        (StreamReceiver.configure standInLibrary .init
          (receptionSettings ⟨true, true, 100000000, 1, 50, .mono, .wav⟩ .atan2Libm 0))
        lives = some (next, outputs) ∧
      Loop.calls (fun session block => some (streamSessionProduce session block))
        (streamSessionConfigure streamSessionInit ⟨true, true, 100000000, 1, 50, .mono, .wav⟩)
        blocks = some (session, outputs) ∧
      blocks.length = 3 ∧ next.Refines session :=
  StreamReceiver.reception_refines_session standInLibrary standInLibrary_fits
    ⟨true, true, 100000000, 1, 50, .mono, .wav⟩ .atan2Libm 0 _

end Refinement

end Mpxcast
