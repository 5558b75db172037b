import Mpxcast.Rds.Parser
import Mpxcast.Stream.IcyRoundTrip

/-!
# Stream sessions

`stream/session.c`: what all listeners of one tuning share. Of the DSP pipeline the session sees the
RDS parser; what a live block delivers, its RDS groups and its samples, is an input. Times are
rational numbers of seconds.
-/

namespace Mpxcast

open CMemory

/-! ### The pipeline -/

/-- `struct fm_pipeline_state`, as far as the session reads it. -/
structure FmPipeline where
  rdsEnabled : Bool
  parser : RdsParserState ℚ

def fmPipelineInit : FmPipeline := ⟨false, rdsParserInit⟩

def fmPipelineConfigure (pipeline : FmPipeline) (rdsEnabled : Bool) : FmPipeline :=
  { pipeline with rdsEnabled }

/-- What the pipeline makes of a block of samples from the source. -/
structure LiveBlock where
  groups : List (RdsGroup ℚ)
  samples : ℕ → Int16

def fmPipelineProcessLiveBlock (pipeline : FmPipeline) (live : LiveBlock) : FmPipeline :=
  if pipeline.rdsEnabled then
    { pipeline with
      parser := live.groups.foldl (fun parser group => (rdsParserProcessGroup parser group).1)
        pipeline.parser }
  else pipeline

/-! ### The session -/

def streamSessionSampleRate : ℕ := 48000

structure StreamSession where
  streamClockStarted : Bool
  rdsEnabled : Bool
  metadataLength : ℕ
  audioFramesQueued : ℕ
  streamStartedAt : ℚ
  requestedFrequencyHz : ℕ
  mode : StreamMode
  container : StreamContainer
  icy : IcyMetadataState
  fmPipeline : FmPipeline
  pcmBuffer : ℕ → Int16

/-- `stream_session_init`: everything is zero. -/
def streamSessionInit : StreamSession where
  streamClockStarted := false
  rdsEnabled := false
  metadataLength := 0
  audioFramesQueued := 0
  streamStartedAt := 0
  requestedFrequencyHz := 0
  mode := .mono
  container := .wav
  icy := ⟨false, 0, 0, List.replicate icyMetadataBlockCapacity 0, []⟩
  fmPipeline := fmPipelineInit
  pcmBuffer := fun _ => 0

def streamSessionConfigure (session : StreamSession) (request : StreamHttpRequest) :
    StreamSession :=
  { session with
    fmPipeline := fmPipelineConfigure fmPipelineInit request.rdsEnabled
    rdsEnabled := request.rdsEnabled
    requestedFrequencyHz := request.frequencyHz
    mode := request.mode
    container := request.container
    icy := icyMetadataInit (request.rdsEnabled && request.icyMetadataRequested) }

/-- `stream_session_current_rds_info`, of which the session reads the radiotext. -/
def streamSessionCurrentRadiotext (session : StreamSession) : List UInt8 :=
  if !session.rdsEnabled then [] else cString session.fmPipeline.parser.info.radiotext.toList

def streamSessionHasCompleteRadiotext (session : StreamSession) : Bool :=
  if !session.rdsEnabled then false else rdsParserHasCompleteRadiotext session.fmPipeline.parser

def streamSessionRefreshMetadata (session : StreamSession) : StreamSession × Int :=
  if !session.icy.enabled then (session, 0)
  else
    let (icy, result) := icyMetadataUpdate session.icy (streamSessionCurrentRadiotext session)
      (streamSessionHasCompleteRadiotext session)
    if result ≠ 0 then ({ session with icy }, -1)
    else ({ session with icy, metadataLength := icy.metadataLength }, 0)

/-- The session, the frame count, and the return value. -/
def streamSessionFillPcmChunk (session : StreamSession) (live : LiveBlock) :
    StreamSession × ℕ × Int :=
  let frameCount := streamSessionMaxAudioFramesPerChunk
  let session :=
    { session with
      fmPipeline := fmPipelineProcessLiveBlock session.fmPipeline live
      pcmBuffer := live.samples }
  if session.icy.enabled then
    let (session, result) := streamSessionRefreshMetadata session
    if result ≠ 0 then (session, frameCount, -1) else (session, frameCount, 0)
  else (session, frameCount, 0)

def streamSessionStartClock (session : StreamSession) (now : ℚ) : StreamSession :=
  if !session.streamClockStarted then
    { session with streamStartedAt := now, streamClockStarted := true }
  else session

def streamSessionComputeAudioDelay (session : StreamSession) (now : ℚ) : ℚ :=
  session.streamStartedAt + session.audioFramesQueued / streamSessionSampleRate - now

def streamSessionNoteQueuedFrames (session : StreamSession) (frameCount : ℕ) : StreamSession :=
  { session with audioFramesQueued := session.audioFramesQueued + frameCount }

/-! ### The metadata block always fits -/

/-- The array has its size, the title that was kept came from a radiotext, and nothing has been
wrapped yet. -/
structure IcyReady (icy : IcyMetadataState) : Prop where
  block_length : icy.metadataBlock.length = icyMetadataBlockCapacity
  title_length : icy.stableTitle.length ≤ 65
  countdown : icy.audioBytesUntilMetadata = icyMetaint

lemma icyReady_init (enabled : Bool) : IcyReady (icyMetadataInit enabled) :=
  ⟨List.length_replicate, Nat.zero_le _, rfl⟩

lemma icyCopyLoop_length_le (capacity : ℕ) : ∀ (source dest : List UInt8) (started : Bool),
    (icyCopyLoop capacity source dest started).length ≤ dest.length + source.length := by
  intro source
  induction source with
  | nil =>
    intro dest started
    rfl
  | cons c source ih =>
    intro dest started
    rw [icyCopyLoop, List.length_cons]
    have hskip := ih dest started
    have hput (c' : UInt8) := ih (dest ++ [c']) true
    simp only [List.length_append, List.length_singleton] at hput
    split_ifs
    · omega
    · have := hput 0x20
      omega
    · omega
    · have := hput c
      omega
    · omega
    · omega

lemma icyCopyText_length_le (capacity : ℕ) (source : List UInt8) :
    (icyCopyText capacity source).length ≤ source.length := by
  have hloop := icyCopyLoop_length_le capacity source [] false
  rw [List.length_nil, Nat.zero_add] at hloop
  exact (List.rdropWhile_prefix _ _).length_le.trans hloop

/-- The block of a title: a single zero byte without one, else the number of 16-byte units, the
title field and NUL padding. -/
def icyTitleBlock (title : List UInt8) : List UInt8 :=
  if title = [] then [0]
  else
    let length := (icyStreamTitle title).length
    UInt8.ofNat ((length + 15) / 16) ::
      (icyStreamTitle title ++ List.replicate ((length + 15) / 16 * 16 - length) 0)

lemma icyStreamTitle_length (title : List UInt8) :
    (icyStreamTitle title).length = title.length + 15 := by
  rw [icyStreamTitle, List.length_append, List.length_append]
  simp only [List.length_cons, List.length_nil]
  omega

lemma icyTitleBlock_length {title : List UInt8} (h : title ≠ []) :
    (icyTitleBlock title).length = 1 + (title.length + 30) / 16 * 16 := by
  rw [icyTitleBlock, if_neg h, List.length_cons, List.length_append, List.length_replicate,
    icyStreamTitle_length]
  omega

/-- A title of the length of a radiotext has a block, which is written over the buffer. -/
lemma icyBuildMetadataBlock_eq {buffer title : List UInt8}
    (hbuffer : buffer.length = icyMetadataBlockCapacity) (htitle : title.length ≤ 65) :
    icyBuildMetadataBlock buffer title = (icyTitleBlock title
      ++ buffer.drop (icyTitleBlock title).length, ((icyTitleBlock title).length : Int)) := by
  unfold icyMetadataBlockCapacity at hbuffer
  have hlen := icyStreamTitle_length title
  unfold icyBuildMetadataBlock
  by_cases hempty : title = []
  · rw [if_pos hempty, if_neg (by omega), memcpy_zero, icyTitleBlock, if_pos hempty]
    rfl
  · obtain ⟨units, hunits⟩ : ∃ units, units = ((icyStreamTitle title).length + 15) / 16 := ⟨_, rfl⟩
    have hmax : ¬(icyStreamTitle title).length ≥ icyTitleMaxLength := by
      unfold icyTitleMaxLength
      omega
    have hfits : ¬(1 + units * 16 > buffer.length ∨ units * 16 / 16 > 255) := by omega
    have hblock : icyTitleBlock title = UInt8.ofNat units :: (icyStreamTitle title
        ++ List.replicate (units * 16 - (icyStreamTitle title).length) 0) := by
      rw [icyTitleBlock, if_neg hempty, hunits]
    have hlength : (icyTitleBlock title).length = 1 + units * 16 := by
      rw [icyTitleBlock_length hempty]
      omega
    have hwritten : memset (memcpy (memcpy buffer 0 [UInt8.ofNat units]) 1 (icyStreamTitle title))
        (1 + (icyStreamTitle title).length) 0 (units * 16 - (icyStreamTitle title).length)
        = icyTitleBlock title ++ buffer.drop (icyTitleBlock title).length := by
      have htext : memcpy ([UInt8.ofNat units] ++ buffer.drop 1) 1 (icyStreamTitle title)
          = [UInt8.ofNat units] ++ icyStreamTitle title
            ++ (buffer.drop 1).drop (icyStreamTitle title).length := memcpy_append rfl
      have hpadding (rest : List UInt8) (n : ℕ) :
          memset ([UInt8.ofNat units] ++ icyStreamTitle title ++ rest)
            (1 + (icyStreamTitle title).length) 0 n
          = [UInt8.ofNat units] ++ icyStreamTitle title ++ List.replicate n 0 ++ rest.drop n := by
        rw [memset, memcpy_append (by rw [List.length_append]; rfl), List.length_replicate]
      rw [memcpy_zero, List.length_singleton, htext, hpadding, List.drop_drop, List.drop_drop,
        hlength, hblock, show 1 + ((icyStreamTitle title).length
          + (units * 16 - (icyStreamTitle title).length)) = 1 + units * 16 by omega,
        List.append_assoc [_]]
      rfl
    rw [if_neg hempty]
    dsimp only
    rw [if_neg hmax, ← hunits, if_neg hfits, Nat.mul_div_cancel _ (by decide), hwritten, hlength]
    push_cast
    rfl

/-- The block of a title is well formed. -/
lemma wellFormedMetadata_titleBlock (rest : List UInt8) {title : List UInt8}
    (htitle : title.length ≤ 65) :
    WellFormedMetadata (icyTitleBlock title ++ rest) (icyTitleBlock title).length where
  length_le := by
    rw [List.length_append]
    exact Nat.le_add_right _ _
  length_eq := by
    by_cases hempty : title = []
    · rw [icyTitleBlock, if_pos hempty]
      exact ⟨0, rest, rfl, rfl⟩
    · have hlength := icyTitleBlock_length hempty
      have hbyte : (UInt8.ofNat ((title.length + 30) / 16)).toNat = (title.length + 30) / 16 :=
        UInt8.toNat_ofNat_of_lt' (by rw [UInt8.size]; omega)
      refine ⟨UInt8.ofNat ((title.length + 30) / 16), (icyTitleBlock title ++ rest).tail, ?_, ?_⟩
      · rw [icyTitleBlock, if_neg hempty, icyStreamTitle_length]
        rfl
      · rw [hlength, hbyte, Nat.mul_comm]

/-- The title that an update shows. -/
def icyNextTitle (icy : IcyMetadataState) (radiotext : List UInt8) (hasCompleteRadiotext : Bool) :
    List UInt8 :=
  if hasCompleteRadiotext ∧ radiotext ≠ [] then icyCopyText (icyTitleMaxLength + 1) radiotext
  else icy.stableTitle

lemma icyNextTitle_length_le {icy : IcyMetadataState} (h : icy.stableTitle.length ≤ 65)
    {radiotext : List UInt8} (hradiotext : radiotext.length ≤ 65) (hasCompleteRadiotext : Bool) :
    (icyNextTitle icy radiotext hasCompleteRadiotext).length ≤ 65 := by
  unfold icyNextTitle
  split_ifs
  · exact (icyCopyText_length_le _ _).trans hradiotext
  · exact h

/-- An update succeeds and shows the block of its title. -/
lemma icyMetadataUpdate_eq {icy : IcyMetadataState} (h : IcyReady icy) {radiotext : List UInt8}
    (hradiotext : radiotext.length ≤ 65) (hasCompleteRadiotext : Bool) :
    icyMetadataUpdate icy radiotext hasCompleteRadiotext =
      let title := icyNextTitle icy radiotext hasCompleteRadiotext
      ({ icy with
          stableTitle := if hasCompleteRadiotext ∧ title ≠ [] then title else icy.stableTitle
          metadataBlock := icyTitleBlock title
            ++ icy.metadataBlock.drop (icyTitleBlock title).length
          metadataLength := (icyTitleBlock title).length }, 0) := by
  have hlen := icyNextTitle_length_le h.title_length hradiotext hasCompleteRadiotext
  have hbuild := icyBuildMetadataBlock_eq h.block_length hlen
  have hle : (icyTitleBlock (icyNextTitle icy radiotext hasCompleteRadiotext)).length ≤ 81 := by
    by_cases hempty : icyNextTitle icy radiotext hasCompleteRadiotext = []
    · rw [icyTitleBlock, if_pos hempty]
      decide
    · rw [icyTitleBlock_length hempty]
      omega
  have hsize : sizeOfInt ((icyTitleBlock (icyNextTitle icy radiotext hasCompleteRadiotext)).length
      : Int) = (icyTitleBlock (icyNextTitle icy radiotext hasCompleteRadiotext)).length := by
    unfold sizeOfInt
    omega
  have hok : (icyTitleBlock (icyNextTitle icy radiotext hasCompleteRadiotext)).length
      ≠ sizeOfInt (-1) := by
    have hminus : sizeOfInt (-1) = 2 ^ 64 - 1 := by decide
    omega
  unfold icyMetadataUpdate
  rw [← icyNextTitle]
  dsimp only
  rw [hbuild]
  dsimp only
  rw [hsize, if_neg hok]

/-- The metadata of a radiotext always fits. -/
lemma icyMetadataUpdate_spec {icy : IcyMetadataState} (h : IcyReady icy) {radiotext : List UInt8}
    (hradiotext : radiotext.length ≤ 65) (hasCompleteRadiotext : Bool) :
    (icyMetadataUpdate icy radiotext hasCompleteRadiotext).2 = 0 ∧
      IcyReady (icyMetadataUpdate icy radiotext hasCompleteRadiotext).1 ∧
      (icyMetadataUpdate icy radiotext hasCompleteRadiotext).1.WellFormed ∧
      (icyMetadataUpdate icy radiotext hasCompleteRadiotext).1.enabled = icy.enabled := by
  have hlen := icyNextTitle_length_le h.title_length hradiotext hasCompleteRadiotext
  have hwell := wellFormedMetadata_titleBlock
    (icy.metadataBlock.drop
      (icyTitleBlock (icyNextTitle icy radiotext hasCompleteRadiotext)).length) hlen
  have hle : (icyTitleBlock (icyNextTitle icy radiotext hasCompleteRadiotext)).length ≤ 256 := by
    by_cases hempty : icyNextTitle icy radiotext hasCompleteRadiotext = []
    · rw [icyTitleBlock, if_pos hempty]
      decide
    · rw [icyTitleBlock_length hempty]
      omega
  rw [icyMetadataUpdate_eq h hradiotext]
  refine ⟨rfl, ⟨?_, ?_, h.countdown⟩, hwell, rfl⟩
  · have hblock := h.block_length
    unfold icyMetadataBlockCapacity at hblock ⊢
    rw [List.length_append, List.length_drop]
    omega
  · dsimp only
    split_ifs
    · exact hlen
    · exact h.title_length

/-- The metadata of the session can be sent. -/
structure StreamSession.Ready (session : StreamSession) : Prop where
  icy : IcyReady session.icy
  wellFormed : session.icy.enabled = true → session.icy.WellFormed

lemma streamSessionCurrentRadiotext_length_le (session : StreamSession) :
    (streamSessionCurrentRadiotext session).length ≤ 65 := by
  unfold streamSessionCurrentRadiotext
  split_ifs
  · exact Nat.zero_le _
  · refine (cString_length_le _).trans ?_
    rw [Vector.length_toList]

/-- Refreshing the metadata succeeds and changes nothing else. -/
lemma streamSessionRefreshMetadata_spec {session : StreamSession} (h : IcyReady session.icy) :
    ∃ icy metadataLength,
      streamSessionRefreshMetadata session = ({ session with icy, metadataLength }, 0) ∧
      icy.enabled = session.icy.enabled ∧ IcyReady icy ∧ (icy.enabled = true → icy.WellFormed) := by
  unfold streamSessionRefreshMetadata
  cases henabled : session.icy.enabled with
  | false =>
    refine ⟨session.icy, session.metadataLength, rfl, henabled, h, fun htrue => ?_⟩
    exact absurd (henabled.symm.trans htrue) Bool.false_ne_true
  | true =>
    obtain ⟨hresult, hready, hwell, hkept⟩ := icyMetadataUpdate_spec h
      (streamSessionCurrentRadiotext_length_le session) (streamSessionHasCompleteRadiotext session)
    rcases hupdate : icyMetadataUpdate session.icy (streamSessionCurrentRadiotext session)
      (streamSessionHasCompleteRadiotext session) with ⟨icy, result⟩
    rw [hupdate] at hresult hready hwell hkept
    refine ⟨icy, icy.metadataLength, ?_, hkept.trans henabled, hready, fun _ => hwell⟩
    have hzero : result = 0 := hresult
    simp [hzero]

/-- A freshly configured session always has its metadata. -/
lemma streamSessionConfigure_ready (request : StreamHttpRequest) :
    ∃ session, streamSessionRefreshMetadata (streamSessionConfigure streamSessionInit request)
        = (session, 0) ∧
      session.mode = request.mode ∧ session.container = request.container ∧ session.Ready := by
  have hinit : IcyReady (streamSessionConfigure streamSessionInit request).icy := icyReady_init _
  obtain ⟨icy, metadataLength, hrefresh, -, hicy, hwell⟩ := streamSessionRefreshMetadata_spec hinit
  exact ⟨_, hrefresh, rfl, rfl, hicy, hwell⟩

/-- Producing a chunk never fails for want of metadata. -/
lemma streamSessionFillPcmChunk_spec {session : StreamSession} (h : session.Ready)
    (live : LiveBlock) :
    ∃ icy metadataLength fmPipeline,
      streamSessionFillPcmChunk session live =
        ({ session with icy, metadataLength, fmPipeline, pcmBuffer := live.samples },
          streamSessionMaxAudioFramesPerChunk, 0) ∧
      icy.enabled = session.icy.enabled ∧ IcyReady icy ∧ (icy.enabled = true → icy.WellFormed) := by
  have hready : IcyReady ({ session with
      fmPipeline := fmPipelineProcessLiveBlock session.fmPipeline live
      pcmBuffer := live.samples } : StreamSession).icy := h.icy
  obtain ⟨icy, metadataLength, hrefresh, hkept, hready, hwell⟩ :=
    streamSessionRefreshMetadata_spec hready
  unfold streamSessionFillPcmChunk
  dsimp only at hkept ⊢
  cases henabled : session.icy.enabled with
  | false =>
    exact ⟨session.icy, session.metadataLength, _, rfl, henabled, h.icy, h.wellFormed⟩
  | true =>
    refine ⟨icy, metadataLength, fmPipelineProcessLiveBlock session.fmPipeline live, ?_,
      hkept.trans henabled, hready, hwell⟩
    rw [if_pos rfl, hrefresh]
    rfl

lemma streamSessionRefreshMetadata_result (session : StreamSession) :
    (streamSessionRefreshMetadata session).2 = 0 ∨
      (streamSessionRefreshMetadata session).2 = -1 := by
  unfold streamSessionRefreshMetadata
  dsimp only
  split_ifs
  · exact .inl rfl
  · exact .inr rfl
  · exact .inl rfl

/-- A chunk of the session: the metadata is refreshed when the block is in. -/
lemma streamSessionFillPcmChunk_eq (session : StreamSession) (live : LiveBlock) :
    streamSessionFillPcmChunk session live
      = (let delivered : StreamSession := { session with
          fmPipeline := fmPipelineProcessLiveBlock session.fmPipeline live
          pcmBuffer := live.samples }
        ((streamSessionRefreshMetadata delivered).1, streamSessionMaxAudioFramesPerChunk,
          (streamSessionRefreshMetadata delivered).2)) := by
  obtain ⟨delivered, hdelivered⟩ : ∃ delivered : StreamSession, delivered = { session with
      fmPipeline := fmPipelineProcessLiveBlock session.fmPipeline live
      pcmBuffer := live.samples } := ⟨_, rfl⟩
  have hresult := streamSessionRefreshMetadata_result delivered
  unfold streamSessionFillPcmChunk
  simp only [← hdelivered]
  cases henabled : session.icy.enabled with
  | false =>
    have hskip : streamSessionRefreshMetadata delivered = (delivered, 0) := by
      unfold streamSessionRefreshMetadata
      rw [hdelivered, henabled]
      rfl
    rw [hskip]
    rfl
  | true =>
    rw [if_pos rfl]
    generalize streamSessionRefreshMetadata delivered = refreshed at hresult
    obtain ⟨next, result⟩ := refreshed
    rcases hresult with hzero | hminus
    · obtain rfl : result = 0 := hzero
      rfl
    · obtain rfl : result = -1 := hminus
      rfl

end Mpxcast
