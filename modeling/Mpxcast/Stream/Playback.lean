import Mpxcast.Stream.MpegtsStream
import Mpxcast.Stream.Packing
import Mpxcast.Stream.SectionChecksum

/-!
# Playback

What a player makes of the bytes of one client. Behind the prelude of its container every packed
chunk plays on as the samples of the chunk, with or without ICY metadata in between, and the blocks
that the player strips are those the session showed.
-/

namespace Mpxcast

open InbandMetadata TransportStream

/-! ### Players -/

/-- The format of the PCM of a session. -/
def StreamMode.pcmFormat (mode : StreamMode) : PcmFormat :=
  ⟨mode.channels, streamSessionSampleRate, 16⟩

/-- The interleaved samples of a chunk. -/
def PcmChunk.audio (mode : StreamMode) (chunk : PcmChunk) : List Int16 :=
  (List.range (chunk.frameCount * mode.channels)).map chunk.samples

/-- A player of the container, set to a format. -/
def StreamContainer.play (container : StreamContainer) (format : PcmFormat) (bytes : List UInt8) :
    Option (List Int16) :=
  match container with
  | .mpegts => TransportStream.play format bytes
  | .wav => WaveStream.play format bytes

/-- What reaches the player, and the metadata blocks that were taken out for it. -/
def icyStrip (enabled : Bool) (bytes : List UInt8) : List UInt8 × List (List UInt8) :=
  if enabled then
    let receiver := (Receiver.start icyMetaint).run icyMetaint bytes
    (receiver.body, receiver.blocks)
  else (bytes, [])

/-! ### WAV -/

/-- The header announces the format, and the samples behind it are played. -/
lemma wavPlay (mode : StreamMode) (audio : List Int16) :
    WaveStream.play mode.pcmFormat
      (wavWriteStreamHeader (UInt16.ofNat mode.channels) 48000 16 ++ audio.flatMap sampleMemory)
        = some audio := by
  have hsamples : WaveStream.samples (audio.flatMap sampleMemory) = audio :=
    WaveStream.samples_flatMap_sampleBytes audio
  have hparse : WaveStream.parse (wavWriteStreamHeader (UInt16.ofNat mode.channels) 48000 16
      ++ audio.flatMap sampleMemory) = some (mode.pcmFormat, audio.flatMap sampleMemory) := by
    generalize audio.flatMap sampleMemory = bytes
    cases mode <;> rfl
  rw [WaveStream.play, hparse]
  simp [hsamples, StreamMode.pcmFormat]

/-! ### MPEG-TS -/

/-- The muxer of a stream in this mode: what its audio is announced as never changes. -/
structure StreamMuxMpegtsState.Announces (state : StreamMuxMpegtsState) (mode : StreamMode) :
    Prop where
  channels : state.channels = UInt16.ofNat mode.channels
  lpcmHeader : state.lpcmHeader
    = (streamMuxMpegtsInit (UInt16.ofNat mode.channels)).lpcmHeader

/-- The format field of a PES packet is that of the muxer. -/
lemma streamMuxMpegtsBuildPes_format {state : StreamMuxMpegtsState} {samples : ℕ → Int16}
    {frameCount capacity : ℕ} {pes : List UInt8}
    (h : streamMuxMpegtsBuildPes state samples frameCount capacity = some pes) :
    ∃ parsed lpcm, Pes.parse pes = some parsed ∧ Lpcm.parse parsed.payload = some lpcm ∧
      lpcm.format = state.lpcmHeader.toNat := by
  unfold streamMuxMpegtsBuildPes at h
  dsimp only at h
  split_ifs at h
  obtain rfl := Option.some.inj h
  exact ⟨_, _, rfl, rfl, bigEndian_word _⟩

/-- What is announced is the format of the mode. -/
lemma StreamMuxMpegtsState.Announces.pcmFormat {state : StreamMuxMpegtsState} {mode : StreamMode}
    (h : state.Announces mode) {lpcm : Lpcm} (hformat : lpcm.format = state.lpcmHeader.toNat) :
    lpcm.pcmFormat = some mode.pcmFormat := by
  rw [h.lpcmHeader] at hformat
  rw [Lpcm.pcmFormat, hformat]
  cases mode <;> rfl

/-- A player that knows the number of channels reads the samples of the chunk off the air. -/
lemma StreamMuxMpegtsState.Announces.audio_eq {state : StreamMuxMpegtsState} {mode : StreamMode}
    (h : state.Announces mode) (chunk : PcmChunk) :
    (if mode.channels = 1 then everyOther (airSamples state chunk.samples chunk.frameCount)
      else airSamples state chunk.samples chunk.frameCount) = chunk.audio mode := by
  unfold airSamples PcmChunk.audio
  rw [h.channels]
  cases mode with
  | mono =>
    have hmono : UInt16.ofNat StreamMode.mono.channels ≠ 2 := by decide
    have hpadded := everyOther_padded 0 ((List.range chunk.frameCount).map chunk.samples)
    rw [List.flatMap_map] at hpadded
    have hlone : StreamMode.mono.channels = 1 := rfl
    rw [if_pos hlone, if_neg hmono, hpadded, hlone, Nat.mul_one]
  | stereo =>
    have hstereo : UInt16.ofNat StreamMode.stereo.channels = 2 := rfl
    rw [if_neg (by decide), if_pos hstereo]
    rfl

/-- A PES packet plays as the samples of its chunk. -/
lemma playUnit_buildPes {state : StreamMuxMpegtsState} {mode : StreamMode}
    (hstate : state.Announces mode) {chunk : PcmChunk} {pes : List UInt8}
    (h : streamMuxMpegtsBuildPes state chunk.samples chunk.frameCount streamMuxMpegtsMaxPesBytes
      = some pes) :
    playUnit mode.pcmFormat pes = some (chunk.audio mode) := by
  have hspec := streamMuxMpegtsBuildPes_spec state chunk.samples chunk.frameCount
  rw [h] at hspec
  split_ifs at hspec
  obtain ⟨_, hbuilt, hlength, parsed, lpcm, hparsed, hid, hpacket, hlpcm, hsize, hsamples⟩ := hspec
  obtain rfl := Option.some.inj hbuilt
  obtain ⟨parsed', lpcm', hparsed', hlpcm', hformat⟩ := streamMuxMpegtsBuildPes_format h
  obtain rfl := Option.some.inj (hparsed.symm.trans hparsed')
  obtain rfl := Option.some.inj (hlpcm.symm.trans hlpcm')
  have hwhole : parsed.packetLength + 6 = pes.length := by omega
  have hchecks : parsed.streamId = 0xbd ∧ parsed.packetLength + 6 = pes.length ∧
      lpcm.size = lpcm.audio.length ∧ lpcm.pcmFormat = some mode.pcmFormat ∧
      mode.pcmFormat.sampleBits = 16 :=
    ⟨hid, hwhole, hsize, hstate.pcmFormat hformat, rfl⟩
  simp only [playUnit, hparsed, hlpcm, Option.bind_eq_bind, Option.bind_some]
  rw [if_pos hchecks, hsamples, ← hstate.audio_eq chunk]
  exact (apply_ite some _ _ _).symm

/-- A successful call writes one PES packet into its audio packets. -/
lemma ChunkWritten.of_writeAudio {state state' : StreamMuxMpegtsState} {samples : ℕ → Int16}
    {frameCount capacity : ℕ} {out : List UInt8}
    (h : streamMuxMpegtsWriteAudio state samples frameCount capacity = some (state', some out)) :
    ∃ audio pes, ChunkWritten state state' frameCount out audio ∧
      streamMuxMpegtsBuildPes state samples frameCount streamMuxMpegtsMaxPesBytes = some pes ∧
      (∀ first ∈ audio.head?, first.unitStart = true) ∧ demux 0x1100 audio = [pes] := by
  obtain ⟨audio, hwritten⟩ := streamMuxMpegtsWriteAudio_written h
  obtain ⟨pes, c, hpes, hrun, hok, -, rfl⟩ := streamMuxMpegtsWriteAudio_some h
  refine ⟨audio, pes, hwritten, hpes, ?_⟩
  have htables := tablePackets_length state
  have hcapacity : 2 * 188 ≤ capacity := by
    obtain ⟨_, _, hwrite, hsome, -⟩ :=
      streamMuxMpegtsWriteAudio_spec state samples frameCount capacity
    obtain ⟨-, rfl⟩ := Prod.mk.inj (Option.some.inj (hwrite.symm.trans h))
    have := (hsome.mp rfl).2
    omega
  have hinit : AudioInv pes ((tablePackets state).flatMap Packet.encode) capacity
      (firstCursor state) [] :=
    { buffer := by simp [firstCursor]
      packets := by simp
      starts := rfl
      data := rfl
      offset := (Nat.min_zero _).symm
      count := Nat.zero_le _
      first := rfl
      room := fun _ => htables ▸ hcapacity
      short := by simp [firstCursor] }
  obtain ⟨c', ps, hrun', hinv, hdone⟩ := audioLoop_spec hinit (streamMuxMpegtsBuildPes_pos hpes)
  obtain rfl : c' = c := Option.some.inj (hrun'.symm.trans hrun)
  obtain ⟨hcount, hoffset⟩ := hdone hok
  -- the packets of both descriptions of the buffer are the same
  obtain rfl : audio = ps := by
    have hbytes := hwritten.bytes
    rw [hinv.buffer, ← List.flatMap_append] at hbytes
    have hfits : ∀ p ∈ tablePackets state ++ ps, p.Fits := fun p hp =>
      (List.mem_append.mp hp).elim (tablePackets_fits state p) fun hp => (hinv.packets p hp).fits
    have hparse := parseStream_flatMap_encode hfits
    rw [hbytes, parseStream_flatMap_encode fun p hp => (hwritten.continues.packets p hp).fits]
      at hparse
    exact List.append_cancel_left (Option.some.inj hparse)
  obtain ⟨first, rest, rfl⟩ : ∃ first rest, audio = first :: rest :=
    List.exists_cons_of_length_pos (by rw [hcount, audioPacketCount]; omega)
  have hstarts := hinv.starts
  rw [List.length_cons, List.range_succ_eq_map, List.map_cons, List.map_cons, List.map_map,
    List.cons.injEq] at hstarts
  have hfirst : first.unitStart = true := by simpa using hstarts.1
  have hrest : ∀ p ∈ rest, p.unitStart = false := by
    intro p hp
    have hmem := List.mem_map_of_mem (f := Packet.unitStart) hp
    rw [hstarts.2] at hmem
    obtain ⟨_, _, hfalse⟩ := List.mem_map.mp hmem
    simpa using hfalse.symm
  refine ⟨fun p hp => Option.some.inj hp ▸ hfirst, ?_⟩
  rw [demux_unit hfirst hrest fun p hp => (hinv.packets p hp).pid_eq, hinv.data, hoffset,
    List.take_length]

/-- What a transport stream in this mode has carried so far: the tables, and behind them the packets
of these chunks. -/
structure Airs (mode : StreamMode) (body : List UInt8) (chunks : List PcmChunk)
    (state : StreamMuxMpegtsState) : Prop where
  announces : state.Announces mode
  packets : ∃ ps, body = (tablePackets (streamMuxMpegtsInit (UInt16.ofNat mode.channels))
      ++ ps).flatMap Packet.encode ∧
    Continues (streamMuxMpegtsInit (UInt16.ofNat mode.channels))
      (tablePackets (streamMuxMpegtsInit (UInt16.ofNat mode.channels)) ++ ps) state ∧
    (demux 0x1100 ps).map (playUnit mode.pcmFormat)
      = chunks.map fun chunk => some (chunk.audio mode)

/-- The clock is not announced. -/
lemma StreamMuxMpegtsState.Announces.advance {state : StreamMuxMpegtsState} {mode : StreamMode}
    (h : state.Announces mode) (frameCount : ℕ) :
    (streamMuxMpegtsAdvancePts state frameCount).Announces mode := by
  have hclock (pts : UInt64) (remainder : UInt32) :
      ({ state with pts90khz := pts, ptsNumeratorRemainder := remainder } :
        StreamMuxMpegtsState).Announces mode := ⟨h.channels, h.lpcmHeader⟩
  exact hclock _ _

/-- The tables carry no audio. -/
lemma demux_tablePackets (state : StreamMuxMpegtsState) (ps : List Packet) :
    demux 0x1100 (tablePackets state ++ ps) = demux 0x1100 ps := by
  rw [tablePackets, List.cons_append, List.singleton_append,
    demux_cons_of_ne (by simp [sectionPacket]), demux_cons_of_ne (by simp [sectionPacket])]

lemma Airs.start (mode : StreamMode) :
    Airs mode ((tablePackets (streamMuxMpegtsInit (UInt16.ofNat mode.channels))).flatMap
        Packet.encode) []
      (afterTables (streamMuxMpegtsInit (UInt16.ofNat mode.channels))) where
  announces := ⟨rfl, rfl⟩
  packets := ⟨[], by rw [List.append_nil],
    by rw [List.append_nil]; exact tablePackets_continues rfl rfl rfl, rfl⟩

/-- A packed chunk is carried behind the others. -/
lemma Airs.append {mode : StreamMode} {body : List UInt8} {chunks : List PcmChunk}
    {state state' : StreamMuxMpegtsState} (h : Airs mode body chunks state) {chunk : PcmChunk}
    {capacity : ℕ} {out : List UInt8}
    (hwrite : streamMuxMpegtsWriteAudio state chunk.samples chunk.frameCount capacity
      = some (state', some out)) :
    Airs mode (body ++ out) (chunks ++ [chunk]) state' := by
  obtain ⟨hannounces, ps, rfl, hcontinues, hunits⟩ := h
  obtain ⟨audio, pes, hwritten, hpes, hstart, hunit⟩ := ChunkWritten.of_writeAudio hwrite
  refine ⟨?_, ps ++ (tablePackets state ++ audio), ?_, ?_, ?_⟩
  · rw [hwritten.next]
    refine StreamMuxMpegtsState.Announces.advance ?_ _
    exact ⟨hannounces.channels, hannounces.lpcmHeader⟩
  · rw [hwritten.bytes, ← List.flatMap_append, List.append_assoc]
  · rw [← List.append_assoc]
    exact hcontinues.trans hwritten.continues
  · have hfilter : (tablePackets state ++ audio).filter (·.pid = 0x1100) = audio := by
      have hpid : ∀ p ∈ audio, decide (p.pid = 0x1100) = true := fun p hp =>
        decide_eq_true (hwritten.packets p hp).1.pid_eq
      rw [List.filter_append, List.filter_eq_self.mpr hpid]
      simp [tablePackets, sectionPacket]
    rw [demux_append (by rwa [hfilter]), demux_tablePackets, hunit, List.map_append, hunits,
      List.map_append, List.map_singleton, List.map_singleton, playUnit_buildPes hannounces hpes]

/-- A receiver finds the audio. -/
lemma audioPid_tablePackets {first state : StreamMuxMpegtsState} {ps : List Packet}
    (h : Continues first (tablePackets first ++ ps) state) :
    audioPid (tablePackets first ++ ps) = some 0x1100 := by
  have hassociation : findSection 0 (tablePackets first ++ ps) = some patSection := by
    have hsplit : splitSection
          (sectionPacket 0x0000 (first.patContinuityCounter.toNat % 16) patSection)
        = some (patSection, List.replicate 167 0xff) := splitSection_sectionPacket 0x0000 _ rfl
    have hfind : (tablePackets first ++ ps).find? (fun p => decide (p.pid = 0) && p.unitStart)
        = some (sectionPacket 0x0000 (first.patContinuityCounter.toNat % 16) patSection) := rfl
    simp only [findSection, hfind, hsplit, Option.bind_eq_bind, Option.bind_some,
      intact_patSection, if_true]
  have hmap : findSection 0x0100 (tablePackets first ++ ps) = some pmtSection := by
    have hsplit : splitSection
          (sectionPacket 0x0100 (first.pmtContinuityCounter.toNat % 16) pmtSection)
        = some (pmtSection, List.replicate 150 0xff) := splitSection_sectionPacket 0x0100 _ rfl
    have hfind : (tablePackets first ++ ps).find? (fun p => decide (p.pid = 0x0100) && p.unitStart)
        = some (sectionPacket 0x0100 (first.pmtContinuityCounter.toNat % 16) pmtSection) := rfl
    simp only [findSection, hfind, hsplit, Option.bind_eq_bind, Option.bind_some,
      intact_pmtSection, if_true]
  have hmapPid : programMapPid patSection = some 0x0100 := rfl
  have hpid : lpcmPid pmtSection = some 0x1100 := rfl
  have hcontinuous (pid : ℕ) (hpid : pid ∈ streamPids) :
      TransportStream.Continuous pid (tablePackets first ++ ps) :=
    (h.counts pid hpid).continuous
  simp only [audioPid, hassociation, hmapPid, hmap, hpid, Option.bind_eq_bind, Option.bind_some]
  exact if_pos ⟨hcontinuous _ (by decide), hcontinuous _ (by decide), hcontinuous _ (by decide)⟩

/-- A transport stream plays as its chunks. -/
lemma Airs.play {mode : StreamMode} {body : List UInt8} {chunks : List PcmChunk}
    {state : StreamMuxMpegtsState} (h : Airs mode body chunks state) :
    TransportStream.play mode.pcmFormat body = some (chunks.flatMap (PcmChunk.audio mode)) := by
  obtain ⟨-, ps, rfl, hcontinues, hunits⟩ := h
  have hplayed : (demux 0x1100 ps).mapM (playUnit mode.pcmFormat)
      = some (chunks.map (PcmChunk.audio mode)) := by
    generalize demux 0x1100 ps = units at hunits
    induction units generalizing chunks with
    | nil =>
      obtain rfl := List.map_eq_nil_iff.mp hunits.symm
      rfl
    | cons unit units ih =>
      obtain ⟨chunk, chunks', rfl, hchunk, hchunks⟩ := List.map_eq_cons_iff.mp hunits.symm
      rw [List.mapM_cons, ← hchunk, ih hchunks.symm]
      rfl
  simp only [TransportStream.play, parseStream_flatMap_encode fun p hp =>
    (hcontinues.packets p hp).fits, audioPid_tablePackets hcontinues, demux_tablePackets, hplayed,
    Option.bind_eq_bind, Option.bind_some]
  rfl

/-! ### One client -/

/-- Two states of a client that agree in what only its own reads change. -/
structure ClientStream.Keeps (stream stream' : ClientStream) : Prop where
  mpegtsMux : stream'.mpegtsMux = stream.mpegtsMux
  icy : stream'.icy = stream.icy
  preludePending : stream'.preludePending = stream.preludePending
  mode : stream'.mode = stream.mode
  container : stream'.container = stream.container

/-- What a client is sent from the state `stream` on, whatever else happens in between: its prelude,
and then chunks, each under some metadata. -/
inductive Sends (stream : ClientStream) :
    List UInt8 → List PcmChunk → List IcyMetadataState → ClientStream → Prop
  | start : Sends stream [] [] [] stream
  | keeps {bytes : List UInt8} {chunks : List PcmChunk} {shown : List IcyMetadataState}
      {st st' : ClientStream} (h : Sends stream bytes chunks shown st) (hkeeps : st.Keeps st') :
      Sends stream bytes chunks shown st'
  | prelude {bytes prelude : List UInt8} {chunks : List PcmChunk} {shown : List IcyMetadataState}
      {st st' : ClientStream} (h : Sends stream bytes chunks shown st)
      (hpending : st.preludePending = true)
      (hbuild : clientStreamBuildPrelude st = (st', some prelude)) :
      Sends stream (bytes ++ prelude) chunks shown { st' with preludePending := false }
  | chunk {bytes packed : List UInt8} {chunks : List PcmChunk} {shown : List IcyMetadataState}
      {st st' : ClientStream} {chunk : PcmChunk} {metadata : IcyMetadataState}
      (h : Sends stream bytes chunks shown st) (hpending : st.preludePending = false)
      (hwell : st.icy.enabled = true → metadata.WellFormed)
      (hpack : clientStreamPackChunk st chunk metadata = some (st', some packed)) :
      Sends stream (bytes ++ packed) (chunks ++ [chunk]) (shown ++ [metadata]) st'

/-- The body behind the ICY framing, in step with the countdown of the client. -/
structure Framed (bytes : List UInt8) (shown : List IcyMetadataState) (icy : IcyMetadataState)
    (body : List UInt8) : Prop where
  plain : icy.enabled = false → bytes = body
  countdown : icy.enabled = true →
    icy.audioBytesUntilMetadata = icyBytesUntilNextMetadata body.length
  stripped : icy.enabled = true → ∃ blocks,
    (Receiver.start icyMetaint).run icyMetaint bytes
      = ⟨.body (icyBytesUntilNextMetadata body.length), body, blocks⟩ ∧
    ∀ block ∈ blocks, ∃ metadata ∈ shown, block = metadata.block

/-- The body of a client's stream in its container. -/
def Contains (mode : StreamMode) (container : StreamContainer) (body : List UInt8)
    (chunks : List PcmChunk) (mpegtsMux : StreamMuxMpegtsState) : Prop :=
  match container with
  | .mpegts => Airs mode body chunks mpegtsMux
  | .wav => body = wavWriteStreamHeader (UInt16.ofNat mode.channels) 48000 16
      ++ (chunks.flatMap (PcmChunk.audio mode)).flatMap sampleMemory

lemma Contains.play {mode : StreamMode} {container : StreamContainer} {body : List UInt8}
    {chunks : List PcmChunk} {mpegtsMux : StreamMuxMpegtsState}
    (h : Contains mode container body chunks mpegtsMux) :
    container.play mode.pcmFormat body = some (chunks.flatMap (PcmChunk.audio mode)) := by
  cases container with
  | mpegts => exact Airs.play h
  | wav =>
    obtain rfl : body = _ := h
    exact wavPlay mode _

/-- A client before and after its prelude. -/
structure Sent (stream : ClientStream) (bytes : List UInt8) (chunks : List PcmChunk)
    (shown : List IcyMetadataState) (st : ClientStream) : Prop where
  mode : st.mode = stream.mode
  container : st.container = stream.container
  enabled : st.icy.enabled = stream.icy.enabled
  pending : st.preludePending = true → bytes = [] ∧ chunks = [] ∧ shown = [] ∧
    st.mpegtsMux = streamMuxMpegtsInit (UInt16.ofNat stream.mode.channels)
  sent : st.preludePending = false → ∃ body, Framed bytes shown st.icy body ∧
    Contains stream.mode stream.container body chunks st.mpegtsMux

variable {stream st st' : ClientStream} {bytes : List UInt8} {chunks : List PcmChunk}
  {shown : List IcyMetadataState}

lemma Sent.keeps (h : Sent stream bytes chunks shown st) (hkeeps : st.Keeps st') :
    Sent stream bytes chunks shown st' := by
  obtain ⟨hmux, hicy, hpending, hmode, hcontainer⟩ := hkeeps
  exact ⟨hmode.trans h.mode, hcontainer.trans h.container, hicy ▸ h.enabled,
    hpending ▸ hmux ▸ h.pending, hpending ▸ hicy ▸ hmux ▸ h.sent⟩

lemma Framed.prelude {prelude : List UInt8} (hshort : prelude.length < icyMetaint)
    (icy : IcyMetadataState) :
    Framed prelude [] (if icy.enabled then
      { icy with audioBytesUntilMetadata := icyBytesUntilNextMetadata prelude.length } else icy)
      prelude where
  plain := fun _ => rfl
  countdown := by
    intro henabled
    split_ifs at henabled ⊢ with h
    · rfl
    · exact absurd henabled h
  stripped := by
    intro _
    have hcountdown : icyBytesUntilNextMetadata prelude.length = icyMetaint - prelude.length := by
      rw [icyBytesUntilNextMetadata_eq, Nat.mod_eq_of_lt hshort]
    refine ⟨[], ?_, fun block hblock => absurd hblock List.not_mem_nil⟩
    rw [Receiver.start, Receiver.run_body hshort, hcountdown, List.nil_append]

/-- The prelude of either container starts the stream. -/
lemma Sent.prelude (h : Sent stream bytes chunks shown st) (hpending : st.preludePending = true)
    {prelude : List UInt8} (hbuild : clientStreamBuildPrelude st = (st', some prelude)) :
    Sent stream (bytes ++ prelude) chunks shown { st' with preludePending := false } := by
  obtain ⟨rfl, rfl, rfl, hmux⟩ := h.pending hpending
  unfold clientStreamBuildPrelude at hbuild
  cases hcontainer : st.container with
  | wav =>
    have hfits : ¬wavHeaderSize > streamBufferSize := by decide
    simp only [hcontainer, streamMuxWavBuildPrelude, if_neg hfits, Prod.mk.injEq,
      Option.some.injEq] at hbuild
    obtain ⟨rfl, rfl⟩ := hbuild
    have hshort : (wavWriteStreamHeader (UInt16.ofNat st.mode.channels) 48000 16).length
        < icyMetaint := by
      rw [wavWriteStreamHeader_length]
      decide
    refine ⟨h.mode, hcontainer.symm.trans h.container, ?_,
      fun hwaiting => absurd hwaiting Bool.false_ne_true,
      fun _ => ⟨_, Framed.prelude hshort st.icy, ?_⟩⟩
    · rw [← h.enabled]
      dsimp only
      split_ifs <;> rfl
    · rw [← h.container, hcontainer, ← h.mode]
      exact (List.append_nil _).symm
  | mpegts =>
    simp only [hcontainer] at hbuild
    obtain ⟨state', hspec⟩ := streamMuxMpegtsBuildPrelude_spec st.icy st.mpegtsMux
      (by decide : 2 * 188 ≤ streamBufferSize)
    have hafter := streamMuxMpegtsBuildPrelude_continues hspec
    rw [hspec] at hbuild
    simp only [Prod.mk.injEq, Option.some.injEq] at hbuild
    obtain ⟨rfl, rfl⟩ := hbuild
    have hlength := tablePackets_length st.mpegtsMux
    have hshort : ((tablePackets st.mpegtsMux).flatMap Packet.encode).length < icyMetaint := by
      rw [hlength]
      decide
    have hframed := Framed.prelude hshort st.icy
    rw [hlength] at hframed
    refine ⟨h.mode, hcontainer.symm.trans h.container, ?_,
      fun hwaiting => absurd hwaiting Bool.false_ne_true, fun _ => ⟨_, hframed, ?_⟩⟩
    · rw [← h.enabled]
      dsimp only
      split_ifs <;> rfl
    · rw [← h.container, hcontainer, hafter.2, hmux]
      exact Airs.start _

/-- A wrapped body goes on with the framing. -/
lemma Framed.wrap {icy icy' metadata : IcyMetadataState} {body packed next : List UInt8}
    {capacity : ℕ} (h : Framed bytes shown icy body) (henabled : icy.enabled = true)
    (hwell : metadata.WellFormed)
    (hwrap : icyMetadataWrap { icy with
        metadataBlock := metadata.metadataBlock
        metadataLength := metadata.metadataLength } next capacity = some (icy', some packed)) :
    icy'.enabled = true ∧
      Framed (bytes ++ packed) (shown ++ [metadata]) icy' (body ++ next) := by
  have hshowing : ({ icy with
      metadataBlock := metadata.metadataBlock
      metadataLength := metadata.metadataLength } : IcyMetadataState).enabled = true := henabled
  obtain ⟨state', result, hspec, -, hout⟩ :=
    icyMetadataWrap_spec hshowing hwell (h.countdown henabled) next capacity
  obtain ⟨rfl, rfl⟩ := Prod.mk.inj (Option.some.inj (hspec.symm.trans hwrap))
  obtain ⟨rfl, -, hrun⟩ := hout packed rfl
  obtain ⟨blocks, hreceived, hblocks⟩ := h.stripped henabled
  refine ⟨henabled, fun hplain => Bool.noConfusion (henabled.symm.trans hplain), ?_, ?_⟩
  · rw [List.length_append]
    exact fun _ => rfl
  · intro _
    refine ⟨_, by rw [Receiver.run_append, hreceived, hrun, List.length_append], ?_⟩
    intro block hblock
    rcases List.mem_append.mp hblock with hblock | hblock
    · obtain ⟨shownMetadata, hmem, rfl⟩ := hblocks block hblock
      exact ⟨shownMetadata, List.mem_append_left _ hmem, rfl⟩
    · obtain rfl := List.eq_of_mem_replicate hblock
      exact ⟨metadata, List.mem_append_right _ List.mem_cons_self, rfl⟩

/-- A body that is written goes on with the container. -/
lemma Contains.append {body : List UInt8}
    (h : Contains st.mode st.container body chunks st.mpegtsMux) {chunk : PcmChunk}
    {next : List UInt8}
    (hbody : clientStreamBody st chunk = some (st', some next)) :
    (∃ mpegtsMux, st' = { st with mpegtsMux }) ∧
      Contains st.mode st.container (body ++ next) (chunks ++ [chunk]) st'.mpegtsMux := by
  unfold clientStreamBody at hbody
  cases hcontainer : st.container with
  | mpegts =>
    rw [hcontainer] at hbody h
    simp only [Option.bind_eq_bind, Option.bind_eq_some_iff] at hbody
    obtain ⟨⟨mpegtsMux, written⟩, hwrite, hsome⟩ := hbody
    obtain ⟨rfl, rfl⟩ := Prod.mk.inj (Option.some.inj hsome)
    exact ⟨⟨mpegtsMux, rfl⟩, Airs.append h hwrite⟩
  | wav =>
    rw [hcontainer] at hbody h
    dsimp only at hbody
    split_ifs at hbody
    obtain ⟨rfl, hnext⟩ := Prod.mk.inj (Option.some.inj hbody)
    obtain rfl := Option.some.inj hnext
    refine ⟨⟨st.mpegtsMux, hcontainer ▸ rfl⟩, ?_⟩
    obtain rfl : body = _ := h
    show _ = _
    rw [streamMuxWavBodySize, Nat.mul_div_cancel _ (by decide : 0 < 2), List.flatMap_append,
      List.flatMap_append, List.append_assoc, List.flatMap_singleton, PcmChunk.audio,
      List.flatMap_map]

/-- The client under the metadata of the session. -/
def ClientStream.showing (stream : ClientStream) (metadata : IcyMetadataState) : ClientStream :=
  if stream.icy.enabled then
    { stream with
      icy :=
        { stream.icy with
          metadataBlock := metadata.metadataBlock
          metadataLength := metadata.metadataLength } }
  else stream

/-- A chunk is packed by writing its body, and wrapping it if the client asked for metadata. -/
lemma clientStreamPackChunk_some {chunk : PcmChunk} {metadata : IcyMetadataState}
    {packed : List UInt8}
    (h : clientStreamPackChunk st chunk metadata = some (st', some packed)) :
    ∃ written next, clientStreamBody (st.showing metadata) chunk = some (written, some next) ∧
      (written.icy.enabled = false → st' = written ∧ packed = next) ∧
      (written.icy.enabled = true → ∃ icy, st' = { written with icy } ∧
        icyMetadataWrap written.icy next streamBufferSize = some (icy, some packed)) := by
  unfold clientStreamPackChunk at h
  simp only [Option.bind_eq_bind, Option.bind_eq_some_iff] at h
  obtain ⟨⟨written, result⟩, hbody, hwrap⟩ := h
  cases result with
  | none => simp at hwrap
  | some next =>
    refine ⟨written, next, hbody, fun hplain => ?_, fun henabled => ?_⟩
    · simp only [hplain, Bool.not_false, if_true, Option.some.injEq, Prod.mk.injEq] at hwrap
      exact ⟨hwrap.1.symm, hwrap.2.symm⟩
    · simp only [henabled, Bool.not_true, Bool.false_eq_true, if_false] at hwrap
      split_ifs at hwrap
      obtain ⟨⟨icy, wrapped⟩, hresult, hsome⟩ := Option.bind_eq_some_iff.mp hwrap
      obtain ⟨rfl, rfl⟩ := Prod.mk.inj (Option.some.inj hsome)
      exact ⟨icy, rfl, hresult⟩

/-- A packed chunk goes on with the stream. -/
lemma Sent.chunk (h : Sent stream bytes chunks shown st) (hpending : st.preludePending = false)
    {chunk : PcmChunk} {metadata : IcyMetadataState} {packed : List UInt8}
    (hwell : st.icy.enabled = true → metadata.WellFormed)
    (hpack : clientStreamPackChunk st chunk metadata = some (st', some packed)) :
    Sent stream (bytes ++ packed) (chunks ++ [chunk]) (shown ++ [metadata]) st' := by
  obtain ⟨body, hframed, hcontains⟩ := h.sent hpending
  obtain ⟨written, next, hbody, hplain, hwrapped⟩ := clientStreamPackChunk_some hpack
  rw [← h.mode, ← h.container] at hcontains
  have hshowing : Contains (st.showing metadata).mode (st.showing metadata).container body chunks
      (st.showing metadata).mpegtsMux := by
    unfold ClientStream.showing
    split_ifs <;> exact hcontains
  obtain ⟨⟨mpegtsMux, rfl⟩, hnext⟩ := hshowing.append hbody
  unfold ClientStream.showing at hnext hplain hwrapped
  by_cases henabled : st.icy.enabled = true
  · rw [if_pos henabled] at hnext hwrapped
    obtain ⟨icy, rfl, hwrap⟩ := hwrapped henabled
    obtain ⟨hicy, hframed'⟩ := hframed.wrap henabled (hwell henabled) hwrap
    refine ⟨h.mode, h.container, (hicy.trans henabled.symm).trans h.enabled,
      fun hwaiting => Bool.noConfusion (hpending.symm.trans hwaiting),
      fun _ => ⟨body ++ next, hframed', ?_⟩⟩
    rw [← h.mode, ← h.container]
    exact hnext
  · rw [if_neg henabled] at hnext hplain
    obtain ⟨rfl, rfl⟩ := hplain (Bool.eq_false_iff.mpr henabled)
    refine ⟨h.mode, h.container, h.enabled,
      fun hwaiting => Bool.noConfusion (hpending.symm.trans hwaiting),
      fun _ => ⟨body ++ packed, ⟨?_, (absurd · henabled), (absurd · henabled)⟩, ?_⟩⟩
    · intro hdisabled
      rw [hframed.plain hdisabled]
    · rw [← h.mode, ← h.container]
      exact hnext

lemma Sends.sent (h : Sends stream bytes chunks shown st) (hpending : stream.preludePending = true)
    (hmux : stream.mpegtsMux = streamMuxMpegtsInit (UInt16.ofNat stream.mode.channels)) :
    Sent stream bytes chunks shown st := by
  induction h with
  | start =>
    exact ⟨rfl, rfl, rfl, fun _ => ⟨rfl, rfl, rfl, hmux⟩,
      fun hsent => Bool.noConfusion (hpending.symm.trans hsent)⟩
  | keeps _ hkeeps ih => exact ih.keeps hkeeps
  | prelude _ hwaiting hbuild ih => exact ih.prelude hwaiting hbuild
  | chunk _ hsent hwell hpack ih => exact ih.chunk hsent hwell hpack

/-- Behind its prelude a client's stream plays as its chunks, and the metadata blocks in between are
those under which the chunks were packed. -/
theorem Sends.plays (h : Sends stream bytes chunks shown st)
    (hpending : stream.preludePending = true)
    (hmux : stream.mpegtsMux = streamMuxMpegtsInit (UInt16.ofNat stream.mode.channels))
    (hsent : st.preludePending = false) :
    stream.container.play stream.mode.pcmFormat (icyStrip stream.icy.enabled bytes).1
        = some (chunks.flatMap (PcmChunk.audio stream.mode)) ∧
      ∀ block ∈ (icyStrip stream.icy.enabled bytes).2, ∃ metadata ∈ shown,
        block = metadata.block := by
  have hstate := h.sent hpending hmux
  obtain ⟨body, hframed, hcontains⟩ := hstate.sent hsent
  unfold icyStrip
  rw [← hstate.enabled]
  split_ifs with henabled
  · obtain ⟨blocks, hreceived, hblocks⟩ := hframed.stripped henabled
    rw [hreceived]
    exact ⟨hcontains.play, hblocks⟩
  · rw [hframed.plain (Bool.eq_false_iff.mpr henabled)]
    exact ⟨hcontains.play, fun block hblock => absurd hblock List.not_mem_nil⟩

/-- Before its prelude nothing is sent. -/
lemma Sends.nothing (h : Sends stream bytes chunks shown st)
    (hpending : stream.preludePending = true)
    (hmux : stream.mpegtsMux = streamMuxMpegtsInit (UInt16.ofNat stream.mode.channels))
    (hwaiting : st.preludePending = true) : bytes = [] ∧ chunks = [] :=
  have hnothing := (h.sent hpending hmux).pending hwaiting
  ⟨hnothing.1, hnothing.2.1⟩

end Mpxcast
