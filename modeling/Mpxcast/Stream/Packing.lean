import Mpxcast.Stream.Session

/-!
# Packing never fails

The prelude and every packed chunk fit into the buffer of a client stream, whatever its container
and wherever its metadata countdown stands.
-/

namespace Mpxcast

/-- The countdown of the client is that of a position in its body. -/
def ClientStream.Ready (stream : ClientStream) : Prop :=
  ∃ sent, stream.icy.audioBytesUntilMetadata = icyBytesUntilNextMetadata sent

/-- Two states of a client that differ in what only the packing reads. -/
structure ClientStream.Same (stream stream' : ClientStream) : Prop where
  nextChunk : stream'.nextChunk = stream.nextChunk
  sessionId : stream'.sessionId = stream.sessionId
  preludePending : stream'.preludePending = stream.preludePending
  droppedForLag : stream'.droppedForLag = stream.droppedForLag
  mode : stream'.mode = stream.mode
  container : stream'.container = stream.container
  icy_enabled : stream'.icy.enabled = stream.icy.enabled

/-- The prelude is built and fits. -/
lemma clientStreamBuildPrelude_same {stream : ClientStream} (h : stream.Ready) :
    ∃ stream' prelude, clientStreamBuildPrelude stream = (stream', some prelude) ∧
      prelude.length ≤ streamBufferSize ∧ stream.Same stream' ∧ stream'.Ready := by
  unfold clientStreamBuildPrelude
  cases hcontainer : stream.container with
  | wav =>
    have hfits : ¬wavHeaderSize > streamBufferSize := by decide
    simp only [streamMuxWavBuildPrelude, if_neg hfits]
    refine ⟨_, _, rfl, ?_, ⟨rfl, rfl, rfl, rfl, rfl, hcontainer ▸ rfl, ?_⟩, ?_⟩
    · rw [wavWriteStreamHeader_length]
      decide
    · dsimp only
      split_ifs <;> rfl
    · unfold ClientStream.Ready
      dsimp only
      split_ifs
      · exact ⟨wavHeaderSize, rfl⟩
      · exact h
  | mpegts =>
    obtain ⟨mpegtsMux, hbuild⟩ := streamMuxMpegtsBuildPrelude_spec stream.icy stream.mpegtsMux
      (by decide : 2 * 188 ≤ streamBufferSize)
    have hlen := tablePackets_length stream.mpegtsMux
    dsimp only
    rw [hbuild]
    refine ⟨_, _, rfl, ?_, ⟨rfl, rfl, rfl, rfl, rfl, hcontainer ▸ rfl, ?_⟩, ?_⟩
    · rw [hlen]
      decide
    · dsimp only
      split_ifs <;> rfl
    · unfold ClientStream.Ready
      dsimp only
      split_ifs
      · exact ⟨2 * 188, rfl⟩
      · exact h

/-- The body of a full chunk is small. -/
lemma clientStreamBody_spec (stream : ClientStream) {chunk : PcmChunk}
    (hframes : chunk.frameCount = streamSessionMaxAudioFramesPerChunk) :
    ∃ mpegtsMux body, clientStreamBody stream chunk = some ({ stream with mpegtsMux }, some body) ∧
      body.length ≤ streamSessionMaxBodyBytes := by
  unfold clientStreamBody
  split
  · obtain ⟨mpegtsMux, result, hwrite, hsome, hout⟩ := streamMuxMpegtsWriteAudio_spec
      stream.mpegtsMux chunk.samples chunk.frameCount streamBufferSize
    rw [hframes] at hsome hout
    obtain ⟨body, rfl⟩ := Option.isSome_iff_exists.mp (hsome.mpr (by decide))
    obtain ⟨hlength, -⟩ := hout body rfl
    refine ⟨mpegtsMux, body, ?_, ?_⟩
    · rw [hwrite]
      rfl
    · rw [hlength]
      decide
  · have hsize : streamMuxWavBodySize stream.mode.channels chunk.frameCount
        ≤ streamSessionMaxPcmBodyBytes := by
      rw [hframes]
      cases stream.mode <;> decide
    refine ⟨stream.mpegtsMux, _, if_pos hsize, ?_⟩
    have hsample (i : ℕ) : (sampleMemory (chunk.samples i)).length = 2 := rfl
    simp only [List.length_flatMap, hsample, List.map_const', List.length_range, List.sum_replicate]
    have hmax : streamSessionMaxPcmBodyBytes ≤ streamSessionMaxBodyBytes := by decide
    rw [smul_eq_mul]
    omega

/-- A full chunk is packed and fits. -/
theorem clientStreamPackChunk_spec {stream : ClientStream} (h : stream.Ready) {chunk : PcmChunk}
    (hframes : chunk.frameCount = streamSessionMaxAudioFramesPerChunk) {metadata : IcyMetadataState}
    (hmetadata : IcyReady metadata) (hwell : stream.icy.enabled = true → metadata.WellFormed) :
    ∃ stream' out, clientStreamPackChunk stream chunk metadata = some (stream', some out) ∧
      out.length ≤ streamBufferSize ∧ stream.Same stream' ∧ stream'.Ready := by
  obtain ⟨sent, hsent⟩ := h
  have hbound : streamSessionMaxBodyBytes ≤ streamBufferSize := by decide
  unfold clientStreamPackChunk
  cases henabled : stream.icy.enabled with
  | false =>
    obtain ⟨mpegtsMux, body, hbody, hlength⟩ := clientStreamBody_spec stream hframes
    refine ⟨{ stream with mpegtsMux }, body, ?_, hlength.trans hbound,
      ⟨rfl, rfl, rfl, rfl, rfl, rfl, rfl⟩, sent, hsent⟩
    simp only [henabled, Bool.false_eq_true, if_false, hbody, Option.bind_eq_bind, Option.bind_some,
      Bool.not_false, if_true]
  | true =>
    obtain ⟨icy, hicy⟩ : ∃ icy, icy = { stream.icy with
      metadataBlock := metadata.metadataBlock, metadataLength := metadata.metadataLength } :=
      ⟨_, rfl⟩
    obtain ⟨mpegtsMux, body, hbody, hlength⟩ := clientStreamBody_spec { stream with icy } hframes
    have hicyEnabled : icy.enabled = true := by rw [hicy]; exact henabled
    have hicyWell : icy.WellFormed := by rw [hicy]; exact hwell henabled
    have hicySent : icy.audioBytesUntilMetadata = icyBytesUntilNextMetadata sent := by
      rw [hicy]; exact hsent
    obtain ⟨icy', result, hwrap, hsome, hout⟩ :=
      icyMetadataWrap_spec hicyEnabled hicyWell hicySent body streamBufferSize
    have hmax : streamSessionMaxBodyBytes = 5264 := rfl
    have hblocks : blocksWithin sent body.length ≤ 1 := by
      unfold blocksWithin icyMetaint
      omega
    have hmetadataLength : icy.metadataLength ≤ 256 := by
      rw [hicy]
      exact (hwell henabled).length_le.trans hmetadata.block_length.le
    have hfits : body.length + blocksWithin sent body.length * icy.metadataLength
        ≤ streamBufferSize := by
      have hinserted := Nat.mul_le_mul hblocks hmetadataLength
      unfold streamBufferSize
      omega
    obtain ⟨out, rfl⟩ := Option.isSome_iff_exists.mp (hsome.mpr hfits)
    obtain ⟨hicy', hlength', -⟩ := hout out rfl
    refine ⟨{ stream with mpegtsMux, icy := icy' }, out, ?_, hlength' ▸ hfits,
      ⟨rfl, rfl, rfl, rfl, rfl, rfl, ?_⟩, sent + body.length, ?_⟩
    · have hcopy : ¬(stream.container = .mpegts ∧ body.length > streamSessionMaxBodyBytes) :=
        fun hlong => not_lt.mpr hlength hlong.2
      rw [if_pos rfl, ← hicy]
      dsimp only
      rw [hbody]
      simp only [Option.bind_eq_bind, Option.bind_some, hicyEnabled, Bool.not_true,
        Bool.false_eq_true, if_false, if_neg hcopy, hwrap]
      rfl
    · show icy'.enabled = _
      rw [hicy', henabled]
      exact hicyEnabled
    · show icy'.audioBytesUntilMetadata = _
      rw [hicy']

end Mpxcast
