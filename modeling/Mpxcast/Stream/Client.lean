import Mpxcast.Core.LinkedHeap
import Mpxcast.Stream.Http
import Mpxcast.Stream.MuxMpegts
import Mpxcast.Stream.MuxWav

/-!
# Client streams

`struct client_stream` of `stream/server.c` with the two functions that fill its buffer: the
prelude, and the packing of a PCM chunk.
-/

namespace Mpxcast

open CMemory

def streamBufferSize : ℕ := 32768

/-- `STREAM_SESSION_MAX_AUDIO_FRAMES_PER_CHUNK`. -/
def streamSessionMaxAudioFramesPerChunk : ℕ := 1024

/-- `STREAM_SESSION_MAX_PCM_BODY_BYTES`, the size of the sample array of a chunk. -/
def streamSessionMaxPcmBodyBytes : ℕ := streamSessionMaxAudioFramesPerChunk * 2 * 2

/-- `STREAM_SESSION_MAX_BODY_BYTES`. -/
def streamSessionMaxBodyBytes : ℕ :=
  if streamMuxMpegtsMaxAudioBytes > streamSessionMaxPcmBodyBytes then streamMuxMpegtsMaxAudioBytes
  else streamSessionMaxPcmBodyBytes

/-- The payload of a `struct stream_chunk`; its `next` field is the link of a heap node. -/
structure PcmChunk where
  frameCount : ℕ
  samples : ℕ → Int16

structure ClientStream where
  nextChunk : Option LinkedHeap.Ptr
  mpegtsMux : StreamMuxMpegtsState
  icy : IcyMetadataState
  sessionId : ℕ
  preludePending : Bool
  droppedForLag : Bool
  mode : StreamMode
  container : StreamContainer

/-- The prelude in the client's buffer; `none` stands for the return value -1. -/
def clientStreamBuildPrelude (stream : ClientStream) : ClientStream × Option (List UInt8) :=
  match stream.container with
  | .mpegts =>
    let (icy, mpegtsMux, prelude) :=
      streamMuxMpegtsBuildPrelude stream.icy stream.mpegtsMux streamBufferSize
    ({ stream with icy, mpegtsMux }, prelude)
  | .wav =>
    let (icy, prelude) :=
      streamMuxWavBuildPrelude (UInt16.ofNat stream.mode.channels) stream.icy streamBufferSize
    ({ stream with icy }, prelude)

/-- The body of a packed chunk: transport packets, or the samples as they lie in memory. Reading
past the sample array is undefined. -/
def clientStreamBody (stream : ClientStream) (chunk : PcmChunk) :
    Option (ClientStream × Option (List UInt8)) :=
  match stream.container with
  | .mpegts => do
    let (mpegtsMux, body) ← streamMuxMpegtsWriteAudio stream.mpegtsMux chunk.samples
      chunk.frameCount
      streamBufferSize
    return ({ stream with mpegtsMux }, body)
  | .wav =>
    let bodyLength := streamMuxWavBodySize stream.mode.channels chunk.frameCount
    if bodyLength ≤ streamSessionMaxPcmBodyBytes then
      some (stream, some ((List.range (bodyLength / 2)).flatMap fun i =>
        sampleMemory (chunk.samples i)))
    else none

/-- Packs a chunk into the client's buffer, under the metadata of the session; `none` inside stands
for the return value -1. Transport packets are wrapped from a copy of limited size. -/
def clientStreamPackChunk (stream : ClientStream) (chunk : PcmChunk) (metadata : IcyMetadataState) :
    Option (ClientStream × Option (List UInt8)) := do
  let stream :=
    if stream.icy.enabled then
      { stream with
        icy :=
          { stream.icy with
            metadataBlock := metadata.metadataBlock
            metadataLength := metadata.metadataLength } }
    else stream
  let (stream, body) ← clientStreamBody stream chunk
  match body with
  | none => some (stream, none)
  | some body =>
    if !stream.icy.enabled then some (stream, some body)
    else if stream.container = .mpegts ∧ body.length > streamSessionMaxBodyBytes then none
    else do
      let (icy, wrapped) ← icyMetadataWrap stream.icy body streamBufferSize
      return ({ stream with icy }, wrapped)

end Mpxcast
