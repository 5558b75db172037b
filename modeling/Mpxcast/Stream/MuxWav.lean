import Mpxcast.Stream.Icy

/-!
# The WAV muxer

`audio/wav.c` and `stream/mux_wav.c`: the header of an endless WAV stream and the size of a body.
The samples themselves are sent as they lie in memory.
-/

namespace Mpxcast

open CMemory

def wavHeaderSize : ℕ := 44

/-- `write_u16le`. -/
def writeU16le (value : UInt16) : List UInt8 :=
  [(value &&& 0xff).toUInt8, ((value >>> 8) &&& 0xff).toUInt8]

/-- `write_u32le`. -/
def writeU32le (value : UInt32) : List UInt8 :=
  [(value &&& 0xff).toUInt8, ((value >>> 8) &&& 0xff).toUInt8, ((value >>> 16) &&& 0xff).toUInt8,
    ((value >>> 24) &&& 0xff).toUInt8]

/-- The 44 bytes of the header: `RIFF`, `WAVE`, the format chunk and the start of the data chunk,
both sizes left at 0. -/
def wavWriteStreamHeader (channels : UInt16) (sampleRate : UInt32) (bitsPerSample : UInt16) :
    List UInt8 :=
  let blockAlign : UInt16 := channels * (bitsPerSample / 8)
  let byteRate : UInt32 := sampleRate * blockAlign.toUInt32
  [0x52, 0x49, 0x46, 0x46] ++ writeU32le 0 ++ [0x57, 0x41, 0x56, 0x45]
    ++ [0x66, 0x6d, 0x74, 0x20] ++ writeU32le 16 ++ writeU16le 1 ++ writeU16le channels
    ++ writeU32le sampleRate ++ writeU32le byteRate ++ writeU16le blockAlign
    ++ writeU16le bitsPerSample
    ++ [0x64, 0x61, 0x74, 0x61] ++ writeU32le 0

@[simp] lemma wavWriteStreamHeader_length (channels : UInt16) (sampleRate : UInt32)
    (bitsPerSample : UInt16) :
    (wavWriteStreamHeader channels sampleRate bitsPerSample).length = wavHeaderSize := rfl

/-- Writes the header into a buffer of the given capacity and sets the metadata countdown. -/
def streamMuxWavBuildPrelude (channels : UInt16) (icy : IcyMetadataState) (capacity : ℕ) :
    IcyMetadataState × Option (List UInt8) :=
  if wavHeaderSize > capacity then (icy, none)
  else
    (if icy.enabled then
        { icy with audioBytesUntilMetadata := icyBytesUntilNextMetadata wavHeaderSize }
      else icy,
      some (wavWriteStreamHeader channels 48000 16))

def streamMuxWavBodySize (channels : ℕ) (frameCount : ℕ) : ℕ := frameCount * channels * 2

/-- A sample as it lies in memory. -/
def sampleMemory (sample : Int16) : List UInt8 := writeU16le sample.toUInt16

end Mpxcast
