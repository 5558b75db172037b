import Mpxcast.Core.TransportStream
import Mpxcast.Stream.Icy

/-!
# The MPEG-TS muxer

`stream/mux_mpegts.c`: the PAT and PMT packets, the PES packet that holds one chunk of LPCM audio,
and its split into transport packets. Memory that a caller hands over is a function (`samples`) or
the list of the bytes written so far (`buffer`).
-/

namespace Mpxcast

open CMemory

def streamMuxMpegtsPacketSize : ℕ := 188

def streamMuxMpegtsMaxPesBytes : ℕ := 4608

/-- `STREAM_MUX_MPEGTS_FIRST_PAYLOAD_BYTES`: header, length byte, flags and clock leave this much.
-/
def streamMuxMpegtsFirstPayloadBytes : ℕ := streamMuxMpegtsPacketSize - 4 - 1 - 7

def streamMuxMpegtsContinuationPayloadBytes : ℕ := streamMuxMpegtsPacketSize - 4

def streamMuxMpegtsMaxAudioPacketCount : ℕ :=
  1 + if streamMuxMpegtsMaxPesBytes > streamMuxMpegtsFirstPayloadBytes then
      (streamMuxMpegtsMaxPesBytes - streamMuxMpegtsFirstPayloadBytes
        + streamMuxMpegtsContinuationPayloadBytes - 1) / streamMuxMpegtsContinuationPayloadBytes
    else 0

def streamMuxMpegtsMaxAudioBytes : ℕ :=
  (2 + streamMuxMpegtsMaxAudioPacketCount) * streamMuxMpegtsPacketSize

def streamMuxMpegtsPmtPid : UInt16 := 0x0100

def streamMuxMpegtsAudioPid : UInt16 := 0x1100

structure StreamMuxMpegtsState where
  patContinuityCounter : UInt8
  pmtContinuityCounter : UInt8
  audioContinuityCounter : UInt8
  lpcmHeader : UInt16
  channels : UInt16
  pts90khz : UInt64
  ptsNumeratorRemainder : UInt32
deriving DecidableEq, Repr

/-! ### Program tables -/

/-- One round of the inner loop of `stream_mux_mpegts_crc32`. -/
def streamMuxMpegtsCrc32Bit (crc : UInt32) : UInt32 :=
  if crc &&& 0x80000000 ≠ 0 then (crc <<< 1) ^^^ 0x04c11db7 else crc <<< 1

def streamMuxMpegtsCrc32Byte (crc : UInt32) (byte : UInt8) : UInt32 :=
  let crc : UInt32 := crc ^^^ (byte.toUInt32 <<< (24 : UInt32))
  streamMuxMpegtsCrc32Bit^[8] crc

def streamMuxMpegtsCrc32 (data : List UInt8) : UInt32 :=
  data.foldl streamMuxMpegtsCrc32Byte 0xffffffff

/-- The four bytes of a checksum as it is appended to a section. -/
def streamMuxMpegtsCrcBytes (crc : UInt32) : List UInt8 :=
  [(crc >>> 24).toUInt8, (crc >>> 16).toUInt8, (crc >>> 8).toUInt8, crc.toUInt8]

def streamMuxMpegtsWriteTsHeader (packet : List UInt8) (payloadUnitStart : Bool) (pid : UInt16)
    (adaptationFieldControl continuityCounter : UInt8) : List UInt8 :=
  memcpy packet 0
    [0x47,
      (if payloadUnitStart then 0x40 else 0x00 : UInt8) ||| ((pid >>> 8) &&& 0x1f).toUInt8,
      (pid &&& 0xff).toUInt8,
      ((adaptationFieldControl &&& 0x03) <<< 4) ||| (continuityCounter &&& 0x0f)]

/-- `memset(packet, 0xff, STREAM_MUX_MPEGTS_PACKET_SIZE)`. -/
def blankPacket : List UInt8 := List.replicate streamMuxMpegtsPacketSize 0xff

/-- The program association section: program 1 is described on the PMT's PID. -/
def patSection : List UInt8 :=
  let fields : List UInt8 :=
    [0x00, 0xb0, 0x0d, 0x00, 0x01, 0xc1, 0x00, 0x00, 0x00, 0x01,
      (0xe0 : UInt8) ||| ((streamMuxMpegtsPmtPid >>> 8) &&& 0x1f).toUInt8,
      (streamMuxMpegtsPmtPid &&& 0xff).toUInt8]
  fields ++ streamMuxMpegtsCrcBytes (streamMuxMpegtsCrc32 fields)

def streamMuxMpegtsWritePatPacket (state : StreamMuxMpegtsState) :
    StreamMuxMpegtsState × List UInt8 :=
  let packet := streamMuxMpegtsWriteTsHeader blankPacket true 0x0000 1 state.patContinuityCounter
  let packet := packet.set 4 0x00
  ({ state with patContinuityCounter := (state.patContinuityCounter + 1) &&& 0x0f },
    memcpy packet 5 patSection)

def programDescriptors : List UInt8 :=
  [0x05, 0x04, 0x48, 0x44, 0x4d, 0x56, 0x88, 0x04, 0x0f, 0xff, 0xfc, 0xfc]

/-- The program map section: one LPCM stream on the audio PID. -/
def pmtSection : List UInt8 :=
  let audioPid : List UInt8 :=
    [(0xe0 : UInt8) ||| ((streamMuxMpegtsAudioPid >>> 8) &&& 0x1f).toUInt8,
      (streamMuxMpegtsAudioPid &&& 0xff).toUInt8]
  let fields : List UInt8 :=
    [0x02, 0xb0, 0x1e, 0x00, 0x01, 0xc1, 0x00, 0x00] ++ audioPid
      ++ [0xf0, UInt8.ofNat programDescriptors.length] ++ programDescriptors
      ++ [0x80] ++ audioPid ++ [0xf0, 0x00]
  fields ++ streamMuxMpegtsCrcBytes (streamMuxMpegtsCrc32 fields)

def streamMuxMpegtsWritePmtPacket (state : StreamMuxMpegtsState) :
    StreamMuxMpegtsState × List UInt8 :=
  let packet := streamMuxMpegtsWriteTsHeader blankPacket true streamMuxMpegtsPmtPid 1
    state.pmtContinuityCounter
  let packet := packet.set 4 0x00
  ({ state with pmtContinuityCounter := (state.pmtContinuityCounter + 1) &&& 0x0f },
    memcpy packet 5 pmtSection)

/-! ### Clocks and the PES packet -/

/-- The five bytes `stream_mux_mpegts_write_pts` writes. -/
def streamMuxMpegtsWritePts (pts90khz : UInt64) : List UInt8 :=
  let pts := pts90khz &&& (((1 : UInt64) <<< (33 : UInt64)) - 1)
  [((0x21 : UInt64) ||| (((pts >>> 30) &&& 0x07) <<< 1)).toUInt8,
    (pts >>> 22).toUInt8,
    ((((pts >>> 15) &&& 0x7f) <<< 1) ||| 0x01).toUInt8,
    (pts >>> 7).toUInt8,
    (((pts &&& 0x7f) <<< 1) ||| 0x01).toUInt8]

/-- The six bytes `stream_mux_mpegts_write_pcr` writes. -/
def streamMuxMpegtsWritePcr (pcr27mhz : UInt64) : List UInt8 :=
  let base := pcr27mhz / 300
  let extension := (pcr27mhz % 300).toUInt16
  [(base >>> 25).toUInt8,
    (base >>> 17).toUInt8,
    (base >>> 9).toUInt8,
    (base >>> 1).toUInt8,
    (((base &&& 0x01) <<< 7) ||| 0x7e).toUInt8 ||| (extension >>> 8).toUInt8,
    (extension &&& 0xff).toUInt8]

/-- The audio bytes of a PES packet; a mono sample is followed by a zero sample. -/
def pesAudioBytes (state : StreamMuxMpegtsState) (samples : ℕ → Int16) (frameCount : ℕ) :
    List UInt8 :=
  if state.channels = 2 then
    (List.range (frameCount * 2)).flatMap fun i =>
      [((samples i).toUInt16 >>> 8).toUInt8, ((samples i).toUInt16 &&& 0xff).toUInt8]
  else
    (List.range frameCount).flatMap fun i =>
      [((samples i).toUInt16 >>> 8).toUInt8, ((samples i).toUInt16 &&& 0xff).toUInt8, 0x00, 0x00]

/-- The bytes of the PES packet; `none` when they do not fit the given capacity. -/
def streamMuxMpegtsBuildPes (state : StreamMuxMpegtsState) (samples : ℕ → Int16) (frameCount : ℕ)
    (capacity : ℕ) : Option (List UInt8) :=
  let lpcmPayloadBytes := 4 + frameCount * 4
  let pesLength := 14 + lpcmPayloadBytes
  let pesPacketLength := UInt16.ofNat (lpcmPayloadBytes + 8)
  if pesLength > capacity then none
  else
    some (([0x00, 0x00, 0x01, 0xbd, (pesPacketLength >>> 8).toUInt8,
      (pesPacketLength &&& 0xff).toUInt8,
        0x80, 0x80, 0x05] : List UInt8)
      ++ streamMuxMpegtsWritePts state.pts90khz
      ++ [UInt8.ofNat ((lpcmPayloadBytes - 4) >>> 8), UInt8.ofNat ((lpcmPayloadBytes - 4) &&& 0xff),
        (state.lpcmHeader >>> 8).toUInt8, (state.lpcmHeader &&& 0xff).toUInt8]
      ++ pesAudioBytes state samples frameCount)

def streamMuxMpegtsAdvancePts (state : StreamMuxMpegtsState) (frameCount : ℕ) :
    StreamMuxMpegtsState :=
  let numerator := UInt64.ofNat frameCount * 90000 + state.ptsNumeratorRemainder.toUInt64
  { state with
    pts90khz := state.pts90khz + numerator / 48000
    ptsNumeratorRemainder := (numerator % 48000).toUInt32 }

def streamMuxMpegtsInit (channels : UInt16) : StreamMuxMpegtsState where
  patContinuityCounter := 0
  pmtContinuityCounter := 0
  audioContinuityCounter := 0
  lpcmHeader :=
    UInt16.ofNat (((((if channels = 2 then 3 else 1) <<< 4) ||| 1) <<< 8) ||| (1 <<< 6))
  channels := channels
  pts90khz := 0
  ptsNumeratorRemainder := 0

/-- The PAT and the PMT, written into a buffer of the given capacity; sets the metadata countdown.
-/
def streamMuxMpegtsBuildPrelude (icy : IcyMetadataState) (state : StreamMuxMpegtsState)
    (capacity : ℕ) : IcyMetadataState × StreamMuxMpegtsState × Option (List UInt8) :=
  if 2 * streamMuxMpegtsPacketSize > capacity then (icy, state, none)
  else
    let (state, pat) := streamMuxMpegtsWritePatPacket state
    let (state, pmt) := streamMuxMpegtsWritePmtPacket state
    (if icy.enabled then
        { icy with
          audioBytesUntilMetadata := icyBytesUntilNextMetadata (2 * streamMuxMpegtsPacketSize) }
      else icy,
      state, some (pat ++ pmt))

/-! ### Audio packets -/

/-- The packet of the first round of the loop, with the length of the payload area it leaves. -/
def firstAudioPacket (state : StreamMuxMpegtsState) (remaining : ℕ) : List UInt8 × ℕ :=
  let payloadCapacity := streamMuxMpegtsPacketSize - 4 - 1 - 7
  let (adaptationLength, payloadCapacity) :=
    if remaining < payloadCapacity then (7 + (payloadCapacity - remaining), remaining)
    else (7, payloadCapacity)
  let packet := streamMuxMpegtsWriteTsHeader blankPacket true streamMuxMpegtsAudioPid 3
    state.audioContinuityCounter
  let packet := packet.set 4 (UInt8.ofNat adaptationLength)
  let packet := packet.set 5 0x50
  let packet := memcpy packet 6 (streamMuxMpegtsWritePcr (state.pts90khz * 300))
  let packet :=
    if adaptationLength > 7 then memset packet 12 0xff (adaptationLength - 7) else packet
  (packet, payloadCapacity)

/-- The packet of a later round: a full one, or the last one with stuffing. -/
def nextAudioPacket (state : StreamMuxMpegtsState) (remaining : ℕ) : List UInt8 × ℕ :=
  if remaining < streamMuxMpegtsPacketSize - 4 then
    let adaptationTotal := streamMuxMpegtsPacketSize - 4 - remaining
    let packet := streamMuxMpegtsWriteTsHeader blankPacket false streamMuxMpegtsAudioPid 3
      state.audioContinuityCounter
    let packet := packet.set 4 (UInt8.ofNat (adaptationTotal - 1))
    let packet :=
      if adaptationTotal > 1 then
        let packet := packet.set 5 0x00
        if adaptationTotal > 2 then memset packet 6 0xff (adaptationTotal - 2) else packet
      else packet
    (packet, remaining)
  else
    (streamMuxMpegtsWriteTsHeader blankPacket false streamMuxMpegtsAudioPid 1
      state.audioContinuityCounter, streamMuxMpegtsPacketSize - 4)

/-- The variables of the loop of `stream_mux_mpegts_write_audio`; `buffer` is what has been written,
and `failed` records its early return. -/
structure AudioCursor where
  state : StreamMuxMpegtsState
  buffer : List UInt8
  pesOffset : ℕ
  firstPacket : Bool
  failed : Bool

def AudioCursor.more (pes : List UInt8) (c : AudioCursor) : Bool :=
  !c.failed && decide (c.pesOffset < pes.length)

/-- One round of the loop. -/
def AudioCursor.round (pes : List UInt8) (capacity : ℕ) (c : AudioCursor) : AudioCursor :=
  let remaining := pes.length - c.pesOffset
  if c.buffer.length + streamMuxMpegtsPacketSize > capacity then { c with failed := true }
  else
    let (packet, payloadCapacity) :=
      if c.firstPacket then firstAudioPacket c.state remaining
      else nextAudioPacket c.state remaining
    let payloadSize := if remaining < payloadCapacity then remaining else payloadCapacity
    { state :=
        { c.state with
          audioContinuityCounter := (c.state.audioContinuityCounter + 1) &&& 0x0f }
      buffer := c.buffer ++
        memcpy packet (streamMuxMpegtsPacketSize - payloadCapacity)
          ((pes.drop c.pesOffset).take payloadSize)
      pesOffset := c.pesOffset + payloadSize
      firstPacket := false
      failed := false }

/-- Returns the state with the bytes written, or with `none` for the return value -1. Every round of
the loop advances in the PES packet, so its length is fuel enough. -/
def streamMuxMpegtsWriteAudio (state : StreamMuxMpegtsState) (samples : ℕ → Int16)
    (frameCount capacity : ℕ) : Option (StreamMuxMpegtsState × Option (List UInt8)) :=
  if capacity < 2 * streamMuxMpegtsPacketSize then some (state, none)
  else
    let (state, pat) := streamMuxMpegtsWritePatPacket state
    let (state, pmt) := streamMuxMpegtsWritePmtPacket state
    match streamMuxMpegtsBuildPes state samples frameCount streamMuxMpegtsMaxPesBytes with
    | none => some (state, none)
    | some pes => do
      let c ← Loop.run (AudioCursor.more pes) (some ∘ AudioCursor.round pes capacity)
        (pes.length + 1)
        { state, buffer := pat ++ pmt, pesOffset := 0, firstPacket := true, failed := false }
      if c.failed then some (c.state, none)
      else some (streamMuxMpegtsAdvancePts c.state frameCount, some c.buffer)

end Mpxcast
