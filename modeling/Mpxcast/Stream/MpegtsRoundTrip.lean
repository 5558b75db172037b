import Mpxcast.Stream.MuxMpegts

/-!
# MPEG-TS packetisation round trip

Every packet the muxer writes is the encoding of a transport packet, so a demultiplexer reads the
output of `stream_mux_mpegts_write_audio` back: one PAT, one PMT and the audio packets, whose
payloads are the PES packet cut at packet boundaries.
-/

namespace Mpxcast

open CMemory TransportStream

/-! ### The packets that are written -/

/-- The control byte holds the adaptation bits above the continuity counter. -/
lemma controlByte_eq {control : ℕ} (hcontrol : control < 4) (counter : UInt8) :
    ((UInt8.ofNat control &&& 0x03) <<< 4) ||| (counter &&& 0x0f)
      = UInt8.ofNat (16 * control + counter.toNat % 16) := by
  have hcounter : counter.toNat &&& 15 = counter.toNat % 2 ^ 4 := Nat.and_two_pow_sub_one_eq_mod _ 4
  have hor := Nat.two_pow_add_eq_or_of_lt (Nat.mod_lt counter.toNat (by decide : 0 < 2 ^ 4)) control
  apply UInt8.toNat_inj.mp
  simp only [UInt8.toNat_or, UInt8.toNat_shiftLeft, UInt8.toNat_and, UInt8.toNat_ofNat',
    UInt8.reduceToNat, Nat.reduceMod, hcounter, Nat.reducePow] at hor ⊢
  interval_cases control <;> simp at hor ⊢ <;> omega

/-- The second header byte holds the start flag above the upper bits of the PID. -/
lemma pidByte_eq (start : Bool) {pid : UInt16} (hpid : pid.toNat < 8192) :
    (if start then 0x40 else 0x00 : UInt8) ||| ((pid >>> 8) &&& 0x1f).toUInt8
      = UInt8.ofNat ((if start then 64 else 0) + pid.toNat / 256) := by
  have hmask (n : ℕ) : n &&& 31 = n % 32 := Nat.and_two_pow_sub_one_eq_mod n 5
  have hhigh : pid.toNat / 256 % 256 % 32 = pid.toNat / 256 := by omega
  have hor := Nat.two_pow_add_eq_or_of_lt (by omega : pid.toNat / 256 < 2 ^ 6) 1
  apply UInt8.toNat_inj.mp
  cases start <;>
    simp [Nat.shiftRight_eq_div_pow, hmask, hhigh] at hor ⊢ <;> omega

lemma writeTsHeader_blankPacket (start : Bool) {pid : UInt16} (hpid : pid.toNat < 8192)
    {control : ℕ} (hcontrol : control < 4) (counter : UInt8) :
    streamMuxMpegtsWriteTsHeader blankPacket start pid (UInt8.ofNat control) counter
      = Packet.header start pid.toNat control (counter.toNat % 16) ++ List.replicate 184 0xff := by
  have hlow : (pid &&& 0xff).toUInt8 = UInt8.ofNat (pid.toNat % 256) := by
    have hmask (n : ℕ) : n &&& 255 = n % 256 := Nat.and_two_pow_sub_one_eq_mod n 8
    apply UInt8.toNat_inj.mp
    simp [hmask]
  rw [streamMuxMpegtsWriteTsHeader, pidByte_eq start hpid, hlow, controlByte_eq hcontrol]
  simp [blankPacket, streamMuxMpegtsPacketSize, Packet.header, syncByte]

/-- The packet of a section: pointer field, section, stuffing. -/
def sectionPacket (pid counter : ℕ) (sec : List UInt8) : Packet where
  unitStart := true
  pid := pid
  counter := counter
  adaptation := none
  payload := some (0x00 :: sec ++ List.replicate (183 - sec.length) 0xff)

lemma sectionPacket_fits {pid counter : ℕ} (hpid : pid < 8192) (hcounter : counter < 16)
    {sec : List UInt8} (hsec : sec.length ≤ 183) : (sectionPacket pid counter sec).Fits := by
  refine ⟨hpid, hcounter, by simp [Packet.control, sectionPacket], ?_⟩
  simp [Packet.body, Packet.data, sectionPacket, packetSize]
  omega

/-- Header, pointer field and section written over a blank packet. -/
lemma sectionPacket_encode {pid : UInt16} (hpid : pid.toNat < 8192) (counter : UInt8)
    (sec : List UInt8) :
    memcpy ((streamMuxMpegtsWriteTsHeader blankPacket true pid 1 counter).set 4 0x00) 5 sec
      = (sectionPacket pid.toNat (counter.toNat % 16) sec).encode := by
  have hheader := writeTsHeader_blankPacket true hpid (by decide : 1 < 4) counter
  rw [show UInt8.ofNat 1 = 1 from rfl] at hheader
  rw [hheader]
  simp [-List.reduceReplicate, Packet.header, Packet.encode, Packet.body, Packet.data,
    Packet.control, sectionPacket]

/-- The audio packet that starts a unit. -/
def startPacket (state : StreamMuxMpegtsState) (data : List UInt8) : Packet where
  unitStart := true
  pid := 0x1100
  counter := state.audioContinuityCounter.toNat % 16
  adaptation := some
    (0x50 :: streamMuxMpegtsWritePcr (state.pts90khz * 300) ++
      List.replicate (176 - data.length) 0xff)
  payload := some data

lemma startPacket_fits (state : StreamMuxMpegtsState) {data : List UInt8}
    (hdata : data.length ≤ 176) :
    (startPacket state data).Fits := by
  refine ⟨by simp [startPacket], Nat.mod_lt _ (by decide), by simp [Packet.control, startPacket],
    ?_⟩
  simp [Packet.body, Packet.data, startPacket, packetSize, streamMuxMpegtsWritePcr]
  omega

lemma startPacket_stuffing (state : StreamMuxMpegtsState) (data : List UInt8) :
    (startPacket state data).stuffing = List.replicate (176 - data.length) 0xff := by
  simp [Packet.stuffing, startPacket, stuffing, streamMuxMpegtsWritePcr, Nat.testBit]

/-- The first packet before its payload is copied in, when that payload has `n` bytes. -/
lemma firstAudioPacket_eq (state : StreamMuxMpegtsState) {remaining n : ℕ}
    (hn : n = min remaining 176) :
    firstAudioPacket state remaining =
      (let packet := streamMuxMpegtsWriteTsHeader blankPacket true streamMuxMpegtsAudioPid 3
          state.audioContinuityCounter
        let packet := packet.set 4 (UInt8.ofNat (7 + (176 - n)))
        let packet := packet.set 5 0x50
        let packet := memcpy packet 6 (streamMuxMpegtsWritePcr (state.pts90khz * 300))
        memset packet 12 0xff (176 - n), n) := by
  have hpair : (if remaining < 176 then (7 + (176 - remaining), remaining) else (7, 176))
      = (7 + (176 - n), n) := by
    split_ifs with h
    · rw [hn, Nat.min_eq_left h.le]
    · rw [hn, Nat.min_eq_right (Nat.le_of_not_lt h)]
  unfold firstAudioPacket streamMuxMpegtsPacketSize
  dsimp only [Nat.reduceSub]
  rw [hpair]
  dsimp only
  split_ifs with h
  · rw [Nat.add_sub_cancel_left]
  · simp [memset, memcpy, show 176 - n = 0 by omega]

/-- The first round leaves room for at most 176 bytes and writes a packet that starts a unit. -/
lemma startPacket_encode (state : StreamMuxMpegtsState) {remaining : ℕ} {data : List UInt8}
    (hdata : data.length = min remaining 176) :
    (firstAudioPacket state remaining).2 = data.length ∧
      memcpy (firstAudioPacket state remaining).1 (188 - data.length) data
        = (startPacket state data).encode := by
  have hheader := writeTsHeader_blankPacket true (by decide : streamMuxMpegtsAudioPid.toNat < 8192)
    (by decide : 3 < 4) state.audioContinuityCounter
  have hle : data.length ≤ 176 := hdata ▸ Nat.min_le_right _ _
  have hencode : (startPacket state data).encode
      = Packet.header true streamMuxMpegtsAudioPid.toNat 3 (state.audioContinuityCounter.toNat % 16)
        ++ UInt8.ofNat (7 + (176 - data.length)) :: 0x50 ::
          streamMuxMpegtsWritePcr (state.pts90khz * 300)
        ++ List.replicate (176 - data.length) 0xff ++ data := by
    have hfield : (0x50 :: streamMuxMpegtsWritePcr (state.pts90khz * 300)
        ++ List.replicate (176 - data.length) 0xff).length = 7 + (176 - data.length) := by
      simp [streamMuxMpegtsWritePcr]
      omega
    simp only [Packet.encode, Packet.body, startPacket, hfield]
    simp [Packet.data, Packet.control, streamMuxMpegtsAudioPid]
  rw [firstAudioPacket_eq state hdata, hencode]
  refine ⟨rfl, ?_⟩
  rw [show (3 : UInt8) = UInt8.ofNat 3 from rfl, hheader]
  obtain ⟨h₀, h₁, h₂, h₃, hhdr⟩ : ∃ h₀ h₁ h₂ h₃, Packet.header true streamMuxMpegtsAudioPid.toNat 3
    (state.audioContinuityCounter.toNat % 16) = [h₀, h₁, h₂, h₃] := ⟨_, _, _, _, rfl⟩
  obtain ⟨p₀, p₁, p₂, p₃, p₄, p₅, hpcr⟩ : ∃ p₀ p₁ p₂ p₃ p₄ p₅,
    streamMuxMpegtsWritePcr (state.pts90khz * 300) = [p₀, p₁, p₂, p₃, p₄, p₅] :=
    ⟨_, _, _, _, _, _, rfl⟩
  rw [hhdr, hpcr]
  -- twelve bytes are in place; the rest is fill, stuffing and payload
  have hfill := memcpy_replicate_end [h₀, h₁, h₂, h₃, UInt8.ofNat (7 + (176 - data.length)), 0x50,
    p₀, p₁, p₂, p₃, p₄, p₅] (188 - data.length) 0xff hle (by simp; omega)
  simpa [-List.reduceReplicate, memset] using hfill

/-- A later audio packet; it is stuffed when it is not full. -/
def nextPacket (state : StreamMuxMpegtsState) (data : List UInt8) : Packet where
  unitStart := false
  pid := 0x1100
  counter := state.audioContinuityCounter.toNat % 16
  adaptation :=
    if data.length = 184 then none
    else if data.length = 183 then some []
    else some (0x00 :: List.replicate (182 - data.length) 0xff)
  payload := some data

lemma nextPacket_fits (state : StreamMuxMpegtsState) {data : List UInt8}
    (hdata : data.length ≤ 184) :
    (nextPacket state data).Fits := by
  refine ⟨by simp [nextPacket], Nat.mod_lt _ (by decide), by simp [Packet.control, nextPacket], ?_⟩
  simp only [Packet.body, Packet.data, nextPacket, packetSize]
  split_ifs with hfull hfit
  · simp [hfull]
  · simp [hfit]
  · simp
    omega

lemma nextPacket_stuffing (state : StreamMuxMpegtsState) (data : List UInt8) :
    (nextPacket state data).stuffing = List.replicate (182 - data.length) 0xff := by
  simp only [Packet.stuffing, nextPacket]
  split_ifs with hfull hfit
  · simp [hfull, stuffing]
  · simp [hfit, stuffing]
  · simp [stuffing]

/-- A later round leaves room for at most 184 bytes. -/
lemma nextPacket_encode (state : StreamMuxMpegtsState) {remaining : ℕ} {data : List UInt8}
    (hdata : data.length = min remaining 184) :
    (nextAudioPacket state remaining).2 = data.length ∧
      memcpy (nextAudioPacket state remaining).1 (188 - data.length) data
        = (nextPacket state data).encode := by
  have hheader (control : ℕ) (hcontrol : control < 4) :=
    writeTsHeader_blankPacket false (by decide : streamMuxMpegtsAudioPid.toNat < 8192) hcontrol
      state.audioContinuityCounter
  have hhdr (control : ℕ) : ∃ h₀ h₁ h₂ h₃, Packet.header false streamMuxMpegtsAudioPid.toNat control
    (state.audioContinuityCounter.toNat % 16) = [h₀, h₁, h₂, h₃] := ⟨_, _, _, _, rfl⟩
  have hpid : streamMuxMpegtsAudioPid.toNat = 0x1100 := rfl
  unfold nextAudioPacket streamMuxMpegtsPacketSize
  rcases lt_or_ge remaining 184 with h | h
  · obtain rfl : remaining = data.length := by omega
    obtain ⟨h₀, h₁, h₂, h₃, hhdr⟩ := hhdr 3
    rw [if_pos h, show (3 : UInt8) = UInt8.ofNat 3 from rfl, hheader 3 (by decide)]
    refine ⟨rfl, ?_⟩
    rcases Nat.lt_or_ge data.length 183 with hstuffed | hfit
    · have hfill := memcpy_replicate_end [h₀, h₁, h₂, h₃, UInt8.ofNat (183 - data.length), 0x00]
        (188 - data.length) 0xff (by omega : data.length ≤ 182) (by simp; omega)
      have hfield : 182 - data.length + 1 = 183 - data.length := by omega
      have hencode : (nextPacket state data).encode
          = [h₀, h₁, h₂, h₃, UInt8.ofNat (183 - data.length), 0x00]
            ++ List.replicate (182 - data.length) 0xff ++ data := by
        simp [-List.reduceReplicate, -UInt8.ofNat_add, nextPacket, Packet.encode, Packet.body,
          Packet.data, Packet.control, hstuffed.ne, h.ne, ← hpid, hhdr, hfield]
      rw [hencode, ← hfill]
      congr 1
      simp only [Nat.reduceSub, hhdr, show 184 - data.length > 1 by omega, if_true]
      split_ifs with htwo
      · simp [-List.reduceReplicate, memset, show 184 - data.length - 2 ≤ 182 by omega,
          show 184 - data.length - 1 = 183 - data.length by omega]
      · simp [-List.reduceReplicate, show 184 - data.length - 1 = 183 - data.length by omega]
    · have hlen : data.length = 183 := by omega
      simp [-List.reduceReplicate, nextPacket, Packet.encode, Packet.body, Packet.data,
        Packet.control, hlen, ← hpid, hhdr]
  · have hlen : data.length = 184 := by omega
    obtain ⟨h₀, h₁, h₂, h₃, hhdr⟩ := hhdr 1
    rw [if_neg (by omega), show (1 : UInt8) = UInt8.ofNat 1 from rfl, hheader 1 (by decide)]
    refine ⟨hlen.symm, ?_⟩
    simp [-List.reduceReplicate, nextPacket, Packet.encode, Packet.body, Packet.data,
      Packet.control, hlen, ← hpid, hhdr]

/-! ### The loop over the PES packet -/

/-- The packet a round writes. -/
def roundPacket (first : Bool) (state : StreamMuxMpegtsState) (data : List UInt8) : Packet :=
  if first then startPacket state data else nextPacket state data

/-- How much of the PES packet a round can take. -/
def roundRoom (first : Bool) : ℕ := if first then 176 else 184

lemma roundPacket_encode (first : Bool) (state : StreamMuxMpegtsState) {remaining : ℕ}
    {data : List UInt8} (hdata : data.length = min remaining (roundRoom first)) :
    (if first then firstAudioPacket state remaining else nextAudioPacket state remaining).2
        = data.length ∧
      memcpy (if first then firstAudioPacket state remaining else nextAudioPacket state remaining).1
        (188 - data.length) data = (roundPacket first state data).encode := by
  cases first with
  | true => exact startPacket_encode state hdata
  | false => exact nextPacket_encode state hdata

/-- A round that still has room for a packet appends one. -/
lemma AudioCursor.round_eq {pes : List UInt8} {capacity : ℕ} {c : AudioCursor}
    (hroom : c.buffer.length + 188 ≤ capacity) {data : List UInt8}
    (hdata : data = (pes.drop c.pesOffset).take (roundRoom c.firstPacket)) :
    c.round pes capacity =
      { state :=
          { c.state with
            audioContinuityCounter := (c.state.audioContinuityCounter + 1) &&& 0x0f }
        buffer := c.buffer ++ (roundPacket c.firstPacket c.state data).encode
        pesOffset := c.pesOffset + data.length
        firstPacket := false
        failed := false } := by
  have hlen : data.length = min (pes.length - c.pesOffset) (roundRoom c.firstPacket) := by
    rw [hdata, List.length_take, List.length_drop, Nat.min_comm]
  have hsize (n r : ℕ) : (if n < min n r then n else min n r) = min n r := if_neg (by omega)
  have htake : (pes.drop c.pesOffset).take data.length = data := by
    rw [hlen, hdata, ← List.length_drop, Nat.min_comm, ← List.take_eq_take_min]
  obtain ⟨hcap, henc⟩ := roundPacket_encode c.firstPacket c.state hlen
  rw [hlen] at hcap henc htake
  unfold AudioCursor.round streamMuxMpegtsPacketSize
  simp only [hcap, hsize, htake, henc, hlen, show ¬ c.buffer.length + 188 > capacity by omega,
    if_false]

/-- The number of audio packets for a PES packet of `n` bytes. -/
def audioPacketCount (n : ℕ) : ℕ := 1 + (n - 176 + 183) / 184

/-- How much of a long PES packet the first `k` audio packets hold. -/
def audioOffset : ℕ → ℕ
  | 0 => 0
  | k + 1 => 176 + 184 * k

/-- What a receiver can rely on in an audio packet. -/
structure AudioPacket (p : Packet) : Prop where
  fits : p.Fits
  pid_eq : p.pid = 0x1100
  stuffing_eq : ∀ b ∈ p.stuffing, b = 0xff

lemma roundPacket_audioPacket (first : Bool) (state : StreamMuxMpegtsState) {data : List UInt8}
    (hdata : data.length ≤ roundRoom first) : AudioPacket (roundPacket first state data) := by
  cases first with
  | true =>
    refine ⟨startPacket_fits state hdata, rfl, fun b hb => ?_⟩
    rw [roundPacket, if_pos rfl, startPacket_stuffing] at hb
    exact List.eq_of_mem_replicate hb
  | false =>
    refine ⟨nextPacket_fits state hdata, rfl, fun b hb => ?_⟩
    rw [roundPacket, if_neg Bool.false_ne_true, nextPacket_stuffing] at hb
    exact List.eq_of_mem_replicate hb

lemma roundPacket_unitStart (first : Bool) (state : StreamMuxMpegtsState) (data : List UInt8) :
    (roundPacket first state data).unitStart = first := by
  cases first <;> rfl

lemma roundPacket_data (first : Bool) (state : StreamMuxMpegtsState) (data : List UInt8) :
    (roundPacket first state data).data = data := by
  cases first <;> rfl

lemma AudioCursor.of_more {pes : List UInt8} {c : AudioCursor} (h : c.more pes = true) :
    c.failed = false ∧ c.pesOffset < pes.length := by
  simpa [AudioCursor.more] using h

/-- A round without room for a packet ends the loop. -/
lemma AudioCursor.round_full {pes : List UInt8} {capacity : ℕ} {c : AudioCursor}
    (h : capacity < c.buffer.length + 188) : c.round pes capacity = { c with failed := true } := by
  unfold AudioCursor.round streamMuxMpegtsPacketSize
  exact if_pos h

/-- A round with room for a packet sends the next bytes of the PES packet, at least one of them. -/
lemma AudioCursor.exists_sent {pes : List UInt8} {c : AudioCursor} (h : c.more pes = true) :
    ∃ data, data = (pes.drop c.pesOffset).take (roundRoom c.firstPacket) ∧
      data.length = min (roundRoom c.firstPacket) (pes.length - c.pesOffset) ∧ 0 < data.length ∧
      AudioPacket (roundPacket c.firstPacket c.state data) := by
  obtain ⟨-, hlt⟩ := AudioCursor.of_more h
  have hlen : ((pes.drop c.pesOffset).take (roundRoom c.firstPacket)).length
      = min (roundRoom c.firstPacket) (pes.length - c.pesOffset) := by
    rw [List.length_take, List.length_drop]
  refine ⟨_, rfl, hlen, ?_, roundPacket_audioPacket _ _ (hlen ▸ Nat.min_le_left _ _)⟩
  rw [hlen, roundRoom]
  split <;> omega

/-- The loop has written the packets `ps`, which hold the PES packet up to the current offset. -/
structure AudioInv (pes base : List UInt8) (capacity : ℕ) (c : AudioCursor) (ps : List Packet) :
    Prop where
  buffer : c.buffer = base ++ ps.flatMap Packet.encode
  packets : ∀ p ∈ ps, AudioPacket p
  starts : ps.map Packet.unitStart = (List.range ps.length).map fun k => decide (k = 0)
  data : ps.flatMap Packet.data = pes.take c.pesOffset
  offset : c.pesOffset = min pes.length (audioOffset ps.length)
  count : ps.length ≤ audioPacketCount pes.length
  first : c.firstPacket = decide (ps.length = 0)
  room : c.failed = false → c.buffer.length ≤ capacity
  short : c.failed = true → capacity < base.length + 188 * audioPacketCount pes.length

lemma AudioInv.buffer_length {pes base : List UInt8} {capacity : ℕ} {c : AudioCursor}
    {ps : List Packet} (h : AudioInv pes base capacity c ps) :
    c.buffer.length = base.length + 188 * ps.length := by
  rw [h.buffer, List.length_append, flatMap_encode_length fun p hp => (h.packets p hp).fits]
  rfl

/-- Either there is no room for the next packet, or the round appends it. -/
lemma AudioInv.round {pes base : List UInt8} {capacity : ℕ} {c : AudioCursor} {ps : List Packet}
    (h : AudioInv pes base capacity c ps) (hmore : c.more pes = true) :
    (∃ ps', AudioInv pes base capacity (c.round pes capacity) ps') ∧
      ((c.round pes capacity).failed = true ∨ c.pesOffset < (c.round pes capacity).pesOffset) := by
  obtain ⟨hfailed, hlt⟩ := AudioCursor.of_more hmore
  have hlen := h.buffer_length
  have hoffset := h.offset
  have hcount : ps.length < audioPacketCount pes.length := by
    have hlast : c.pesOffset = audioOffset ps.length := by omega
    unfold audioPacketCount
    cases hps : ps.length with
    | zero => omega
    | succ k =>
      rw [hps, audioOffset] at hlast
      omega
  rcases lt_or_ge capacity (c.buffer.length + 188) with hfull | hroom
  · rw [AudioCursor.round_full hfull]
    refine ⟨⟨ps, { h with room := fun h' => absurd h' (by simp), short := fun _ => ?_ }⟩, .inl rfl⟩
    omega
  · obtain ⟨data, hdata, hdataLen, hpos, hpacket⟩ := AudioCursor.exists_sent hmore
    have hjoin : pes.take c.pesOffset ++ data = pes.take (c.pesOffset + data.length) := by
      rw [List.take_add, hdataLen, ← List.length_drop, ← List.take_eq_take_min, ← hdata]
    have hnext : c.pesOffset + data.length = min pes.length (audioOffset (ps.length + 1)) := by
      rw [hdataLen, h.first, roundRoom]
      cases hps : ps.length with
      | zero =>
        simp [hps, audioOffset] at hoffset ⊢
        omega
      | succ k =>
        simp [hps, audioOffset] at hoffset ⊢
        omega
    rw [AudioCursor.round_eq hroom hdata]
    refine ⟨⟨ps ++ [roundPacket c.firstPacket c.state data], ?_, ?_, ?_, ?_, ?_, ?_, ?_, ?_, ?_⟩,
      .inr (Nat.lt_add_of_pos_right hpos)⟩
    · simp [h.buffer]
    · intro p hp
      rcases List.mem_append.mp hp with hp | hp
      · exact h.packets p hp
      · exact List.mem_singleton.mp hp ▸ hpacket
    · simp [List.range_succ, h.starts, roundPacket_unitStart, h.first]
    · rw [List.flatMap_append, h.data, List.flatMap_singleton, roundPacket_data, hjoin]
    · simpa using hnext
    · simpa using hcount
    · simp
    · intro _
      rw [List.length_append, Packet.encode_length hpacket.fits]
      exact hroom
    · simp

/-- The loop ends, either with the whole PES packet written or for want of room. -/
lemma audioLoop_spec {pes base : List UInt8} {capacity : ℕ} {c : AudioCursor}
    (h : AudioInv pes base capacity c []) (hpes : 0 < pes.length) :
    ∃ c' ps, Loop.run (AudioCursor.more pes) (some ∘ AudioCursor.round pes capacity)
        (pes.length + 1) c = some c' ∧
      AudioInv pes base capacity c' ps ∧
      (c'.failed = false → ps.length = audioPacketCount pes.length ∧
        c'.pesOffset = pes.length) := by
  obtain ⟨c', hrun, ⟨ps, hinv⟩, hexit⟩ :=
    Loop.run_total (AudioCursor.more pes) (some ∘ AudioCursor.round pes capacity)
      (fun c => ∃ ps, AudioInv pes base capacity c ps)
      (fun c => if c.failed then 0 else pes.length - c.pesOffset + 1)
      (fun c ⟨ps, hinv⟩ hmore => by
        obtain ⟨hinv', hprogress⟩ := hinv.round hmore
        obtain ⟨hfailed, hlt⟩ := AudioCursor.of_more hmore
        refine ⟨_, rfl, hinv', ?_⟩
        rw [hfailed]
        rcases hprogress with hfailed' | hlt'
        · simp [hfailed']
        · simp only [Bool.false_eq_true, if_false]
          split <;> omega)
      (pes.length + 1) ⟨[], h⟩ (by split <;> omega)
  refine ⟨c', ps, hrun, hinv, fun hok => ?_⟩
  have hend : pes.length ≤ c'.pesOffset := by simpa [AudioCursor.more, hok] using hexit
  have hoffset := hinv.offset
  have hcount := hinv.count
  refine ⟨?_, by omega⟩
  unfold audioPacketCount at hcount ⊢
  cases hps : ps.length with
  | zero =>
    rw [hps, audioOffset] at hoffset
    omega
  | succ k =>
    rw [hps, audioOffset] at hoffset
    omega

/-! ### The PES packet -/

/-- The samples a chunk carries on air: mono audio travels as the left channel of silence. -/
def airSamples (state : StreamMuxMpegtsState) (samples : ℕ → Int16) (frameCount : ℕ) : List Int16 :=
  if state.channels = 2 then (List.range (frameCount * 2)).map samples
  else (List.range frameCount).flatMap fun i => [samples i, 0]

lemma pesAudioBytes_eq (state : StreamMuxMpegtsState) (samples : ℕ → Int16) (frameCount : ℕ) :
    pesAudioBytes state samples frameCount
      = (airSamples state samples frameCount).flatMap sampleBytes := by
  unfold pesAudioBytes airSamples
  split
  · rw [List.flatMap_map]
    rfl
  · rw [List.flatMap_assoc]
    rfl

lemma airSamples_length (state : StreamMuxMpegtsState) (samples : ℕ → Int16) (frameCount : ℕ) :
    (airSamples state samples frameCount).length = 2 * frameCount := by
  unfold airSamples
  split
  · simp [Nat.mul_comm]
  · simp [List.length_flatMap, Nat.mul_comm]

lemma pesAudioBytes_length (state : StreamMuxMpegtsState) (samples : ℕ → Int16) (frameCount : ℕ) :
    (pesAudioBytes state samples frameCount).length = 4 * frameCount := by
  rw [pesAudioBytes_eq, length_flatMap_sampleBytes, airSamples_length]
  omega

/-- What a receiver finds in a PES packet. -/
structure PesReadsBack (state : StreamMuxMpegtsState) (samples : ℕ → Int16) (frameCount : ℕ)
    (pes : List UInt8) : Prop where
  length_eq : pes.length = 18 + 4 * frameCount
  reads : ∃ parsed lpcm, Pes.parse pes = some parsed ∧ parsed.streamId = 0xbd ∧
    parsed.packetLength = pes.length - 6 ∧ Lpcm.parse parsed.payload = some lpcm ∧
    lpcm.size = lpcm.audio.length ∧
    TransportStream.samples lpcm.audio = airSamples state samples frameCount

/-- A PES packet within the limit carries the samples; a longer one is refused. -/
lemma streamMuxMpegtsBuildPes_spec (state : StreamMuxMpegtsState) (samples : ℕ → Int16)
    (frameCount : ℕ) :
    if 18 + 4 * frameCount ≤ streamMuxMpegtsMaxPesBytes then
      ∃ pes, streamMuxMpegtsBuildPes state samples frameCount streamMuxMpegtsMaxPesBytes =
        some pes ∧
        PesReadsBack state samples frameCount pes
    else streamMuxMpegtsBuildPes state samples frameCount streamMuxMpegtsMaxPesBytes = none := by
  split_ifs with h
  · have hsmall : 18 + 4 * frameCount ≤ 4608 := h
    have hsize : bigEndian (UInt8.ofNat ((4 + frameCount * 4 - 4) >>> 8))
        (UInt8.ofNat ((4 + frameCount * 4 - 4) &&& 0xff)) = 4 * frameCount := by
      rw [Nat.add_sub_cancel_left, bigEndian_nat (by omega), Nat.mul_comm]
    have hpacket : (UInt16.ofNat (4 + frameCount * 4 + 8)).toNat = 12 + 4 * frameCount := by
      rw [UInt16.toNat_ofNat', Nat.mod_eq_of_lt (by omega)]
      omega
    have haudio := pesAudioBytes_length state samples frameCount
    refine ⟨_, if_neg (by unfold streamMuxMpegtsMaxPesBytes; omega), ?_, ?_⟩
    · simp [haudio, streamMuxMpegtsWritePts]
      omega
    · refine ⟨_, _, rfl, rfl, ?_, rfl, ?_, ?_⟩
      · simp only [bigEndian_word, hpacket]
        simp [haudio, streamMuxMpegtsWritePts]
        omega
      · simp only [hsize]
        exact haudio.symm
      · rw [← samples_flatMap_sampleBytes (airSamples _ _ _), ← pesAudioBytes_eq]
        rfl
  · unfold streamMuxMpegtsBuildPes
    exact if_pos (by omega)

/-! ### The round trip -/

/-- A section whose length field is right is found in its packet, followed by stuffing only. -/
lemma splitSection_sectionPacket (pid counter : ℕ) {t l₁ l₀ : UInt8} {body : List UInt8}
    (hbody : body.length = bigEndian l₁ l₀ % 4096) :
    splitSection (sectionPacket pid counter (t :: l₁ :: l₀ :: body))
      = some (t :: l₁ :: l₀ :: body, List.replicate (180 - body.length) 0xff) := by
  have hsec : (t :: l₁ :: l₀ :: body).length = 3 + bigEndian l₁ l₀ % 4096 := by
    rw [List.length_cons, List.length_cons, List.length_cons, hbody]
    omega
  have htake : (t :: l₁ :: l₀ :: body ++ List.replicate (180 - body.length) (0xff : UInt8)).take
      (3 + bigEndian l₁ l₀ % 4096) = t :: l₁ :: l₀ :: body := List.take_left' hsec
  have hdrop : (t :: l₁ :: l₀ :: body ++ List.replicate (180 - body.length) (0xff : UInt8)).drop
      (3 + bigEndian l₁ l₀ % 4096) = List.replicate (180 - body.length) 0xff := List.drop_left' hsec
  simp only [List.cons_append] at htake hdrop
  have hlen : 183 - (t :: l₁ :: l₀ :: body).length = 180 - body.length := by
    simp
  simp only [splitSection, Packet.data, sectionPacket, Option.getD_some, List.cons_append,
    UInt8.toNat_zero, List.drop_zero, hlen, htake, hdrop, List.length_append]
  exact if_pos (by omega)

/-- A byte string that reads as the samples of a chunk: whole packets, first the PAT and the PMT,
then audio packets that make up one PES packet. -/
structure ChunkReadsBack (state : StreamMuxMpegtsState) (samples : ℕ → Int16) (frameCount : ℕ)
    (out : List UInt8) (pat pmt first : Packet) (rest : List Packet) : Prop where
  packets : parseStream out = some (pat :: pmt :: first :: rest)
  count : out.length = 188 * (3 + rest.length)
  sync : ∀ k < 3 + rest.length, out[188 * k]? = some 0x47
  pat_pid : pat.pid = 0x0000
  pat_section : splitSection pat = some (patSection, List.replicate 167 0xff)
  pmt_pid : pmt.pid = 0x0100
  pmt_section : splitSection pmt = some (pmtSection, List.replicate 150 0xff)
  audio_pid : ∀ p ∈ first :: rest, p.pid = 0x1100
  first_start : first.unitStart = true
  rest_start : ∀ p ∈ rest, p.unitStart = false
  stuffing : ∀ p ∈ first :: rest, ∀ b ∈ p.stuffing, b = 0xff
  unit : ∃ pes, demux 0x1100 (pat :: pmt :: first :: rest) = [pes] ∧
    PesReadsBack state samples frameCount pes

/-- The two table packets written in front of the audio. -/
def tablePackets (state : StreamMuxMpegtsState) : List Packet :=
  [sectionPacket 0x0000 (state.patContinuityCounter.toNat % 16) patSection,
    sectionPacket 0x0100 (state.pmtContinuityCounter.toNat % 16) pmtSection]

lemma tablePackets_fits (state : StreamMuxMpegtsState) : ∀ p ∈ tablePackets state, p.Fits := by
  intro p hp
  simp only [tablePackets, List.mem_cons, List.not_mem_nil, or_false] at hp
  rcases hp with rfl | rfl
  · exact sectionPacket_fits (by decide) (Nat.mod_lt _ (by decide)) (by decide)
  · exact sectionPacket_fits (by decide) (Nat.mod_lt _ (by decide)) (by decide)

lemma tablePackets_encode (state : StreamMuxMpegtsState) :
    (streamMuxMpegtsWritePatPacket state).2
        ++ (streamMuxMpegtsWritePmtPacket (streamMuxMpegtsWritePatPacket state).1).2
      = (tablePackets state).flatMap Packet.encode := by
  have hpat := sectionPacket_encode (by decide : (0x0000 : UInt16).toNat < 8192)
    state.patContinuityCounter patSection
  have hpmt := sectionPacket_encode (by decide : streamMuxMpegtsPmtPid.toNat < 8192)
    state.pmtContinuityCounter pmtSection
  simp only [tablePackets, List.flatMap_cons, List.flatMap_nil, List.append_nil,
    streamMuxMpegtsWritePatPacket, streamMuxMpegtsWritePmtPacket, hpat, hpmt]
  rfl

lemma tablePackets_length (state : StreamMuxMpegtsState) :
    ((tablePackets state).flatMap Packet.encode).length = 2 * 188 := by
  rw [flatMap_encode_length (tablePackets_fits state)]
  rfl

/-- The prelude consists of the two tables. -/
lemma streamMuxMpegtsBuildPrelude_spec (icy : IcyMetadataState) (state : StreamMuxMpegtsState)
    {capacity : ℕ} (h : 2 * 188 ≤ capacity) :
    ∃ state', streamMuxMpegtsBuildPrelude icy state capacity =
      (if icy.enabled then
        { icy with audioBytesUntilMetadata := icyBytesUntilNextMetadata (2 * 188) } else icy,
        state', some ((tablePackets state).flatMap Packet.encode)) := by
  rw [← tablePackets_encode]
  exact ⟨_, if_neg (Nat.not_lt.mpr h)⟩

/-- The packets the loop leaves behind read back as the chunk. -/
lemma AudioInv.readsBack {state : StreamMuxMpegtsState} {samples : ℕ → Int16} {frameCount : ℕ}
    {pes : List UInt8} (hpes : PesReadsBack state samples frameCount pes) {capacity : ℕ}
    {c : AudioCursor} {ps : List Packet}
    (h : AudioInv pes ((tablePackets state).flatMap Packet.encode) capacity c ps)
    (hdone : c.pesOffset = pes.length) (hcount : ps.length = audioPacketCount pes.length) :
    ∃ pat pmt first rest, ChunkReadsBack state samples frameCount c.buffer pat pmt first rest := by
  obtain ⟨first, rest, rfl⟩ : ∃ first rest, ps = first :: rest :=
    List.exists_cons_of_length_pos (by rw [hcount, audioPacketCount]; omega)
  have hfits : ∀ p ∈ tablePackets state ++ first :: rest, p.Fits := by
    intro p hp
    rcases List.mem_append.mp hp with hp | hp
    · exact tablePackets_fits state p hp
    · exact (h.packets p hp).fits
  have hbuffer : c.buffer = (tablePackets state ++ first :: rest).flatMap Packet.encode := by
    rw [h.buffer, List.flatMap_append]
  have hstarts : first.unitStart = true ∧ ∀ p ∈ rest, p.unitStart = false := by
    have hmap := h.starts
    rw [List.length_cons, List.range_succ_eq_map, List.map_cons, List.map_cons, List.map_map,
      List.cons.injEq] at hmap
    refine ⟨by simpa using hmap.1, fun p hp => ?_⟩
    have hp' := List.mem_map_of_mem (f := Packet.unitStart) hp
    rw [hmap.2] at hp'
    obtain ⟨_, _, hfalse⟩ := List.mem_map.mp hp'
    simpa using hfalse.symm
  have hpid : ∀ p ∈ first :: rest, p.pid = 0x1100 := fun p hp => (h.packets p hp).pid_eq
  have hunit : demux 0x1100 (tablePackets state ++ first :: rest) = [pes] := by
    rw [tablePackets, List.cons_append, List.singleton_append,
      demux_cons_of_ne (by simp [sectionPacket]), demux_cons_of_ne (by simp [sectionPacket]),
      demux_unit hstarts.1 hstarts.2 hpid, h.data, hdone, List.take_length]
  have hsync : ∀ k < 3 + rest.length, c.buffer[188 * k]? = some 0x47 := by
    intro k hk
    rw [hbuffer]
    exact flatMap_encode_sync hfits (by simp [tablePackets]; omega)
  have hlength : c.buffer.length = 188 * (3 + rest.length) := by
    rw [hbuffer, flatMap_encode_length hfits]
    simp [tablePackets, packetSize]
    omega
  have hparse : parseStream c.buffer = some (tablePackets state ++ first :: rest) := by
    rw [hbuffer, parseStream_flatMap_encode hfits]
  exact ⟨_, _, first, rest,
    { packets := hparse
      count := hlength
      sync := hsync
      pat_pid := rfl
      pat_section := splitSection_sectionPacket 0x0000 _ rfl
      pmt_pid := rfl
      pmt_section := splitSection_sectionPacket 0x0100 _ rfl
      audio_pid := hpid
      first_start := hstarts.1
      rest_start := hstarts.2
      stuffing := fun p hp => (h.packets p hp).stuffing_eq
      unit := ⟨pes, hunit, hpes⟩ }⟩

/-- One call: it succeeds exactly when the PES packet and all transport packets fit. -/
lemma streamMuxMpegtsWriteAudio_spec (state : StreamMuxMpegtsState) (samples : ℕ → Int16)
    (frameCount capacity : ℕ) :
    ∃ state' result,
      streamMuxMpegtsWriteAudio state samples frameCount capacity = some (state', result) ∧
      (result.isSome ↔ 18 + 4 * frameCount ≤ streamMuxMpegtsMaxPesBytes ∧
        188 * (2 + audioPacketCount (18 + 4 * frameCount)) ≤ capacity) ∧
      ∀ out, result = some out →
        out.length = 188 * (2 + audioPacketCount (18 + 4 * frameCount)) ∧
        ∃ pat pmt first rest, ChunkReadsBack state samples frameCount out pat pmt first rest := by
  rcases lt_or_ge capacity 376 with hcap | hcap
  · refine ⟨state, none, if_pos hcap, ?_, by simp⟩
    simp [audioPacketCount]
    omega
  unfold streamMuxMpegtsWriteAudio
  rw [if_neg (show ¬ capacity < 2 * streamMuxMpegtsPacketSize from Nat.not_lt.mpr hcap)]
  obtain ⟨state₁, hstate₁⟩ : ∃ state₁, state₁ = (streamMuxMpegtsWritePmtPacket
    (streamMuxMpegtsWritePatPacket state).1).1 := ⟨_, rfl⟩
  have hair : airSamples state₁ samples frameCount = airSamples state samples frameCount := by
    rw [hstate₁]
    rfl
  have hpes := streamMuxMpegtsBuildPes_spec state₁ samples frameCount
  dsimp only
  rw [tablePackets_encode, ← hstate₁]
  split_ifs at hpes with hmax
  · obtain ⟨pes, hbuild, hpes⟩ := hpes
    rw [hbuild]
    have hback : PesReadsBack state samples frameCount pes := ⟨hpes.length_eq, hair ▸ hpes.reads⟩
    have hlen := hpes.length_eq
    have hbase : ((tablePackets state).flatMap Packet.encode).length = 376 :=
      tablePackets_length state
    have hinit : AudioInv pes ((tablePackets state).flatMap Packet.encode) capacity
        ⟨state₁, (tablePackets state).flatMap Packet.encode, 0, true, false⟩ [] :=
      { buffer := by simp
        packets := by simp
        starts := rfl
        data := rfl
        offset := (Nat.min_zero _).symm
        count := Nat.zero_le _
        first := rfl
        room := fun _ => hbase ▸ hcap
        short := by simp }
    obtain ⟨c, ps, hrun, hinv, hdone⟩ := audioLoop_spec hinit (by omega)
    have hbuffer := hinv.buffer_length
    simp only [hrun, Option.bind_eq_bind, Option.bind_some]
    cases hfailed : c.failed with
    | true =>
      have hshort := hinv.short hfailed
      refine ⟨c.state, none, rfl, ?_, by simp⟩
      rw [hlen] at hshort
      simp
      omega
    | false =>
      have hroom := hinv.room hfailed
      obtain ⟨hcount, hoffset⟩ := hdone hfailed
      have htotal : c.buffer.length = 188 * (2 + audioPacketCount (18 + 4 * frameCount)) := by
        rw [hbuffer, hbase, hcount, hlen]
        omega
      refine ⟨_, some c.buffer, rfl, ?_, ?_⟩
      · simp only [Option.isSome_some, true_iff]
        exact ⟨hmax, htotal ▸ hroom⟩
      · rintro _ ⟨rfl⟩
        exact ⟨htotal, hinv.readsBack hback hoffset hcount⟩
  · rw [hpes]
    exact ⟨state₁, none, rfl, by simp [hmax], by simp⟩

/-- The MPEG-TS round trip. A chunk is written exactly when its PES packet and all packets fit, and
then a demultiplexer recovers the samples. -/
theorem streamMuxMpegtsWriteAudio_roundTrip (state : StreamMuxMpegtsState) (samples : ℕ → Int16)
    (frameCount capacity : ℕ) :
    ∃ state' result,
      streamMuxMpegtsWriteAudio state samples frameCount capacity = some (state', result) ∧
      (result.isSome ↔ 18 + 4 * frameCount ≤ streamMuxMpegtsMaxPesBytes ∧
        188 * (2 + audioPacketCount (18 + 4 * frameCount)) ≤ capacity) ∧
      ∀ out, result = some out →
        out.length ≤ streamMuxMpegtsMaxAudioBytes ∧ out.length ≤ capacity ∧
        out.length = 188 * (2 + audioPacketCount (18 + 4 * frameCount)) ∧
        ∃ pat pmt first rest, ChunkReadsBack state samples frameCount out pat pmt first rest := by
  obtain ⟨state', result, hwrite, hsome, hout⟩ :=
    streamMuxMpegtsWriteAudio_spec state samples frameCount capacity
  refine ⟨state', result, hwrite, hsome, fun out hresult => ?_⟩
  obtain ⟨hlength, hreads⟩ := hout out hresult
  obtain ⟨hmax, hroom⟩ := hsome.mp (by rw [hresult, Option.isSome_some])
  refine ⟨?_, hlength ▸ hroom, hlength, hreads⟩
  have hsmall : 18 + 4 * frameCount ≤ 4608 := hmax
  rw [hlength, show streamMuxMpegtsMaxAudioBytes = 5264 from rfl, audioPacketCount]
  omega

end Mpxcast
