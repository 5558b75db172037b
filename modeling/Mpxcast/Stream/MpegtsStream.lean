import Mpxcast.Core.RationalClock
import Mpxcast.Stream.MpegtsRoundTrip

/-!
# A client's whole MPEG-TS stream

What holds across the calls that make up one stream: the continuity counters of each PID count on
through the prelude and every chunk, and the clocks show the frames sent so far without drift.
-/

namespace Mpxcast

open CMemory TransportStream RationalClock

/-! ### Clocks on the wire -/

/-- A number doubled, with the low bit set. -/
lemma two_mul_or_one (n : ℕ) : 2 * n ||| 1 = 2 * n + 1 :=
  (Nat.two_pow_add_eq_or_of_lt (by decide : 1 < 2 ^ 1) n).symm

/-- The time stamp on the wire is the counter modulo 2^33. -/
lemma streamMuxMpegtsWritePts_decode (pts : UInt64) :
    Timestamp.decode (streamMuxMpegtsWritePts pts) = some ⟨pts.toNat % 2 ^ 33, true⟩ := by
  have hmask : (pts &&& (((1 : UInt64) <<< (33 : UInt64)) - 1)).toNat = pts.toNat % 2 ^ 33 :=
    Nat.and_two_pow_sub_one_eq_mod _ 33
  have hlt : pts.toNat % 2 ^ 33 < 2 ^ 33 := Nat.mod_lt _ (by decide)
  have hlow (n : ℕ) : n &&& 127 = n % 128 := Nat.and_two_pow_sub_one_eq_mod n 7
  have hhigh (n : ℕ) : n &&& 7 = n % 8 := Nat.and_two_pow_sub_one_eq_mod n 3
  have htop (n : ℕ) (hn : n < 8) : 33 ||| 2 * n = 33 + 2 * n := by
    interval_cases n <;> rfl
  simp only [streamMuxMpegtsWritePts, Timestamp.decode]
  generalize pts &&& (((1 : UInt64) <<< (33 : UInt64)) - 1) = p at hmask ⊢
  rw [← hmask] at hlt ⊢
  simp only [UInt64.toNat_toUInt8, UInt64.toNat_or, UInt64.toNat_shiftLeft, UInt64.toNat_and,
    UInt64.toNat_shiftRight, UInt64.reduceToNat, Nat.reduceMod, Nat.shiftRight_eq_div_pow,
    Nat.shiftLeft_eq, hlow, hhigh]
  have hfirst (n : ℕ) : (33 ||| n % 8 * 2 ^ 1 % 2 ^ 64) % 2 ^ 8 = 33 + 2 * (n % 8) := by
    have hn : n % 8 < 8 := Nat.mod_lt _ (by decide)
    rw [Nat.mul_comm, Nat.mod_eq_of_lt (by omega : 2 ^ 1 * (n % 8) < 2 ^ 64), pow_one, htop _ hn]
    omega
  have hodd (n : ℕ) : (n % 128 * 2 ^ 1 % 2 ^ 64 ||| 1) % 2 ^ 8 = 2 * (n % 128) + 1 := by
    rw [Nat.mul_comm, Nat.mod_eq_of_lt (by omega : 2 ^ 1 * (n % 128) < 2 ^ 64), pow_one,
      two_mul_or_one]
    omega
  simp only [hfirst, hodd, Option.some.injEq, Timestamp.mk.injEq, decide_eq_true_eq]
  omega

/-- The clock reference on the wire is the 27 MHz counter, its base modulo 2^33. -/
lemma streamMuxMpegtsWritePcr_decode (pcr : UInt64) :
    ClockReference.decode (streamMuxMpegtsWritePcr pcr)
      = some ⟨pcr.toNat / 300 % 2 ^ 33, 63, pcr.toNat % 300⟩ := by
  simp only [streamMuxMpegtsWritePcr, ClockReference.decode]
  simp only [UInt64.toNat_toUInt8, UInt64.toNat_or, UInt64.toNat_shiftLeft, UInt64.toNat_and,
    UInt64.toNat_shiftRight, UInt64.reduceToNat, Nat.reduceMod, Nat.shiftRight_eq_div_pow,
    Nat.shiftLeft_eq, UInt64.toNat_div, UInt64.toNat_mod, UInt8.toNat_or, UInt16.toNat_toUInt8,
    UInt16.toNat_and, UInt16.toNat_shiftRight, UInt64.toNat_toUInt16, UInt16.reduceToNat]
  have hbit (n : ℕ) : n &&& 1 = n % 2 := Nat.and_one_is_mod n
  have hlow (n : ℕ) : n &&& 255 = n % 256 := Nat.and_two_pow_sub_one_eq_mod n 8
  have hmiddle (m n : ℕ) (hn : n < 300) : (m % 2 * 2 ^ 7 % 2 ^ 64 ||| 126) % 2 ^ 8 |||
      n % 2 ^ 16 / 2 ^ 8 % 2 ^ 8 = 128 * (m % 2) + 126 + n / 256 := by
    have hn' : n % 2 ^ 16 / 2 ^ 8 % 2 ^ 8 = n / 256 := by omega
    have hlt : n / 256 < 2 := by omega
    rw [hn']
    generalize n / 256 = e at hlt ⊢
    rcases Nat.mod_two_eq_zero_or_one m with h | h <;> rw [h] <;> interval_cases e <;> rfl
  have hext : pcr.toNat % 300 < 300 := Nat.mod_lt _ (by decide)
  simp only [hbit, hlow, hmiddle _ _ hext, Option.some.injEq, ClockReference.mk.injEq]
  omega

/-! ### One call -/

/-- The packets of a call's audio: they count on from the state's counter, and the first of them
starts the PES packet and carries the clock. -/
structure AudioTrail (state : StreamMuxMpegtsState) (pes base : List UInt8) (c : AudioCursor)
    (ps : List Packet) : Prop where
  buffer : c.buffer = base ++ ps.flatMap Packet.encode
  state_eq : c.state = { state with audioContinuityCounter := c.state.audioContinuityCounter }
  counter : c.state.audioContinuityCounter.toNat % 16
    = (state.audioContinuityCounter.toNat + ps.length) % 16
  counts : CountsFrom state.audioContinuityCounter.toNat (ps.map Packet.counter)
  packets : ∀ p ∈ ps, AudioPacket p ∧ p.payload.isSome = true ∧ p.data ≠ []
  first : if c.firstPacket then ps = [] ∧ c.pesOffset = 0
    else ps.head? = some (startPacket state (pes.take 176))

/-- The next value of a 4-bit counter. -/
lemma counter_next (counter : UInt8) :
    ((counter + 1) &&& 0x0f).toNat = (counter.toNat + 1) % 16 := by
  have hmask (n : ℕ) : n &&& 15 = n % 16 := Nat.and_two_pow_sub_one_eq_mod n 4
  simp only [UInt8.toNat_and, UInt8.toNat_add, UInt8.reduceToNat, hmask]
  omega

lemma roundPacket_counter (first : Bool) (state : StreamMuxMpegtsState) (data : List UInt8) :
    (roundPacket first state data).counter = state.audioContinuityCounter.toNat % 16 := by
  cases first <;> rfl

lemma roundPacket_payload (first : Bool) (state : StreamMuxMpegtsState) (data : List UInt8) :
    (roundPacket first state data).payload = some data := by
  cases first <;> rfl

/-- A round that is not refused writes the next packet of the trail. -/
lemma AudioTrail.round {state : StreamMuxMpegtsState} {pes base : List UInt8} {capacity : ℕ}
    {c : AudioCursor} {ps : List Packet} (h : AudioTrail state pes base c ps)
    (hmore : c.more pes = true) (hok : (c.round pes capacity).failed = false) :
    ∃ ps', AudioTrail state pes base (c.round pes capacity) ps' := by
  have hroom : c.buffer.length + 188 ≤ capacity := by
    by_contra hfull
    rw [AudioCursor.round_full (not_le.1 hfull)] at hok
    exact absurd hok.symm Bool.false_ne_true
  obtain ⟨data, hdata, -, hpos, hpacket⟩ := AudioCursor.exists_sent hmore
  have hstate := h.state_eq
  rw [AudioCursor.round_eq hroom hdata]
  refine ⟨ps ++ [roundPacket c.firstPacket c.state data], ?_, ?_, ?_, ?_, ?_, ?_⟩
  · simp [h.buffer]
  · rw [hstate]
  · simp only [counter_next, List.length_append, List.length_singleton]
    have := h.counter
    omega
  · rw [List.map_append, List.map_singleton, roundPacket_counter]
    refine h.counts.append (countsFrom_singleton _) ?_
    rw [List.length_map]
    exact h.counter
  · intro p hp
    rcases List.mem_append.1 hp with hp | hp
    · exact h.packets p hp
    · rw [List.mem_singleton.1 hp]
      exact ⟨hpacket, by rw [roundPacket_payload]; rfl,
        by rw [roundPacket_data]; exact List.ne_nil_of_length_pos hpos⟩
  · have hfirst := h.first
    rw [if_neg Bool.false_ne_true]
    cases hc : c.firstPacket with
    | true =>
      rw [hc, if_pos rfl] at hfirst
      obtain ⟨rfl, hoffset⟩ := hfirst
      have hcounter : c.state.audioContinuityCounter.toNat % 16
          = state.audioContinuityCounter.toNat % 16 := h.counter
      have hpts : c.state.pts90khz = state.pts90khz := by
        rw [hstate]
      have hpacket : startPacket c.state data = startPacket state data := by
        simp only [startPacket, hcounter, hpts]
      rw [List.nil_append, List.head?_singleton, roundPacket, if_pos rfl, hpacket, hdata, hc,
        hoffset, List.drop_zero]
      rfl
    | false =>
      rw [hc, if_neg Bool.false_ne_true] at hfirst
      rw [List.head?_append, hfirst]
      rfl

/-- What a successful call leaves behind: the tables and the audio packets, and the state they lead
to. -/
structure ChunkWritten (state state' : StreamMuxMpegtsState) (frameCount : ℕ) (out : List UInt8)
    (audio : List Packet) : Prop where
  bytes : out = (tablePackets state ++ audio).flatMap Packet.encode
  packets : ∀ p ∈ audio, AudioPacket p ∧ p.payload.isSome = true ∧ p.data ≠ []
  counts : CountsFrom state.audioContinuityCounter.toNat (audio.map Packet.counter)
  counter : state'.audioContinuityCounter.toNat % 16
    = (state.audioContinuityCounter.toNat + audio.length) % 16
  first : ∃ samples pes,
    streamMuxMpegtsBuildPes state samples frameCount streamMuxMpegtsMaxPesBytes = some pes ∧
      audio.head? = some (startPacket state (pes.take 176))
  next : state' = streamMuxMpegtsAdvancePts
    { state with
      patContinuityCounter := (state.patContinuityCounter + 1) &&& 0x0f
      pmtContinuityCounter := (state.pmtContinuityCounter + 1) &&& 0x0f
      audioContinuityCounter := state'.audioContinuityCounter } frameCount

/-- The state in which the loop of a call starts. -/
def afterTables (state : StreamMuxMpegtsState) : StreamMuxMpegtsState :=
  { state with
    patContinuityCounter := (state.patContinuityCounter + 1) &&& 0x0f
    pmtContinuityCounter := (state.pmtContinuityCounter + 1) &&& 0x0f }

/-- The loop of a call, before its first round. -/
def firstCursor (state : StreamMuxMpegtsState) : AudioCursor :=
  ⟨afterTables state, (tablePackets state).flatMap Packet.encode, 0, true, false⟩

/-- A successful call builds a PES packet and runs the loop over it without running out of room. -/
lemma streamMuxMpegtsWriteAudio_some {state state' : StreamMuxMpegtsState} {samples : ℕ → Int16}
    {frameCount capacity : ℕ} {out : List UInt8}
    (h : streamMuxMpegtsWriteAudio state samples frameCount capacity = some (state', some out)) :
    ∃ pes c,
      streamMuxMpegtsBuildPes state samples frameCount streamMuxMpegtsMaxPesBytes = some pes ∧
      Loop.run (AudioCursor.more pes) (some ∘ AudioCursor.round pes capacity) (pes.length + 1)
        (firstCursor state) = some c ∧ c.failed = false ∧
      state' = streamMuxMpegtsAdvancePts c.state frameCount ∧ out = c.buffer := by
  have hcap : ¬ capacity < 2 * streamMuxMpegtsPacketSize := by
    intro hcap
    rw [streamMuxMpegtsWriteAudio, if_pos hcap] at h
    simp at h
  rw [streamMuxMpegtsWriteAudio, if_neg hcap] at h
  dsimp only at h
  rw [tablePackets_encode] at h
  have hafter : (streamMuxMpegtsWritePmtPacket (streamMuxMpegtsWritePatPacket state).1).1
      = afterTables state := rfl
  rw [hafter] at h
  have hbuild : streamMuxMpegtsBuildPes (afterTables state) samples frameCount
      streamMuxMpegtsMaxPesBytes
        = streamMuxMpegtsBuildPes state samples frameCount streamMuxMpegtsMaxPesBytes := rfl
  rw [hbuild] at h
  cases hpes : streamMuxMpegtsBuildPes state samples frameCount streamMuxMpegtsMaxPesBytes with
  | none => simp [hpes] at h
  | some pes =>
    simp only [hpes, Option.bind_eq_bind, Option.bind_eq_some_iff] at h
    obtain ⟨c, hrun, hresult⟩ := h
    have hok : c.failed = false := by
      rw [← Bool.not_eq_true]
      intro hfailed
      rw [if_pos hfailed] at hresult
      simp at hresult
    simp only [hok, Bool.false_eq_true, if_false, Option.some.injEq, Prod.mk.injEq] at hresult
    exact ⟨pes, c, rfl, hrun, hok, hresult.1.symm, hresult.2.symm⟩

lemma streamMuxMpegtsBuildPes_pos {state : StreamMuxMpegtsState} {samples : ℕ → Int16}
    {frameCount : ℕ} {pes : List UInt8}
    (h : streamMuxMpegtsBuildPes state samples frameCount streamMuxMpegtsMaxPesBytes = some pes) :
    0 < pes.length := by
  have hspec := streamMuxMpegtsBuildPes_spec state samples frameCount
  rw [h] at hspec
  split_ifs at hspec
  obtain ⟨_, hbuilt, hreads⟩ := hspec
  obtain rfl := Option.some.inj hbuilt
  rw [hreads.length_eq]
  omega

/-- The loop leaves a trail of packets, and it ends at the end of the PES packet. -/
lemma audioTrail_run {state : StreamMuxMpegtsState} {pes : List UInt8} {capacity fuel : ℕ}
    {c : AudioCursor}
    (hrun : Loop.run (AudioCursor.more pes) (some ∘ AudioCursor.round pes capacity) fuel
      (firstCursor state) = some c) (hok : c.failed = false) :
    pes.length ≤ c.pesOffset ∧ ∃ audio,
      AudioTrail (afterTables state) pes ((tablePackets state).flatMap Packet.encode) c audio := by
  have hinit : AudioTrail (afterTables state) pes ((tablePackets state).flatMap Packet.encode)
      (firstCursor state) [] :=
    { buffer := by simp [firstCursor]
      state_eq := rfl
      counter := rfl
      counts := countsFrom_nil _
      packets := by simp
      first := ⟨rfl, rfl⟩ }
  obtain ⟨htrail, hexit⟩ := Loop.run_invariant
    (fun c => c.failed = false → ∃ ps, AudioTrail (afterTables state) pes
      ((tablePackets state).flatMap Packet.encode) c ps)
    (fun c d hc hmore hd hok => by
      obtain rfl : c.round pes capacity = d := by simpa using hd
      obtain ⟨ps, hps⟩ := hc (AudioCursor.of_more hmore).1
      exact hps.round hmore hok)
    _ (fun _ => ⟨[], hinit⟩) hrun
  exact ⟨by simpa [AudioCursor.more, hok] using hexit, htrail hok⟩

/-- Only the clock advances. -/
lemma streamMuxMpegtsAdvancePts_counter (state : StreamMuxMpegtsState) (frameCount : ℕ) :
    (streamMuxMpegtsAdvancePts state frameCount).audioContinuityCounter
      = state.audioContinuityCounter := by
  -- With the new clock as a variable: the kernel would evaluate the sum to compare the states.
  have hclock (pts : UInt64) (remainder : UInt32) :
      ({ state with pts90khz := pts, ptsNumeratorRemainder := remainder } :
        StreamMuxMpegtsState).audioContinuityCounter = state.audioContinuityCounter := rfl
  exact hclock _ _

lemma streamMuxMpegtsWriteAudio_written {state state' : StreamMuxMpegtsState} {samples : ℕ → Int16}
    {frameCount capacity : ℕ} {out : List UInt8}
    (h : streamMuxMpegtsWriteAudio state samples frameCount capacity = some (state', some out)) :
    ∃ audio, ChunkWritten state state' frameCount out audio := by
  obtain ⟨pes, c, hpes, hrun, hok, rfl, rfl⟩ := streamMuxMpegtsWriteAudio_some h
  obtain ⟨hdone, audio, haudio⟩ := audioTrail_run hrun hok
  have hpos := streamMuxMpegtsBuildPes_pos hpes
  have hfirst := haudio.first
  cases hc : c.firstPacket with
  | true =>
    rw [hc, if_pos rfl] at hfirst
    omega
  | false =>
    have hcounter := streamMuxMpegtsAdvancePts_counter c.state frameCount
    have hstart : (afterTables state).audioContinuityCounter = state.audioContinuityCounter := rfl
    have htrail := haudio.counter
    rw [hc, if_neg Bool.false_ne_true] at hfirst
    rw [← hcounter, hstart] at htrail
    refine ⟨audio, ?_, haudio.packets, haudio.counts, htrail, ?_, ?_⟩
    · rw [haudio.buffer, List.flatMap_append]
    · exact ⟨samples, pes, hpes, hfirst⟩
    · rw [hcounter]
      exact congrArg (streamMuxMpegtsAdvancePts · frameCount) haudio.state_eq

/-! ### Whole streams -/

/-- A sequence of successful calls, each with its frame count and its output. -/
inductive AudioWrites :
    StreamMuxMpegtsState → List (ℕ × List UInt8) → StreamMuxMpegtsState → Prop
  | nil (state : StreamMuxMpegtsState) : AudioWrites state [] state
  | cons {state state' last : StreamMuxMpegtsState} {samples : ℕ → Int16} {n capacity : ℕ}
      {out : List UInt8} {calls : List (ℕ × List UInt8)}
      (h : streamMuxMpegtsWriteAudio state samples n capacity = some (state', some out))
      (hcalls : AudioWrites state' calls last) : AudioWrites state ((n, out) :: calls) last

/-- Chunks of any size that fits a PES packet can be written one after the other. -/
lemma exists_audioWrites (state : StreamMuxMpegtsState) (ns : List ℕ)
    (h : ∀ n ∈ ns, 18 + 4 * n ≤ streamMuxMpegtsMaxPesBytes) :
    ∃ calls last, AudioWrites state calls last ∧ calls.map Prod.fst = ns := by
  induction ns generalizing state with
  | nil => exact ⟨[], state, .nil state, rfl⟩
  | cons n ns ih =>
    obtain ⟨state', result, hwrite, hsome, -⟩ := streamMuxMpegtsWriteAudio_spec state (fun _ => 0) n
      (188 * (2 + audioPacketCount (18 + 4 * n)))
    obtain ⟨out, rfl⟩ := Option.isSome_iff_exists.1 (hsome.2 ⟨h n List.mem_cons_self, le_rfl⟩)
    obtain ⟨calls, last, hcalls, hns⟩ := ih state' fun m hm => h m (List.mem_cons_of_mem n hm)
    exact ⟨(n, out) :: calls, last, .cons hwrite hcalls, by rw [List.map_cons, hns]⟩

/-! ### Continuity counters -/

/-- The PIDs of a stream: PAT, PMT and audio. -/
def streamPids : List ℕ := [0x0000, 0x0100, 0x1100]

/-- The counter the next packet of a PID carries, modulo 16. -/
def pidCounter (state : StreamMuxMpegtsState) (pid : ℕ) : ℕ :=
  if pid = 0x0000 then state.patContinuityCounter.toNat
  else if pid = 0x0100 then state.pmtContinuityCounter.toNat
  else state.audioContinuityCounter.toNat

/-- A packet of the stream that carries payload. -/
structure StreamPacket (p : Packet) : Prop where
  fits : p.Fits
  payload : p.payload.isSome = true
  data : p.data ≠ []
  pid_mem : p.pid ∈ streamPids

/-- Packets that take the counters of one state to those of another. -/
structure Continues (state : StreamMuxMpegtsState) (ps : List Packet)
    (state' : StreamMuxMpegtsState) : Prop where
  packets : ∀ p ∈ ps, StreamPacket p
  counts : ∀ pid ∈ streamPids, CountsFrom (pidCounter state pid) (counters pid ps)
  next : ∀ pid ∈ streamPids,
    pidCounter state' pid % 16 = (pidCounter state pid + (counters pid ps).length) % 16

lemma Continues.refl (state : StreamMuxMpegtsState) : Continues state [] state where
  packets := by simp
  counts := fun _ _ => countsFrom_nil _
  next := fun _ _ => rfl

lemma Continues.trans {s₁ s₂ s₃ : StreamMuxMpegtsState} {ps qs : List Packet}
    (hps : Continues s₁ ps s₂) (hqs : Continues s₂ qs s₃) : Continues s₁ (ps ++ qs) s₃ where
  packets := by
    intro p hp
    rcases List.mem_append.1 hp with hp | hp
    · exact hps.packets p hp
    · exact hqs.packets p hp
  counts := by
    intro pid hpid
    rw [counters_append]
    exact (hps.counts pid hpid).append (hqs.counts pid hpid) (hps.next pid hpid)
  next := by
    intro pid hpid
    have h₁ := hps.next pid hpid
    have h₂ := hqs.next pid hpid
    rw [counters_append, List.length_append]
    omega

/-- The tables count one packet on each of their PIDs. -/
lemma tablePackets_continues {state state' : StreamMuxMpegtsState}
    (hpat : state'.patContinuityCounter = (state.patContinuityCounter + 1) &&& 0x0f)
    (hpmt : state'.pmtContinuityCounter = (state.pmtContinuityCounter + 1) &&& 0x0f)
    (haudio : state'.audioContinuityCounter = state.audioContinuityCounter) :
    Continues state (tablePackets state) state' where
  packets := by
    intro p hp
    have hfits := tablePackets_fits state p hp
    simp only [tablePackets, List.mem_cons, List.not_mem_nil, or_false] at hp
    rcases hp with rfl | rfl
    · exact ⟨hfits, rfl, List.cons_ne_nil _ _, List.mem_cons_self⟩
    · exact ⟨hfits, rfl, List.cons_ne_nil _ _, List.mem_cons_of_mem _ List.mem_cons_self⟩
  counts := by
    intro pid hpid
    simp only [streamPids, List.mem_cons, List.not_mem_nil, or_false] at hpid
    rcases hpid with rfl | rfl | rfl
    · exact countsFrom_singleton _
    · exact countsFrom_singleton _
    · exact countsFrom_nil _
  next := by
    intro pid hpid
    simp only [streamPids, List.mem_cons, List.not_mem_nil, or_false] at hpid
    rcases hpid with rfl | rfl | rfl
    · simp only [pidCounter, hpat, counter_next, if_true]
      exact Nat.mod_mod _ _
    · have hne : ¬ (0x0100 : ℕ) = 0x0000 := by decide
      simp only [pidCounter, hpmt, counter_next, if_neg hne, if_true]
      exact Nat.mod_mod _ _
    · have hpat : ¬ (0x1100 : ℕ) = 0x0000 := by decide
      have hpmt : ¬ (0x1100 : ℕ) = 0x0100 := by decide
      simp only [pidCounter, haudio, if_neg hpat, if_neg hpmt]
      rfl

/-- The audio packets count on the audio PID only. -/
lemma audioPackets_continues {state state' : StreamMuxMpegtsState} {audio : List Packet}
    (hpackets : ∀ p ∈ audio, AudioPacket p ∧ p.payload.isSome = true ∧ p.data ≠ [])
    (hcounts : CountsFrom state.audioContinuityCounter.toNat (audio.map Packet.counter))
    (hcounter : state'.audioContinuityCounter.toNat % 16
      = (state.audioContinuityCounter.toNat + audio.length) % 16)
    (hpat : state'.patContinuityCounter = state.patContinuityCounter)
    (hpmt : state'.pmtContinuityCounter = state.pmtContinuityCounter) :
    Continues state audio state' := by
  have hpid : ∀ p ∈ audio, p.pid = 0x1100 := fun p hp => (hpackets p hp).1.pid_eq
  have hother (pid : ℕ) (hne : 0x1100 ≠ pid) : counters pid audio = [] :=
    counters_of_forall_ne fun p hp => hpid p hp ▸ hne
  have haudio : counters 0x1100 audio = audio.map Packet.counter := counters_of_forall hpid
  refine ⟨fun p hp => ?_, fun pid h => ?_, fun pid h => ?_⟩
  · obtain ⟨hpacket, hpayload, hdata⟩ := hpackets p hp
    refine ⟨hpacket.fits, hpayload, hdata, ?_⟩
    rw [hpacket.pid_eq]
    decide
  · simp only [streamPids, List.mem_cons, List.not_mem_nil, or_false] at h
    rcases h with rfl | rfl | rfl
    · rw [hother 0x0000 (by decide)]
      exact countsFrom_nil _
    · rw [hother 0x0100 (by decide)]
      exact countsFrom_nil _
    · rw [haudio]
      exact hcounts
  · simp only [streamPids, List.mem_cons, List.not_mem_nil, or_false] at h
    rcases h with rfl | rfl | rfl
    · rw [hother 0x0000 (by decide)]
      exact congrArg (fun counter : UInt8 => counter.toNat % 16) hpat
    · rw [hother 0x0100 (by decide)]
      exact congrArg (fun counter : UInt8 => counter.toNat % 16) hpmt
    · rw [haudio, List.length_map]
      exact hcounter

/-- One call continues all three counters. -/
lemma ChunkWritten.continues {state state' : StreamMuxMpegtsState} {n : ℕ} {out : List UInt8}
    {audio : List Packet} (h : ChunkWritten state state' n out audio) :
    Continues state (tablePackets state ++ audio) state' := by
  have htables : Continues state (tablePackets state) (afterTables state) :=
    tablePackets_continues rfl rfl rfl
  refine htables.trans (audioPackets_continues h.packets h.counts h.counter ?_ ?_)
  · rw [h.next]
    rfl
  · rw [h.next]
    rfl

/-- A sequence of calls continues all three counters. -/
lemma AudioWrites.continues {state last : StreamMuxMpegtsState} {calls : List (ℕ × List UInt8)}
    (h : AudioWrites state calls last) :
    ∃ ps, calls.flatMap Prod.snd = ps.flatMap Packet.encode ∧ Continues state ps last := by
  induction h with
  | nil state => exact ⟨[], rfl, .refl state⟩
  | cons hwrite _ ih =>
    obtain ⟨audio, hchunk⟩ := streamMuxMpegtsWriteAudio_written hwrite
    obtain ⟨ps, hps, hcontinues⟩ := ih
    refine ⟨_, ?_, hchunk.continues.trans hcontinues⟩
    rw [List.flatMap_cons, hps, List.flatMap_append, hchunk.bytes]

/-- The prelude is the two tables. -/
lemma streamMuxMpegtsBuildPrelude_continues {icy icy' : IcyMetadataState}
    {state state' : StreamMuxMpegtsState} {capacity : ℕ} {prelude : List UInt8}
    (h : streamMuxMpegtsBuildPrelude icy state capacity = (icy', state', some prelude)) :
    prelude = (tablePackets state).flatMap Packet.encode ∧ state' = afterTables state := by
  unfold streamMuxMpegtsBuildPrelude at h
  by_cases hcap : 2 * streamMuxMpegtsPacketSize > capacity
  · rw [if_pos hcap] at h
    simp at h
  · rw [if_neg hcap] at h
    dsimp only at h
    rw [Prod.mk.injEq, Prod.mk.injEq, Option.some.injEq] at h
    rw [← tablePackets_encode]
    exact ⟨h.2.2.symm, h.2.1.symm⟩

/-- In a client's whole stream the counter of each PID starts at 0 and counts every packet; every
packet carries payload, and there are no other PIDs. -/
theorem streamMuxMpegts_continuity (channels : UInt16) (icy icy' : IcyMetadataState)
    (capacity : ℕ) (state last : StreamMuxMpegtsState) (prelude : List UInt8)
    (calls : List (ℕ × List UInt8))
    (hprelude : streamMuxMpegtsBuildPrelude icy (streamMuxMpegtsInit channels) capacity
      = (icy', state, some prelude))
    (hcalls : AudioWrites state calls last) :
    ∃ packets, parseStream (prelude ++ calls.flatMap Prod.snd) = some packets ∧
      (∀ p ∈ packets, p.payload.isSome = true ∧ p.data ≠ [] ∧
        (p.pid = 0x0000 ∨ p.pid = 0x0100 ∨ p.pid = 0x1100)) ∧
      ∀ pid, pid = 0x0000 ∨ pid = 0x0100 ∨ pid = 0x1100 → CountsFrom 0 (counters pid packets) := by
  obtain ⟨rfl, rfl⟩ := streamMuxMpegtsBuildPrelude_continues hprelude
  obtain ⟨ps, hps, hcontinues⟩ := hcalls.continues
  have htables : Continues (streamMuxMpegtsInit channels)
      (tablePackets (streamMuxMpegtsInit channels)) (afterTables (streamMuxMpegtsInit channels)) :=
    tablePackets_continues rfl rfl rfl
  have hstream := htables.trans hcontinues
  have hzero (pid : ℕ) : pidCounter (streamMuxMpegtsInit channels) pid = 0 := by
    unfold pidCounter
    split_ifs <;> rfl
  refine ⟨tablePackets (streamMuxMpegtsInit channels) ++ ps, ?_, fun p hp => ?_, fun pid hpid => ?_⟩
  · rw [hps, ← List.flatMap_append]
    exact parseStream_flatMap_encode fun p hp => (hstream.packets p hp).fits
  · have hpacket := hstream.packets p hp
    exact ⟨hpacket.payload, hpacket.data, by simpa [streamPids] using hpacket.pid_mem⟩
  · have hcounts := hstream.counts pid (by simpa [streamPids] using hpid)
    rwa [hzero] at hcounts

/-- Two chunks after a prelude. -/
theorem streamMuxMpegts_continuity_twoChunks :
    ∃ (prelude : List UInt8) (calls : List (ℕ × List UInt8)) (packets : List Packet),
      calls.map Prod.fst = [1147, 240] ∧
      parseStream (prelude ++ calls.flatMap Prod.snd) = some packets ∧
      ∀ pid, pid = 0x0000 ∨ pid = 0x0100 ∨ pid = 0x1100 → CountsFrom 0 (counters pid packets) := by
  obtain ⟨state, hprelude⟩ := streamMuxMpegtsBuildPrelude_spec (icyMetadataInit false)
    (streamMuxMpegtsInit 2) (le_refl (2 * 188))
  obtain ⟨calls, last, hcalls, hframes⟩ := exists_audioWrites state [1147, 240] (by decide)
  obtain ⟨packets, hparse, -, hcounts⟩ := streamMuxMpegts_continuity 2 _ _ _ state last _ calls
    hprelude hcalls
  exact ⟨_, calls, packets, hframes, hparse, hcounts⟩

/-! ### Time stamps -/

/-- The muxer's clock, in ticks of 90 kHz and 48000ths of them. -/
def muxClock (state : StreamMuxMpegtsState) : Clock :=
  ⟨state.pts90khz.toNat, state.ptsNumeratorRemainder.toNat⟩

/-- The machine arithmetic of an advance does not wrap. -/
lemma muxClock_advance {state : StreamMuxMpegtsState} {elapsed n : ℕ}
    (h : (muxClock state).Shows 90000 48000 elapsed) (helapsed : elapsed < 2 ^ 40)
    (hn : n < 2 ^ 40) :
    muxClock (streamMuxMpegtsAdvancePts state n) = (muxClock state).advance 90000 48000 n := by
  have htime : state.pts90khz.toNat * 48000 + state.ptsNumeratorRemainder.toNat
      = elapsed * 90000 := h.exact_time
  have hrem : state.ptsNumeratorRemainder.toNat < 48000 := h.remainder_lt
  have hnum : (UInt64.ofNat n * 90000 + state.ptsNumeratorRemainder.toUInt64).toNat
      = n * 90000 + state.ptsNumeratorRemainder.toNat := by
    simp only [UInt64.toNat_add, UInt64.toNat_mul, UInt64.toNat_ofNat', UInt32.toNat_toUInt64,
      UInt64.reduceToNat]
    omega
  have hticks : (state.pts90khz + (UInt64.ofNat n * 90000
      + state.ptsNumeratorRemainder.toUInt64) / 48000).toNat
        = state.pts90khz.toNat + (n * 90000 + state.ptsNumeratorRemainder.toNat) / 48000 := by
    simp only [UInt64.toNat_add, UInt64.toNat_div, hnum, UInt64.reduceToNat]
    omega
  have hcarry : ((UInt64.ofNat n * 90000 + state.ptsNumeratorRemainder.toUInt64)
      % 48000).toUInt32.toNat = (n * 90000 + state.ptsNumeratorRemainder.toNat) % 48000 := by
    simp only [UInt64.toNat_toUInt32, UInt64.toNat_mod, hnum, UInt64.reduceToNat]
    omega
  simp only [muxClock, streamMuxMpegtsAdvancePts, Clock.advance, hticks, hcarry]

/-- The frames of a chunk fit a PES packet. -/
lemma ChunkWritten.frames_le {state state' : StreamMuxMpegtsState} {n : ℕ} {out : List UInt8}
    {audio : List Packet} (h : ChunkWritten state state' n out audio) :
    18 + 4 * n ≤ streamMuxMpegtsMaxPesBytes := by
  obtain ⟨samples, pes, hpes, -⟩ := h.first
  have hspec := streamMuxMpegtsBuildPes_spec state samples n
  split_ifs at hspec with hmax
  · exact hmax
  · rw [hspec] at hpes
    cases hpes

lemma ChunkWritten.clock {state state' : StreamMuxMpegtsState} {n : ℕ} {out : List UInt8}
    {audio : List Packet} (h : ChunkWritten state state' n out audio) {elapsed : ℕ}
    (hshows : (muxClock state).Shows 90000 48000 elapsed) (helapsed : elapsed < 2 ^ 40) :
    (muxClock state').Shows 90000 48000 (elapsed + n) := by
  have hn : 18 + 4 * n ≤ 4608 := h.frames_le
  have hadvance : muxClock state' = (muxClock state).advance 90000 48000 n := by
    rw [h.next]
    exact muxClock_advance hshows helapsed (by omega)
  rw [hadvance]
  exact hshows.advance n

/-- The first audio packet of a chunk carries the clock twice. -/
lemma ChunkWritten.stamps {state state' : StreamMuxMpegtsState} {n : ℕ} {out : List UInt8}
    {audio : List Packet} (h : ChunkWritten state state' n out audio)
    (hsmall : state.pts90khz.toNat * 300 < 2 ^ 64) :
    ∃ first, (tablePackets state ++ audio).find? (·.pid = 0x1100) = some first ∧
      first.timestamp = some ⟨state.pts90khz.toNat % 2 ^ 33, true⟩ ∧
      first.clockReference = some ⟨state.pts90khz.toNat % 2 ^ 33, 63, 0⟩ := by
  obtain ⟨samples, pes, hpes, hhead⟩ := h.first
  obtain ⟨rest, rfl⟩ := List.head?_eq_some_iff.1 hhead
  refine ⟨startPacket state (pes.take 176), ?_, ?_, ?_⟩
  · simp [tablePackets, sectionPacket, startPacket]
  · have hpts := streamMuxMpegtsWritePts_decode state.pts90khz
    obtain ⟨p₀, p₁, p₂, p₃, p₄, hbytes⟩ : ∃ p₀ p₁ p₂ p₃ p₄,
      streamMuxMpegtsWritePts state.pts90khz = [p₀, p₁, p₂, p₃, p₄] := ⟨_, _, _, _, _, rfl⟩
    unfold streamMuxMpegtsBuildPes at hpes
    dsimp only at hpes
    split_ifs at hpes with hlong
    rw [← Option.some.inj hpes, hbytes]
    rw [hbytes] at hpts
    simp [Packet.timestamp, Packet.data, startPacket, Pes.parse, hpts]
  · have hpcr := streamMuxMpegtsWritePcr_decode (state.pts90khz * 300)
    have hmul : (state.pts90khz * 300).toNat = state.pts90khz.toNat * 300 := by
      rw [UInt64.toNat_mul]
      exact Nat.mod_eq_of_lt hsmall
    rw [hmul, Nat.mul_div_cancel _ (by decide : 0 < 300), Nat.mul_mod_left] at hpcr
    rw [← hpcr]
    rfl

/-- The states a stream's audio can start from. -/
inductive StreamStart (channels : UInt16) : StreamMuxMpegtsState → Prop
  | init : StreamStart channels (streamMuxMpegtsInit channels)
  | prelude {icy icy' : IcyMetadataState} {capacity : ℕ} {state : StreamMuxMpegtsState}
      {prelude : List UInt8}
      (h : streamMuxMpegtsBuildPrelude icy (streamMuxMpegtsInit channels) capacity
        = (icy', state, some prelude)) : StreamStart channels state

lemma StreamStart.clock {channels : UInt16} {state : StreamMuxMpegtsState}
    (h : StreamStart channels state) : (muxClock state).Shows 90000 48000 0 := by
  have hzero : Clock.Shows 90000 48000 ⟨0, 0⟩ 0 := Clock.shows_zero 90000 (by decide)
  cases h with
  | init => exact hzero
  | prelude h =>
    obtain ⟨-, rfl⟩ := streamMuxMpegtsBuildPrelude_continues h
    exact hzero

/-- The clocks of every call, when the first of them comes after `elapsed` frames. -/
lemma AudioWrites.clocks {state last : StreamMuxMpegtsState} {calls : List (ℕ × List UInt8)}
    (h : AudioWrites state calls last) {elapsed : ℕ}
    (hshows : (muxClock state).Shows 90000 48000 elapsed)
    (htotal : elapsed + (calls.map Prod.fst).sum < 2 ^ 40) :
    (muxClock last).Shows 90000 48000 (elapsed + (calls.map Prod.fst).sum) ∧
    ∀ k n out, calls[k]? = some (n, out) → ∃ packets first, parseStream out = some packets ∧
      packets.find? (·.pid = 0x1100) = some first ∧
      first.timestamp = some
        ⟨(elapsed + ((calls.take k).map Prod.fst).sum) * 90000 / 48000 % 2 ^ 33, true⟩ ∧
      first.clockReference = some
        ⟨(elapsed + ((calls.take k).map Prod.fst).sum) * 90000 / 48000 % 2 ^ 33, 63, 0⟩ := by
  induction h generalizing elapsed with
  | nil state => exact ⟨hshows, fun k n out hk => by simp at hk⟩
  | @cons state state' last samples n capacity out calls hwrite _ ih =>
    obtain ⟨audio, hchunk⟩ := streamMuxMpegtsWriteAudio_written hwrite
    rw [List.map_cons, List.sum_cons] at htotal ⊢
    obtain ⟨hlast, hlater⟩ := ih (hchunk.clock hshows (by omega)) (by omega)
    refine ⟨by rwa [Nat.add_assoc] at hlast, fun k m out' hk => ?_⟩
    cases k with
    | zero =>
      obtain ⟨rfl, rfl⟩ : n = m ∧ out = out' := by simpa using hk
      have hticks : state.pts90khz.toNat = elapsed * 90000 / 48000 := hshows.ticks_eq
      obtain ⟨first, hfirst, hpts, hpcr⟩ := hchunk.stamps (by omega)
      rw [hticks] at hpts hpcr
      refine ⟨_, first, ?_, hfirst, hpts, hpcr⟩
      rw [hchunk.bytes]
      exact parseStream_flatMap_encode fun p hp => (hchunk.continues.packets p hp).fits
    | succ k =>
      have hcall := hlater k m out' (by simpa using hk)
      rwa [Nat.add_assoc] at hcall

/-- However the frames are cut into chunks, the time stamp and the clock reference of each chunk are
the frames sent before it in ticks of 90 kHz, rounded down once. -/
theorem streamMuxMpegts_clocks (channels : UInt16) (state last : StreamMuxMpegtsState)
    (calls : List (ℕ × List UInt8)) (hstart : StreamStart channels state)
    (hcalls : AudioWrites state calls last) (htotal : (calls.map Prod.fst).sum < 2 ^ 40) :
    last.ptsNumeratorRemainder.toNat < 48000 ∧
    ∀ k n out, calls[k]? = some (n, out) → ∃ packets first, parseStream out = some packets ∧
      packets.find? (·.pid = 0x1100) = some first ∧
      first.timestamp = some
        ⟨((calls.take k).map Prod.fst).sum * 90000 / 48000 % 2 ^ 33, true⟩ ∧
      first.clockReference = some
        ⟨((calls.take k).map Prod.fst).sum * 90000 / 48000 % 2 ^ 33, 63, 0⟩ := by
  obtain ⟨hlast, hclocks⟩ := hcalls.clocks hstart.clock (by rwa [Nat.zero_add])
  simp only [Nat.zero_add] at hclocks
  exact ⟨hlast.remainder_lt, hclocks⟩

/-- Three frames and then a chunk: the second time stamp is rounded down. -/
theorem streamMuxMpegts_clocks_secondChunk :
    ∃ calls : List (ℕ × List UInt8), calls.map Prod.fst = [3, 240] ∧
      ∃ out packets first, calls[1]? = some (240, out) ∧ parseStream out = some packets ∧
        packets.find? (·.pid = 0x1100) = some first ∧ first.timestamp = some ⟨5, true⟩ := by
  obtain ⟨calls, last, hcalls, hframes⟩ := exists_audioWrites (streamMuxMpegtsInit 2) [3, 240]
    (by decide)
  rcases calls with _ | ⟨⟨m, out₁⟩, _ | ⟨⟨n, out₂⟩, _ | ⟨call, calls⟩⟩⟩ <;>
    simp only [List.map_cons, List.map_nil, List.cons.injEq, reduceCtorEq, and_false] at hframes
  obtain ⟨rfl, rfl, -⟩ := hframes
  obtain ⟨-, hclocks⟩ := streamMuxMpegts_clocks 2 _ _ [(3, out₁), (240, out₂)] .init hcalls
    (show 3 + (240 + 0) < 2 ^ 40 by decide)
  obtain ⟨packets, first, hparse, hfirst, hpts, -⟩ := hclocks 1 240 out₂ rfl
  have hticks : 3 * 90000 / 48000 % 2 ^ 33 = 5 := rfl
  rw [List.take_one, List.head?_cons, Option.toList_some, List.map_singleton, List.sum_singleton,
    hticks] at hpts
  exact ⟨[(3, out₁), (240, out₂)], rfl, out₂, packets, first, rfl, hparse, hfirst, hpts⟩

end Mpxcast
