import Mathlib.Tactic

/-!
# MPEG transport streams

A receiver's view of a transport stream: 188-byte packets with their adaptation field and payload,
the units reassembled from the payloads of one PID, PES packets and LPCM audio. `Packet.encode` is
the layout of a packet and `Packet.parse` is what a demultiplexer makes of it, following
`adaptation_field_control` and `adaptation_field_length`.
-/

namespace TransportStream

def packetSize : ℕ := 188

def syncByte : UInt8 := 0x47

/-- A two-byte big-endian number. -/
def bigEndian (hi lo : UInt8) : ℕ := 256 * hi.toNat + lo.toNat

/-! ### Packets -/

/-- A transport packet. The adaptation field is what follows its length byte. -/
structure Packet where
  unitStart : Bool
  pid : ℕ
  counter : ℕ
  adaptation : Option (List UInt8)
  payload : Option (List UInt8)
deriving DecidableEq, Repr

namespace Packet

/-- The two bits of `adaptation_field_control`; the value 0 is reserved. -/
def control (p : Packet) : ℕ :=
  (if p.adaptation.isSome then 2 else 0) + (if p.payload.isSome then 1 else 0)

/-- The payload bytes, none for a packet that has only an adaptation field. -/
def data (p : Packet) : List UInt8 := p.payload.getD []

/-- What follows the four header bytes. -/
def body (p : Packet) : List UInt8 :=
  (match p.adaptation with
    | none => []
    | some field => UInt8.ofNat field.length :: field) ++ p.data

/-- The four header bytes. -/
def header (unitStart : Bool) (pid control counter : ℕ) : List UInt8 :=
  [syncByte, UInt8.ofNat ((if unitStart then 64 else 0) + pid / 256), UInt8.ofNat (pid % 256),
    UInt8.ofNat (16 * control + counter)]

/-- The bytes of a packet. -/
def encode (p : Packet) : List UInt8 :=
  header p.unitStart p.pid p.control p.counter ++ p.body

/-- The fields are in range and fill the packet exactly. -/
structure Fits (p : Packet) : Prop where
  pid_lt : p.pid < 8192
  counter_lt : p.counter < 16
  control_ne : p.control ≠ 0
  body_length : p.body.length + 4 = packetSize

/-- Separates the adaptation field from the payload. -/
def splitBody (control : ℕ) (rest : List UInt8) :
    Option (Option (List UInt8) × Option (List UInt8)) :=
  match control, rest with
  | 1, rest => some (none, some rest)
  | 2, len :: rest => if len.toNat = rest.length then some (some rest, none) else none
  | 3, len :: rest =>
    if len.toNat ≤ rest.length then some (some (rest.take len.toNat), some (rest.drop len.toNat))
    else none
  | _, _ => none

/-- Reads one packet. Packets with a transport error or a scrambled payload are refused. -/
def parse (bytes : List UInt8) : Option Packet :=
  match bytes with
  | sync :: b₁ :: b₂ :: b₃ :: rest =>
    if sync = syncByte ∧ rest.length + 4 = packetSize ∧ b₁.toNat < 128 ∧ b₃.toNat < 64 then
      (splitBody (b₃.toNat / 16) rest).map fun (adaptation, payload) =>
        { unitStart := b₁.toNat / 64 = 1
          pid := 256 * (b₁.toNat % 32) + b₂.toNat
          counter := b₃.toNat % 16
          adaptation, payload }
    else none
  | _ => none

@[simp] lemma encode_length {p : Packet} (h : p.Fits) : p.encode.length = packetSize := by
  simp only [encode, header, List.length_append, List.length_cons, List.length_nil, ← h.body_length]
  omega

@[simp] lemma encode_head (p : Packet) : p.encode.head? = some syncByte := by
  simp [encode, header]

lemma control_lt (p : Packet) : p.control < 4 := by
  simp only [control]
  split <;> split <;> omega

lemma splitBody_body {p : Packet} (h : p.Fits) :
    splitBody p.control p.body = some (p.adaptation, p.payload) := by
  have hlen := h.body_length
  have hne := h.control_ne
  revert hlen hne
  obtain ⟨unitStart, pid, counter, _ | field, _ | payload⟩ := p <;>
    simp only [control, body, data, packetSize, List.length_append, List.length_cons,
      Option.isSome_none, Option.isSome_some, Option.getD_none, Option.getD_some]
  · simp
  · simp [splitBody]
  · intro hlen _
    have hfield : field.length < 256 := by simp at hlen; omega
    simp [splitBody, Nat.mod_eq_of_lt hfield]
  · intro hlen _
    have hfield : field.length < 256 := by omega
    simp [splitBody, Nat.mod_eq_of_lt hfield]

/-- Reading undoes writing. -/
theorem parse_encode {p : Packet} (h : p.Fits) : parse p.encode = some p := by
  have hpid := h.pid_lt
  have hcounter := h.counter_lt
  have hcontrol := p.control_lt
  have hb₁ : ((if p.unitStart then 64 else 0) + p.pid / 256) % 256
      = (if p.unitStart then 64 else 0) + p.pid / 256 := by
    apply Nat.mod_eq_of_lt
    split <;> omega
  have hb₃ : (16 * p.control + p.counter) % 256 = 16 * p.control + p.counter :=
    Nat.mod_eq_of_lt (by omega)
  have hlo : p.pid % 256 % 256 = p.pid % 256 := Nat.mod_mod _ _
  have hctl : (16 * p.control + p.counter) / 16 = p.control := by omega
  have hctr : (16 * p.control + p.counter) % 16 = p.counter := by omega
  simp only [encode, header, List.cons_append, List.nil_append, parse, UInt8.toNat_ofNat',
    Nat.reducePow,
    hb₁, hb₃, hlo, hctl, hctr, splitBody_body h, h.body_length, true_and, Option.map_some]
  rw [if_pos ⟨by split <;> omega, by omega⟩]
  obtain ⟨unitStart, pid, counter, adaptation, payload⟩ := p
  simp only at hpid
  simp only [Option.some.injEq, mk.injEq, and_true]
  cases unitStart
  · refine ⟨?_, ?_⟩
    · simp
      omega
    · simp
      omega
  · refine ⟨?_, ?_⟩
    · simp
      omega
    · simp
      omega

end Packet

/-! ### Streams of packets -/

/-- Cuts a byte string into packets and reads each of them. -/
def parsePackets : ℕ → List UInt8 → Option (List Packet)
  | 0, bytes => if bytes = [] then some [] else none
  | n + 1, bytes => do
    let p ← Packet.parse (bytes.take packetSize)
    let ps ← parsePackets n (bytes.drop packetSize)
    return p :: ps

/-- Reads a byte string that consists of whole packets. -/
def parseStream (bytes : List UInt8) : Option (List Packet) :=
  parsePackets (bytes.length / packetSize) bytes

lemma flatMap_encode_length {ps : List Packet} (h : ∀ p ∈ ps, p.Fits) :
    (ps.flatMap Packet.encode).length = packetSize * ps.length := by
  induction ps with
  | nil => simp
  | cons p ps ih =>
    rw [List.flatMap_cons, List.length_append, ih fun q hq => h q (by simp [hq]),
      Packet.encode_length (h p (by simp)), List.length_cons]
    ring

/-- A stream of encoded packets is read back as these packets. -/
theorem parseStream_flatMap_encode {ps : List Packet} (h : ∀ p ∈ ps, p.Fits) :
    parseStream (ps.flatMap Packet.encode) = some ps := by
  have hcount : (ps.flatMap Packet.encode).length / packetSize = ps.length := by
    rw [flatMap_encode_length h]
    exact Nat.mul_div_cancel_left _ (by decide)
  rw [parseStream, hcount]
  clear hcount
  induction ps with
  | nil => rfl
  | cons p ps ih =>
    have hlen := Packet.encode_length (h p (by simp))
    rw [List.length_cons, List.flatMap_cons, parsePackets, List.take_left' hlen,
      List.drop_left' hlen, Packet.parse_encode (h p (by simp)), ih fun q hq => h q (by simp [hq])]
    rfl

/-- Every packet of an encoded stream starts with the sync byte. -/
lemma flatMap_encode_sync {ps : List Packet} (h : ∀ p ∈ ps, p.Fits) {k : ℕ} (hk : k < ps.length) :
    (ps.flatMap Packet.encode)[packetSize * k]? = some syncByte := by
  induction ps generalizing k with
  | nil => simp at hk
  | cons p ps ih =>
    have hlen := Packet.encode_length (h p (by simp))
    rw [List.flatMap_cons]
    cases k with
    | zero =>
      rw [Nat.mul_zero, List.getElem?_append_left (by rw [hlen]; decide), ← List.head?_eq_getElem?,
        Packet.encode_head]
    | succ k =>
      rw [List.getElem?_append_right (by rw [hlen, Nat.mul_succ]; omega), hlen, Nat.mul_succ,
        Nat.add_sub_cancel]
      exact ih (fun q hq => h q (by simp [hq])) (by simpa using hk)

/-! ### Units of one PID -/

/-- The bytes before the first start of a unit, and the units: each is the payload of a packet with
`unitStart` followed by the payloads of the packets up to the next one. -/
def units : List Packet → List UInt8 × List (List UInt8)
  | [] => ([], [])
  | p :: ps =>
    let (tail, whole) := units ps
    if p.unitStart then ([], (p.data ++ tail) :: whole) else (p.data ++ tail, whole)

/-- The units carried on one PID. -/
def demux (pid : ℕ) (ps : List Packet) : List (List UInt8) :=
  (units (ps.filter (·.pid = pid))).2

lemma units_continuation {ps : List Packet} (h : ∀ p ∈ ps, p.unitStart = false) :
    units ps = (ps.flatMap Packet.data, []) := by
  induction ps with
  | nil => rfl
  | cons p ps ih =>
    simp [units, ih fun q hq => h q (by simp [hq]), h p (by simp)]

/-- A packet that starts a unit and the packets that continue it carry one unit. -/
theorem demux_unit {pid : ℕ} {first : Packet} {rest : List Packet} (hfirst : first.unitStart = true)
    (hrest : ∀ p ∈ rest, p.unitStart = false) (hpid : ∀ p ∈ first :: rest, p.pid = pid) :
    demux pid (first :: rest) = [(first :: rest).flatMap Packet.data] := by
  rw [demux, List.filter_eq_self.mpr (by simpa using hpid), units, units_continuation hrest]
  simp [hfirst]

/-- Packets of other PIDs do not matter. -/
lemma demux_cons_of_ne {pid : ℕ} {p : Packet} (h : p.pid ≠ pid) (ps : List Packet) :
    demux pid (p :: ps) = demux pid ps := by
  simp [demux, h]

/-! ### Continuity counters -/

/-- The counters of the packets of one PID. -/
def counters (pid : ℕ) (ps : List Packet) : List ℕ := (ps.filter (·.pid = pid)).map Packet.counter

/-- A counter that starts at `n` and counts modulo 16. -/
def CountsFrom (n : ℕ) (cs : List ℕ) : Prop := cs = (List.range cs.length).map fun k => (n + k) % 16

lemma countsFrom_nil (n : ℕ) : CountsFrom n [] := rfl

lemma countsFrom_singleton (n : ℕ) : CountsFrom n [n % 16] := rfl

/-- Counting goes on where it stopped, modulo 16. -/
lemma CountsFrom.append {m n : ℕ} {cs ds : List ℕ} (hcs : CountsFrom n cs) (hds : CountsFrom m ds)
    (hm : m % 16 = (n + cs.length) % 16) : CountsFrom n (cs ++ ds) := by
  have hshift : ds = (List.range ds.length).map fun k => (n + (cs.length + k)) % 16 := by
    conv_lhs => rw [hds]
    apply List.map_congr_left
    intro k _
    rw [Nat.add_mod, hm, ← Nat.add_mod, Nat.add_assoc]
  rw [CountsFrom, List.length_append, List.range_add, List.map_append, List.map_map]
  conv_lhs => rw [hcs, hshift]
  rfl

lemma counters_append (pid : ℕ) (ps qs : List Packet) :
    counters pid (ps ++ qs) = counters pid ps ++ counters pid qs := by
  simp [counters]

lemma counters_of_forall {pid : ℕ} {ps : List Packet} (h : ∀ p ∈ ps, p.pid = pid) :
    counters pid ps = ps.map Packet.counter := by
  rw [counters, List.filter_eq_self.mpr (by simpa using h)]

lemma counters_of_forall_ne {pid : ℕ} {ps : List Packet} (h : ∀ p ∈ ps, p.pid ≠ pid) :
    counters pid ps = [] := by
  rw [counters, List.filter_eq_nil_iff.mpr (by simpa using h), List.map_nil]

/-! ### Adaptation fields -/

/-- Drops a field that starts with its own length. -/
def skipCounted : List UInt8 → List UInt8
  | [] => []
  | len :: rest => rest.drop len.toNat

/-- The stuffing of an adaptation field: what is left after the fields its flags announce (clock
references, splice countdown, private data and extension). -/
def stuffing : List UInt8 → List UInt8
  | [] => []
  | flags :: rest =>
    let rest := if flags.toNat.testBit 4 then rest.drop 6 else rest
    let rest := if flags.toNat.testBit 3 then rest.drop 6 else rest
    let rest := if flags.toNat.testBit 2 then rest.drop 1 else rest
    let rest := if flags.toNat.testBit 1 then skipCounted rest else rest
    if flags.toNat.testBit 0 then skipCounted rest else rest

/-- The stuffing bytes of a packet. -/
def Packet.stuffing (p : Packet) : List UInt8 := TransportStream.stuffing (p.adaptation.getD [])

/-! ### Sections -/

/-- Splits the payload of a packet that starts a section into the section and what follows it. The
payload begins with a pointer to the section; bytes 1 and 2 of a section hold its length. -/
def splitSection (p : Packet) : Option (List UInt8 × List UInt8) :=
  match p.data with
  | pointer :: rest =>
    match rest.drop pointer.toNat with
    | _ :: l₁ :: l₀ :: body =>
      let length := 3 + bigEndian l₁ l₀ % 4096
      if length ≤ body.length + 3 then
        some ((rest.drop pointer.toNat).take length, (rest.drop pointer.toNat).drop length)
      else none
    | _ => none
  | [] => none

/-! ### PES packets and their LPCM payload -/

/-- A PES packet with an optional header. -/
structure Pes where
  streamId : UInt8
  packetLength : ℕ
  header : List UInt8
  payload : List UInt8
deriving DecidableEq, Repr

/-- Reads a PES packet: start code prefix, stream id, length, flags, header and payload. -/
def Pes.parse : List UInt8 → Option Pes
  | 0 :: 0 :: 1 :: streamId :: l₁ :: l₀ :: flags :: _ :: headerLength :: rest =>
    if flags.toNat / 64 = 2 ∧ headerLength.toNat ≤ rest.length then
      some
        { streamId
          packetLength := bigEndian l₁ l₀
          header := rest.take headerLength.toNat
          payload := rest.drop headerLength.toNat }
    else none
  | _ => none

/-! ### Clocks -/

/-- A 33-bit time stamp, and whether its prefix and its three marker bits are as they have to be. -/
structure Timestamp where
  ticks : ℕ
  marked : Bool
deriving DecidableEq, Repr

/-- Reads the five bytes of a presentation time stamp. -/
def Timestamp.decode : List UInt8 → Option Timestamp
  | [b₀, b₁, b₂, b₃, b₄] =>
    some
      { ticks := b₀.toNat / 2 % 8 * 2 ^ 30 + b₁.toNat * 2 ^ 22 + b₂.toNat / 2 * 2 ^ 15
          + b₃.toNat * 2 ^ 7 + b₄.toNat / 2
        marked := b₀.toNat / 16 = 2 ∧ b₀.toNat % 2 = 1 ∧ b₂.toNat % 2 = 1 ∧ b₄.toNat % 2 = 1 }
  | _ => none

/-- A program clock reference: a 33-bit base, six reserved bits and a 9-bit extension. -/
structure ClockReference where
  base : ℕ
  reserved : ℕ
  extension : ℕ
deriving DecidableEq, Repr

/-- Reads the six bytes of a program clock reference. -/
def ClockReference.decode : List UInt8 → Option ClockReference
  | [b₀, b₁, b₂, b₃, b₄, b₅] =>
    some
      { base := b₀.toNat * 2 ^ 25 + b₁.toNat * 2 ^ 17 + b₂.toNat * 2 ^ 9 + b₃.toNat * 2
          + b₄.toNat / 128
        reserved := b₄.toNat / 2 % 64
        extension := b₄.toNat % 2 * 256 + b₅.toNat }
  | _ => none

/-- The clock reference of a packet whose adaptation field flags one. -/
def Packet.clockReference (p : Packet) : Option ClockReference :=
  match p.adaptation with
  | some (flags :: rest) =>
    if flags.toNat.testBit 4 then ClockReference.decode (rest.take 6) else none
  | _ => none

/-- The presentation time stamp of the PES packet that starts in a packet. -/
def Packet.timestamp (p : Packet) : Option Timestamp := do
  let pes ← Pes.parse p.data
  Timestamp.decode pes.header

/-! ### LPCM audio -/

/-- LPCM audio: a size field, two bytes of format, the audio bytes. -/
structure Lpcm where
  size : ℕ
  format : ℕ
  audio : List UInt8
deriving DecidableEq, Repr

def Lpcm.parse : List UInt8 → Option Lpcm
  | s₁ :: s₀ :: f₁ :: f₀ :: audio => some ⟨bigEndian s₁ s₀, bigEndian f₁ f₀, audio⟩
  | _ => none

/-- The samples of big-endian 16-bit audio. -/
def samples : List UInt8 → List Int16
  | hi :: lo :: rest => (UInt16.ofNat (bigEndian hi lo)).toInt16 :: samples rest
  | _ => []

/-- A sample in big-endian order. -/
def sampleBytes (sample : Int16) : List UInt8 :=
  [(sample.toUInt16 >>> 8).toUInt8, (sample.toUInt16 &&& 0xff).toUInt8]

lemma length_flatMap_sampleBytes (xs : List Int16) :
    (xs.flatMap sampleBytes).length = 2 * xs.length := by
  induction xs with
  | nil => rfl
  | cons x xs ih =>
    rw [List.flatMap_cons, List.length_append, ih, List.length_cons]
    simp [sampleBytes]
    omega

/-- The two bytes of a 16-bit word make up the word. -/
lemma bigEndian_word (w : UInt16) :
    bigEndian (w >>> 8).toUInt8 (w &&& 0xff).toUInt8 = w.toNat := by
  have hw := w.toNat_lt
  have hmask : w.toNat &&& 255 = w.toNat % 2 ^ 8 := Nat.and_two_pow_sub_one_eq_mod _ 8
  simp only [bigEndian, UInt16.toNat_toUInt8, UInt16.toNat_shiftRight, UInt16.toNat_and,
    Nat.shiftRight_eq_div_pow, UInt16.reduceToNat, hmask, Nat.reduceMod, Nat.reducePow]
  omega

/-- The two bytes of a number below 2^16 make up the number. -/
lemma bigEndian_nat {n : ℕ} (hn : n < 65536) :
    bigEndian (UInt8.ofNat (n >>> 8)) (UInt8.ofNat (n &&& 0xff)) = n := by
  have hmask : n &&& 255 = n % 2 ^ 8 := Nat.and_two_pow_sub_one_eq_mod _ 8
  simp only [bigEndian, UInt8.toNat_ofNat', Nat.shiftRight_eq_div_pow, hmask, Nat.reducePow]
  omega

/-- Reading the samples back gives the samples. -/
theorem samples_flatMap_sampleBytes (xs : List Int16) : samples (xs.flatMap sampleBytes) = xs := by
  induction xs with
  | nil => rfl
  | cons x xs ih =>
    rw [List.flatMap_cons, sampleBytes, List.cons_append, List.cons_append, List.nil_append,
      samples,
      ih, bigEndian_word, UInt16.ofNat_toNat, Int16.toInt16_toUInt16]

end TransportStream
