import Mpxcast.Core.Crc
import Mpxcast.Core.TransportStream
import Mpxcast.Core.WaveStream

/-!
# Tuning in to a transport stream

How a receiver finds the audio of a transport stream and plays it: the association table names the
map table, the map table names the PID of an LPCM stream, and both are believed only with the right
checksum. The packets of every PID it uses have to count on without a gap.
-/

namespace TransportStream

/-! ### Checksums -/

/-- The bits of a byte string in the order they are sent. -/
def bits (bytes : List UInt8) : List Bool := bytes.flatMap fun b => Crc.unload b.toBitVec

lemma bits_append (xs ys : List UInt8) : bits (xs ++ ys) = bits xs ++ bits ys :=
  List.flatMap_append

lemma length_bits (bytes : List UInt8) : (bits bytes).length = 8 * bytes.length := by
  simp [bits, List.length_flatMap, Nat.mul_comm]

/-- The polynomial that protects sections. -/
def sectionPoly : BitVec 32 := 0x04c11db7#32

/-- A section that ends in its own checksum leaves nothing. -/
def Intact (sec : List UInt8) : Prop :=
  Crc.check sectionPoly (BitVec.allOnes 32) (bits sec) = 0#32

instance (sec : List UInt8) : Decidable (Intact sec) :=
  inferInstanceAs (Decidable (_ = _))

/-! ### Tables -/

/-- The section in the first packet of a PID that starts one, if it is intact. -/
def findSection (pid : ℕ) (ps : List Packet) : Option (List UInt8) := do
  let p ← ps.find? fun p => decide (p.pid = pid) && p.unitStart
  let (sec, _) ← splitSection p
  if Intact sec then some sec else none

/-- The entries of an association section: program numbers, and the PIDs of their map sections. -/
def programs : List UInt8 → List (ℕ × ℕ)
  | n₁ :: n₀ :: p₁ :: p₀ :: rest =>
    (bigEndian n₁ n₀, bigEndian p₁ p₀ % 8192) :: programs rest
  | _ => []

/-- Where the first program of an association section is described. -/
def programMapPid : List UInt8 → Option ℕ
  | 0 :: _ :: _ :: _ :: _ :: _ :: _ :: _ :: rest =>
    ((programs (rest.take (rest.length - 4))).find? fun entry => entry.1 ≠ 0).map Prod.snd
  | _ => none

/-- The elementary streams of a program: stream types and PIDs. -/
def elementaryStreams : ℕ → List UInt8 → List (UInt8 × ℕ)
  | n + 1, kind :: p₁ :: p₀ :: l₁ :: l₀ :: rest =>
    (kind, bigEndian p₁ p₀ % 8192) :: elementaryStreams n (rest.drop (bigEndian l₁ l₀ % 4096))
  | _, _ => []

/-- The PID of the first LPCM stream of a map section. -/
def lpcmPid : List UInt8 → Option ℕ
  | 2 :: _ :: _ :: _ :: _ :: _ :: _ :: _ :: _ :: _ :: l₁ :: l₀ :: rest =>
    let streams := (rest.take (rest.length - 4)).drop (bigEndian l₁ l₀ % 4096)
    ((elementaryStreams streams.length streams).find? fun stream => stream.1 = 0x80).map Prod.snd
  | _ => none

/-- The packets of a PID count on from wherever they start. -/
def Continuous (pid : ℕ) (ps : List Packet) : Prop :=
  CountsFrom ((counters pid ps).headD 0) (counters pid ps)

instance (pid : ℕ) (ps : List Packet) : Decidable (Continuous pid ps) :=
  inferInstanceAs (Decidable (_ = _))

/-- The PID of the audio, for packets that arrived without a gap. -/
def audioPid (ps : List Packet) : Option ℕ := do
  let association ← findSection 0 ps
  let mapPid ← programMapPid association
  let programMap ← findSection mapPid ps
  let pid ← lpcmPid programMap
  if Continuous 0 ps ∧ Continuous mapPid ps ∧ Continuous pid ps then some pid else none

/-! ### Audio -/

/-- What the format field of LPCM audio stands for. -/
def Lpcm.pcmFormat (lpcm : Lpcm) : Option PcmFormat := do
  let channels ← match lpcm.format / 4096 with
    | 1 => some 1
    | 3 => some 2
    | _ => none
  let sampleRate ← match lpcm.format / 256 % 16 with
    | 1 => some 48000
    | 4 => some 96000
    | 5 => some 192000
    | _ => none
  let sampleBits ← match lpcm.format / 64 % 4 with
    | 1 => some 16
    | 2 => some 20
    | 3 => some 24
    | _ => none
  return ⟨channels, sampleRate, sampleBits⟩

/-- Every other element, from the first one on. -/
def everyOther {α : Type*} : List α → List α
  | a :: _ :: rest => a :: everyOther rest
  | rest => rest

/-- The samples of a PES packet in the given format; a lone channel travels with one of padding. -/
def playUnit (format : PcmFormat) (unit : List UInt8) : Option (List Int16) := do
  let pes ← Pes.parse unit
  let lpcm ← Lpcm.parse pes.payload
  if pes.streamId = 0xbd ∧ pes.packetLength + 6 = unit.length ∧ lpcm.size = lpcm.audio.length ∧
      lpcm.pcmFormat = some format ∧ format.sampleBits = 16 then
    if format.channels = 1 then some (everyOther (samples lpcm.audio))
    else some (samples lpcm.audio)
  else none

/-- Plays a transport stream in the format the listener is set to. -/
def play (format : PcmFormat) (bytes : List UInt8) : Option (List Int16) := do
  let ps ← parseStream bytes
  let pid ← audioPid ps
  let units ← (demux pid ps).mapM (playUnit format)
  return units.flatten

lemma everyOther_padded {α : Type*} (pad : α) (xs : List α) :
    everyOther (xs.flatMap fun x => [x, pad]) = xs := by
  induction xs with
  | nil => rfl
  | cons x xs ih => exact congrArg (x :: ·) ih

/-! ### Units of a longer stream -/

/-- Packets that begin with a unit of their own leave the units before them whole. -/
lemma units_append {ps qs : List Packet} (h : ∀ first ∈ qs.head?, first.unitStart = true) :
    units (ps ++ qs) = ((units ps).1, (units ps).2 ++ (units qs).2) := by
  induction ps with
  | nil =>
    cases qs with
    | nil => rfl
    | cons first qs => simp [units, h first rfl]
  | cons p ps ih =>
    rw [List.cons_append, units, ih, units]
    cases hp : p.unitStart <;> simp

lemma demux_append {pid : ℕ} {ps qs : List Packet}
    (h : ∀ first ∈ (qs.filter (·.pid = pid)).head?, first.unitStart = true) :
    demux pid (ps ++ qs) = demux pid ps ++ demux pid qs := by
  rw [demux, List.filter_append, units_append h]
  rfl

lemma CountsFrom.continuous {pid n : ℕ} {ps : List Packet} (h : CountsFrom n (counters pid ps)) :
    Continuous pid ps := by
  unfold Continuous
  generalize counters pid ps = cs at h ⊢
  cases cs with
  | nil => exact countsFrom_nil _
  | cons c cs =>
    have hc : c = n % 16 := by
      unfold CountsFrom at h
      rw [List.length_cons, List.range_succ_eq_map, List.map_cons, List.cons.injEq] at h
      exact h.1
    have hshift (k : ℕ) : (c + k) % 16 = (n + k) % 16 := by
      rw [hc, Nat.mod_add_mod]
    rw [List.headD_cons, CountsFrom]
    simp only [hshift]
    exact h

end TransportStream
