import Mpxcast.Core.ProgramTables
import Mpxcast.Stream.MpegtsRoundTrip

/-!
# The checksum of the program tables

`stream_mux_mpegts_crc32` computes the cyclic redundancy check that receivers of transport streams
expect behind a section: with it a section is intact, and after a burst of errors it is not.
-/

namespace Mpxcast

open TransportStream

lemma streamMuxMpegtsCrc32Bit_toBitVec (crc : UInt32) :
    (streamMuxMpegtsCrc32Bit crc).toBitVec = Crc.shift sectionPoly crc.toBitVec := by
  have hmsb : crc &&& 0x80000000 ≠ 0 ↔ crc.toBitVec.msb = true := by
    have hmask : (crc &&& 0x80000000).toBitVec
        = if crc.toBitVec.getLsbD 31 then BitVec.twoPow 32 31 else 0#32 := by
      have htop : (0x80000000 : UInt32).toBitVec = BitVec.twoPow 32 31 := rfl
      rw [UInt32.toBitVec_and, htop, BitVec.and_twoPow]
    rw [Ne, ← UInt32.toBitVec_inj, hmask, BitVec.msb_eq_getLsbD_last]
    cases crc.toBitVec.getLsbD 31 <;> decide
  unfold streamMuxMpegtsCrc32Bit Crc.shift
  simp only [hmsb]
  split_ifs <;> rfl

lemma streamMuxMpegtsCrc32Byte_toBitVec (crc : UInt32) (byte : UInt8) :
    (streamMuxMpegtsCrc32Byte crc byte).toBitVec
      = Crc.check sectionPoly crc.toBitVec (Crc.unload byte.toBitVec) := by
  have hiterate (n : ℕ) (c : UInt32) : (streamMuxMpegtsCrc32Bit^[n] c).toBitVec
      = (Crc.shift sectionPoly)^[n] c.toBitVec := by
    induction n generalizing c with
    | zero => rfl
    | succ n ih => rw [Function.iterate_succ_apply, ih, streamMuxMpegtsCrc32Bit_toBitVec]; rfl
  have hload : (byte.toUInt32 <<< (24 : UInt32)).toBitVec
      = Crc.load (Crc.unload byte.toBitVec) := by
    apply BitVec.eq_of_getMsbD_eq
    intro i hi
    have hshift : (byte.toUInt32 <<< (24 : UInt32)).toBitVec
        = (byte.toBitVec.setWidth 32) <<< 24 := rfl
    rw [Crc.getMsbD_load, hshift, BitVec.getMsbD_shiftLeft, BitVec.getMsbD_setWidth, Crc.unload,
      List.getD_eq_getElem?_getD, List.getElem?_map]
    by_cases hbyte : i < 8
    · simp [hi, hbyte]
    · simpa [hi, hbyte] using BitVec.getMsbD_of_ge _ i (not_lt.mp hbyte)
  rw [Crc.check_eq_load _ _ (by simp), Crc.length_unload, ← hload, ← UInt32.toBitVec_xor]
  exact hiterate 8 _

lemma streamMuxMpegtsCrc32_toBitVec (data : List UInt8) :
    (streamMuxMpegtsCrc32 data).toBitVec
      = Crc.check sectionPoly (BitVec.allOnes 32) (bits data) := by
  have hfold (crc : UInt32) : (data.foldl streamMuxMpegtsCrc32Byte crc).toBitVec
      = Crc.check sectionPoly crc.toBitVec (bits data) := by
    induction data generalizing crc with
    | nil => rfl
    | cons byte data ih =>
      rw [List.foldl_cons, ih, streamMuxMpegtsCrc32Byte_toBitVec, ← Crc.check_append]
      rfl
  exact hfold 0xffffffff

/-- A section is intact when the function itself finds nothing left. -/
lemma intact_iff (sec : List UInt8) : Intact sec ↔ streamMuxMpegtsCrc32 sec = 0 := by
  rw [← UInt32.toBitVec_inj, streamMuxMpegtsCrc32_toBitVec]
  rfl

/-- The four bytes of a checksum are its bits in the order they are sent. -/
lemma bits_crcBytes (crc : UInt32) :
    bits (streamMuxMpegtsCrcBytes crc) = Crc.unload crc.toBitVec := by
  have hrange : List.range 8 = [0, 1, 2, 3, 4, 5, 6, 7] := rfl
  simp [bits, streamMuxMpegtsCrcBytes, Crc.unload, hrange]
  rfl

lemma intact_section (fields : List UInt8) :
    Intact (fields ++ streamMuxMpegtsCrcBytes (streamMuxMpegtsCrc32 fields)) := by
  rw [Intact, bits_append, bits_crcBytes, streamMuxMpegtsCrc32_toBitVec]
  exact Crc.check_append_unload ..

lemma intact_patSection : Intact patSection := intact_section _

lemma intact_pmtSection : Intact pmtSection := intact_section _

/-- **The checksum protects a section.** Behind any section it leaves nothing. However the bits of
the section and its checksum are changed within 32 neighbouring ones, something is left. -/
theorem streamMuxMpegtsCrc32_protects (fields : List UInt8) :
    streamMuxMpegtsCrc32 (fields ++ streamMuxMpegtsCrcBytes (streamMuxMpegtsCrc32 fields)) = 0 ∧
      ∀ (received : List UInt8) (before : ℕ) (error : List Bool) (after : ℕ),
        error.length ≤ 32 → true ∈ error →
        8 * (fields.length + 4) = before + error.length + after →
        bits received = List.zipWith xor
          (bits (fields ++ streamMuxMpegtsCrcBytes (streamMuxMpegtsCrc32 fields)))
          (Crc.burst before error after) →
        streamMuxMpegtsCrc32 received ≠ 0 := by
  have hintact := intact_section fields
  refine ⟨(intact_iff _).mp hintact, fun received before error after hshort herror hwhole hreceived
    hzero => ?_⟩
  have hlength : (bits (fields ++ streamMuxMpegtsCrcBytes (streamMuxMpegtsCrc32 fields))).length
      = (Crc.burst before error after).length := by
    rw [length_bits, Crc.length_burst, ← hwhole, List.length_append]
    rfl
  refine Crc.check_burst_ne sectionPoly rfl (BitVec.allOnes 32) hlength hshort herror ?_
  rw [← hreceived]
  exact ((intact_iff received).mpr hzero).trans hintact.symm

end Mpxcast
