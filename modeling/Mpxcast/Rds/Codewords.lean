import Mpxcast.Core.SyndromeDecoding
import Mpxcast.Rds.BlockSync

/-!
# The words of an RDS block

The 26-bit words of the five offsets: the syndrome is linear, the offset words represent the cosets
of the syndrome table, and every data word has a word of every offset.
-/

namespace Mpxcast

open SyndromeDecoding

/-- The offset a 26-bit word is recognised by. -/
def wordOffset (word : BitVec 26) : RdsOffset :=
  rdsGetOffsetForSyndrome (rdsCalculateSyndrome (word.setWidth 32))

lemma ushiftRight_and_one (x : BitVec 32) (k : ℕ) :
    (x >>> k) &&& 1 = if x.getLsbD k then 1 else 0 := by
  apply BitVec.eq_of_getLsbD_eq
  intro i hi
  cases h : x.getLsbD k <;> cases i <;> simp [h]

/-- The syndrome is linear. -/
lemma rdsCalculateSyndrome_xor (x y : BitVec 32) :
    rdsCalculateSyndrome (x ^^^ y) = rdsCalculateSyndrome x ^^^ rdsCalculateSyndrome y := by
  have hstep (h : BitVec 32) (k : ℕ) : h * (((x ^^^ y) >>> k) &&& 1)
      = h * ((x >>> k) &&& 1) ^^^ h * ((y >>> k) &&& 1) := by
    simp only [ushiftRight_and_one, BitVec.getLsbD_xor]
    cases x.getLsbD k <;> cases y.getLsbD k <;> simp
  have hfold (ks : List ℕ) (a b : BitVec 32) :
      ks.foldl (fun result k =>
          result ^^^ (parityCheckMatrix.getD (25 - k) 0 * (((x ^^^ y) >>> k) &&& 1))) (a ^^^ b)
        = ks.foldl (fun result k =>
            result ^^^ (parityCheckMatrix.getD (25 - k) 0 * ((x >>> k) &&& 1))) a
          ^^^ ks.foldl (fun result k =>
            result ^^^ (parityCheckMatrix.getD (25 - k) 0 * ((y >>> k) &&& 1))) b := by
    induction ks generalizing a b with
    | nil => rfl
    | cons k ks ih =>
      simp only [List.foldl_cons]
      rw [hstep, ← ih]
      congr 1
      ac_rfl
  exact hfold _ 0 0

/-- The checkwords that cancel the syndrome of a single data bit, lowest bit first. -/
def rdsCheckwords : List (BitVec 26) :=
  [441, 882, 861, 771, 959, 711, 55, 110, 220, 440, 880, 857, 779, 943, 743, 119]

/-- Every data word has a codeword without syndrome: bit by bit, since both are linear. -/
lemma exists_codeword (data : BitVec 16) : ∃ word : BitVec 26,
    word.extractLsb' 10 16 = data ∧ rdsCalculateSyndrome (word.setWidth 32) = 0#32 := by
  have hbit : ∀ k < 16, ∃ word : BitVec 26, word.extractLsb' 10 16 = BitVec.twoPow 16 k ∧
      rdsCalculateSyndrome (word.setWidth 32) = 0#32 := by
    intro k hk
    refine ⟨(1 <<< (k + 10)) ||| rdsCheckwords.getD k 0, ?_⟩
    revert k
    decide
  induction data using xor_induction with
  | zero => exact ⟨0, rfl, by decide⟩
  | twoPow k hk => exact hbit k hk
  | xor x y hx hy =>
    obtain ⟨word, hword, hsyndrome⟩ := hx
    obtain ⟨row, hrow, hrowSyndrome⟩ := hy
    refine ⟨word ^^^ row, ?_, ?_⟩
    · rw [BitVec.extractLsb'_xor, hword, hrow]
    · rw [BitVec.setWidth_xor, rdsCalculateSyndrome_xor, hsyndrome, hrowSyndrome, BitVec.xor_zero]

/-- The syndrome table of the source. -/
lemma rdsGetOffsetForSyndrome_inv (syndrome : BitVec 32) :
    (rdsGetOffsetForSyndrome syndrome = .a ↔ syndrome = 0b1111011000) ∧
      (rdsGetOffsetForSyndrome syndrome = .b ↔ syndrome = 0b1111010100) ∧
      (rdsGetOffsetForSyndrome syndrome = .c ↔ syndrome = 0b1001011100) ∧
      (rdsGetOffsetForSyndrome syndrome = .cPrime ↔ syndrome = 0b1111001100) ∧
      (rdsGetOffsetForSyndrome syndrome = .d ↔ syndrome = 0b1001011000) := by
  unfold rdsGetOffsetForSyndrome
  split_ifs with ha hb hc hcp hd
  · subst ha; decide
  · subst hb; decide
  · subst hc; decide
  · subst hcp; decide
  · subst hd; decide
  · exact ⟨⟨nofun, fun h => absurd h ha⟩, ⟨nofun, fun h => absurd h hb⟩,
      ⟨nofun, fun h => absurd h hc⟩, ⟨nofun, fun h => absurd h hcp⟩, ⟨nofun, fun h => absurd h hd⟩⟩

/-- The offset words and the syndrome table, which the source enters separately, agree. -/
lemma rdsGetOffsetForSyndrome_eq_iff {o : RdsOffset} (ho : o ≠ .invalid) (syndrome : BitVec 32) :
    rdsGetOffsetForSyndrome syndrome = o ↔ syndrome = rdsCalculateSyndrome (rdsOffsetWord o) := by
  obtain ⟨ha, hb, hc, hcp, hd⟩ := rdsGetOffsetForSyndrome_inv syndrome
  cases o with
  | invalid => exact absurd rfl ho
  | a => exact ha
  | b => exact hb
  | c => exact hc
  | cPrime => exact hcp
  | d => exact hd

/-- Every data word has a word of every offset. -/
lemma exists_word (data : BitVec 16) {o : RdsOffset} (ho : o ≠ .invalid) : ∃ word : BitVec 26,
    word.extractLsb' 10 16 = data ∧ wordOffset word = o := by
  obtain ⟨word, hdata, hsyndrome⟩ := exists_codeword data
  have hword : ((rdsOffsetWord o).setWidth 26).extractLsb' 10 16 = 0#16 ∧
      ((rdsOffsetWord o).setWidth 26).setWidth 32 = rdsOffsetWord o := by
    cases o <;> first | exact absurd rfl ho | decide
  refine ⟨word ^^^ (rdsOffsetWord o).setWidth 26, ?_, ?_⟩
  · rw [BitVec.extractLsb'_xor, hdata, hword.1, BitVec.xor_zero]
  · rw [wordOffset, rdsGetOffsetForSyndrome_eq_iff ho, BitVec.setWidth_xor,
      rdsCalculateSyndrome_xor, hsyndrome, BitVec.zero_xor, hword.2]

/-- The data word stands above the checkword. -/
lemma data_eq (word : BitVec 26) :
    ((word.setWidth 32) >>> rdsCheckwordLength).setWidth 16 = word.extractLsb' 10 16 := by
  apply BitVec.eq_of_getLsbD_eq
  intro i hi
  simp [rdsCheckwordLength, hi]
  omega

/-- Every syndrome is that of a checkword on its own. -/
lemma exists_checkword (syndrome : BitVec 10) : ∃ check : BitVec 10,
    rdsCalculateSyndrome (check.setWidth 32) = syndrome.setWidth 32 := by
  induction syndrome using xor_induction with
  | zero => exact ⟨0, rfl⟩
  | twoPow k hk =>
    refine ⟨(rdsCheckwords.getD (k + 6) 0).setWidth 10, ?_⟩
    revert k
    decide
  | xor x y hx hy =>
    obtain ⟨a, ha⟩ := hx
    obtain ⟨b, hb⟩ := hy
    refine ⟨a ^^^ b, ?_⟩
    rw [BitVec.setWidth_xor, rdsCalculateSyndrome_xor, ha, hb, BitVec.setWidth_xor]

/-- A checkword on its own shows in the syndrome: there are as many of them as syndromes. -/
lemma rdsCalculateSyndrome_checkword (check : BitVec 10)
    (h : rdsCalculateSyndrome (check.setWidth 32) = 0#32) : check = 0#10 := by
  have hfinite : Finite (BitVec 10) :=
    Finite.of_injective BitVec.toFin fun _ _ => BitVec.eq_of_toFin_eq
  have hsurjective : Function.Surjective fun check : BitVec 10 =>
      (rdsCalculateSyndrome (check.setWidth 32)).setWidth 10 := by
    intro syndrome
    obtain ⟨check, hcheck⟩ := exists_checkword syndrome
    refine ⟨check, ?_⟩
    simp [hcheck]
  have hzero : rdsCalculateSyndrome ((0#10).setWidth 32) = 0#32 := rfl
  apply Finite.injective_iff_surjective.2 hsurjective
  simp only [h, hzero]

/-- A word without data is its checkword. -/
lemma setWidth_of_data_zero {word : BitVec 26} (h : word.extractLsb' 10 16 = 0#16) :
    (word.setWidth 10).setWidth 26 = word := by
  have hzero : word.toNat >>> 10 % 2 ^ 16 = 0 := by
    simpa using congrArg BitVec.toNat h
  have hlt := word.isLt
  apply BitVec.eq_of_toNat_eq
  rw [Nat.shiftRight_eq_div_pow] at hzero
  rw [BitVec.toNat_setWidth, BitVec.toNat_setWidth]
  omega

/-- The word of a data word and an offset is unique. -/
lemma existsUnique_word (data : BitVec 16) {o : RdsOffset} (ho : o ≠ .invalid) :
    ∃! word : BitVec 26, word.extractLsb' 10 16 = data ∧ wordOffset word = o := by
  obtain ⟨word, hdata, hoffset⟩ := exists_word data ho
  refine ⟨word, ⟨hdata, hoffset⟩, fun other h => ?_⟩
  have hhigh : (other ^^^ word).extractLsb' 10 16 = 0#16 := by
    rw [BitVec.extractLsb'_xor, h.1, hdata, BitVec.xor_self]
  have hword := setWidth_of_data_zero hhigh
  have hsyndrome : rdsCalculateSyndrome (((other ^^^ word).setWidth 10).setWidth 32) = 0#32 := by
    rw [← BitVec.setWidth_setWidth (v := 26) (by omega), hword, BitVec.setWidth_xor,
      rdsCalculateSyndrome_xor, (rdsGetOffsetForSyndrome_eq_iff ho _).1 h.2,
      (rdsGetOffsetForSyndrome_eq_iff ho _).1 hoffset, BitVec.xor_self]
  rw [rdsCalculateSyndrome_checkword _ hsyndrome] at hword
  exact BitVec.xor_eq_zero_iff.1 hword.symm

/-- Masking keeps the low 26 bits. -/
lemma and_rdsBlockBitmask (x : BitVec 32) :
    x &&& rdsBlockBitmask = (x.setWidth 26).setWidth 32 := by
  apply BitVec.eq_of_getLsbD_eq
  intro i hi
  have hmask : rdsBlockBitmask.getLsbD i = decide (i < 26) := by
    interval_cases i <;> rfl
  rw [BitVec.getLsbD_and, hmask]
  simp [hi, Bool.and_comm]

end Mpxcast
