import Mpxcast.Core.BoundedSelection
import Mpxcast.Rds.Codewords

/-!
# Error correction of RDS blocks

The two correctors of a block with a wrong syndrome. The burst corrector undoes every error of one
bit or of two neighbouring bits and accepts nothing else. The soft corrector flips up to three of
the least confident bits.
-/

namespace Mpxcast

open BoundedSelection SyndromeDecoding

/-! ### Bursts -/

/-- An error of one bit, or of two adjacent bits, of a block. -/
inductive BurstError : ℕ → BitVec 26 → Prop
  | single (i : ℕ) (hi : i < 26) : BurstError 1 (BitVec.twoPow 26 i)
  | double (i : ℕ) (hi : i < 25) : BurstError 2 (BitVec.twoPow 26 i ||| BitVec.twoPow 26 (i + 1))

/-- The error vectors of proper bursts, in the order they are tried. -/
def rdsBursts : List (ℕ × BitVec 26) :=
  ((List.range 26).map fun i => (1, BitVec.twoPow 26 i)) ++
    (List.range 25).map fun i => (2, BitVec.twoPow 26 i ||| BitVec.twoPow 26 (i + 1))

lemma mem_rdsBursts {count : ℕ} {e : BitVec 26} :
    (count, e) ∈ rdsBursts ↔ BurstError count e := by
  simp only [rdsBursts, List.mem_append, List.mem_map, List.mem_range, Prod.mk.injEq]
  constructor
  · rintro (⟨i, hi, rfl, rfl⟩ | ⟨i, hi, rfl, rfl⟩)
    · exact .single i hi
    · exact .double i hi
  · rintro (⟨i, hi⟩ | ⟨i, hi⟩)
    · exact .inl ⟨i, hi, rfl, rfl⟩
    · exact .inr ⟨i, hi, rfl, rfl⟩

/-- The mask cuts the last pair down to the oldest bit, which has been tried before. -/
lemma rdsBurstErrorVectors_eq : rdsBurstErrorVectors =
    rdsBursts.map (fun burst => (burst.1, burst.2.setWidth 32)) ++
      [(2, (BitVec.twoPow 26 25).setWidth 32)] := by
  decide

/-- Different bursts have different syndromes. -/
lemma rdsBursts_nodup :
    (rdsBursts.map fun burst => rdsCalculateSyndrome (burst.2.setWidth 32)).Nodup := by
  decide +kernel

lemma rdsCalculateSyndrome_linear : Linear rdsCalculateSyndrome := rdsCalculateSyndrome_xor

/-- The words of an offset form the coset of its offset word. -/
lemma wordOffset_eq_iff {o : RdsOffset} (ho : o ≠ .invalid) (word : BitVec 26) :
    wordOffset word = o ↔
      rdsCalculateSyndrome (word.setWidth 32) = rdsCalculateSyndrome (rdsOffsetWord o) :=
  rdsGetOffsetForSyndrome_eq_iff ho _

/-- `rds_correct_burst_errors` is syndrome decoding with the burst vectors. -/
lemma rdsCorrectBurstErrors_eq (raw : BitVec 32) (o : RdsOffset) :
    rdsCorrectBurstErrors raw o =
      match explain rdsCalculateSyndrome Prod.snd rdsBurstErrorVectors (rdsOffsetWord o) raw with
      | some (count, errorVector) => ⟨raw ^^^ errorVector, count, true⟩
      | none => ⟨raw, 0, false⟩ := rfl

/-- A burst corrector that succeeds has corrected something. -/
lemma rdsCorrectBurstErrors_count_pos {raw : BitVec 32} {o : RdsOffset}
    (h : (rdsCorrectBurstErrors raw o).succeeded = true) :
    0 < (rdsCorrectBurstErrors raw o).correctedBitCount := by
  rw [rdsCorrectBurstErrors_eq] at h ⊢
  cases hfind :
      explain rdsCalculateSyndrome Prod.snd rdsBurstErrorVectors (rdsOffsetWord o) raw with
  | none => simp [hfind] at h
  | some burst =>
    have hmem : burst ∈ rdsBurstErrorVectors := List.mem_of_find?_eq_some hfind
    simp only [rdsBurstErrorVectors, List.mem_flatMap, List.mem_map] at hmem
    obtain ⟨errors, herrors, shift, -, rfl⟩ := hmem
    rcases List.mem_pair.1 herrors with rfl | rfl
    · exact Nat.one_pos
    · exact Nat.two_pos

/-- A word of the offset comes back from every burst. -/
lemma rdsCorrectBurstErrors_of_burst {o : RdsOffset} (ho : o ≠ .invalid) {word e : BitVec 26}
    {count : ℕ} (hword : wordOffset word = o) (he : BurstError count e) :
    rdsCorrectBurstErrors ((word ^^^ e).setWidth 32) o = ⟨word.setWidth 32, count, true⟩ := by
  have hmem : (count, e.setWidth 32) ∈
      rdsBursts.map (fun burst => (burst.1, burst.2.setWidth 32)) :=
    List.mem_map.2 ⟨(count, e), mem_rdsBursts.2 he, rfl⟩
  have hnodup : ((rdsBursts.map fun burst => (burst.1, burst.2.setWidth 32)).map
      (rdsCalculateSyndrome ∘ Prod.snd)).Nodup := by
    rw [List.map_map]
    exact rdsBursts_nodup
  have hfound := explain_of_nodup [(2, (BitVec.twoPow 26 25).setWidth 32)]
    rdsCalculateSyndrome_linear hnodup hmem ((wordOffset_eq_iff ho word).1 hword)
  rw [rdsCorrectBurstErrors_eq, rdsBurstErrorVectors_eq, BitVec.setWidth_xor, hfound]
  simp only [BitVec.xor_assoc, BitVec.xor_self, BitVec.xor_zero]

/-- Whatever is found is a burst: the cut pair never comes before its single bit. -/
lemma explain_burst {coset raw errorVector : BitVec 32} {count : ℕ}
    (h : explain rdsCalculateSyndrome Prod.snd rdsBurstErrorVectors coset raw
      = some (count, errorVector)) :
    ∃ e, BurstError count e ∧ errorVector = e.setWidth 32 := by
  rw [explain, rdsBurstErrorVectors_eq, List.find?_append] at h
  have hbursts {burst : ℕ × BitVec 32}
      (hb : burst ∈ rdsBursts.map fun burst => (burst.1, burst.2.setWidth 32)) :
      ∃ e, BurstError burst.1 e ∧ burst.2 = e.setWidth 32 := by
    obtain ⟨⟨n, e⟩, hmem, rfl⟩ := List.mem_map.1 hb
    exact ⟨e, mem_rdsBursts.1 hmem, rfl⟩
  rcases Option.or_eq_some_iff.1 h with hfound | ⟨hnone, hlast⟩
  · exact hbursts (List.mem_of_find?_eq_some hfound)
  · have htop := List.find?_eq_none.1 hnone (1, (BitVec.twoPow 26 25).setWidth 32)
      (List.mem_map.2 ⟨(1, BitVec.twoPow 26 25), mem_rdsBursts.2 (.single 25 (by decide)), rfl⟩)
    rw [List.find?_singleton] at hlast
    split_ifs at hlast with hcut
    exact absurd hcut htop

/-- Whatever the burst corrector accepts is a word of the offset, one burst away. -/
lemma rdsCorrectBurstErrors_sound {o : RdsOffset} (ho : o ≠ .invalid) (raw : BitVec 26)
    (h : (rdsCorrectBurstErrors (raw.setWidth 32) o).succeeded = true) :
    ∃ word e, (rdsCorrectBurstErrors (raw.setWidth 32) o).correctedBits = word.setWidth 32 ∧
      wordOffset word = o ∧ word = raw ^^^ e ∧
      BurstError (rdsCorrectBurstErrors (raw.setWidth 32) o).correctedBitCount e := by
  rw [rdsCorrectBurstErrors_eq] at h ⊢
  cases hfound : explain rdsCalculateSyndrome Prod.snd rdsBurstErrorVectors (rdsOffsetWord o)
      (raw.setWidth 32) with
  | none => simp [hfound] at h
  | some burst =>
    obtain ⟨count, errorVector⟩ := burst
    have hsyndrome := explain_sound rdsCalculateSyndrome_linear hfound
    obtain ⟨e, he, rfl⟩ := explain_burst hfound
    refine ⟨raw ^^^ e, e, BitVec.setWidth_xor.symm, ?_, rfl, he⟩
    rw [wordOffset_eq_iff ho, BitVec.setWidth_xor]
    exact hsyndrome

/-- Burst correction is exact: the block of a data word and an offset comes back from every error of
one bit or two adjacent bits, and whatever is accepted is a word of the offset that lies such an
error away. -/
theorem rdsCorrectBurstErrors_exact (o : RdsOffset) (ho : o ≠ .invalid) :
    (∀ data : BitVec 16, ∃! word : BitVec 26,
      word.extractLsb' 10 16 = data ∧ wordOffset word = o) ∧
    (∀ (data : BitVec 16) (word : BitVec 26), word.extractLsb' 10 16 = data →
      wordOffset word = o → ∀ count e, BurstError count e →
        rdsCorrectBurstErrors ((word ^^^ e).setWidth 32) o = ⟨word.setWidth 32, count, true⟩) ∧
    ∀ raw : BitVec 26, (rdsCorrectBurstErrors (raw.setWidth 32) o).succeeded = true →
      ∃ word e, (rdsCorrectBurstErrors (raw.setWidth 32) o).correctedBits = word.setWidth 32 ∧
        wordOffset word = o ∧ word = raw ^^^ e ∧
        BurstError (rdsCorrectBurstErrors (raw.setWidth 32) o).correctedBitCount e := by
  refine ⟨fun data => ?_, fun data word _ hword count e he => ?_, fun raw => ?_⟩
  · exact existsUnique_word data ho
  · exact rdsCorrectBurstErrors_of_burst ho hword he
  · exact rdsCorrectBurstErrors_sound ho raw

/-- A block A with its two lowest bits inverted. -/
theorem rdsCorrectBurstErrors_exact_adjacent :
    (4771946#26).extractLsb' 10 16 = 0x1234#16 ∧ wordOffset 4771946#26 = .a ∧
      rdsCorrectBurstErrors ((4771946#26 ^^^ 3#26).setWidth 32) .a = ⟨4771946, 2, true⟩ :=
  ⟨by decide, by decide, (rdsCorrectBurstErrors_exact .a (by decide)).2.1 0x1234#16 4771946#26
    (by decide) (by decide) 2 3#26 (.double 0 (by decide))⟩

/-! ### Soft decisions -/

/-- The nested loops run through the sublists of a given length. -/
lemma mem_rdsChoose {α : Type*} {n : ℕ} {l x : List α} :
    x ∈ rdsChoose n l ↔ x.Sublist l ∧ x.length = n := by
  induction l generalizing n x with
  | nil =>
    cases n with
    | zero => simp [rdsChoose]
    | succ n =>
      simp only [rdsChoose, List.not_mem_nil, List.sublist_nil, false_iff, not_and]
      rintro rfl
      simp
  | cons a l ih =>
    cases n with
    | zero =>
      simp only [rdsChoose, List.mem_singleton, List.length_eq_zero_iff]
      exact ⟨fun h => ⟨h ▸ List.nil_sublist _, h⟩, fun h => h.2⟩
    | succ n =>
      simp only [rdsChoose, List.mem_append, List.mem_map, ih, List.sublist_cons_iff]
      constructor
      · rintro (⟨y, ⟨hy, hlen⟩, rfl⟩ | ⟨hx, hlen⟩)
        · exact ⟨.inr ⟨y, rfl, hy⟩, by simp [hlen]⟩
        · exact ⟨.inl hx, hlen⟩
      · rintro ⟨hx | ⟨y, rfl, hy⟩, hlen⟩
        · exact .inr ⟨hx, hlen⟩
        · exact .inl ⟨y, ⟨hy, by simpa using hlen⟩, rfl⟩

lemma rdsFlipMask_getLsbD (indices : List ℕ) (j : ℕ) :
    (rdsFlipMask indices).getLsbD j = decide (∃ i ∈ indices, 25 - i = j) := by
  have h (mask : BitVec 32) : (indices.foldl
      (fun mask i => mask ||| ((1 : BitVec 32) <<< (rdsBlockLength - 1 - i))) mask).getLsbD j
        = (mask.getLsbD j || decide (∃ i ∈ indices, 25 - i = j)) := by
    induction indices generalizing mask with
    | nil => simp
    | cons i indices ih =>
      have hbit : ((1 : BitVec 32) <<< (rdsBlockLength - 1 - i)).getLsbD j
          = decide (25 - i = j) := by
        have hpos : 25 - i < 32 := by omega
        have htwoPow := BitVec.getLsbD_twoPow (w := 32) (25 - i) j
        rw [BitVec.twoPow_eq, decide_eq_true hpos, Bool.true_and] at htwoPow
        exact htwoPow
      rw [List.foldl_cons, ih, BitVec.getLsbD_or, hbit, Bool.or_assoc]
      simp
  exact (h 0).trans (by simp)

/-- A block with the given bits flipped. -/
def rdsFlip (raw : BitVec 26) (indices : List ℕ) : BitVec 26 :=
  raw ^^^ (rdsFlipMask indices).setWidth 26

lemma setWidth_rdsFlip (raw : BitVec 26) (indices : List ℕ) :
    (rdsFlip raw indices).setWidth 32 = raw.setWidth 32 ^^^ rdsFlipMask indices := by
  apply BitVec.eq_of_getLsbD_eq
  intro j hj
  simp only [rdsFlip, BitVec.getLsbD_setWidth, BitVec.getLsbD_xor, rdsFlipMask_getLsbD,
    decide_eq_true hj, Bool.true_and]
  by_cases hlow : j < 26
  · simp [hlow]
  · have hnone : ¬ ∃ i ∈ indices, 25 - i = j := by
      rintro ⟨i, -, hij⟩
      omega
    simp [hlow, hnone]

/-- The positions in which two words differ, oldest bit first. -/
def differingBits (x y : BitVec 26) : Finset (Fin 26) :=
  Finset.univ.filter fun i => x.getMsbD i ≠ y.getMsbD i

lemma rdsFlip_getMsbD (raw : BitVec 26) (indices : List ℕ) (hlt : ∀ i ∈ indices, i < 26)
    (i : Fin 26) :
    (rdsFlip raw indices).getMsbD i = (raw.getMsbD i ^^ decide (i.val ∈ indices)) := by
  have hiff : (∃ k ∈ indices, 25 - k = 26 - 1 - i.val) ↔ i.val ∈ indices := by
    constructor
    · rintro ⟨k, hk, heq⟩
      obtain rfl : k = i.val := by
        have := hlt k hk
        omega
      exact hk
    · exact fun h => ⟨i, h, rfl⟩
  have hpos : 26 - 1 - i.val < 26 := by omega
  simp only [rdsFlip, BitVec.getMsbD_eq_getLsbD, BitVec.getLsbD_xor, BitVec.getLsbD_setWidth,
    rdsFlipMask_getLsbD, hiff, decide_eq_true hpos, decide_eq_true i.isLt, Bool.true_and]

lemma differingBits_rdsFlip (raw : BitVec 26) {indices : List ℕ} (hlt : ∀ i ∈ indices, i < 26) :
    differingBits raw (rdsFlip raw indices) = Finset.univ.filter fun i => i.val ∈ indices := by
  ext i
  simp only [differingBits, Finset.mem_filter, Finset.mem_univ, true_and,
    rdsFlip_getMsbD raw indices hlt]
  by_cases h : i.val ∈ indices <;> simp [h]

/-- A word is the raw block with the differing bits flipped. -/
lemma rdsFlip_of_differingBits {raw word : BitVec 26} {indices : List ℕ}
    (hlt : ∀ i ∈ indices, i < 26)
    (h : ∀ i : Fin 26, i.val ∈ indices ↔ i ∈ differingBits raw word) :
    rdsFlip raw indices = word := by
  apply BitVec.eq_of_getMsbD_eq
  intro i hi
  have hmem := h ⟨i, hi⟩
  have hget : (rdsFlip raw indices).getMsbD i = (raw.getMsbD i ^^ decide (i ∈ indices)) :=
    rdsFlip_getMsbD raw indices hlt ⟨i, hi⟩
  simp only [differingBits, Finset.mem_filter, Finset.mem_univ, true_and] at hmem
  have hbit : decide (i ∈ indices) = (raw.getMsbD i ^^ word.getMsbD i) := by
    rw [Bool.eq_iff_iff, decide_eq_true_iff, hmem, Bool.xor_iff_ne]
  rw [hget, hbit, ← Bool.xor_assoc, Bool.xor_self, Bool.false_xor]

/-- A set of positions given by their indices. -/
lemma card_filter_mem {n : ℕ} {indices : List ℕ} (hnodup : indices.Nodup)
    (hlt : ∀ i ∈ indices, i < n) :
    (Finset.univ.filter fun i : Fin n => i.val ∈ indices).card = indices.length := by
  rw [← List.toFinset_card_of_nodup hnodup, ← Finset.card_map Fin.valEmbedding]
  congr 1
  ext i
  simp only [Finset.mem_map, Finset.mem_filter, Finset.mem_univ, true_and, List.mem_toFinset,
    Fin.valEmbedding_apply]
  constructor
  · rintro ⟨i, hi, rfl⟩
    exact hi
  · exact fun hi => ⟨⟨i, hlt i hi⟩, hi, rfl⟩

section

variable {K : Type*} [LinearOrder K]

/-- The six least confident positions of a block, oldest bit first; of equal confidences the older
bit counts as the less confident one. -/
def leastConfident (confidence : Fin 26 → K) : Finset (Fin 26) :=
  Finset.univ.filter fun i =>
    (Finset.univ.filter fun j =>
      confidence j < confidence i ∨ confidence j = confidence i ∧ j < i).card < rdsSoftCandidateBits

/-- A word lies one, two or three flips of the least confident bits away from the raw block. -/
structure SoftReach (confidence : Fin 26 → K) (raw word : BitVec 26) : Prop where
  among : differingBits raw word ⊆ leastConfident confidence
  pos : 1 ≤ (differingBits raw word).card
  le : (differingBits raw word).card ≤ rdsSoftMaxFlips

/-- The least confident positions in the order of the source. -/
def rdsWeakest (confidence : Fin 26 → K) : List ℕ :=
  select rdsSoftCandidateBits (List.ofFn confidence)

lemma mem_rdsWeakest (confidence : Fin 26 → K) (i : Fin 26) :
    i.val ∈ rdsWeakest confidence ↔ i ∈ leastConfident confidence := by
  rw [leastConfident, Finset.mem_filter, rdsWeakest, mem_select_ofFn]
  exact (and_iff_right (Finset.mem_univ i)).symm

lemma rdsWeakest_lt (confidence : Fin 26 → K) : ∀ i ∈ rdsWeakest confidence, i < 26 := by
  intro i hi
  have hlt := select_lt hi
  rwa [List.length_ofFn] at hlt

lemma rdsWeakest_nodup (confidence : Fin 26 → K) : (rdsWeakest confidence).Nodup :=
  select_nodup _

/-- The flip sets in the order they are tried. -/
def rdsSoftFlips (weakest : List ℕ) : List (List ℕ) :=
  (List.range rdsSoftMaxFlips).flatMap fun n => rdsChoose (n + 1) weakest

lemma mem_rdsSoftFlips {weakest indices : List ℕ} :
    indices ∈ rdsSoftFlips weakest ↔
      indices.Sublist weakest ∧ 1 ≤ indices.length ∧ indices.length ≤ rdsSoftMaxFlips := by
  simp only [rdsSoftFlips, List.mem_flatMap, List.mem_range, mem_rdsChoose]
  constructor
  · rintro ⟨n, hn, hsub, hlen⟩
    exact ⟨hsub, by omega, by omega⟩
  · rintro ⟨hsub, hpos, hle⟩
    exact ⟨indices.length - 1, by omega, hsub, by omega⟩

/-- A soft corrector that succeeds has flipped something. -/
lemma rdsCorrectSoftErrors_count_pos {raw : BitVec 32} {o : RdsOffset} {confidences : List K}
    (h : (rdsCorrectSoftErrors raw o confidences).succeeded = true) :
    0 < (rdsCorrectSoftErrors raw o confidences).correctedBitCount := by
  unfold rdsCorrectSoftErrors at h ⊢
  dsimp only at h ⊢
  split at h
  next indices hfind => exact (mem_rdsSoftFlips.1 (List.mem_of_find?_eq_some hfind)).2.1
  next => exact absurd h Bool.false_ne_true

/-- `rds_correct_soft_errors` takes the first flip set whose word has the offset word as its
syndrome. -/
lemma rdsCorrectSoftErrors_eq (raw : BitVec 26) (o : RdsOffset) (confidence : Fin 26 → K) :
    rdsCorrectSoftErrors (raw.setWidth 32) o (List.ofFn confidence) =
      match (rdsSoftFlips (rdsWeakest confidence)).find? fun indices =>
          rdsCalculateSyndrome ((rdsFlip raw indices).setWidth 32) = rdsOffsetWord o with
      | some indices => ⟨(rdsFlip raw indices).setWidth 32, indices.length, true⟩
      | none => ⟨raw.setWidth 32, 0, false⟩ := by
  simp only [setWidth_rdsFlip, rdsWeakest]
  generalize List.ofFn confidence = register
  rfl

/-- Flipping a flip set leads to a word in reach, as many bits away as the set has. -/
lemma softReach_rdsFlip {confidence : Fin 26 → K} (raw : BitVec 26) {indices : List ℕ}
    (h : indices ∈ rdsSoftFlips (rdsWeakest confidence)) :
    SoftReach confidence raw (rdsFlip raw indices) ∧
      (differingBits raw (rdsFlip raw indices)).card = indices.length := by
  obtain ⟨hsub, hpos, hle⟩ := mem_rdsSoftFlips.1 h
  have hlt : ∀ i ∈ indices, i < 26 := fun i hi => rdsWeakest_lt confidence i (hsub.subset hi)
  have hdiffer := differingBits_rdsFlip raw hlt
  have hcard : (differingBits raw (rdsFlip raw indices)).card = indices.length := by
    rw [hdiffer, card_filter_mem (hsub.nodup (rdsWeakest_nodup confidence)) hlt]
  refine ⟨⟨fun i hi => ?_, hcard.symm ▸ hpos, hcard.symm ▸ hle⟩, hcard⟩
  rw [hdiffer, Finset.mem_filter] at hi
  exact (mem_rdsWeakest confidence i).1 (hsub.subset hi.2)

/-- Every word in reach is tried. -/
lemma SoftReach.exists_flips {confidence : Fin 26 → K} {raw word : BitVec 26}
    (h : SoftReach confidence raw word) :
    ∃ indices ∈ rdsSoftFlips (rdsWeakest confidence), rdsFlip raw indices = word := by
  let indices := (rdsWeakest confidence).filter fun i =>
    ∃ hi : i < 26, ⟨i, hi⟩ ∈ differingBits raw word
  have hmem (i : Fin 26) : i.val ∈ indices ↔ i ∈ differingBits raw word := by
    simp only [indices, List.mem_filter, decide_eq_true_eq, i.isLt, exists_true_left]
    exact ⟨fun hi => hi.2, fun hi => ⟨(mem_rdsWeakest confidence i).2 (h.among hi), hi⟩⟩
  have hlt : ∀ i ∈ indices, i < 26 := fun i hi =>
    rdsWeakest_lt confidence i (List.mem_of_mem_filter hi)
  have hflip := rdsFlip_of_differingBits hlt hmem
  have hlen : indices.length = (differingBits raw word).card := by
    rw [← card_filter_mem ((rdsWeakest_nodup confidence).filter _) hlt]
    exact congrArg Finset.card (Finset.ext fun i => by rw [Finset.mem_filter, hmem i]; simp)
  exact ⟨indices, mem_rdsSoftFlips.2 ⟨List.filter_sublist, hlen.symm ▸ h.pos, hlen.symm ▸ h.le⟩,
    hflip⟩

/-- The corrector succeeds when a word in reach has the offset word as its syndrome. -/
lemma rdsCorrectSoftErrors_succeeded {confidence : Fin 26 → K} {raw word : BitVec 26}
    {o : RdsOffset} (h : SoftReach confidence raw word)
    (hsyndrome : rdsCalculateSyndrome (word.setWidth 32) = rdsOffsetWord o) :
    (rdsCorrectSoftErrors (raw.setWidth 32) o (List.ofFn confidence)).succeeded = true := by
  obtain ⟨indices, hmem, rfl⟩ := h.exists_flips
  rw [rdsCorrectSoftErrors_eq]
  cases hfound : (rdsSoftFlips (rdsWeakest confidence)).find? fun indices =>
      rdsCalculateSyndrome ((rdsFlip raw indices).setWidth 32) = rdsOffsetWord o with
  | some found => rfl
  | none => exact absurd hsyndrome (by simpa using List.find?_eq_none.1 hfound indices hmem)

/-- What the corrector returns is in reach and has the offset word as its syndrome. -/
lemma rdsCorrectSoftErrors_sound {confidence : Fin 26 → K} {raw : BitVec 26} {o : RdsOffset}
    (h : (rdsCorrectSoftErrors (raw.setWidth 32) o (List.ofFn confidence)).succeeded = true) :
    ∃ word, (rdsCorrectSoftErrors (raw.setWidth 32) o (List.ofFn confidence)).correctedBits
        = word.setWidth 32 ∧
      SoftReach confidence raw word ∧
      rdsCalculateSyndrome (word.setWidth 32) = rdsOffsetWord o := by
  rw [rdsCorrectSoftErrors_eq] at h ⊢
  cases hfound : (rdsSoftFlips (rdsWeakest confidence)).find? fun indices =>
      rdsCalculateSyndrome ((rdsFlip raw indices).setWidth 32) = rdsOffsetWord o with
  | none => simp [hfound] at h
  | some indices =>
    exact ⟨_, rfl, (softReach_rdsFlip raw (List.mem_of_find?_eq_some hfound)).1,
      by simpa using List.find?_some hfound⟩

/-- No word with an offset word as its syndrome belongs to that offset. -/
lemma wordOffset_ne_of_syndrome {o : RdsOffset} (ho : o ≠ .invalid) {word : BitVec 26}
    (h : rdsCalculateSyndrome (word.setWidth 32) = rdsOffsetWord o) : wordOffset word ≠ o := by
  rw [wordOffset, h]
  cases o <;> first | exact absurd rfl ho | decide

/-- What a soft corrector is for: it succeeds when flipping one to three of the six least confident
bits gives a word of the offset, and then returns such a word with as few flips as possible. -/
structure SoftCorrection (o : RdsOffset) (confidence : Fin 26 → K) (raw : BitVec 26)
    (result : RdsErrorCorrectionResult) : Prop where
  succeeded_iff : result.succeeded = true ↔
    ∃ word, SoftReach confidence raw word ∧ wordOffset word = o
  repaired : result.succeeded = true → ∃ word, result.correctedBits = word.setWidth 32 ∧
    wordOffset word = o ∧ differingBits raw word ⊆ leastConfident confidence ∧
    (differingBits raw word).card = result.correctedBitCount ∧
    ∀ other, SoftReach confidence raw other →
      (differingBits raw other).card < result.correctedBitCount → wordOffset other ≠ o

/-- The corrector compares a syndrome with an offset word, so it meets its purpose exactly where
there is nothing to repair and the comparison never holds. -/
theorem rdsCorrectSoftErrors_softCorrection_iff (o : RdsOffset) (ho : o ≠ .invalid)
    (confidence : Fin 26 → K) (raw : BitVec 26) :
    SoftCorrection o confidence raw
        (rdsCorrectSoftErrors (raw.setWidth 32) o (List.ofFn confidence)) ↔
      ∀ word, SoftReach confidence raw word →
        wordOffset word ≠ o ∧ rdsCalculateSyndrome (word.setWidth 32) ≠ rdsOffsetWord o := by
  have hfails (h : SoftCorrection o confidence raw
      (rdsCorrectSoftErrors (raw.setWidth 32) o (List.ofFn confidence))) :
      ¬ (rdsCorrectSoftErrors (raw.setWidth 32) o (List.ofFn confidence)).succeeded = true := by
    intro hsucceeded
    obtain ⟨word, hword, -, hsyndrome⟩ := rdsCorrectSoftErrors_sound hsucceeded
    obtain ⟨repaired, hrepaired, hoffset, -⟩ := h.repaired hsucceeded
    have heq : repaired = word := by
      have := congrArg (BitVec.setWidth 26) (hrepaired.symm.trans hword)
      simpa using this
    exact wordOffset_ne_of_syndrome ho hsyndrome (heq ▸ hoffset)
  constructor
  · intro h word hreach
    constructor
    · intro hoffset
      exact hfails h (h.succeeded_iff.2 ⟨word, hreach, hoffset⟩)
    · intro hsyndrome
      exact hfails h (rdsCorrectSoftErrors_succeeded hreach hsyndrome)
  · intro h
    have hfailed :
        ¬ (rdsCorrectSoftErrors (raw.setWidth 32) o (List.ofFn confidence)).succeeded = true := by
      intro hsucceeded
      obtain ⟨word, -, hreach, hsyndrome⟩ := rdsCorrectSoftErrors_sound hsucceeded
      exact (h word hreach).2 hsyndrome
    refine ⟨⟨fun hs => absurd hs hfailed, ?_⟩, fun hs => absurd hs hfailed⟩
    rintro ⟨word, hreach, hoffset⟩
    exact absurd hoffset (h word hreach).1

end

/-- Confidences that rise from the oldest bit to the newest one. -/
def risingConfidence (i : Fin 26) : ℚ := i.val

theorem rdsCorrectSoftErrors_softCorrection_iff_a :
    SoftCorrection .a risingConfidence 48812138#26
        (rdsCorrectSoftErrors ((48812138#26).setWidth 32) .a (List.ofFn risingConfidence)) ↔
      ∀ word, SoftReach risingConfidence 48812138#26 word →
        wordOffset word ≠ .a ∧ rdsCalculateSyndrome (word.setWidth 32) ≠ rdsOffsetWord .a :=
  rdsCorrectSoftErrors_softCorrection_iff .a (by decide) risingConfidence 48812138#26

/-- A block A with three weak bits inverted is not repaired. -/
theorem rdsCorrectSoftErrors_not_softCorrection :
    ¬ SoftCorrection .a risingConfidence 48812138#26
      (rdsCorrectSoftErrors ((48812138#26).setWidth 32) .a (List.ofFn risingConfidence)) := by
  intro h
  have hreach : SoftReach risingConfidence 48812138#26 4771946#26 :=
    ⟨by decide +kernel, by decide +kernel, by decide +kernel⟩
  have hsucceeded := h.succeeded_iff.2 ⟨4771946#26, hreach, by decide⟩
  exact absurd hsucceeded (by decide +kernel)

end Mpxcast
