import Mpxcast.Core.RecentWindow
import Mpxcast.Rds.Codewords

/-!
# Decoding a clean RDS stream

Groups are encoded as four 26-bit blocks with the syndromes of their offsets and fed bit by bit into
a fresh block stream. The three-pulse search finds the block boundary at the third block; from then
on the receiver stays in step with the transmitter and hands over group after group.
-/

namespace Mpxcast

open ShiftRegister RecentWindow

/-! ### The transmitter -/

/-- The offsets of a group; version B uses C' for its third block. -/
def txOffset (versionB : Bool) : Fin 4 → RdsOffset
  | 0 => .a
  | 1 => .b
  | 2 => if versionB then .cPrime else .c
  | 3 => .d

/-- A transmitted group: four words with the syndromes of their offsets. -/
structure RdsTxGroup where
  versionB : Bool
  words : Fin 4 → BitVec 26
  valid : ∀ i, wordOffset (words i) = txOffset versionB i

namespace RdsTxGroup

/-- The data word of a block: its upper 16 bits. -/
def data (tx : RdsTxGroup) (i : Fin 4) : BitVec 16 := (tx.words i).extractLsb' 10 16

/-- The offset of a block. -/
def offset (tx : RdsTxGroup) (i : Fin 4) : RdsOffset := txOffset tx.versionB i

def blocks (tx : RdsTxGroup) : List (BitVec 26) := (List.finRange 4).map tx.words

end RdsTxGroup

/-- The bits on air when the transmission starts with block `start` of the first group. -/
def txBits (start : Fin 4) (groups : List RdsTxGroup) : List Bool :=
  ((groups.flatMap RdsTxGroup.blocks).drop start).flatMap bits

lemma rdsGetBlockNumberForOffset_txOffset (versionB : Bool) (i : Fin 4) :
    rdsGetBlockNumberForOffset (txOffset versionB i) = i := by
  fin_cases i <;> cases versionB <;> rfl

lemma txOffset_ne_invalid (versionB : Bool) (i : Fin 4) : txOffset versionB i ≠ .invalid := by
  fin_cases i <;> cases versionB <;> simp [txOffset]

lemma RdsTxGroup.words_ne_invalid (tx : RdsTxGroup) (i : Fin 4) :
    wordOffset (tx.words i) ≠ .invalid := by
  rw [tx.valid]
  exact txOffset_ne_invalid _ _

lemma RdsTxGroup.wordOffset_ne_invalid (tx : RdsTxGroup) :
    ∀ w ∈ tx.blocks, wordOffset w ≠ .invalid := by
  intro w hw
  obtain ⟨i, -, rfl⟩ := List.mem_map.mp hw
  exact tx.words_ne_invalid i

lemma RdsTxGroup.number_words (tx : RdsTxGroup) (i : Fin 4) :
    rdsGetBlockNumberForOffset (wordOffset (tx.words i)) = i := by
  rw [tx.valid, rdsGetBlockNumberForOffset_txOffset]

/-- The offset the receiver expects at block `i` before it has seen the group's version. -/
def nominalOffset : Fin 4 → RdsOffset := txOffset false

lemma rdsGetNextOffsetFor_txOffset (versionB : Bool) (i : Fin 4) :
    rdsGetNextOffsetFor (txOffset versionB i) = nominalOffset (i + 1) := by
  fin_cases i <;> cases versionB <;> rfl

lemma nominalOffset_eq_a_iff (i : Fin 4) : nominalOffset i = .a ↔ i = 0 := by
  fin_cases i <;> simp [nominalOffset, txOffset]

/-! ### The receiver -/

variable {K : Type*} [Field K] [LinearOrder K]

/-- Hands over a group that is ready. -/
def rdsDrain (state : RdsBlockStreamState K) : RdsBlockStreamState K × List (RdsGroup K) :=
  if state.hasGroupReady then
    let (state, group) := rdsBlockStreamPopGroup state
    (state, [group])
  else (state, [])

/-- Pushes bits with their confidences and drains after each of them. -/
def rdsReceive (state : RdsBlockStreamState K) :
    List (Bool × K) → RdsBlockStreamState K × List (RdsGroup K)
  | [] => (state, [])
  | (bit, confidence) :: input =>
    let (state, groups) := rdsDrain (rdsBlockStreamPushBitWithConfidence state bit confidence)
    let (state, later) := rdsReceive state input
    (state, groups ++ later)

lemma rdsReceive_append (state : RdsBlockStreamState K) (x y : List (Bool × K)) :
    rdsReceive state (x ++ y) =
      ((rdsReceive (rdsReceive state x).1 y).1,
        (rdsReceive state x).2 ++ (rdsReceive (rdsReceive state x).1 y).2) := by
  induction x generalizing state with
  | nil => simp [rdsReceive]
  | cons b x ih => simp [rdsReceive, ih]

/-- What is stored for a block that was received without errors. -/
structure ReceivedBlock (tx : RdsTxGroup) (i : Fin 4) (block : RdsBlock K) : Prop where
  data : block.data = tx.data i
  received : block.isReceived = true
  clean : block.hadErrors = false
  uncorrected : block.correctedBitCount = 0

/-- A delivered group holds the blocks of `tx` from block `lo` on, and no others. -/
def ReceivedFrom (lo : Fin 4) (tx : RdsTxGroup) (group : RdsGroup K) : Prop :=
  ∀ i, if lo ≤ i then ReceivedBlock tx i (group.blocks i) else (group.blocks i).isReceived = false

/-- The receiver is about to process block `i` of `tx`, having stored the blocks from `lo` on. -/
structure InStep (tx : RdsTxGroup) (lo i : Fin 4) (s : RdsBlockStreamState K) : Prop where
  sync : s.isInSync = true
  not_lost : s.syncLostEvent = false
  expected : s.expectedOffset = tx.offset i ∨ s.expectedOffset = nominalOffset i
  stored : ∀ j, if lo ≤ j ∧ j < i then ReceivedBlock tx j (s.currentGroup.blocks j)
    else (s.currentGroup.blocks j).isReceived = false
  errors : ∀ e ∈ s.recentBlockErrors, e = false
  error_sum : s.recentBlockErrorSum = 0

omit [Field K] [LinearOrder K] in
/-- The version of the group shows when its third block arrives. -/
lemma InStep.expected_eq {tx : RdsTxGroup} {lo i : Fin 4} {s : RdsBlockStreamState K}
    (h : InStep tx lo i s) :
    (if s.expectedOffset = .c ∧ tx.offset i = .cPrime then .cPrime else s.expectedOffset)
      = tx.offset i := by
  rcases h.expected with he | he
  · rw [he]
    split_ifs with hc
    · exact hc.2.symm
    · rfl
  · rw [he]
    obtain ⟨versionB, words, valid⟩ := tx
    fin_cases i <;> cases versionB <;> rfl

omit [Field K] [LinearOrder K] in
/-- An error-free block keeps the error window empty. -/
lemma rdsRecentErrorPush_false {s : RdsBlockStreamState K}
    (herrors : ∀ e ∈ s.recentBlockErrors, e = false)
    (hsum : s.recentBlockErrorSum = 0) :
    (∀ e ∈ (rdsRecentErrorPush s false).recentBlockErrors, e = false) ∧
      (rdsRecentErrorPush s false).recentBlockErrorSum = 0 := by
  have hold : s.recentBlockErrors.getD s.recentBlockErrorsPos false = false := by
    rw [List.getD_eq_getElem?_getD]
    cases hget : s.recentBlockErrors[s.recentBlockErrorsPos]? with
    | none => rfl
    | some e => exact herrors e (List.mem_of_getElem? hget)
  have hset : ∀ e ∈ s.recentBlockErrors.set s.recentBlockErrorsPos false, e = false := by
    intro e he
    rcases List.mem_or_eq_of_mem_set he with he | rfl
    · exact herrors e he
    · rfl
  rw [rdsRecentErrorPush_eq]
  exact ⟨hset, by simp only [hsum, hold, CMemory.sizeSub]; simp⟩

/-- The slot an error-free word leaves behind. -/
def cleanBlock (word : BitVec 26) (confidence : K) : RdsBlock K :=
  ⟨word.extractLsb' 10 16, true, false, false, 0, confidence⟩

omit [Field K] [LinearOrder K] in
lemma cleanBlock_received (tx : RdsTxGroup) (i : Fin 4) (confidence : K) :
    ReceivedBlock tx i (cleanBlock (tx.words i) confidence) :=
  ⟨rfl, rfl, rfl, rfl⟩

/-- A block with the expected offset is stored as it is. -/
lemma rdsProcessBlock_clean (s : RdsBlockStreamState K) (word : BitVec 26) (confidence : K) :
    rdsProcessBlock s (word.setWidth 32) s.expectedOffset confidence =
      { (if rdsGetNextOffsetFor s.expectedOffset = .a then
          rdsHandleReadyGroup (rdsStoreBlock s (cleanBlock word confidence))
        else rdsStoreBlock s (cleanBlock word confidence)) with
        expectedOffset := rdsGetNextOffsetFor s.expectedOffset } := by
  by_cases h : rdsGetNextOffsetFor s.expectedOffset = .a <;>
    simp [rdsProcessBlock, data_eq, rdsStoreBlock, rdsHandleReadyGroup, cleanBlock, h]

/-- The state in which a clean block in step is stored. -/
lemma InStep.find_eq {tx : RdsTxGroup} {lo i : Fin 4} {s : RdsBlockStreamState K}
    (h : InStep tx lo i s)
    (hreg : s.inputRegister &&& rdsBlockBitmask = (tx.words i).setWidth 32) :
    ∃ s₁ confidence, rdsFindBlockInRegister s =
        rdsProcessBlock s₁ ((tx.words i).setWidth 32) (tx.offset i) confidence ∧
      s₁.expectedOffset = tx.offset i ∧ s₁.isInSync = true ∧ s₁.syncLostEvent = false ∧
      s₁.currentGroup = s.currentGroup ∧ s₁.hasGroupReady = s.hasGroupReady ∧
      (∀ e ∈ s₁.recentBlockErrors, e = false) ∧ s₁.recentBlockErrorSum = 0 := by
  have hoffset : rdsGetOffsetForSyndrome (rdsCalculateSyndrome ((tx.words i).setWidth 32))
      = tx.offset i := tx.valid i
  have hexp : (if s.expectedOffset = .c ∧ tx.offset i = .cPrime then
        { { s with totalBlocksSeen := s.totalBlocksSeen + 1 } with expectedOffset := .cPrime }
      else { s with totalBlocksSeen := s.totalBlocksSeen + 1 })
      = { s with totalBlocksSeen := s.totalBlocksSeen + 1, expectedOffset := tx.offset i } := by
    have hexpected := h.expected_eq
    split_ifs at hexpected ⊢ with hc
    · rw [hc.2]
    · rw [← hexpected]
  have hne : decide (tx.offset i ≠ tx.offset i) = false := by simp
  obtain ⟨herrors, hsum⟩ := rdsRecentErrorPush_false
    (s := { s with totalBlocksSeen := s.totalBlocksSeen + 1, expectedOffset := tx.offset i })
    h.errors h.error_sum
  refine ⟨rdsRecentErrorPush
    { s with totalBlocksSeen := s.totalBlocksSeen + 1, expectedOffset := tx.offset i } false,
    rdsGetBlockConfidence s, ?_, ?_, ?_, ?_, ?_, ?_, herrors, hsum⟩
  · have hsync : rdsAcquireSync s (tx.offset i) s.bitCount = s := if_pos h.sync
    unfold rdsFindBlockInRegister
    dsimp only
    rw [hreg, hoffset, hsync, if_neg (by simp [h.sync]), hexp, hne, if_neg (by simp [hsum])]
    rfl
  all_goals simp only [rdsRecentErrorPush_eq, h.sync, h.not_lost]

/-- A block short of the last one of its group is added to the current group. -/
lemma InStep.find_next {tx : RdsTxGroup} {lo i : Fin 4} {s : RdsBlockStreamState K}
    (h : InStep tx lo i s) (hlo : lo ≤ i) (hi : i < 3)
    (hreg : s.inputRegister &&& rdsBlockBitmask = (tx.words i).setWidth 32) :
    InStep tx lo (i + 1) (rdsFindBlockInRegister s) ∧
      (rdsFindBlockInRegister s).hasGroupReady = s.hasGroupReady := by
  obtain ⟨s₁, confidence, hfind, hexp, hsync, hlost, hgroup, hready, herrors, hsum⟩ :=
    h.find_eq hreg
  have hnext : rdsGetNextOffsetFor (tx.offset i) = nominalOffset (i + 1) :=
    rdsGetNextOffsetFor_txOffset _ _
  have hne : nominalOffset (i + 1) ≠ .a := by
    rw [Ne, nominalOffset_eq_a_iff]
    omega
  have hnumber : rdsGetBlockNumberForOffset (tx.offset i) = i :=
    rdsGetBlockNumberForOffset_txOffset _ _
  rw [hfind, ← hexp, rdsProcessBlock_clean, hexp, hnext, if_neg hne]
  refine ⟨⟨hsync, hlost, .inr rfl, fun j => ?_, herrors, hsum⟩, hready⟩
  have hstored := h.stored j
  simp only [rdsStoreBlock, hgroup, hexp, hnumber]
  rcases eq_or_ne j i with rfl | hj
  · rw [if_pos ⟨hlo, by omega⟩, Function.update_self]
    exact cleanBlock_received tx j confidence
  · have hiff : (lo ≤ j ∧ j < i + 1) ↔ (lo ≤ j ∧ j < i) := by
      constructor <;> rintro ⟨hlo, hlt⟩ <;> exact ⟨hlo, by omega⟩
    rw [Function.update_of_ne hj]
    simpa only [hiff] using hstored

/-- The last block of a group makes the group ready. -/
lemma InStep.find_last {tx : RdsTxGroup} {lo : Fin 4} {s : RdsBlockStreamState K}
    (h : InStep tx lo 3 s)
    (hreg : s.inputRegister &&& rdsBlockBitmask = (tx.words 3).setWidth 32) :
    (∀ tx', InStep tx' 0 0 (rdsFindBlockInRegister s)) ∧
      (rdsFindBlockInRegister s).hasGroupReady = true ∧
      ReceivedFrom lo tx (rdsFindBlockInRegister s).readyGroup := by
  obtain ⟨s₁, confidence, hfind, hexp, hsync, hlost, hgroup, hready, herrors, hsum⟩ :=
    h.find_eq hreg
  have hnext : rdsGetNextOffsetFor (tx.offset 3) = .a := rfl
  rw [hfind, ← hexp, rdsProcessBlock_clean, hexp, hnext, if_pos rfl]
  refine ⟨fun tx' => ⟨hsync, hlost, .inl rfl, fun j => ?_, herrors, hsum⟩, rfl, fun j => ?_⟩
  · rw [if_neg (by simp)]
    rfl
  · have hstored := h.stored j
    have hnumber : rdsGetBlockNumberForOffset (tx.offset 3) = 3 := rfl
    simp only [rdsHandleReadyGroup, rdsStoreBlock, hgroup, hexp, hnumber]
    rcases eq_or_ne j 3 with rfl | hj
    · rw [if_pos (by omega), Function.update_self]
      exact cleanBlock_received tx 3 confidence
    · have hiff : (lo ≤ j ∧ j < 3) ↔ lo ≤ j := by
        constructor
        · exact And.left
        · exact fun hle => ⟨hle, by omega⟩
      rw [Function.update_of_ne hj]
      simpa only [hiff] using hstored

/-! ### Whole blocks -/

/-- The receiver has just finished a block and stands before block `i`. -/
structure Aligned (tx : RdsTxGroup) (lo i : Fin 4) (s : RdsBlockStreamState K) : Prop
    extends InStep tx lo i s where
  aligned : s.bitsUntilNextBlock = 26
  drained : s.hasGroupReady = false

/-- In sync, and never out of it before. -/
def SyncHeld (s : RdsBlockStreamState K) : Prop := s.isInSync = true ∧ s.syncLostEvent = false

/-- Bits short of the end of the block only move the registers. -/
lemma rdsReceive_quiet {s : RdsBlockStreamState K} (hdrained : s.hasGroupReady = false)
    {input : List (Bool × K)} (hlt : input.length < s.bitsUntilNextBlock.toNat) :
    ∃ confidences bitCount, rdsReceive s input =
      ({ s with
        inputRegister := feed s.inputRegister (input.map Prod.fst)
        inputConfidenceRegister := confidences
        bitCount
        bitsUntilNextBlock := s.bitsUntilNextBlock - BitVec.ofNat 32 input.length }, []) := by
  induction input generalizing s with
  | nil => exact ⟨s.inputConfidenceRegister, s.bitCount, by simp [rdsReceive]⟩
  | cons b input ih =>
    rw [List.length_cons] at hlt
    have hsub : (s.bitsUntilNextBlock - 1).toNat = s.bitsUntilNextBlock.toNat - 1 := by
      have := s.bitsUntilNextBlock.isLt
      rw [BitVec.toNat_sub]
      simp
      omega
    have hne : s.bitsUntilNextBlock - 1 ≠ 0 := by
      intro h0
      rw [h0] at hsub
      simp at hsub
      omega
    obtain ⟨s₁, hs₁⟩ : ∃ s₁, s₁ = { s with
        inputRegister := shiftIn s.inputRegister b.1
        inputConfidenceRegister := s.inputConfidenceRegister.tail ++ [b.2]
        bitsUntilNextBlock := s.bitsUntilNextBlock - 1
        bitCount := s.bitCount + 1 } := ⟨_, rfl⟩
    have hpush : rdsBlockStreamPushBitWithConfidence s b.1 b.2 = s₁ := by
      rw [hs₁]
      exact if_neg hne
    have hdrained₁ : s₁.hasGroupReady = false := hs₁ ▸ hdrained
    obtain ⟨confidences, bitCount, hrec⟩ := ih hdrained₁ (by rw [hs₁]; simp only [hsub]; omega)
    refine ⟨confidences, bitCount, ?_⟩
    rw [rdsReceive, hpush, rdsDrain, if_neg (by simp [hdrained₁])]
    dsimp only
    rw [hrec, hs₁]
    simp only [List.map_cons, feed_cons, List.nil_append, List.length_cons]
    have hcount : s.bitsUntilNextBlock - 1 - BitVec.ofNat 32 input.length
        = s.bitsUntilNextBlock - BitVec.ofNat 32 (input.length + 1) := by
      bv_omega
    rw [hcount]

/-- Feeding a word puts it into the window. -/
lemma window_eq (r : BitVec 32) (word : BitVec 26) :
    feed r (bits word) &&& rdsBlockBitmask = word.setWidth 32 := by
  rw [and_rdsBlockBitmask, feed_bits r word (by decide)]

/-- The last bit of a block hands the window over to `rds_find_block_in_register`. -/
lemma rdsBlockStreamPushBit_last {s : RdsBlockStreamState K} (h : s.bitsUntilNextBlock = 1)
    (bit : Bool) (confidence : K) :
    ∃ s₁, rdsBlockStreamPushBitWithConfidence s bit confidence =
        { rdsFindBlockInRegister s₁ with
          bitsUntilNextBlock :=
            if (rdsFindBlockInRegister s₁).isInSync then BitVec.ofNat 32 rdsBlockLength else 1 } ∧
      s₁ = { s with
        inputRegister := shiftIn s.inputRegister bit
        inputConfidenceRegister := s.inputConfidenceRegister.tail ++ [confidence]
        bitsUntilNextBlock := 0
        bitCount := s.bitCount + 1 } := by
  refine ⟨_, ?_, rfl⟩
  unfold rdsBlockStreamPushBitWithConfidence
  simp [h]

omit [Field K] [LinearOrder K] in
lemma InStep.congr {tx : RdsTxGroup} {lo i : Fin 4} {s t : RdsBlockStreamState K}
    (h : InStep tx lo i s) (hsync : t.isInSync = s.isInSync)
    (hlost : t.syncLostEvent = s.syncLostEvent)
    (hexp : t.expectedOffset = s.expectedOffset) (hgroup : t.currentGroup = s.currentGroup)
    (herrors : t.recentBlockErrors = s.recentBlockErrors)
    (hsum : t.recentBlockErrorSum = s.recentBlockErrorSum) : InStep tx lo i t :=
  ⟨hsync ▸ h.sync, hlost ▸ h.not_lost, hexp ▸ h.expected, hgroup ▸ h.stored, herrors ▸ h.errors,
    hsum ▸ h.error_sum⟩

/-- The receiver is in sync at every point of the input. -/
def HeldThroughout (s : RdsBlockStreamState K) (input : List (Bool × K)) : Prop :=
  ∀ n ≤ input.length, SyncHeld (rdsReceive s (input.take n)).1

lemma HeldThroughout.append {s : RdsBlockStreamState K} {x y : List (Bool × K)}
    (hx : HeldThroughout s x) (hy : HeldThroughout (rdsReceive s x).1 y) :
    HeldThroughout s (x ++ y) := by
  intro n hn
  rcases le_or_gt n x.length with hle | hgt
  · rw [List.take_append_of_le_length hle]
    exact hx n hle
  · rw [List.length_append] at hn
    obtain ⟨k, rfl⟩ := Nat.exists_eq_add_of_le hgt.le
    rw [List.take_length_add_append, rdsReceive_append]
    exact hy k (by omega)

/-- A whole block: 25 bits that only move the registers, and one with which the word stands in the
window. -/
lemma rdsReceive_block {s : RdsBlockStreamState K} (hdrained : s.hasGroupReady = false)
    (haligned : s.bitsUntilNextBlock = 26) {word : BitVec 26} {input : List (Bool × K)}
    (hbits : input.map Prod.fst = bits word) :
    ∃ s₁ confidences bitCount, rdsReceive s input = rdsDrain
        { rdsFindBlockInRegister s₁ with
          bitsUntilNextBlock :=
            if (rdsFindBlockInRegister s₁).isInSync then BitVec.ofNat 32 rdsBlockLength else 1 } ∧
      s₁ = { s with
        inputRegister := feed s.inputRegister (bits word)
        inputConfidenceRegister := confidences
        bitsUntilNextBlock := 0
        bitCount } ∧
      ∀ n < input.length, (rdsReceive s (input.take n)).1.isInSync = s.isInSync ∧
        (rdsReceive s (input.take n)).1.syncLostEvent = s.syncLostEvent := by
  have hlen : input.length = 26 := by
    rw [← List.length_map Prod.fst, hbits, bits_length]
  have hshort (n : ℕ) (hn : n < input.length) :
      (input.take n).length < s.bitsUntilNextBlock.toNat := by
    rw [haligned, List.length_take]
    simp
    omega
  have hquiet (n : ℕ) (hn : n < input.length) := rdsReceive_quiet hdrained (hshort n hn)
  obtain ⟨x, b, rfl⟩ : ∃ x b, input = x ++ [b] :=
    ⟨input.dropLast, input.getLast (List.ne_nil_of_length_pos (by omega)),
      (List.dropLast_append_getLast _).symm⟩
  have hx : x.length = 25 := by simpa using hlen
  obtain ⟨confidences, bitCount, hrec⟩ := hquiet x.length (by simp)
  rw [List.take_left, hx, haligned] at hrec
  obtain ⟨s₁, hpush, hs₁⟩ := rdsBlockStreamPushBit_last (s := (rdsReceive s x).1)
    (by rw [hrec]; rfl) b.1 b.2
  refine ⟨s₁, s₁.inputConfidenceRegister, s₁.bitCount, ?_, ?_, ?_⟩
  · rw [rdsReceive_append, rdsReceive, hpush, hrec]
    simp [rdsReceive]
  · rw [hs₁, hrec, ← hbits, List.map_append, feed_append]
    rfl
  · intro n hn
    obtain ⟨confidences', bitCount', hrec'⟩ := hquiet n hn
    rw [hrec']
    exact ⟨rfl, rfl⟩

/-- The state after the last bit of a block that is processed in state `s`. -/
def rdsBlockDone (s : RdsBlockStreamState K) : RdsBlockStreamState K :=
  { rdsFindBlockInRegister s with
    bitsUntilNextBlock :=
      if (rdsFindBlockInRegister s).isInSync then BitVec.ofNat 32 rdsBlockLength else 1 }

lemma rdsBlockDone_of_sync {s : RdsBlockStreamState K}
    (h : (rdsFindBlockInRegister s).isInSync = true) :
    rdsBlockDone s = { rdsFindBlockInRegister s with bitsUntilNextBlock := 26 } := by
  have hlen : (if (rdsFindBlockInRegister s).isInSync then BitVec.ofNat 32 rdsBlockLength else 1)
      = 26 := if_pos h
  rw [rdsBlockDone, hlen]

/-- A block short of the last one of its group delivers nothing. -/
lemma InStep.drain_next {tx : RdsTxGroup} {lo i : Fin 4} {s : RdsBlockStreamState K}
    (h : InStep tx lo i s) (hlo : lo ≤ i) (hi : i < 3)
    (hreg : s.inputRegister &&& rdsBlockBitmask = (tx.words i).setWidth 32)
    (hdrained : s.hasGroupReady = false) :
    Aligned tx lo (i + 1) (rdsDrain (rdsBlockDone s)).1 ∧ (rdsDrain (rdsBlockDone s)).2 = [] := by
  obtain ⟨hstep, hready⟩ := h.find_next hlo hi hreg
  have hdone := rdsBlockDone_of_sync hstep.sync
  have hdrain : rdsDrain (rdsBlockDone s) = (rdsBlockDone s, []) := by
    rw [rdsDrain, if_neg]
    rw [hdone]
    simp [hready, hdrained]
  rw [hdrain, hdone]
  exact ⟨⟨hstep.congr rfl rfl rfl rfl rfl rfl, rfl, hready.trans hdrained⟩, rfl⟩

/-- The last block of a group delivers it. -/
lemma InStep.drain_last {tx : RdsTxGroup} {lo : Fin 4} {s : RdsBlockStreamState K}
    (h : InStep tx lo 3 s)
    (hreg : s.inputRegister &&& rdsBlockBitmask = (tx.words 3).setWidth 32) :
    (∀ tx', Aligned tx' 0 0 (rdsDrain (rdsBlockDone s)).1) ∧
      ∃ group, (rdsDrain (rdsBlockDone s)).2 = [group] ∧ ReceivedFrom lo tx group := by
  obtain ⟨hstep, hready, hgroup⟩ := h.find_last hreg
  have hdone := rdsBlockDone_of_sync (hstep tx).sync
  have hdrain : rdsDrain (rdsBlockDone s) =
      ({ rdsBlockDone s with hasGroupReady := false },
        [(rdsFindBlockInRegister s).readyGroup]) := by
    rw [rdsDrain, if_pos]
    · rw [hdone]
      rfl
    · rw [hdone]
      exact hready
  rw [hdrain, hdone]
  exact ⟨fun tx' => ⟨(hstep tx').congr rfl rfl rfl rfl rfl rfl, rfl, rfl⟩, _, rfl, hgroup⟩

/-- A block that starts and ends in sync is received in sync. -/
lemma heldThroughout_block {s : RdsBlockStreamState K} {input : List (Bool × K)} (hs : SyncHeld s)
    (hquiet : ∀ n < input.length, (rdsReceive s (input.take n)).1.isInSync = s.isInSync ∧
      (rdsReceive s (input.take n)).1.syncLostEvent = s.syncLostEvent)
    (hend : SyncHeld (rdsReceive s input).1) : HeldThroughout s input := by
  intro n hn
  rcases hn.lt_or_eq with hlt | rfl
  · exact ⟨(hquiet n hlt).1.trans hs.1, (hquiet n hlt).2.trans hs.2⟩
  · rwa [List.take_length]

omit [Field K] [LinearOrder K] in
lemma Aligned.held {tx : RdsTxGroup} {lo i : Fin 4} {s : RdsBlockStreamState K}
    (h : Aligned tx lo i s) : SyncHeld s := ⟨h.sync, h.not_lost⟩

/-- A block short of the last one of its group, bit by bit. -/
lemma Aligned.receive_next {tx : RdsTxGroup} {lo i : Fin 4} {s : RdsBlockStreamState K}
    (h : Aligned tx lo i s) (hlo : lo ≤ i) (hi : i < 3) {input : List (Bool × K)}
    (hbits : input.map Prod.fst = bits (tx.words i)) :
    Aligned tx lo (i + 1) (rdsReceive s input).1 ∧ (rdsReceive s input).2 = [] ∧
      HeldThroughout s input := by
  obtain ⟨s₁, confidences, bitCount, hrec, rfl, hquiet⟩ :=
    rdsReceive_block h.drained h.aligned hbits
  have hstep := h.toInStep.congr (t := { s with
    inputRegister := feed s.inputRegister (bits (tx.words i))
    inputConfidenceRegister := confidences
    bitsUntilNextBlock := 0
    bitCount }) rfl rfl rfl rfl rfl rfl
  obtain ⟨hnext, hnone⟩ := hstep.drain_next hlo hi (window_eq _ _) h.drained
  rw [rdsBlockDone, ← hrec] at hnext hnone
  exact ⟨hnext, hnone, heldThroughout_block h.held hquiet hnext.held⟩

/-- The last block of a group, bit by bit. -/
lemma Aligned.receive_last {tx : RdsTxGroup} {lo : Fin 4} {s : RdsBlockStreamState K}
    (h : Aligned tx lo 3 s) {input : List (Bool × K)}
    (hbits : input.map Prod.fst = bits (tx.words 3)) :
    (∀ tx', Aligned tx' 0 0 (rdsReceive s input).1) ∧
      (∃ group, (rdsReceive s input).2 = [group] ∧ ReceivedFrom lo tx group) ∧
      HeldThroughout s input := by
  obtain ⟨s₁, confidences, bitCount, hrec, rfl, hquiet⟩ :=
    rdsReceive_block h.drained h.aligned hbits
  have hstep := h.toInStep.congr (t := { s with
    inputRegister := feed s.inputRegister (bits (tx.words 3))
    inputConfidenceRegister := confidences
    bitsUntilNextBlock := 0
    bitCount }) rfl rfl rfl rfl rfl rfl
  obtain ⟨hnext, hgroup⟩ := hstep.drain_last (window_eq _ _)
  rw [rdsBlockDone, ← hrec] at hnext hgroup
  exact ⟨hnext, hgroup, heldThroughout_block h.held hquiet (hnext tx).held⟩

/-- The bits of the blocks of a group from `i` on. -/
def RdsTxGroup.bitsFrom (tx : RdsTxGroup) (i : ℕ) : List Bool := (tx.blocks.drop i).flatMap bits

lemma RdsTxGroup.bitsFrom_eq (tx : RdsTxGroup) (i : Fin 4) :
    tx.bitsFrom i = bits (tx.words i) ++ tx.bitsFrom (i + 1 : ℕ) := by
  fin_cases i <;> rfl

/-- The rest of a group. -/
lemma Aligned.receive_group {tx : RdsTxGroup} {lo : Fin 4} :
    ∀ (k : ℕ) {i : Fin 4} {s : RdsBlockStreamState K} {input : List (Bool × K)},
      (i : ℕ) + k = 3 → Aligned tx lo i s → lo ≤ i → input.map Prod.fst = tx.bitsFrom i →
      (∀ tx', Aligned tx' 0 0 (rdsReceive s input).1) ∧
        (∃ group, (rdsReceive s input).2 = [group] ∧ ReceivedFrom lo tx group) ∧
        HeldThroughout s input := by
  intro k
  induction k with
  | zero =>
    intro i s input hi h hlo hbits
    obtain rfl : i = 3 := by omega
    refine h.receive_last ?_
    rw [hbits]
    rfl
  | succ k ih =>
    intro i s input hi h hlo hbits
    rw [tx.bitsFrom_eq] at hbits
    obtain ⟨x, y, rfl, hx, hy⟩ := List.map_eq_append_iff.mp hbits
    obtain ⟨hnext, hnone, hheld⟩ := h.receive_next hlo (by omega) hx
    have hsucc : ((i + 1 : Fin 4) : ℕ) = i + 1 := by omega
    obtain ⟨haligned, ⟨group, hgroups, hgroup⟩, hheld'⟩ := ih (by omega) hnext (by omega)
      (by rw [hsucc]; exact hy)
    rw [rdsReceive_append, hnone, List.nil_append]
    exact ⟨haligned, ⟨group, hgroups, hgroup⟩, hheld.append hheld'⟩

/-- Whole groups, one after the other. -/
lemma Aligned.receive_groups {groups : List RdsTxGroup} {s : RdsBlockStreamState K}
    (h : ∀ tx, Aligned tx 0 0 s) (hsync : SyncHeld s) {input : List (Bool × K)}
    (hbits : input.map Prod.fst = groups.flatMap fun tx => tx.bitsFrom 0) :
    List.Forall₂ (ReceivedFrom 0) groups (rdsReceive s input).2 ∧ HeldThroughout s input := by
  induction groups generalizing s input with
  | nil =>
    obtain rfl : input = [] := List.map_eq_nil_iff.mp hbits
    refine ⟨.nil, fun n _ => ?_⟩
    rw [List.take_nil]
    exact hsync
  | cons tx groups ih =>
    obtain ⟨x, y, rfl, hx, hy⟩ := List.map_eq_append_iff.mp hbits
    obtain ⟨haligned, ⟨group, hgroups, hgroup⟩, hheld⟩ := (h tx).receive_group 3 rfl le_rfl hx
    obtain ⟨hrest, hheld'⟩ := ih haligned ⟨(haligned tx).sync, (haligned tx).not_lost⟩ hy
    rw [rdsReceive_append, hgroups]
    exact ⟨.cons hgroup hrest, hheld.append hheld'⟩

/-! ### The search for sync -/

/-- A history of eight slots that has seen only the last entries. -/
def slots {α : Type*} (empty : α) (entries : List α) : List α :=
  List.replicate (8 - entries.length) empty ++ entries

lemma slots_eq_window {α : Type*} (empty : α) {entries : List α} (h : entries.length ≤ 8) :
    slots empty entries = window 8 empty entries := by
  rw [slots, window, List.drop_append_of_le_length (by rwa [List.length_replicate]),
    List.drop_replicate]

lemma slots_push {α : Type*} (empty x : α) {entries : List α} (h : entries.length < 8) :
    (slots empty entries).tail ++ [x] = slots empty (entries ++ [x]) := by
  rw [slots_eq_window empty h.le, slots_eq_window empty (by simpa using h),
    window_push (by decide)]

lemma slots_getD {α : Type*} (empty : α) {entries : List α} {i : ℕ}
    (h : i + entries.length < 8) : (slots empty entries).getD i empty = empty := by
  rw [slots_eq_window empty (by omega), List.getD_eq_getElem?_getD, window_getElem?,
    if_neg (by omega), Option.getD_some]

/-- The receiver has taken in the bits `pre` and found the given pulses, too few to acquire sync. -/
structure Hunting (pulses : List (RdsOffset × BitVec 32)) (pre : List Bool)
    (s : RdsBlockStreamState K) : Prop where
  unsynced : s.isInSync = false
  not_lost : s.syncLostEvent = false
  hunting : s.bitsUntilNextBlock = 1
  drained : s.hasGroupReady = false
  count : s.bitCount = BitVec.ofNat 32 pre.length
  register : s.inputRegister = feed 0 pre
  offsets : s.syncOffsets = slots .invalid (pulses.map Prod.fst)
  positions : s.syncPositions = slots 0 (pulses.map Prod.snd)

/-- The window after the bits `pre`. -/
def windowOffset (pre : List Bool) : RdsOffset := wordOffset (feed 0 pre)

omit [LinearOrder K] in
lemma hunting_init : Hunting [] [] (rdsBlockStreamInit : RdsBlockStreamState K) :=
  ⟨rfl, rfl, rfl, rfl, rfl, rfl, rfl, rfl⟩

/-- The offset that is found in the register is that of the window. -/
lemma registerOffset_eq (pre : List Bool) :
    rdsGetOffsetForSyndrome (rdsCalculateSyndrome (feed (0 : BitVec 32) pre &&& rdsBlockBitmask))
      = windowOffset pre := by
  rw [and_rdsBlockBitmask, feed_setWidth _ _ (by decide), windowOffset, wordOffset]
  rfl

omit [Field K] [LinearOrder K] in
/-- The search does not succeed while the six oldest slots are empty. -/
lemma rdsSyncBufferIsSequenceFound_of_few {s : RdsBlockStreamState K}
    (h : ∀ i < 6, s.syncOffsets.getD i .invalid = .invalid) :
    rdsSyncBufferIsSequenceFound s = false := by
  simp only [rdsSyncBufferIsSequenceFound, List.any_eq_false, List.mem_range]
  intro first hfirst hany
  obtain ⟨second, -, hfollows⟩ := List.any_eq_true.mp hany
  rw [Bool.and_eq_true] at hfollows
  have hpulse := hfollows.2
  rw [rdsSyncSlotFollows, rdsSyncPulseCouldFollow, h first hfirst] at hpulse
  simp at hpulse

/-- A window that does not bring sync ends the processing of the bit. -/
lemma rdsFindBlockInRegister_of_unsynced {s t : RdsBlockStreamState K} {pre : List Bool}
    (hreg : s.inputRegister = feed 0 pre)
    (hacquire : rdsAcquireSync s (windowOffset pre) s.bitCount = t)
    (hunsynced : t.isInSync = false) : rdsFindBlockInRegister s = t := by
  unfold rdsFindBlockInRegister
  dsimp only
  rw [hreg, registerOffset_eq, hacquire, if_pos (by simp [hunsynced])]

/-- While the receiver is hunting, every bit is looked at in its window. -/
lemma Hunting.push {pulses : List (RdsOffset × BitVec 32)} {pre : List Bool}
    {s : RdsBlockStreamState K} (h : Hunting pulses pre s) (bit : Bool) (confidence : K) :
    ∃ s₁, rdsBlockStreamPushBitWithConfidence s bit confidence =
        { rdsFindBlockInRegister s₁ with
          bitsUntilNextBlock :=
            if (rdsFindBlockInRegister s₁).isInSync then BitVec.ofNat 32 rdsBlockLength else 1 } ∧
      Hunting pulses (pre ++ [bit]) { s₁ with bitsUntilNextBlock := 1 } := by
  obtain ⟨s₁, hpush, rfl⟩ := rdsBlockStreamPushBit_last h.hunting bit confidence
  refine ⟨_, hpush, h.unsynced, h.not_lost, rfl, h.drained, ?_, ?_, h.offsets, h.positions⟩
  · simp only [h.count, List.length_append, List.length_singleton]
    rw [BitVec.ofNat_add]
    rfl
  · simp only [h.register, feed_append]
    rfl

/-- One bit without a pulse. -/
lemma Hunting.push_invalid {pulses : List (RdsOffset × BitVec 32)} {pre : List Bool}
    {s : RdsBlockStreamState K} (h : Hunting pulses pre s) {bit : Bool}
    (hwindow : windowOffset (pre ++ [bit]) = .invalid) (confidence : K) :
    Hunting pulses (pre ++ [bit]) (rdsBlockStreamPushBitWithConfidence s bit confidence) := by
  obtain ⟨s₁, hpush, h₁⟩ := h.push bit confidence
  have hunsynced : s₁.isInSync = false := h₁.unsynced
  have hfind : rdsFindBlockInRegister s₁ = s₁ := by
    refine rdsFindBlockInRegister_of_unsynced h₁.register ?_ hunsynced
    rw [rdsAcquireSync, if_neg (by simp [hunsynced]), if_neg (by simp [hwindow])]
  rw [hpush, hfind, hunsynced]
  exact h₁

/-- The first and the second pulse. -/
lemma Hunting.push_pulse {pulses : List (RdsOffset × BitVec 32)} {pre : List Bool}
    {s : RdsBlockStreamState K} (h : Hunting pulses pre s) (hfew : pulses.length < 2) {bit : Bool}
    (hwindow : windowOffset (pre ++ [bit]) ≠ .invalid) (confidence : K) :
    Hunting (pulses ++ [(windowOffset (pre ++ [bit]), BitVec.ofNat 32 (pre ++ [bit]).length)])
      (pre ++ [bit]) (rdsBlockStreamPushBitWithConfidence s bit confidence) := by
  obtain ⟨s₁, hpush, h₁⟩ := h.push bit confidence
  have hunsynced : s₁.isInSync = false := h₁.unsynced
  have hoffsets : s₁.syncOffsets.tail ++ [windowOffset (pre ++ [bit])]
      = slots .invalid (pulses.map Prod.fst ++ [windowOffset (pre ++ [bit])]) := by
    rw [h₁.offsets, slots_push _ _ (by rw [List.length_map]; omega)]
  have hpositions : s₁.syncPositions.tail ++ [s₁.bitCount]
      = slots 0 (pulses.map Prod.snd ++ [BitVec.ofNat 32 (pre ++ [bit]).length]) := by
    rw [h₁.positions, slots_push _ _ (by rw [List.length_map]; omega), h₁.count]
  have hfind : rdsFindBlockInRegister s₁
      = rdsSyncBufferPush s₁ (windowOffset (pre ++ [bit])) s₁.bitCount := by
    refine rdsFindBlockInRegister_of_unsynced h₁.register ?_ hunsynced
    have hnone : rdsSyncBufferIsSequenceFound
        (rdsSyncBufferPush s₁ (windowOffset (pre ++ [bit])) s₁.bitCount) = false := by
      refine rdsSyncBufferIsSequenceFound_of_few fun i hi => ?_
      rw [rdsSyncBufferPush, hoffsets]
      exact slots_getD _ (by simp; omega)
    rw [rdsAcquireSync, if_neg (by simp [hunsynced]), if_pos hwindow]
    simp only [hnone, Bool.false_eq_true, if_false]
  rw [hpush, hfind]
  refine ⟨hunsynced, h₁.not_lost, if_neg (by simp [rdsSyncBufferPush, hunsynced]), h₁.drained,
    h₁.count, h₁.register, ?_, ?_⟩
  · simpa [rdsSyncBufferPush] using hoffsets
  · simpa [rdsSyncBufferPush] using hpositions

lemma take_flatMap_bits (words : List (BitVec 26)) (k : ℕ) :
    (words.flatMap bits).take (26 * k) = (words.take k).flatMap bits := by
  induction words generalizing k with
  | nil => simp
  | cons w words ih =>
    cases k with
    | zero => rfl
    | succ k =>
      have htake : (bits w ++ words.flatMap bits).take ((bits w).length + 26 * k)
          = bits w ++ (words.flatMap bits).take (26 * k) := List.take_length_add_append _
      rw [bits_length] at htake
      rw [List.flatMap_cons, Nat.mul_succ, Nat.add_comm, htake, ih, List.take_succ_cons,
        List.flatMap_cons]

lemma length_flatMap_bits (words : List (BitVec 26)) :
    (words.flatMap bits).length = 26 * words.length := by
  simp [List.length_flatMap, Nat.mul_comm]

/-- At the end of a block the window holds its word. -/
lemma windowOffset_flatMap_bits (words : List (BitVec 26)) (w : BitVec 26) :
    windowOffset ((words ++ [w]).flatMap bits) = wordOffset w := by
  have hfeed := feed_bits (feed (0 : BitVec 26) (words.flatMap bits)) w le_rfl
  rw [BitVec.setWidth_eq] at hfeed
  rw [windowOffset, List.flatMap_append, feed_append, List.flatMap_singleton, hfeed]

/-- The pulses of a sequence of blocks. -/
def pulses (words : List (BitVec 26)) : List (RdsOffset × BitVec 32) :=
  words.zipIdx.map fun (w, j) => (wordOffset w, BitVec.ofNat 32 (26 * (j + 1)))

lemma pulses_append (words : List (BitVec 26)) (w : BitVec 26) :
    pulses (words ++ [w])
      = pulses words ++ [(wordOffset w, BitVec.ofNat 32 (26 * (words.length + 1)))] := by
  simp [pulses, List.zipIdx_append]

/-- Only the ends of blocks look like blocks among the first 78 windows. -/
def NoFalsePulse (bs : List Bool) : Prop :=
  ∀ n, 0 < n → n ≤ 78 → n ≤ bs.length → n ≠ 26 → n ≠ 52 → n ≠ 78 →
    windowOffset (bs.take n) = .invalid

/-- The first 77 bits: the receiver hunts and finds the ends of the first two blocks. -/
lemma rdsReceive_hunting {words : List (BitVec 26)} (hvalid : ∀ w ∈ words, wordOffset w ≠ .invalid)
    {input : List (Bool × K)} (hbits : input.map Prod.fst = words.flatMap bits)
    (hpulse : NoFalsePulse (input.map Prod.fst)) :
    ∀ n, n ≤ 77 → n ≤ input.length →
      ∃ s, rdsReceive rdsBlockStreamInit (input.take n) = (s, []) ∧
        Hunting (pulses (words.take (n / 26))) ((words.flatMap bits).take n) s := by
  intro n
  induction n with
  | zero => exact fun _ _ => ⟨_, rfl, hunting_init⟩
  | succ n ih =>
    intro hn hlen
    obtain ⟨s, hrec, hhunt⟩ := ih (by omega) (by omega)
    have hget : input[n]?.isSome := by simp; omega
    obtain ⟨⟨bit, confidence⟩, hb⟩ := Option.isSome_iff_exists.mp hget
    have htake : input.take (n + 1) = input.take n ++ [(bit, confidence)] := by
      rw [List.take_add_one, hb]
      rfl
    have hbs : (words.flatMap bits).take (n + 1) = (words.flatMap bits).take n ++ [bit] := by
      rw [← hbits, ← List.map_take, htake, List.map_append, List.map_take]
      rfl
    have hone (t : RdsBlockStreamState K)
        (ht : rdsBlockStreamPushBitWithConfidence s bit confidence = t)
        (hdrained : t.hasGroupReady = false) :
        rdsReceive rdsBlockStreamInit (input.take (n + 1)) = (t, []) := by
      rw [htake, rdsReceive_append, hrec, rdsReceive, ht, rdsDrain, if_neg (by simp [hdrained])]
      rfl
    by_cases hend : (n + 1) % 26 = 0
    · obtain ⟨j, hj⟩ : ∃ j, n + 1 = 26 * (j + 1) := ⟨n / 26, by omega⟩
      have hquot : n / 26 = j ∧ (n + 1) / 26 = j + 1 := by omega
      have hwords : j < words.length := by
        have htotal := congrArg List.length hbits
        rw [List.length_map, length_flatMap_bits] at htotal
        omega
      have hsplit : words.take (j + 1) = words.take j ++ [words[j]] :=
        (List.take_append_getElem hwords).symm
      have hpre : (words.flatMap bits).take n ++ [bit] =
          (words.take j ++ [words[j]]).flatMap bits := by
        rw [← hbs, hj, take_flatMap_bits, hsplit]
      have hwindow : windowOffset ((words.flatMap bits).take n ++ [bit]) = wordOffset words[j] := by
        rw [hpre, windowOffset_flatMap_bits]
      have hposition : ((words.flatMap bits).take n ++ [bit]).length = 26 * (j + 1) := by
        rw [← hbs, List.length_take, length_flatMap_bits]
        omega
      rw [hquot.1] at hhunt
      have hnext := hhunt.push_pulse (by simp [pulses]; omega)
        (by rw [hwindow]; exact hvalid _ (List.getElem_mem hwords)) confidence
      refine ⟨_, hone _ rfl hnext.drained, ?_⟩
      have hpulses := pulses_append (words.take j) words[j]
      rw [List.length_take, Nat.min_eq_left hwords.le] at hpulses
      rw [hwindow, hposition, ← hpulses, ← hsplit, ← hbs] at hnext
      rw [hquot.2]
      exact hnext
    · have hquot : (n + 1) / 26 = n / 26 := by omega
      have hwindow : windowOffset ((words.flatMap bits).take n ++ [bit]) = .invalid := by
        rw [← hbs, ← hbits]
        exact hpulse (n + 1) (by omega) (by omega) (by simpa using hlen) (by omega) (by omega)
          (by omega)
      have hnext := hhunt.push_invalid hwindow confidence
      exact ⟨_, hone _ rfl hnext.drained, by rw [hquot, hbs]; exact hnext⟩

omit [Field K] [LinearOrder K] in
/-- Three pulses, one block apart and in the order of their offsets, are found. -/
lemma rdsSyncBufferIsSequenceFound_of_three {s : RdsBlockStreamState K} {o₀ o₁ o₂ : RdsOffset}
    (hoffsets : s.syncOffsets = slots .invalid [o₀, o₁, o₂])
    (hpositions : s.syncPositions = slots 0 [26, 52, 78])
    (hvalid : o₀ ≠ .invalid ∧ o₁ ≠ .invalid ∧ o₂ ≠ .invalid)
    (h₁ : rdsGetBlockNumberForOffset o₁ = rdsGetBlockNumberForOffset o₀ + 1)
    (h₂ : rdsGetBlockNumberForOffset o₂ = rdsGetBlockNumberForOffset o₁ + 1) :
    rdsSyncBufferIsSequenceFound s = true := by
  have hfollow (p q : BitVec 32) (hpq : (p - q).toNat = 26) (o o' : RdsOffset) (ho : o ≠ .invalid)
      (ho' : o' ≠ .invalid)
      (hnumber : rdsGetBlockNumberForOffset o = rdsGetBlockNumberForOffset o' + 1) :
      rdsSyncPulseCouldFollow o p o' q = true := by
    have hmod : ((rdsGetBlockNumberForOffset o').val + 1) % 4 =
        (rdsGetBlockNumberForOffset o).val := by
      rw [hnumber]
      omega
    simp [rdsSyncPulseCouldFollow, hpq, rdsBlockLength, ho, ho', hmod]
  rw [rdsSyncBufferIsSequenceFound, List.any_eq_true]
  refine ⟨5, by simp, List.any_eq_true.mpr ⟨6, by decide, ?_⟩⟩
  rw [rdsSyncSlotFollows, rdsSyncSlotFollows, hoffsets, hpositions, Bool.and_eq_true]
  exact ⟨hfollow 78 52 rfl o₂ o₁ hvalid.2.2 hvalid.2.1 h₂,
    hfollow 52 26 rfl o₁ o₀ hvalid.2.1 hvalid.1 h₁⟩

/-- A window that brings sync is processed like one in sync. -/
lemma rdsFindBlockInRegister_of_acquired {s t : RdsBlockStreamState K} {pre : List Bool}
    (hreg : s.inputRegister = feed 0 pre)
    (hacquire : rdsAcquireSync s (windowOffset pre) s.bitCount = t)
    (hsync : t.isInSync = true) (hregister : t.inputRegister = s.inputRegister) :
    rdsFindBlockInRegister s = rdsFindBlockInRegister t := by
  have hagain : rdsAcquireSync t (windowOffset pre) t.bitCount = t := if_pos hsync
  unfold rdsFindBlockInRegister
  dsimp only
  rw [hregister, hreg, registerOffset_eq, hacquire, hagain]

/-- With the third pulse the receiver is in step, having stored nothing of the group. -/
lemma Hunting.push_acquire {o₀ o₁ : RdsOffset} {pre : List Bool} {s : RdsBlockStreamState K}
    (h : Hunting [(o₀, 26), (o₁, 52)] pre s) (hpre : pre.length = 77) {tx : RdsTxGroup} {i : Fin 4}
    {bit : Bool} (hwindow : feed (0 : BitVec 26) (pre ++ [bit]) = tx.words i)
    (hvalid : o₀ ≠ .invalid ∧ o₁ ≠ .invalid)
    (h₁ : rdsGetBlockNumberForOffset o₁ = rdsGetBlockNumberForOffset o₀ + 1)
    (h₂ : i = rdsGetBlockNumberForOffset o₁ + 1) (confidence : K) :
    ∃ s₂, rdsBlockStreamPushBitWithConfidence s bit confidence = rdsBlockDone s₂ ∧
      InStep tx i i s₂ ∧ s₂.inputRegister &&& rdsBlockBitmask = (tx.words i).setWidth 32 ∧
      s₂.hasGroupReady = false := by
  obtain ⟨s₁, hpush, hhunt⟩ := h.push bit confidence
  have hoffset : windowOffset (pre ++ [bit]) = tx.offset i := by
    rw [windowOffset, hwindow]
    exact tx.valid i
  have hunsynced : s₁.isInSync = false := hhunt.unsynced
  have hregister₁ : s₁.inputRegister = feed 0 (pre ++ [bit]) := hhunt.register
  have hcount : s₁.bitCount = 78 := by
    rw [show s₁.bitCount = _ from hhunt.count, List.length_append, hpre]
    rfl
  have hfound : rdsSyncBufferIsSequenceFound (rdsSyncBufferPush s₁ (tx.offset i) 78) = true := by
    have hnumber : rdsGetBlockNumberForOffset (tx.offset i) = i :=
      rdsGetBlockNumberForOffset_txOffset _ _
    refine rdsSyncBufferIsSequenceFound_of_three ?_ ?_
      ⟨hvalid.1, hvalid.2, txOffset_ne_invalid tx.versionB i⟩ h₁ (hnumber.trans h₂)
    · rw [rdsSyncBufferPush, show s₁.syncOffsets = _ from hhunt.offsets]
      rfl
    · rw [rdsSyncBufferPush, show s₁.syncPositions = _ from hhunt.positions]
      rfl
  obtain ⟨s₂, hacquire⟩ : ∃ s₂, rdsAcquireSync s₁ (windowOffset (pre ++ [bit])) s₁.bitCount = s₂ :=
    ⟨_, rfl⟩
  have hs₂ : s₂ = rdsRecentErrorClear { rdsSyncBufferPush s₁ (tx.offset i) 78 with
      isInSync := true
      syncAcquiredEvent := true
      expectedOffset := tx.offset i
      currentGroup := .zero } := by
    have hne : tx.offset i ≠ .invalid := txOffset_ne_invalid _ _
    rw [← hacquire, hoffset, hcount, rdsAcquireSync, if_neg (by simp [hunsynced]), if_pos hne]
    exact if_pos hfound
  have hregister : s₂.inputRegister = s₁.inputRegister := by
    rw [hs₂]
    rfl
  have hfind := rdsFindBlockInRegister_of_acquired hregister₁ hacquire (by rw [hs₂]; rfl) hregister
  refine ⟨s₂, by rw [hpush, rdsBlockDone, hfind], ?_, ?_, ?_⟩
  · rw [hs₂]
    refine ⟨rfl, hhunt.not_lost, .inl rfl, fun j => ?_, fun e he => ?_, rfl⟩
    · rw [if_neg (by omega)]
      rfl
    · exact List.eq_of_mem_replicate he
  · rw [hregister, hregister₁, and_rdsBlockBitmask,
      feed_setWidth _ _ (by decide), ← hwindow]
    rfl
  · rw [hs₂]
    exact hhunt.drained

/-- The rest of the group in which sync was acquired. -/
lemma InStep.finish_group {tx : RdsTxGroup} {i : Fin 4} {s : RdsBlockStreamState K}
    (h : InStep tx i i s) (hreg : s.inputRegister &&& rdsBlockBitmask = (tx.words i).setWidth 32)
    (hdrained : s.hasGroupReady = false) {input : List (Bool × K)}
    (hbits : input.map Prod.fst = tx.bitsFrom (i + 1 : ℕ)) :
    (∀ tx', Aligned tx' 0 0 (rdsReceive (rdsDrain (rdsBlockDone s)).1 input).1) ∧
      (∃ group, (rdsDrain (rdsBlockDone s)).2 ++ (rdsReceive (rdsDrain (rdsBlockDone s)).1 input).2
        = [group] ∧ ReceivedFrom i tx group) ∧
      HeldThroughout (rdsDrain (rdsBlockDone s)).1 input := by
  rcases Fin.lt_or_eq_of_le (Fin.le_last i) with hi | rfl
  · obtain ⟨haligned, hnone⟩ := h.drain_next le_rfl hi hreg hdrained
    have hsucc : ((i + 1 : Fin 4) : ℕ) = i + 1 := by omega
    rw [hnone]
    exact haligned.receive_group (2 - i) (by omega) (by omega) (by rw [hsucc]; exact hbits)
  · obtain ⟨haligned, group, hgroups, hgroup⟩ := h.drain_last hreg
    obtain rfl : input = [] := List.map_eq_nil_iff.mp hbits
    refine ⟨haligned, ⟨group, by rw [hgroups]; rfl, hgroup⟩, fun n _ => ?_⟩
    rw [List.take_nil]
    exact (haligned tx).held

/-- What a receiver delivers that finds the groups `groups` on air, the first of them from block
`lo` on. -/
def Delivered (lo : Fin 4) : List RdsTxGroup → List (RdsGroup K) → Prop
  | [], delivered => delivered = []
  | tx :: rest, delivered => ∃ first later, delivered = first :: later ∧
      ReceivedFrom lo tx first ∧ List.Forall₂ (ReceivedFrom 0) rest later

/-- In sync exactly from bit 78 on. -/
def SyncFrom78 (input : List (Bool × K)) : Prop :=
  ∀ n ≤ input.length, ((rdsReceive rdsBlockStreamInit (input.take n)).1.isInSync = true ↔ 78 ≤ n) ∧
    (rdsReceive rdsBlockStreamInit (input.take n)).1.syncLostEvent = false

/-- Fewer than three blocks do not bring sync. -/
lemma rdsReceive_short {words : List (BitVec 26)} (hvalid : ∀ w ∈ words, wordOffset w ≠ .invalid)
    {input : List (Bool × K)} (hbits : input.map Prod.fst = words.flatMap bits)
    (hpulse : NoFalsePulse (input.map Prod.fst)) {n : ℕ} (hn : n ≤ 77) (hlen : n ≤ input.length) :
    (rdsReceive rdsBlockStreamInit (input.take n)).1.isInSync = false ∧
      (rdsReceive rdsBlockStreamInit (input.take n)).1.syncLostEvent = false ∧
      (rdsReceive rdsBlockStreamInit (input.take n)).2 = [] := by
  obtain ⟨s, hrec, hhunt⟩ := rdsReceive_hunting hvalid hbits hpulse n hn hlen
  rw [hrec]
  exact ⟨hhunt.unsynced, hhunt.not_lost, rfl⟩

lemma rdsReceive_few {words : List (BitVec 26)} (hvalid : ∀ w ∈ words, wordOffset w ≠ .invalid)
    (hfew : words.length ≤ 2) {input : List (Bool × K)}
    (hbits : input.map Prod.fst = words.flatMap bits) (hpulse : NoFalsePulse (input.map Prod.fst))
    (lo : Fin 4) : SyncFrom78 input ∧ Delivered lo [] (rdsReceive rdsBlockStreamInit input).2 := by
  have hlen : input.length ≤ 52 := by
    rw [← List.length_map Prod.fst, hbits, length_flatMap_bits]
    omega
  constructor
  · intro n hn
    obtain ⟨hunsynced, hlost, -⟩ := rdsReceive_short hvalid hbits hpulse (by omega) hn
    exact ⟨iff_of_false (Bool.eq_false_iff.mp hunsynced) (by omega), hlost⟩
  · obtain ⟨-, -, hnone⟩ := rdsReceive_short hvalid hbits hpulse (by omega) le_rfl
    rwa [List.take_length] at hnone

/-- Two blocks, then a group from the block after them on, then whole groups. -/
lemma rdsReceive_three (tx₀ tx₁ : RdsTxGroup) {tx : RdsTxGroup} (j : Fin 4) {i : Fin 4}
    (hi : i = j + 1 + 1)
    {rest : List RdsTxGroup} {input : List (Bool × K)}
    (hbits : input.map Prod.fst = bits (tx₀.words j) ++ bits (tx₁.words (j + 1)) ++ tx.bitsFrom i ++
      rest.flatMap fun tx => tx.bitsFrom 0)
    (hpulse : NoFalsePulse (input.map Prod.fst)) :
    SyncFrom78 input ∧ Delivered i (tx :: rest) (rdsReceive rdsBlockStreamInit input).2 := by
  obtain ⟨w₀, hw₀⟩ : ∃ w₀, w₀ = tx₀.words j := ⟨_, rfl⟩
  obtain ⟨w₁, hw₁⟩ : ∃ w₁, w₁ = tx₁.words (j + 1) := ⟨_, rfl⟩
  have hvalid₀ : wordOffset w₀ ≠ .invalid := hw₀ ▸ tx₀.words_ne_invalid j
  have hvalid₁ : wordOffset w₁ ≠ .invalid := hw₁ ▸ tx₁.words_ne_invalid (j + 1)
  have hnumber₀ : rdsGetBlockNumberForOffset (wordOffset w₀) = j := hw₀ ▸ tx₀.number_words j
  have hnumber₁ : rdsGetBlockNumberForOffset (wordOffset w₁) = j + 1 :=
    hw₁ ▸ tx₁.number_words (j + 1)
  rw [← hw₀, ← hw₁] at hbits
  obtain ⟨words, hwords⟩ : ∃ words,
      words = w₀ :: w₁ :: (tx.blocks.drop i ++ rest.flatMap RdsTxGroup.blocks) := ⟨_, rfl⟩
  have hflat : input.map Prod.fst = words.flatMap bits := by
    rw [hbits, hwords]
    simp [RdsTxGroup.bitsFrom, List.flatMap_append, List.flatMap_assoc]
  have hvalid : ∀ w ∈ words, wordOffset w ≠ .invalid := by
    intro w hw
    rw [hwords, List.mem_cons, List.mem_cons, List.mem_append, List.mem_flatMap] at hw
    rcases hw with rfl | rfl | hw | ⟨tx', -, hw⟩
    · exact hvalid₀
    · exact hvalid₁
    · exact tx.wordOffset_ne_invalid w (List.mem_of_mem_drop hw)
    · exact tx'.wordOffset_ne_invalid w hw
  rw [tx.bitsFrom_eq, ← List.append_assoc, List.append_assoc _ (tx.bitsFrom _)] at hbits
  obtain ⟨u, v, rfl, hu, hv⟩ := List.map_eq_append_iff.mp hbits
  obtain ⟨y, z, rfl, hy, hz⟩ := List.map_eq_append_iff.mp hv
  have hulen : u.length = 78 := by
    rw [← List.length_map Prod.fst, hu]
    simp
  obtain ⟨x, b, rfl⟩ : ∃ x b, u = x ++ [b] :=
    ⟨u.dropLast, u.getLast (List.ne_nil_of_length_pos (by omega)),
      (List.dropLast_append_getLast _).symm⟩
  have hx : x.length = 77 := by simpa using hulen
  obtain ⟨s, hrec, hhunt⟩ := rdsReceive_hunting hvalid hflat hpulse 77 le_rfl (by simp; omega)
  rw [← hflat, ← List.map_take, List.append_assoc, ← hx, List.take_left, hx] at hhunt
  rw [List.append_assoc, ← hx, List.take_left] at hrec
  have hwindow : feed (0 : BitVec 26) (x.map Prod.fst ++ [b.1]) = tx.words i := by
    have hfeed := feed_bits (feed (0 : BitVec 26) (bits w₀ ++ bits w₁)) (tx.words i) le_rfl
    rw [BitVec.setWidth_eq, ← feed_append, ← hu, List.map_append] at hfeed
    exact hfeed
  rw [hwords] at hhunt
  obtain ⟨s₂, hpush, hstep, hreg, hdrained⟩ := hhunt.push_acquire (by rw [List.length_map, hx])
    hwindow ⟨hvalid₀, hvalid₁⟩ (by rw [hnumber₀, hnumber₁]) (by rw [hnumber₁, hi]) b.2
  have hu' : rdsReceive rdsBlockStreamInit (x ++ [b]) = rdsDrain (rdsBlockDone s₂) := by
    rw [rdsReceive_append, hrec, rdsReceive, hpush]
    simp [rdsReceive]
  obtain ⟨haligned, ⟨first, hfirst, hreceived⟩, hheld⟩ := hstep.finish_group hreg hdrained hy
  obtain ⟨hlater, hheld'⟩ := Aligned.receive_groups haligned
    ⟨(haligned tx).sync, (haligned tx).not_lost⟩ hz
  rw [← hu'] at hheld hheld' hfirst hlater
  refine ⟨fun n hn => ?_, first, _, ?_, hreceived, hlater⟩
  · rcases Nat.lt_or_ge n 78 with hlt | hge
    · obtain ⟨hunsynced, hlost, -⟩ := rdsReceive_short hvalid hflat hpulse (by omega) hn
      exact ⟨iff_of_false (Bool.eq_false_iff.mp hunsynced) (by omega), hlost⟩
    · obtain ⟨k, rfl⟩ := Nat.exists_eq_add_of_le hge
      have hsync := hheld.append hheld' k (by simp at hn ⊢; omega)
      rw [← hulen, List.take_length_add_append, rdsReceive_append]
      exact ⟨by simp [hsync.1, hulen], hsync.2⟩
  · rw [rdsReceive_append _ (x ++ [b]), rdsReceive_append _ y, ← List.append_assoc, hfirst]
    rfl

/-- **A clean stream is decoded to what was encoded.** With no false pulse among the first 78
windows, sync is acquired at bit 78 and held; the first group delivered has the blocks from the
third block on, and every later group is delivered as it was sent. -/
theorem rdsReceive_clean (start : Fin 4) (groups : List RdsTxGroup) (input : List (Bool × K))
    (hbits : input.map Prod.fst = txBits start groups)
    (hpulse : NoFalsePulse (txBits start groups)) :
    SyncFrom78 input ∧
      Delivered (start + 2) (groups.drop ((start + 2 : ℕ) / 4))
        (rdsReceive rdsBlockStreamInit input).2 := by
  rw [← hbits] at hpulse
  have hvalid : ∀ w ∈ (groups.flatMap RdsTxGroup.blocks).drop start, wordOffset w ≠ .invalid := by
    intro w hw
    obtain ⟨tx, -, hw⟩ := List.mem_flatMap.mp (List.mem_of_mem_drop hw)
    exact tx.wordOffset_ne_invalid w hw
  have hfew (hlen : ((groups.flatMap RdsTxGroup.blocks).drop start).length ≤ 2) :=
    rdsReceive_few hvalid hlen hbits hpulse (start + 2)
  fin_cases start
  · rcases groups with _ | ⟨tx, rest⟩
    · exact hfew (by simp)
    · refine rdsReceive_three tx tx 0 rfl (hbits.trans ?_) hpulse
      simp [txBits, RdsTxGroup.bitsFrom, RdsTxGroup.blocks, List.finRange, List.flatMap_assoc]
  · rcases groups with _ | ⟨tx, rest⟩
    · exact hfew (by simp)
    · refine rdsReceive_three tx tx 1 rfl (hbits.trans ?_) hpulse
      simp [txBits, RdsTxGroup.bitsFrom, RdsTxGroup.blocks, List.finRange, List.flatMap_assoc]
  · rcases groups with _ | ⟨tx₀, _ | ⟨tx, rest⟩⟩
    · exact hfew (by simp)
    · exact hfew (by simp [RdsTxGroup.blocks])
    · refine rdsReceive_three tx₀ tx₀ 2 rfl (hbits.trans ?_) hpulse
      simp [txBits, RdsTxGroup.bitsFrom, RdsTxGroup.blocks, List.finRange, List.flatMap_assoc]
  · rcases groups with _ | ⟨tx₀, _ | ⟨tx, rest⟩⟩
    · exact hfew (by simp)
    · exact hfew (by simp [RdsTxGroup.blocks])
    · refine rdsReceive_three tx₀ tx 3 rfl (hbits.trans ?_) hpulse
      simp [txBits, RdsTxGroup.bitsFrom, RdsTxGroup.blocks, List.finRange, List.flatMap_assoc]

/-- A radiotext group. -/
def radiotextGroup : RdsTxGroup where
  versionB := false
  words := ![13109906, 9765292, 19498535, 32106536]
  valid := by decide

/-- The bits with confidence 0. -/
def unweighted (bs : List Bool) : List (Bool × ℚ) := bs.map fun b => (b, 0)

theorem rdsReceive_clean_radiotext :
    SyncFrom78 (unweighted (txBits 0 [radiotextGroup, radiotextGroup])) ∧
      Delivered 2 [radiotextGroup, radiotextGroup]
        (rdsReceive rdsBlockStreamInit
          (unweighted (txBits 0 [radiotextGroup, radiotextGroup]))).2 := by
  have hpulse : ∀ n < 79, 0 < n → n ≠ 26 → n ≠ 52 → n ≠ 78 →
      windowOffset ((txBits 0 [radiotextGroup, radiotextGroup]).take n) = .invalid := by
    decide +kernel
  exact rdsReceive_clean 0 [radiotextGroup, radiotextGroup] _
    (by simp [unweighted, Function.comp_def])
    fun n h0 h78 _ => hpulse n (by omega) h0

end Mpxcast
