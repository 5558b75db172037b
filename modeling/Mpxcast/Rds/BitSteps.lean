import Mpxcast.Core.SlidingCount
import Mpxcast.Rds.CleanStream

/-!
# What one bit does to the block stream

Pushing a bit and draining has five outcomes: the window is not due, nothing is found, sync is
acquired, sync is lost, or a block is processed. They are stated once, with the fields each outcome
leaves behind, and the invariants of whole runs are derived from them.
-/

namespace Mpxcast

open ShiftRegister SlidingCount

variable {K : Type*} [Field K] [LinearOrder K]

/-! ### Recent errors -/

/-- The ring of recent block errors. -/
def errorRing (s : RdsBlockStreamState K) : SlidingCount.Ring :=
  ⟨s.recentBlockErrors, s.recentBlockErrorsPos, s.recentBlockErrorsCount, s.recentBlockErrorSum⟩

/-- The errors of the blocks since the last clear, newest first. -/
def ErrorHistory (s : RdsBlockStreamState K) (history : List Bool) : Prop :=
  (errorRing s).Represents 50 history

omit [Field K] [LinearOrder K] in
lemma errorHistory_clear (s : RdsBlockStreamState K) : ErrorHistory (rdsRecentErrorClear s) [] :=
  SlidingCount.Ring.represents_empty 50

omit [Field K] [LinearOrder K] in
/-- The subtraction of the source does not wrap, so the ring is pushed. -/
lemma ErrorHistory.push {s : RdsBlockStreamState K} {history : List Bool}
    (h : ErrorHistory s history) (hadError : Bool) :
    ErrorHistory (rdsRecentErrorPush s hadError) (hadError :: history) := by
  have hring : errorRing (rdsRecentErrorPush s hadError) = (errorRing s).push 50 hadError := by
    rw [rdsRecentErrorPush_eq]
    simp only [errorRing, SlidingCount.Ring.push, SlidingCount.Ring.mk.injEq, true_and]
    have hold : (if s.recentBlockErrors.getD s.recentBlockErrorsPos false then 1 else 0)
        = (s.recentBlockErrors.getD s.recentBlockErrorsPos false).toNat := by
      cases s.recentBlockErrors.getD s.recentBlockErrorsPos false <;> rfl
    have hnew : (if hadError then 1 else 0) = hadError.toNat := by
      cases hadError <;> rfl
    rw [hold, hnew]
    by_cases hfull : s.recentBlockErrorsCount = 50
    · have hsub : CMemory.sizeSub s.recentBlockErrorSum
          (s.recentBlockErrors.getD s.recentBlockErrorsPos false).toNat = s.recentBlockErrorSum
            - (s.recentBlockErrors.getD s.recentBlockErrorsPos false).toNat :=
        if_pos (SlidingCount.Ring.Represents.oldest_le h hfull)
      simpa [hfull] using hsub
    · simp [hfull]
  rw [ErrorHistory, hring]
  exact SlidingCount.Ring.Represents.push h hadError

omit [Field K] [LinearOrder K] in
lemma ErrorHistory.sum_eq {s : RdsBlockStreamState K} {history : List Bool}
    (h : ErrorHistory s history) : s.recentBlockErrorSum = recent 50 history :=
  SlidingCount.Ring.Represents.sum_eq h

/-! ### One block -/

/-- The block that a window leaves in the slot of an offset, if it is received at all. -/
def rdsBlockOf (expected : RdsOffset) (raw : BitVec 32) (confidences : List K) :
    Option (RdsBlock K) :=
  let confidence := confidences.sum / (rdsBlockLength : K)
  if rdsGetOffsetForSyndrome (rdsCalculateSyndrome raw) = expected then
    some ⟨(raw >>> rdsCheckwordLength).setWidth 16, true, false, false, 0, confidence⟩
  else
    let burst := rdsCorrectBurstErrors raw expected
    let correction :=
      if burst.succeeded then burst else rdsCorrectSoftErrors raw expected confidences
    if correction.succeeded then
      some
        { data := (correction.correctedBits >>> rdsCheckwordLength).setWidth 16
          isReceived := true
          hadErrors := true
          softReliable := decide (correction.correctedBitCount > 0) &&
            decide (correction.correctedBitCount ≤ rdsSoftReliableMaxFlips) &&
            decide (confidence ≥ 0)
          correctedBitCount := correction.correctedBitCount
          confidence }
    else none

/-- A block without errors is a word of its slot. -/
lemma rdsBlockOf_errorFree {o : RdsOffset} {raw : BitVec 32} {confidences : List K}
    {block : RdsBlock K} (h : rdsBlockOf o raw confidences = some block)
    (hclean : block.hadErrors = false) :
    rdsGetOffsetForSyndrome (rdsCalculateSyndrome raw) = o ∧
      block.data = (raw >>> rdsCheckwordLength).setWidth 16 := by
  unfold rdsBlockOf at h
  dsimp only at h
  split_ifs at h with hoffset
  case pos =>
    obtain rfl := Option.some.inj h
    exact ⟨hoffset, rfl⟩
  all_goals
    obtain rfl := Option.some.inj h
    exact absurd hclean.symm Bool.false_ne_true

/-- The group with the block of a window in its slot. -/
def rdsStored (group : RdsGroup K) (expected : RdsOffset) (raw : BitVec 32)
    (confidences : List K) : RdsGroup K :=
  match rdsBlockOf expected raw confidences with
  | some block => ⟨Function.update group.blocks (rdsGetBlockNumberForOffset expected) block⟩
  | none => group

/-- The last part of processing a block: a complete group is handed over. -/
def rdsFinishBlock (s : RdsBlockStreamState K) : RdsBlockStreamState K :=
  let s := if rdsGetNextOffsetFor s.expectedOffset = .a then rdsHandleReadyGroup s else s
  { s with expectedOffset := rdsGetNextOffsetFor s.expectedOffset }

/-- Processing stores the block of the window. -/
lemma rdsProcessBlock_eq (s : RdsBlockStreamState K) (raw : BitVec 32) :
    ∃ corrected, rdsProcessBlock s raw (rdsGetOffsetForSyndrome (rdsCalculateSyndrome raw))
        (s.inputConfidenceRegister.sum / (rdsBlockLength : K)) =
      rdsFinishBlock { s with
        correctedBlocksSeen := corrected
        currentGroup := rdsStored s.currentGroup s.expectedOffset raw
          s.inputConfidenceRegister } := by
  by_cases hoffset : rdsGetOffsetForSyndrome (rdsCalculateSyndrome raw) = s.expectedOffset
  · refine ⟨s.correctedBlocksSeen, ?_⟩
    simp [rdsProcessBlock, rdsFinishBlock, hoffset, rdsStored, rdsBlockOf, rdsStoreBlock]
  · obtain ⟨correction, hcorrection⟩ : ∃ correction, correction =
        (if (rdsCorrectBurstErrors raw s.expectedOffset).succeeded then
          rdsCorrectBurstErrors raw s.expectedOffset
        else rdsCorrectSoftErrors raw s.expectedOffset s.inputConfidenceRegister) := ⟨_, rfl⟩
    cases hsucceeded : correction.succeeded with
    | false =>
      refine ⟨s.correctedBlocksSeen, ?_⟩
      simp [rdsProcessBlock, rdsFinishBlock, hoffset, rdsStored, rdsBlockOf, ← hcorrection,
        hsucceeded]
    | true =>
      refine ⟨s.correctedBlocksSeen + 1, ?_⟩
      simp [rdsProcessBlock, rdsFinishBlock, hoffset, rdsStored, rdsBlockOf, rdsStoreBlock,
        ← hcorrection, hsucceeded]

/-! ### The outcomes of a window -/

/-- The offset the window in the register is recognised by. -/
def rdsRegisterOffset (s : RdsBlockStreamState K) : RdsOffset :=
  rdsGetOffsetForSyndrome (rdsCalculateSyndrome (s.inputRegister &&& rdsBlockBitmask))

/-- The offset of the slot the window is processed for: a C' is taken where a C was expected. -/
def rdsSlotOffset (s : RdsBlockStreamState K) : RdsOffset :=
  if s.expectedOffset = .c ∧ rdsRegisterOffset s = .cPrime then .cPrime else s.expectedOffset

/-- The state after `rds_acquire_sync` has found its third pulse. -/
def rdsAcquired (s : RdsBlockStreamState K) : RdsBlockStreamState K :=
  rdsRecentErrorClear
    { rdsSyncBufferPush s (rdsRegisterOffset s) s.bitCount with
      isInSync := true
      syncAcquiredEvent := true
      expectedOffset := rdsRegisterOffset s
      currentGroup := .zero }

/-- The state in which a block in sync is judged. -/
def rdsCountBlock (s : RdsBlockStreamState K) : RdsBlockStreamState K :=
  rdsRecentErrorPush
    { s with totalBlocksSeen := s.totalBlocksSeen + 1, expectedOffset := rdsSlotOffset s }
    (rdsRegisterOffset s ≠ rdsSlotOffset s)

/-- The registers that only shifting writes. -/
structure SameRegisters (s t : RdsBlockStreamState K) : Prop where
  register : t.inputRegister = s.inputRegister
  confidences : t.inputConfidenceRegister = s.inputConfidenceRegister
  count : t.bitCount = s.bitCount

/-- The history of pulses. -/
structure SamePulses (s t : RdsBlockStreamState K) : Prop where
  offsets : t.syncOffsets = s.syncOffsets
  positions : t.syncPositions = s.syncPositions

/-- The group with the block in the register. -/
def rdsStoredGroup (s : RdsBlockStreamState K) : RdsGroup K :=
  rdsStored s.currentGroup (rdsSlotOffset s) (s.inputRegister &&& rdsBlockBitmask)
    s.inputConfidenceRegister

/-- One block is processed in sync. -/
structure BlockStep (s t : RdsBlockStreamState K) : Prop where
  sync : t.isInSync = true
  registers : SameRegisters s t
  pulses : SamePulses s t
  expected : t.expectedOffset = rdsGetNextOffsetFor (rdsSlotOffset s)
  group :
    if rdsGetNextOffsetFor (rdsSlotOffset s) = .a then
      t.currentGroup = .zero ∧ t.hasGroupReady = true ∧ t.readyGroup = rdsStoredGroup s
    else t.currentGroup = rdsStoredGroup s ∧ t.hasGroupReady = s.hasGroupReady
  errors : ∀ history, ErrorHistory s history →
    ErrorHistory t (decide (rdsRegisterOffset s ≠ rdsSlotOffset s) :: history)

/-- Sync is lost over too many recent errors. -/
structure LossStep (s t : RdsBlockStreamState K) : Prop where
  unsynced : t.isInSync = false
  registers : SameRegisters s t
  pulses : SamePulses s t
  drained : t.hasGroupReady = s.hasGroupReady
  errors : ∀ history, ErrorHistory s history → rdsMaxErrorsToleratedOver50Blocks <
    recent 50 (decide (rdsRegisterOffset s ≠ rdsSlotOffset s) :: history)

/-- What `rds_find_block_in_register` can do. -/
inductive RdsFind (s : RdsBlockStreamState K) : RdsBlockStreamState K → Prop
  | quiet (hsync : s.isInSync = false) (ho : rdsRegisterOffset s = .invalid) : RdsFind s s
  | pulse (hsync : s.isInSync = false) (ho : rdsRegisterOffset s ≠ .invalid) :
      RdsFind s (rdsSyncBufferPush s (rdsRegisterOffset s) s.bitCount)
  | acquire {t : RdsBlockStreamState K} (hsync : s.isInSync = false)
      (ho : rdsRegisterOffset s ≠ .invalid)
      (hfound : rdsSyncBufferIsSequenceFound
        (rdsSyncBufferPush s (rdsRegisterOffset s) s.bitCount) = true)
      (hblock : BlockStep (rdsAcquired s) t) : RdsFind s t
  | lost {t : RdsBlockStreamState K} (hsync : s.isInSync = true) (hloss : LossStep s t) :
      RdsFind s t
  | block {t : RdsBlockStreamState K} (hsync : s.isInSync = true) (hblock : BlockStep s t) :
      RdsFind s t

/-- In sync, a block is processed unless too many have had errors. -/
lemma RdsFind.of_inSync {s t : RdsBlockStreamState K} (h : RdsFind s t)
    (hsync : s.isInSync = true) : LossStep s t ∨ BlockStep s t := by
  have hne : s.isInSync ≠ false := by
    rw [hsync]
    exact Bool.false_ne_true.symm
  cases h with
  | quiet hout ho => exact absurd hout hne
  | pulse hout ho => exact absurd hout hne
  | acquire hout ho hfound hblock => exact absurd hout hne
  | lost _ hloss => exact .inl hloss
  | block _ hblock => exact .inr hblock

/-- Out of sync, pulses are recorded until a sequence of them is found. -/
lemma RdsFind.of_searching {s t : RdsBlockStreamState K} (h : RdsFind s t)
    (hsync : s.isInSync = false) :
    (rdsRegisterOffset s = .invalid ∧ t = s) ∨
    (rdsRegisterOffset s ≠ .invalid ∧
      t = rdsSyncBufferPush s (rdsRegisterOffset s) s.bitCount) ∨
    (rdsRegisterOffset s ≠ .invalid ∧ rdsSyncBufferIsSequenceFound
        (rdsSyncBufferPush s (rdsRegisterOffset s) s.bitCount) = true ∧
      BlockStep (rdsAcquired s) t) := by
  have hne : s.isInSync ≠ true := by
    rw [hsync]
    exact Bool.false_ne_true
  cases h with
  | quiet _ ho => exact .inl ⟨ho, rfl⟩
  | pulse _ ho => exact .inr (.inl ⟨ho, rfl⟩)
  | acquire _ ho hfound hblock => exact .inr (.inr ⟨ho, hfound, hblock⟩)
  | lost hin hloss => exact absurd hin hne
  | block hin hblock => exact absurd hin hne

omit [Field K] [LinearOrder K] in
lemma rdsCountBlock_eq (s : RdsBlockStreamState K) :
    ∃ errors pos count sum, rdsCountBlock s = { s with
      totalBlocksSeen := s.totalBlocksSeen + 1
      expectedOffset := rdsSlotOffset s
      recentBlockErrors := errors
      recentBlockErrorsPos := pos
      recentBlockErrorsCount := count
      recentBlockErrorSum := sum } := by
  rw [rdsCountBlock, rdsRecentErrorPush_eq]
  exact ⟨_, _, _, _, rfl⟩

omit [Field K] [LinearOrder K] in
lemma rdsCountBlock_errors {s : RdsBlockStreamState K} {history : List Bool}
    (h : ErrorHistory s history) : ErrorHistory (rdsCountBlock s)
      (decide (rdsRegisterOffset s ≠ rdsSlotOffset s) :: history) :=
  ErrorHistory.push
    (s := { s with totalBlocksSeen := s.totalBlocksSeen + 1, expectedOffset := rdsSlotOffset s })
    h _

/-- The part of `rds_find_block_in_register` after acquiring. -/
lemma rdsFindBlockInRegister_eq {s t : RdsBlockStreamState K}
    (hacquire : rdsAcquireSync s (rdsRegisterOffset s) s.bitCount = t) (hsync : t.isInSync = true)
    (hregisters : SameRegisters s t) :
    rdsFindBlockInRegister s =
      if (rdsCountBlock t).recentBlockErrorSum > rdsMaxErrorsToleratedOver50Blocks then
        rdsRecentErrorClear { rdsCountBlock t with isInSync := false, syncLostEvent := true }
      else
        rdsProcessBlock (rdsCountBlock t) (s.inputRegister &&& rdsBlockBitmask)
          (rdsRegisterOffset t) (t.inputConfidenceRegister.sum / (rdsBlockLength : K)) := by
  have hoffset : rdsRegisterOffset s = rdsRegisterOffset t := by
    rw [rdsRegisterOffset, rdsRegisterOffset, hregisters.register]
  have hslot : (if t.expectedOffset = .c ∧ rdsRegisterOffset t = .cPrime then
        { t with totalBlocksSeen := t.totalBlocksSeen + 1, expectedOffset := .cPrime }
      else { t with totalBlocksSeen := t.totalBlocksSeen + 1 })
        = { t with
          totalBlocksSeen := t.totalBlocksSeen + 1
          expectedOffset := rdsSlotOffset t } := by
    unfold rdsSlotOffset
    split_ifs <;> rfl
  unfold rdsFindBlockInRegister
  dsimp only
  rw [show rdsGetOffsetForSyndrome (rdsCalculateSyndrome (s.inputRegister &&& rdsBlockBitmask))
    = rdsRegisterOffset s from rfl, hacquire, hoffset, hslot, if_neg (by simp [hsync])]
  rfl

omit [Field K] [LinearOrder K] in
/-- What `rds_find_block_in_register` leaves alone when it judges a block. -/
lemma rdsCountBlock_same (s : RdsBlockStreamState K) :
    SameRegisters s (rdsCountBlock s) ∧ SamePulses s (rdsCountBlock s) ∧
      (rdsCountBlock s).isInSync = s.isInSync ∧
      (rdsCountBlock s).expectedOffset = rdsSlotOffset s ∧
      (rdsCountBlock s).currentGroup = s.currentGroup ∧
      (rdsCountBlock s).hasGroupReady = s.hasGroupReady := by
  obtain ⟨errors, pos, count, sum, hcount⟩ := rdsCountBlock_eq s
  rw [hcount]
  exact ⟨⟨rfl, rfl, rfl⟩, ⟨rfl, rfl⟩, rfl, rfl, rfl, rfl⟩

omit [LinearOrder K] in
/-- The end of a block keeps the registers, the pulses and the errors. -/
lemma rdsFinishBlock_same (s : RdsBlockStreamState K) :
    SameRegisters s (rdsFinishBlock s) ∧ SamePulses s (rdsFinishBlock s) ∧
      (rdsFinishBlock s).isInSync = s.isInSync ∧ errorRing (rdsFinishBlock s) = errorRing s := by
  unfold rdsFinishBlock rdsHandleReadyGroup
  split_ifs
  · exact ⟨⟨rfl, rfl, rfl⟩, ⟨rfl, rfl⟩, rfl, rfl⟩
  · exact ⟨⟨rfl, rfl, rfl⟩, ⟨rfl, rfl⟩, rfl, rfl⟩

lemma rdsProcessBlock_blockStep {s : RdsBlockStreamState K} (hsync : s.isInSync = true) :
    BlockStep s (rdsProcessBlock (rdsCountBlock s) (s.inputRegister &&& rdsBlockBitmask)
      (rdsRegisterOffset s) (s.inputConfidenceRegister.sum / (rdsBlockLength : K))) := by
  obtain ⟨hregisters, hpulses, hinSync, hexpected, hgroup, hready⟩ := rdsCountBlock_same s
  have herrors (history : List Bool) (h : ErrorHistory s history) := rdsCountBlock_errors h
  obtain ⟨corrected, hprocess⟩ := rdsProcessBlock_eq (rdsCountBlock s)
    (s.inputRegister &&& rdsBlockBitmask)
  rw [hregisters.confidences] at hprocess
  rw [rdsRegisterOffset, hprocess, hgroup, hexpected]
  generalize rdsCountBlock s = u at hregisters hpulses hinSync hexpected hready herrors ⊢
  obtain ⟨hregisters', hpulses', hinSync', hring⟩ := rdsFinishBlock_same
    { u with
      inputConfidenceRegister := s.inputConfidenceRegister
      expectedOffset := rdsSlotOffset s
      correctedBlocksSeen := corrected
      currentGroup := rdsStored s.currentGroup (rdsSlotOffset s)
        (s.inputRegister &&& rdsBlockBitmask) s.inputConfidenceRegister }
  refine ⟨hinSync'.trans (hinSync.trans hsync), ?_, ?_, ?_, ?_, fun history h => ?_⟩
  · exact ⟨hregisters'.register.trans hregisters.register, hregisters'.confidences,
      hregisters'.count.trans hregisters.count⟩
  · exact ⟨hpulses'.offsets.trans hpulses.offsets, hpulses'.positions.trans hpulses.positions⟩
  · unfold rdsFinishBlock
    split_ifs <;> rfl
  · unfold rdsFinishBlock
    split_ifs with hlast
    · exact ⟨rfl, rfl, rfl⟩
    · exact ⟨rfl, hready⟩
  · rw [ErrorHistory, hring]
    exact herrors history h

/-- Once in sync, a block is either one error too many or processed. -/
lemma rdsFindBlockInRegister_inSync {s t : RdsBlockStreamState K}
    (hacquire : rdsAcquireSync s (rdsRegisterOffset s) s.bitCount = t) (hsync : t.isInSync = true)
    (hregisters : SameRegisters s t) :
    if (rdsCountBlock t).recentBlockErrorSum > rdsMaxErrorsToleratedOver50Blocks then
      LossStep t (rdsFindBlockInRegister s)
    else BlockStep t (rdsFindBlockInRegister s) := by
  rw [rdsFindBlockInRegister_eq hacquire hsync hregisters]
  split_ifs with hsum
  · obtain ⟨hcountRegisters, hpulses, -, -, -, hready⟩ := rdsCountBlock_same t
    refine ⟨rfl, ?_, ?_, hready, fun history hhistory => ?_⟩
    · exact ⟨hcountRegisters.register, hcountRegisters.confidences, hcountRegisters.count⟩
    · exact ⟨hpulses.offsets, hpulses.positions⟩
    · rw [← (rdsCountBlock_errors hhistory).sum_eq]
      exact hsum
  · rw [← hregisters.register]
    exact rdsProcessBlock_blockStep hsync

omit [LinearOrder K] in
/-- The pulse that acquires sync is processed in its own slot. -/
lemma rdsSlotOffset_acquired (s : RdsBlockStreamState K) :
    rdsSlotOffset (rdsAcquired s) = rdsRegisterOffset s := by
  have hexpected : (rdsAcquired s).expectedOffset = rdsRegisterOffset s := rfl
  rw [rdsSlotOffset, hexpected]
  split_ifs with h
  · exact h.2.symm
  · rfl

omit [LinearOrder K] in
/-- The first block of a lock is free of errors. -/
lemma rdsCountBlock_acquired (s : RdsBlockStreamState K) :
    ErrorHistory (rdsCountBlock (rdsAcquired s)) [false] := by
  have hcleared : ErrorHistory (rdsAcquired s) [] := errorHistory_clear _
  have herrors := rdsCountBlock_errors hcleared
  have hoffset : rdsRegisterOffset (rdsAcquired s) = rdsRegisterOffset s := rfl
  rwa [rdsSlotOffset_acquired, hoffset, decide_eq_false (not_not_intro rfl)] at herrors

omit [LinearOrder K] in
/-- What acquiring does. -/
lemma rdsAcquireSync_cases (s : RdsBlockStreamState K) (o : RdsOffset) :
    rdsAcquireSync s o s.bitCount =
      if s.isInSync then s
      else if o = .invalid then s
      else if rdsSyncBufferIsSequenceFound (rdsSyncBufferPush s o s.bitCount) then
        rdsRecentErrorClear
          { rdsSyncBufferPush s o s.bitCount with
            isInSync := true
            syncAcquiredEvent := true
            expectedOffset := o
            currentGroup := .zero }
      else rdsSyncBufferPush s o s.bitCount := by
  unfold rdsAcquireSync
  by_cases ho : o = .invalid
  · simp [ho]
  · simp [ho]

/-- Without sync there is nothing to do after acquiring. -/
lemma rdsFindBlockInRegister_searching {s t : RdsBlockStreamState K}
    (hacquire : rdsAcquireSync s (rdsRegisterOffset s) s.bitCount = t)
    (hsync : t.isInSync = false) : rdsFindBlockInRegister s = t := by
  unfold rdsFindBlockInRegister
  dsimp only
  rw [show rdsGetOffsetForSyndrome (rdsCalculateSyndrome (s.inputRegister &&& rdsBlockBitmask))
    = rdsRegisterOffset s from rfl, hacquire, if_pos (by simp [hsync])]

/-- Every call of `rds_find_block_in_register` has one of the five outcomes. -/
theorem rdsFind_of_findBlock (s : RdsBlockStreamState K) :
    RdsFind s (rdsFindBlockInRegister s) := by
  have hacquire := rdsAcquireSync_cases s (rdsRegisterOffset s)
  cases hsync : s.isInSync with
  | true =>
    rw [hsync, if_pos rfl] at hacquire
    have hfind := rdsFindBlockInRegister_inSync hacquire hsync ⟨rfl, rfl, rfl⟩
    split_ifs at hfind with hsum
    · exact .lost hsync hfind
    · exact .block hsync hfind
  | false =>
    rw [hsync, if_neg Bool.false_ne_true] at hacquire
    split_ifs at hacquire with ho hfound
    · rw [rdsFindBlockInRegister_searching hacquire hsync]
      exact .quiet hsync ho
    · have hfind := rdsFindBlockInRegister_inSync (t := rdsAcquired s) hacquire rfl ⟨rfl, rfl, rfl⟩
      have hclean : (rdsCountBlock (rdsAcquired s)).recentBlockErrorSum = 0 := by
        rw [(rdsCountBlock_acquired s).sum_eq]
        rfl
      rw [if_neg (by rw [hclean]; decide)] at hfind
      exact .acquire hsync ho hfound hfind
    · rw [rdsFindBlockInRegister_searching hacquire hsync]
      exact .pulse hsync ho

/-! ### One bit -/

/-- The state after a bit has been shifted in. -/
def rdsShiftBit (s : RdsBlockStreamState K) (bit : Bool) (confidence : K) :
    RdsBlockStreamState K :=
  { s with
    inputRegister := shiftIn s.inputRegister bit
    inputConfidenceRegister := s.inputConfidenceRegister.tail ++ [confidence]
    bitsUntilNextBlock := s.bitsUntilNextBlock - 1
    bitCount := s.bitCount + 1 }

/-- A bit inside a block is only shifted in. -/
lemma rdsReceive_wait {s : RdsBlockStreamState K} (hdrained : s.hasGroupReady = false)
    (hwait : s.bitsUntilNextBlock ≠ 1) (bit : Bool) (confidence : K) :
    rdsReceive s [(bit, confidence)] = (rdsShiftBit s bit confidence, []) := by
  have hpush : rdsBlockStreamPushBitWithConfidence s bit confidence
      = rdsShiftBit s bit confidence := by
    unfold rdsBlockStreamPushBitWithConfidence
    refine if_neg fun hzero => hwait ?_
    have hdue : s.bitsUntilNextBlock - 1 = 0 := hzero
    bv_omega
  have hready : (rdsShiftBit s bit confidence).hasGroupReady = false := hdrained
  rw [rdsReceive, hpush, rdsDrain, if_neg (by simp [hready])]
  rfl

/-- A bit that completes a window has the window looked at. -/
lemma rdsReceive_find {s : RdsBlockStreamState K} (hdue : s.bitsUntilNextBlock = 1) (bit : Bool)
    (confidence : K) :
    rdsReceive s [(bit, confidence)] =
      rdsDrain { rdsFindBlockInRegister (rdsShiftBit s bit confidence) with
        bitsUntilNextBlock := if (rdsFindBlockInRegister (rdsShiftBit s bit confidence)).isInSync
          then BitVec.ofNat 32 rdsBlockLength else 1 } := by
  have hpush : rdsBlockStreamPushBitWithConfidence s bit confidence =
      { rdsFindBlockInRegister (rdsShiftBit s bit confidence) with
        bitsUntilNextBlock := if (rdsFindBlockInRegister (rdsShiftBit s bit confidence)).isInSync
          then BitVec.ofNat 32 rdsBlockLength else 1 } := by
    unfold rdsBlockStreamPushBitWithConfidence
    refine if_pos ?_
    rw [hdue]
    rfl
  rw [rdsReceive, hpush]
  simp [rdsReceive]

/-- Looking at the window has one of the five outcomes. -/
lemma rdsReceive_due {s : RdsBlockStreamState K} (hdue : s.bitsUntilNextBlock = 1) (bit : Bool)
    (confidence : K) :
    ∃ t, RdsFind (rdsShiftBit s bit confidence) t ∧
      rdsReceive s [(bit, confidence)] = rdsDrain { t with
        bitsUntilNextBlock := if t.isInSync then BitVec.ofNat 32 rdsBlockLength else 1 } :=
  ⟨_, rdsFind_of_findBlock _, rdsReceive_find hdue bit confidence⟩

end Mpxcast
