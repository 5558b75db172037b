import Mpxcast.Core.CMemory
import Mpxcast.Core.ShiftRegister

/-!
# RDS block synchronisation

`rds/block_sync.c`: the 26-bit window over the received bits, its syndrome, the search for three
pulses that acquires sync, error correction, and the assembly of groups. Confidences are elements of
an ordered field `K`.
-/

namespace Mpxcast

open CMemory

/-- The blocks of a group are numbered from 0 to 3. -/
instance instNeZeroBlocks : NeZero 4 := ⟨four_ne_zero⟩

inductive RdsOffset
  | invalid
  | a
  | b
  | c
  | cPrime
  | d
deriving DecidableEq, Repr

def rdsBlockLength : ℕ := 26

def rdsCheckwordLength : ℕ := 10

def rdsBlockBitmask : BitVec 32 := (1 <<< rdsBlockLength) - 1

def rdsMaxErrorsToleratedOver50Blocks : ℕ := 35

def rdsSoftCandidateBits : ℕ := 6

def rdsSoftMaxFlips : ℕ := 3

def rdsSoftReliableMaxFlips : ℕ := 2

def rdsGetBlockNumberForOffset : RdsOffset → Fin 4
  | .a => 0
  | .b => 1
  | .c => 2
  | .cPrime => 2
  | .d => 3
  | .invalid => 0

def rdsGetNextOffsetFor : RdsOffset → RdsOffset
  | .a => .b
  | .b => .c
  | .c => .d
  | .cPrime => .d
  | .d => .a
  | .invalid => .a

/-! ### Syndromes -/

def parityCheckMatrix : List (BitVec 32) :=
  [0b1000000000, 0b0100000000, 0b0010000000, 0b0001000000, 0b0000100000, 0b0000010000,
    0b0000001000, 0b0000000100, 0b0000000010, 0b0000000001, 0b1011011100, 0b0101101110,
    0b0010110111, 0b1010000111, 0b1110011111, 0b1100010011, 0b1101010101, 0b1101110110,
    0b0110111011, 0b1000000001, 0b1111011100, 0b0111101110, 0b0011110111, 0b1010100111,
    0b1110001111, 0b1100011011]

def rdsCalculateSyndrome (inputVector : BitVec 32) : BitVec 32 :=
  (List.range 26).foldl
    (fun result k => result ^^^ (parityCheckMatrix.getD (25 - k) 0 * ((inputVector >>> k) &&& 1))) 0

def rdsGetOffsetForSyndrome (syndrome : BitVec 32) : RdsOffset :=
  if syndrome = 0b1111011000 then .a
  else if syndrome = 0b1111010100 then .b
  else if syndrome = 0b1001011100 then .c
  else if syndrome = 0b1111001100 then .cPrime
  else if syndrome = 0b1001011000 then .d
  else .invalid

/-- `rds_get_offset_words`, indexed by the offset. -/
def rdsOffsetWord : RdsOffset → BitVec 32
  | .invalid => 0
  | .a => 0b0011111100
  | .b => 0b0110011000
  | .c => 0b0101101000
  | .cPrime => 0b1101010000
  | .d => 0b0110110100

/-! ### Error correction -/

structure RdsErrorCorrectionResult where
  correctedBits : BitVec 32
  correctedBitCount : ℕ
  succeeded : Bool
deriving DecidableEq, Repr

/-- The error vectors that are tried: each single bit, then each pair of neighbours, from the lowest
position on. -/
def rdsBurstErrorVectors : List (ℕ × BitVec 32) :=
  [(1, (0b1 : BitVec 32)), (2, 0b11)].flatMap fun (count, errorBits) =>
    (List.range rdsBlockLength).map fun shift => (count, (errorBits <<< shift) &&& rdsBlockBitmask)

def rdsCorrectBurstErrors (rawBlock : BitVec 32) (expectedOffset : RdsOffset) :
    RdsErrorCorrectionResult :=
  let syndrome := rdsCalculateSyndrome rawBlock
  match rdsBurstErrorVectors.find? fun (_, errorVector) =>
      rdsCalculateSyndrome (errorVector ^^^ rdsOffsetWord expectedOffset) = syndrome with
  | some (count, errorVector) => ⟨rawBlock ^^^ errorVector, count, true⟩
  | none => ⟨rawBlock, 0, false⟩

section

variable {K : Type*} [LinearOrder K]

/-- One round of the search for the weakest bits: the list holds at most
`RDS_SOFT_CANDIDATE_BITS` confidences in increasing order, with their indices. -/
def rdsWeakestInsert (weakest : List (K × ℕ)) (entry : K × ℕ) : List (K × ℕ) :=
  let insertAt := weakest.findIdx fun w => entry.1 < w.1
  if insertAt ≥ rdsSoftCandidateBits then weakest
  else (weakest.take insertAt ++ entry :: weakest.drop insertAt).take rdsSoftCandidateBits

/-- The choices of `n` elements of a list, in the order of nested loops over the indices. -/
def rdsChoose {α : Type*} : ℕ → List α → List (List α)
  | 0, _ => [[]]
  | _ + 1, [] => []
  | n + 1, x :: xs => (rdsChoose n xs).map (x :: ·) ++ rdsChoose (n + 1) xs

/-- The mask that flips the given bits; index 0 is the oldest bit of the block. -/
def rdsFlipMask (indices : List ℕ) : BitVec 32 :=
  indices.foldl (fun mask i => mask ||| (1 <<< (rdsBlockLength - 1 - i))) 0

def rdsCorrectSoftErrors (rawBlock : BitVec 32) (expectedOffset : RdsOffset)
    (confidenceRegister : List K) : RdsErrorCorrectionResult :=
  let weakest := (confidenceRegister.zipIdx.foldl rdsWeakestInsert []).map Prod.snd
  let flips := (List.range rdsSoftMaxFlips).flatMap fun n => rdsChoose (n + 1) weakest
  match flips.find? fun indices =>
      rdsCalculateSyndrome (rawBlock ^^^ rdsFlipMask indices) = rdsOffsetWord expectedOffset with
  | some indices => ⟨rawBlock ^^^ rdsFlipMask indices, indices.length, true⟩
  | none => ⟨rawBlock, 0, false⟩

end

/-! ### State -/

structure RdsBlock (K : Type*) where
  data : BitVec 16
  isReceived : Bool
  hadErrors : Bool
  softReliable : Bool
  correctedBitCount : ℕ
  confidence : K

structure RdsGroup (K : Type*) where
  blocks : Fin 4 → RdsBlock K

structure RdsBlockStreamState (K : Type*) where
  inputRegister : BitVec 32
  inputConfidenceRegister : List K
  bitCount : BitVec 32
  bitsUntilNextBlock : BitVec 32
  isInSync : Bool
  syncAcquiredEvent : Bool
  syncLostEvent : Bool
  expectedOffset : RdsOffset
  currentGroup : RdsGroup K
  readyGroup : RdsGroup K
  hasGroupReady : Bool
  totalBlocksSeen : ℕ
  correctedBlocksSeen : ℕ
  groupsReadyCount : ℕ
  recentBlockErrors : List Bool
  recentBlockErrorsPos : ℕ
  recentBlockErrorsCount : ℕ
  recentBlockErrorSum : ℕ
  syncOffsets : List RdsOffset
  syncPositions : List (BitVec 32)

variable {K : Type*} [Field K] [LinearOrder K]

def RdsBlock.zero : RdsBlock K := ⟨0, false, false, false, 0, 0⟩

/-- `memset(group, 0, sizeof(group))`. -/
def RdsGroup.zero : RdsGroup K := ⟨fun _ => .zero⟩

def rdsBlockStreamInit : RdsBlockStreamState K where
  inputRegister := 0
  inputConfidenceRegister := List.replicate rdsBlockLength 0
  bitCount := 0
  bitsUntilNextBlock := 1
  isInSync := false
  syncAcquiredEvent := false
  syncLostEvent := false
  expectedOffset := .invalid
  currentGroup := .zero
  readyGroup := .zero
  hasGroupReady := false
  totalBlocksSeen := 0
  correctedBlocksSeen := 0
  groupsReadyCount := 0
  recentBlockErrors := List.replicate 50 false
  recentBlockErrorsPos := 0
  recentBlockErrorsCount := 0
  recentBlockErrorSum := 0
  syncOffsets := List.replicate 8 .invalid
  syncPositions := List.replicate 8 0

def rdsGetBlockConfidence (state : RdsBlockStreamState K) : K :=
  state.inputConfidenceRegister.sum / (rdsBlockLength : K)

/-! ### Acquiring sync -/

def rdsSyncPulseCouldFollow (offset : RdsOffset) (bitPosition : BitVec 32) (otherOffset : RdsOffset)
    (otherBitPosition : BitVec 32) : Bool :=
  let syncDistance := (bitPosition - otherBitPosition).toNat
  syncDistance % rdsBlockLength = 0 ∧ syncDistance / rdsBlockLength ≤ 6 ∧ offset ≠ .invalid ∧
    otherOffset ≠ .invalid ∧
    ((rdsGetBlockNumberForOffset otherOffset).val + syncDistance / rdsBlockLength) % 4
      = (rdsGetBlockNumberForOffset offset).val

def rdsSyncBufferPush (state : RdsBlockStreamState K) (offset : RdsOffset)
    (bitPosition : BitVec 32) : RdsBlockStreamState K :=
  { state with
    syncOffsets := state.syncOffsets.tail ++ [offset]
    syncPositions := state.syncPositions.tail ++ [bitPosition] }

/-- Whether the pulse in slot `i` could follow the one in slot `j`. -/
def rdsSyncSlotFollows (state : RdsBlockStreamState K) (i j : ℕ) : Bool :=
  rdsSyncPulseCouldFollow (state.syncOffsets.getD i .invalid) (state.syncPositions.getD i 0)
    (state.syncOffsets.getD j .invalid) (state.syncPositions.getD j 0)

def rdsSyncBufferIsSequenceFound (state : RdsBlockStreamState K) : Bool :=
  (List.range 6).any fun first =>
    ((List.range 7).filter (first < ·)).any fun second =>
      rdsSyncSlotFollows state 7 second && rdsSyncSlotFollows state second first

def rdsRecentErrorPush (state : RdsBlockStreamState K) (hadError : Bool) : RdsBlockStreamState K :=
  let state :=
    if state.recentBlockErrorsCount = 50 then
      { state with
        recentBlockErrorSum := sizeSub state.recentBlockErrorSum
          (if state.recentBlockErrors.getD state.recentBlockErrorsPos false then 1 else 0) }
    else { state with recentBlockErrorsCount := state.recentBlockErrorsCount + 1 }
  { state with
    recentBlockErrors := state.recentBlockErrors.set state.recentBlockErrorsPos hadError
    recentBlockErrorSum := state.recentBlockErrorSum + if hadError then 1 else 0
    recentBlockErrorsPos := (state.recentBlockErrorsPos + 1) % 50 }

omit [Field K] [LinearOrder K] in
/-- The fields `rds_recent_error_push` writes. -/
lemma rdsRecentErrorPush_eq (state : RdsBlockStreamState K) (hadError : Bool) :
    rdsRecentErrorPush state hadError =
      { state with
        recentBlockErrors := state.recentBlockErrors.set state.recentBlockErrorsPos hadError
        recentBlockErrorsPos := (state.recentBlockErrorsPos + 1) % 50
        recentBlockErrorsCount :=
          if state.recentBlockErrorsCount = 50 then 50 else state.recentBlockErrorsCount + 1
        recentBlockErrorSum :=
          (if state.recentBlockErrorsCount = 50 then
            sizeSub state.recentBlockErrorSum
              (if state.recentBlockErrors.getD state.recentBlockErrorsPos false then 1 else 0)
          else state.recentBlockErrorSum) + if hadError then 1 else 0 } := by
  unfold rdsRecentErrorPush
  by_cases h : state.recentBlockErrorsCount = 50
  · simp only [if_pos h]
    rw [← h]
  · simp only [if_neg h]

def rdsRecentErrorClear (state : RdsBlockStreamState K) : RdsBlockStreamState K :=
  { state with
    recentBlockErrors := List.replicate 50 false
    recentBlockErrorsPos := 0
    recentBlockErrorsCount := 0
    recentBlockErrorSum := 0 }

def rdsAcquireSync (state : RdsBlockStreamState K) (offset : RdsOffset) (bitPosition : BitVec 32) :
    RdsBlockStreamState K :=
  if state.isInSync then state
  else if offset ≠ .invalid then
    let state := rdsSyncBufferPush state offset bitPosition
    if rdsSyncBufferIsSequenceFound state then
      rdsRecentErrorClear
        { state with
          isInSync := true
          syncAcquiredEvent := true
          expectedOffset := offset
          currentGroup := .zero }
    else state
  else state

/-! ### Blocks and groups -/

def rdsHandleReadyGroup (state : RdsBlockStreamState K) : RdsBlockStreamState K :=
  { state with
    readyGroup := state.currentGroup
    hasGroupReady := true
    groupsReadyCount := state.groupsReadyCount + 1
    currentGroup := .zero }

/-- The block that is stored in its slot of the current group. -/
def rdsStoreBlock (state : RdsBlockStreamState K) (block : RdsBlock K) : RdsBlockStreamState K :=
  { state with
    currentGroup :=
      ⟨Function.update state.currentGroup.blocks (rdsGetBlockNumberForOffset state.expectedOffset)
        block⟩ }

/-- The second half of `rds_find_block_in_register`: correction, storing, and the step to the next
expected offset. -/
def rdsProcessBlock (state : RdsBlockStreamState K) (raw : BitVec 32) (offset : RdsOffset)
    (blockConfidence : K) : RdsBlockStreamState K :=
  let hadErrors : Bool := offset ≠ state.expectedOffset
  let burst := rdsCorrectBurstErrors raw state.expectedOffset
  let correction :=
    if burst.succeeded then burst
    else rdsCorrectSoftErrors raw state.expectedOffset state.inputConfidenceRegister
  let corrected := hadErrors && correction.succeeded
  let data :=
    ((if corrected then correction.correctedBits else raw) >>> rdsCheckwordLength).setWidth 16
  let offset := if corrected then state.expectedOffset else offset
  let correctedBitCount := if corrected then correction.correctedBitCount else 0
  let state :=
    if corrected then { state with correctedBlocksSeen := state.correctedBlocksSeen + 1 } else state
  let state :=
    if offset = state.expectedOffset then
      rdsStoreBlock state
        { data
          isReceived := true
          hadErrors
          softReliable := hadErrors && decide (correctedBitCount > 0) &&
            decide (correctedBitCount ≤ rdsSoftReliableMaxFlips) && decide (blockConfidence ≥ 0)
          correctedBitCount
          confidence := blockConfidence }
    else state
  let state :=
    if rdsGetNextOffsetFor state.expectedOffset = .a then rdsHandleReadyGroup state else state
  { state with expectedOffset := rdsGetNextOffsetFor state.expectedOffset }

def rdsFindBlockInRegister (state : RdsBlockStreamState K) : RdsBlockStreamState K :=
  let raw := state.inputRegister &&& rdsBlockBitmask
  let offset := rdsGetOffsetForSyndrome (rdsCalculateSyndrome raw)
  let state := rdsAcquireSync state offset state.bitCount
  if !state.isInSync then state
  else
    let state := { state with totalBlocksSeen := state.totalBlocksSeen + 1 }
    let blockConfidence := rdsGetBlockConfidence state
    let state :=
      if state.expectedOffset = .c ∧ offset = .cPrime then { state with expectedOffset := .cPrime }
      else state
    let state := rdsRecentErrorPush state (offset ≠ state.expectedOffset)
    if state.recentBlockErrorSum > rdsMaxErrorsToleratedOver50Blocks then
      rdsRecentErrorClear { state with isInSync := false, syncLostEvent := true }
    else rdsProcessBlock state raw offset blockConfidence

def rdsBlockStreamPushBitWithConfidence (state : RdsBlockStreamState K) (bit : Bool)
    (confidence : K) : RdsBlockStreamState K :=
  let state :=
    { state with
      inputRegister := ShiftRegister.shiftIn state.inputRegister bit
      inputConfidenceRegister := state.inputConfidenceRegister.tail ++ [confidence]
      bitsUntilNextBlock := state.bitsUntilNextBlock - 1
      bitCount := state.bitCount + 1 }
  if state.bitsUntilNextBlock = 0 then
    let state := rdsFindBlockInRegister state
    { state with
      bitsUntilNextBlock := if state.isInSync then BitVec.ofNat 32 rdsBlockLength else 1 }
  else state

/-- The state with the flag cleared, and the group. -/
def rdsBlockStreamPopGroup (state : RdsBlockStreamState K) : RdsBlockStreamState K × RdsGroup K :=
  ({ state with hasGroupReady := false }, state.readyGroup)

def rdsBlockStreamConsumeSyncAcquired (state : RdsBlockStreamState K) :
    RdsBlockStreamState K × Bool :=
  ({ state with syncAcquiredEvent := false }, state.syncAcquiredEvent)

def rdsBlockStreamConsumeSyncLost (state : RdsBlockStreamState K) :
    RdsBlockStreamState K × Bool :=
  ({ state with syncLostEvent := false }, state.syncLostEvent)

end Mpxcast
