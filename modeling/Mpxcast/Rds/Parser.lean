import Mpxcast.Core.CFloat
import Mpxcast.Core.CMemory
import Mpxcast.Rds.BlockSync

/-!
# The RDS parser

`rds/parser.c` and `rds/model.c`: programme service name and radiotext are put together from the
characters that the groups carry, each guarded by the quality with which it was received. Character
arrays keep their declared size. Qualities are computed as in `float`, where every operation may
round: of the arithmetic of `K` nothing is assumed, and qualities are compared in a linear order.
-/

namespace Mpxcast

open CFloat CMemory

/-! ### Characters and character arrays -/

/-- `isprint` in the C locale. -/
def isprint (value : UInt8) : Bool := decide (0x20 ≤ value) && decide (value ≤ 0x7e)

def rdsSanitizeChar (value : UInt8) : UInt8 :=
  if value = 0 ∨ value = 0x0d ∨ value = 0x0a then 0
  else if isprint value then value
  else 0x20

section

variable {n : ℕ}

/-- The character at index `i`. -/
def charAt (chars : Vector UInt8 n) (i : ℕ) : UInt8 := chars[i]?.getD 0

/-- `strcpy` between arrays of one size. -/
def strcpy (dest source : Vector UInt8 n) : Vector UInt8 n :=
  Vector.ofFn fun i => if i.val ≤ (cString source.toList).length then source.get i else dest.get i

/-- `strcmp(first, second) != 0`. -/
def strcmpDiffers (first second : Vector UInt8 n) : Bool :=
  cString first.toList ≠ cString second.toList

/-- The loop of `rds_trim_string` for a string of the given length. -/
def rdsTrimLoop (text : Vector UInt8 n) : ℕ → Vector UInt8 n
  | 0 => text
  | length + 1 =>
    if charAt text length = 0x20 then rdsTrimLoop (text.setIfInBounds length 0) length else text

def rdsTrimString (text : Vector UInt8 n) : Vector UInt8 n :=
  rdsTrimLoop text (cString text.toList).length

end

/-- `(mask & (1u << i)) != 0u`. -/
def maskSeen {w : ℕ} (mask : BitVec w) (i : ℕ) : Bool := mask &&& (1#w <<< i) ≠ 0

lemma maskSeen_eq {w : ℕ} (mask : BitVec w) (i : ℕ) : maskSeen mask i = mask.getLsbD i := by
  have hand : mask &&& (1#w <<< i) = if mask.getLsbD i then BitVec.twoPow w i else 0#w :=
    BitVec.and_twoPow mask i
  rw [maskSeen, hand]
  cases hbit : mask.getLsbD i with
  | false => simp
  | true =>
    have hone : (BitVec.twoPow w i).getLsbD i = true := by
      simp [BitVec.lt_of_getLsbD hbit]
    have hne : BitVec.twoPow w i ≠ 0 := fun hzero => by simp [hzero] at hone
    simpa using hne

lemma maskSeen_or {w : ℕ} (mask : BitVec w) {i : ℕ} (hi : i < w) (j : ℕ) :
    maskSeen (mask ||| (1#w <<< i)) j = (maskSeen mask j || decide (j = i)) := by
  have hbit : (1#w <<< i).getLsbD j = decide (j = i) := by
    rw [← BitVec.twoPow_eq, BitVec.getLsbD_twoPow, decide_eq_true hi, Bool.true_and]
    exact decide_eq_decide.mpr eq_comm
  rw [maskSeen_eq, maskSeen_eq, BitVec.getLsbD_or, hbit]

/-! ### State -/

structure RdsStationInfo where
  hasPi : Bool
  pi : BitVec 16
  hasGroup : Bool
  group : Vector UInt8 3
  tp : Bool
  ta : Bool
  pty : BitVec 5
  ps : Vector UInt8 9
  radiotext : Vector UInt8 65
deriving DecidableEq

def rdsStationInfoInit : RdsStationInfo where
  hasPi := false
  pi := 0
  hasGroup := false
  group := Vector.replicate 3 0
  tp := false
  ta := false
  pty := 0
  ps := Vector.replicate 9 0
  radiotext := Vector.replicate 65 0

structure RdsStationEvent where
  stationChanged : Bool
  psChanged : Bool
  radiotextChanged : Bool
  psPreviewChanged : Bool
  radiotextPreviewChanged : Bool
  correctedBlockCount : ℕ
  psPreview : Vector UInt8 9
  radiotextPreview : Vector UInt8 65
  info : RdsStationInfo
deriving DecidableEq

structure RdsParserState (K : Type*) where
  info : RdsStationInfo
  radiotextAb : Bool
  radiotextAbValid : Bool
  psSeenMask : BitVec 8
  radiotextSeenMask : BitVec 64
  psSegmentQuality : Vector K 4
  radiotextQuality : Vector K 64
  lastReportedPs : Vector UInt8 9
  lastReportedRadiotext : Vector UInt8 65
  lastReportedPsPreview : Vector UInt8 9
  lastReportedRadiotextPreview : Vector UInt8 65

variable {K : Type*} [RoundedOps K] [LinearOrder K]

def rdsParserInit : RdsParserState K where
  info := rdsStationInfoInit
  radiotextAb := false
  radiotextAbValid := false
  psSeenMask := 0
  radiotextSeenMask := 0
  psSegmentQuality := Vector.replicate 4 0
  radiotextQuality := Vector.replicate 64 0
  lastReportedPs := Vector.replicate 9 0
  lastReportedRadiotext := Vector.replicate 65 0
  lastReportedPsPreview := Vector.replicate 9 0
  lastReportedRadiotextPreview := Vector.replicate 65 0

/-! ### Fields of block 2 -/

def rdsGetGroupTypeNumber (block2 : BitVec 16) : ℕ := ((block2 >>> 12) &&& 0xF).toNat

/-- `'B'` as opposed to `'A'`. -/
def rdsGetGroupVersionIsB (block2 : BitVec 16) : Bool := block2 &&& (1#16 <<< 11) ≠ 0

def rdsGetPty (block2 : BitVec 16) : BitVec 5 := ((block2 >>> 5) &&& 0x1F).setWidth 5

/-- The text A/B flag. -/
def rdsGetTextAb (block2 : BitVec 16) : Bool := block2 &&& (1#16 <<< 4) ≠ 0

/-- The upper and the lower byte of a block. -/
def blockChars (data : BitVec 16) : List UInt8 :=
  [⟨(data >>> 8).setWidth 8⟩, ⟨(data &&& 0xFF).setWidth 8⟩]

/-! ### Previews -/

def rdsBuildPsPreview (state : RdsParserState K) : Vector UInt8 9 :=
  Vector.ofFn fun i =>
    if i.val < 8 then
      if maskSeen state.psSeenMask (i.val / 2) && charAt state.info.ps i != 0
      then charAt state.info.ps i else 0x2e
    else 0

def rdsBuildRadiotextPreview (state : RdsParserState K) : Vector UInt8 65 :=
  Vector.ofFn fun i =>
    if i.val < 64 then
      if maskSeen state.radiotextSeenMask i then
        if charAt state.info.radiotext i = 0 then 0x20 else charAt state.info.radiotext i
      else 0x2e
    else 0

/-! ### Quality -/

def rdsBlockQuality (block : RdsBlock K) : K :=
  if !block.isReceived then 0
  else
    block.confidence / (1 + (block.correctedBitCount : K))
      + if block.hadErrors then 1 / ((4 : ℕ) : K) else ((2 : ℕ) : K)

def rdsGroupTextQuality (first second : RdsBlock K) : K :=
  rdsBlockQuality first + rdsBlockQuality second

def rdsGroupTextQuality2a (block2 block3 block4 : RdsBlock K) : K :=
  rdsBlockQuality block2 + rdsBlockQuality block3 + rdsBlockQuality block4

def rdsBlockIsUsableForText (block : RdsBlock K) : Bool :=
  block.isReceived && (!block.hadErrors || decide (0 < block.correctedBitCount))

/-! ### Programme service name -/

def rdsUpdatePs (state : RdsParserState K) (block2 block4 : BitVec 16) (quality : K) :
    RdsParserState K :=
  let segmentAddress := (block2 &&& 0x03).toNat
  let position := segmentAddress * 2
  let firstChar := rdsSanitizeChar ((blockChars block4).getD 0 0)
  let secondChar := rdsSanitizeChar ((blockChars block4).getD 1 0)
  let hasExisting := maskSeen state.psSeenMask segmentAddress
  let sameChars := hasExisting && charAt state.info.ps position = firstChar &&
    charAt state.info.ps (position + 1) = secondChar
  let oldQuality := state.psSegmentQuality[segmentAddress]?.getD 0
  if hasExisting ∧ !sameChars ∧ quality < oldQuality then state
  else
    let ps := ((state.info.ps.setIfInBounds position firstChar).setIfInBounds (position + 1)
      secondChar).setIfInBounds 8 0
    { state with
      info := { state.info with ps := rdsTrimString ps }
      psSeenMask := state.psSeenMask ||| (1#8 <<< segmentAddress)
      psSegmentQuality :=
        if !hasExisting ∨ oldQuality < quality then
          state.psSegmentQuality.setIfInBounds segmentAddress quality
        else state.psSegmentQuality }

/-! ### Radiotext -/

def rdsClearRadiotext (state : RdsParserState K) : RdsParserState K :=
  { state with
    info := { state.info with radiotext := Vector.replicate 65 0 }
    radiotextQuality := Vector.replicate 64 0
    radiotextSeenMask := 0 }

/-- One round of the loop of `rds_update_radiotext_chars`: a character that differs from the one
seen before needs at least its quality. -/
def rdsUpdateRadiotextChar (state : RdsParserState K) (textIndex : ℕ) (char : UInt8) (quality : K) :
    RdsParserState K :=
  let sanitized := rdsSanitizeChar char
  let seen := maskSeen state.radiotextSeenMask textIndex
  let sameChar := seen && charAt state.info.radiotext textIndex = sanitized
  let oldQuality := state.radiotextQuality[textIndex]?.getD 0
  if seen ∧ !sameChar ∧ quality < oldQuality then state
  else
    { state with
      info := { state.info with
        radiotext := state.info.radiotext.setIfInBounds textIndex sanitized }
      radiotextSeenMask := state.radiotextSeenMask ||| (1#64 <<< textIndex)
      radiotextQuality :=
        if !seen ∨ oldQuality < quality then state.radiotextQuality.setIfInBounds textIndex quality
        else state.radiotextQuality }

def rdsUpdateRadiotextLoop (state : RdsParserState K) (textIndex : ℕ) :
    List UInt8 → K → RdsParserState K
  | [], _ => state
  | char :: chars, quality =>
    if 64 ≤ textIndex then state
    else rdsUpdateRadiotextLoop (rdsUpdateRadiotextChar state textIndex char quality)
      (textIndex + 1)
      chars quality

def rdsUpdateRadiotextChars (state : RdsParserState K) (position : ℕ) (chars : List UInt8)
    (quality : K) : RdsParserState K :=
  let state := rdsUpdateRadiotextLoop state position chars quality
  { state with info := { state.info with radiotext := state.info.radiotext.setIfInBounds 64 0 } }

/-- The first loop of `rds_parser_radiotext_is_complete`: the first slot that was seen to end the
text, and whether a character other than a blank was seen before it. -/
def rdsRadiotextScan (state : RdsParserState K) : List ℕ → Bool → Option ℕ × Bool
  | [], hasNonSpace => (none, hasNonSpace)
  | i :: is, hasNonSpace =>
    if !maskSeen state.radiotextSeenMask i then rdsRadiotextScan state is hasNonSpace
    else if charAt state.info.radiotext i = 0 then (some i, hasNonSpace)
    else rdsRadiotextScan state is (hasNonSpace || charAt state.info.radiotext i ≠ 0x20)

def rdsParserRadiotextIsComplete (state : RdsParserState K) : Bool :=
  if charAt state.info.radiotext 0 = 0 then false
  else
    match rdsRadiotextScan state (List.range 64) false with
    | (some endIndex, hasNonSpace) =>
      if (List.range endIndex).all (maskSeen state.radiotextSeenMask ·) then hasNonSpace else false
    | (none, hasNonSpace) =>
      if state.radiotextSeenMask ≠ BitVec.allOnes 64 then false
      else
        let hasNonSpace := hasNonSpace ||
          (List.range 64).any fun i => charAt state.info.radiotext i ≠ 0x20
        if (List.range 64).all (maskSeen state.radiotextSeenMask ·) then hasNonSpace else false

def rdsParserHasCompleteRadiotext (state : RdsParserState K) : Bool :=
  rdsParserRadiotextIsComplete state

/-! ### Groups -/

/-- The station fields every group sets. -/
def rdsUpdateStation (state : RdsParserState K) (group : RdsGroup K) : RdsParserState K :=
  let block2 := (group.blocks 1).data
  let groupType := rdsGetGroupTypeNumber block2
  let updatePi := rdsBlockIsUsableForText (group.blocks 0) || !state.info.hasPi
  { state with
    info := { state.info with
      hasPi := updatePi || state.info.hasPi
      pi := if updatePi then (group.blocks 0).data else state.info.pi
      hasGroup := true
      group := #v[if groupType < 10 then UInt8.ofNat (0x30 + groupType)
          else UInt8.ofNat (0x41 + (groupType - 10)),
        if rdsGetGroupVersionIsB block2 then 0x42 else 0x41, 0]
      tp := block2 &&& (1#16 <<< 10) ≠ 0
      pty := rdsGetPty block2 } }

/-- Groups of type 0: traffic announcement and programme service name. -/
def rdsProcessPsGroup (state : RdsParserState K) (group : RdsGroup K) : RdsParserState K :=
  let block2 := (group.blocks 1).data
  let state := { state with info := { state.info with ta := block2 &&& (1#16 <<< 4) ≠ 0 } }
  if rdsBlockIsUsableForText (group.blocks 1) ∧ rdsBlockIsUsableForText (group.blocks 3) then
    rdsUpdatePs state block2 (group.blocks 3).data
      (rdsGroupTextQuality (group.blocks 1) (group.blocks 3))
  else state

/-- A flag other than the last one starts a new text. -/
def rdsUpdateTextAb (state : RdsParserState K) (ab : Bool) : RdsParserState K :=
  if !state.radiotextAbValid ∨ state.radiotextAb ≠ ab then
    rdsClearRadiotext { state with radiotextAb := ab, radiotextAbValid := true }
  else state

/-- Groups of type 2: radiotext. -/
def rdsProcessRadiotextGroup (state : RdsParserState K) (group : RdsGroup K) : RdsParserState K :=
  let block2 := (group.blocks 1).data
  let segmentAddress := (block2 &&& 0x0F).toNat
  let state := rdsUpdateTextAb state (rdsGetTextAb block2)
  if !rdsGetGroupVersionIsB block2 then
    if rdsBlockIsUsableForText (group.blocks 1) ∧ rdsBlockIsUsableForText (group.blocks 2) ∧
        rdsBlockIsUsableForText (group.blocks 3) then
      rdsUpdateRadiotextChars state (segmentAddress * 4)
        (blockChars (group.blocks 2).data ++ blockChars (group.blocks 3).data)
        (rdsGroupTextQuality2a (group.blocks 1) (group.blocks 2) (group.blocks 3))
    else state
  else if rdsBlockIsUsableForText (group.blocks 1) ∧ rdsBlockIsUsableForText (group.blocks 3) then
    rdsUpdateRadiotextChars state (segmentAddress * 2) (blockChars (group.blocks 3).data)
      (rdsGroupTextQuality (group.blocks 1) (group.blocks 3))
  else state

/-- The event for the listeners; texts that changed are remembered as reported. -/
def rdsReport (state : RdsParserState K) (correctedBlockCount : ℕ) :
    RdsParserState K × RdsStationEvent :=
  let psPreview := rdsBuildPsPreview state
  let radiotextPreview := rdsBuildRadiotextPreview state
  let psChanged := strcmpDiffers state.lastReportedPs state.info.ps && charAt state.info.ps 0 ≠ 0
  let radiotextChanged := rdsParserRadiotextIsComplete state &&
    strcmpDiffers state.lastReportedRadiotext state.info.radiotext &&
    charAt state.info.radiotext 0 ≠ 0
  let psPreviewChanged := strcmpDiffers state.lastReportedPsPreview psPreview
  let radiotextPreviewChanged := strcmpDiffers state.lastReportedRadiotextPreview radiotextPreview
  ({ state with
      lastReportedPs :=
        if psChanged then strcpy state.lastReportedPs state.info.ps else state.lastReportedPs
      lastReportedRadiotext :=
        if radiotextChanged then strcpy state.lastReportedRadiotext state.info.radiotext
        else state.lastReportedRadiotext
      lastReportedPsPreview :=
        if psPreviewChanged then strcpy state.lastReportedPsPreview psPreview
        else state.lastReportedPsPreview
      lastReportedRadiotextPreview :=
        if radiotextPreviewChanged then strcpy state.lastReportedRadiotextPreview radiotextPreview
        else state.lastReportedRadiotextPreview },
    { stationChanged := true
      psChanged
      radiotextChanged
      psPreviewChanged
      radiotextPreviewChanged
      correctedBlockCount
      psPreview
      radiotextPreview
      info := state.info })

/-- The blocks without which a group is ignored. -/
def rdsGroupIsAccepted (group : RdsGroup K) : Bool :=
  (group.blocks 0).isReceived && (group.blocks 1).isReceived

/-- The new state and the event, if the function returns true. -/
def rdsParserProcessGroup (state : RdsParserState K) (group : RdsGroup K) :
    RdsParserState K × Option RdsStationEvent :=
  if !rdsGroupIsAccepted group then (state, none)
  else
    let groupType := rdsGetGroupTypeNumber (group.blocks 1).data
    let correctedBlockCount := ((List.finRange 4).filter fun i => (group.blocks i).hadErrors).length
    let state := rdsUpdateStation state group
    let state := if groupType = 0 then rdsProcessPsGroup state group else state
    let state := if groupType = 2 then rdsProcessRadiotextGroup state group else state
    let (state, event) := rdsReport state correctedBlockCount
    (state, some event)

end Mpxcast
