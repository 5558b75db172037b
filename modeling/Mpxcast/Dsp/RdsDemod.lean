import Mpxcast.Rds.CleanStream
import Mpxcast.Rds.Parser

/-!
# The RDS demodulator

`dsp/rds_demod.c`, from the symbols on: successive symbols are subtracted, the differences are
decoded differentially on the recovered biphase clock, and the bits are pushed into the block
stream, whose groups go to the parser. Samples are elements of an ordered field `K`.
-/

namespace Mpxcast

def rdsPhaseScoreMax : ℕ := 255

def rdsBiphaseClockHistoryLength : ℕ := 128

structure RdsPhaseState (K : Type*) where
  blockStream : RdsBlockStreamState K
  prevSymbolI : K
  prevSymbolQ : K
  phaseScore : ℕ
  biphaseClockHistory : List K
  biphaseClock : ℕ
  biphaseClockPolarity : ℕ
  havePrevBiphaseBit : Bool
  prevBiphaseBit : Bool
  havePrevSymbol : Bool

/-- Only the first of the three phases is used. -/
structure RdsDemodState (K : Type*) where
  activePhase : ℤ
  phase : RdsPhaseState K
  parser : RdsParserState K

variable {K : Type*} [Field K] [LinearOrder K]

def rdsDemodInit : RdsDemodState K where
  activePhase := -1
  phase :=
    { blockStream := rdsBlockStreamInit
      prevSymbolI := 0
      prevSymbolQ := 0
      phaseScore := 0
      biphaseClockHistory := List.replicate rdsBiphaseClockHistoryLength 0
      biphaseClock := 0
      biphaseClockPolarity := 0
      havePrevBiphaseBit := false
      prevBiphaseBit := false
      havePrevSymbol := false }
  parser := rdsParserInit

/-! ### The biphase clock -/

/-- `even_sum` and `odd_sum`. -/
def rdsBiphaseClockSum (history : List K) (parity : ℕ) : K :=
  ((List.range (rdsBiphaseClockHistoryLength / 2)).map fun i =>
    history.getD (2 * i + parity) 0).sum

/-- A full history decides on the polarity and is cleared. -/
def rdsAdvanceBiphaseClock (phase : RdsPhaseState K) : RdsPhaseState K :=
  if phase.biphaseClock + 1 = rdsBiphaseClockHistoryLength then
    let evenSum := rdsBiphaseClockSum phase.biphaseClockHistory 0
    let oddSum := rdsBiphaseClockSum phase.biphaseClockHistory 1
    { phase with
      biphaseClockPolarity :=
        if evenSum > oddSum then 0
        else if oddSum > evenSum then 1
        else phase.biphaseClockPolarity
      biphaseClockHistory := List.replicate rdsBiphaseClockHistoryLength 0
      biphaseClock := 0 }
  else { phase with biphaseClock := phase.biphaseClock + 1 }

/-- The state after a difference, and the bit it decodes to. -/
def rdsDecodeBiphaseSymbol (phase : RdsPhaseState K) (biphaseSymbolI : K) :
    RdsPhaseState K × Option Bool :=
  let biphaseBit : Bool := biphaseSymbolI ≥ 0
  let phase := { phase with
    biphaseClockHistory := phase.biphaseClockHistory.set phase.biphaseClock |biphaseSymbolI| }
  if phase.biphaseClock % 2 = phase.biphaseClockPolarity then
    let decodedBit :=
      if phase.havePrevBiphaseBit then some (biphaseBit != phase.prevBiphaseBit) else none
    (rdsAdvanceBiphaseClock
      { phase with prevBiphaseBit := biphaseBit, havePrevBiphaseBit := true }, decodedBit)
  else (rdsAdvanceBiphaseClock phase, none)

/-! ### Bits and groups -/

/-- `phase_score` rises up to its maximum. -/
def rdsRaiseScore (score gain : ℕ) : ℕ :=
  if score < rdsPhaseScoreMax - gain then score + gain else rdsPhaseScoreMax

def rdsDemodActivatePhase (state : RdsDemodState K) (phaseIndex : ℤ) : RdsDemodState K :=
  if state.activePhase = phaseIndex then state else { state with activePhase := phaseIndex }

/-- A group that is ready raises the score and goes to the parser. -/
def rdsDemodTakeGroup (state : RdsDemodState K) (group : RdsGroup K) : RdsDemodState K :=
  let correctedBlocks := ((List.finRange 4).filter fun i => (group.blocks i).hadErrors).length
  { state with
    phase := { state.phase with
      phaseScore := rdsRaiseScore state.phase.phaseScore (if correctedBlocks = 0 then 8 else 4) }
    parser := (rdsParserProcessGroup state.parser group).1 }

/-- The phase with the state of its block stream. -/
def rdsDemodSetStream (state : RdsDemodState K) (stream : RdsBlockStreamState K) :
    RdsDemodState K :=
  { state with phase := { state.phase with blockStream := stream } }

/-- Acquired sync raises the score and activates the phase. -/
def rdsDemodTakeSyncAcquired (state : RdsDemodState K) : RdsDemodState K :=
  let (stream, acquired) := rdsBlockStreamConsumeSyncAcquired state.phase.blockStream
  let state := rdsDemodSetStream state stream
  if acquired then
    let state := { state with
      phase := { state.phase with phaseScore := rdsRaiseScore state.phase.phaseScore 16 } }
    if state.activePhase < 0 then rdsDemodActivatePhase state 0 else state
  else state

/-- Lost sync resets the score and deactivates the phase. -/
def rdsDemodTakeSyncLost (state : RdsDemodState K) : RdsDemodState K :=
  let (stream, lost) := rdsBlockStreamConsumeSyncLost state.phase.blockStream
  let state := rdsDemodSetStream state stream
  if lost then
    { state with
      phase := { state.phase with phaseScore := 0 }
      activePhase := if state.activePhase = 0 then -1 else state.activePhase }
  else state

/-- The loop over the ready groups. Popping a group clears the flag that the loop tests. -/
def rdsDemodTakeGroups (state : RdsDemodState K) : RdsDemodState K :=
  let (stream, groups) := rdsDrain state.phase.blockStream
  groups.foldl rdsDemodTakeGroup (rdsDemodSetStream state stream)

/-- The parser gets the groups in order. -/
lemma rdsDemodTakeGroup_foldl_parsed (groups : List (RdsGroup K)) : ∀ state : RdsDemodState K,
    (groups.foldl rdsDemodTakeGroup state).parser
      = groups.foldl (fun parser group => (rdsParserProcessGroup parser group).1)
          state.parser := by
  induction groups with
  | nil => exact fun _ => rfl
  | cons group groups ih => exact fun state => ih (rdsDemodTakeGroup state group)

/-- The part of `rds_demod_process_symbol_sample` for a decoded bit. -/
def rdsDemodPushBit (state : RdsDemodState K) (bit : Bool) (confidence : K) : RdsDemodState K :=
  let state := rdsDemodSetStream state
    (rdsBlockStreamPushBitWithConfidence state.phase.blockStream bit confidence)
  rdsDemodTakeGroups (rdsDemodTakeSyncLost (rdsDemodTakeSyncAcquired state))

/-! ### Symbols -/

/-- The state after a symbol, and the decoded bit with its confidence; the first symbol only serves
the next one. -/
def rdsDecodeSymbol (phase : RdsPhaseState K) (symbolI : K) :
    RdsPhaseState K × Option (Bool × K) :=
  if phase.havePrevSymbol then
    let biphaseSymbolI := (symbolI - phase.prevSymbolI) / ((2 : ℕ) : K)
    let (phase, decodedBit) := rdsDecodeBiphaseSymbol phase biphaseSymbolI
    (phase, decodedBit.map fun bit => (bit, |biphaseSymbolI|))
  else (phase, none)

def rdsDemodPushDecoded (state : RdsDemodState K) : Option (Bool × K) → RdsDemodState K
  | some (bit, confidence) => rdsDemodPushBit state bit confidence
  | none => state

/-- The symbol is kept for the next one. -/
def rdsDemodKeepSymbol (state : RdsDemodState K) (symbolI symbolQ : K) : RdsDemodState K :=
  { state with
    phase := { state.phase with
      prevSymbolI := symbolI
      prevSymbolQ := symbolQ
      havePrevSymbol := true } }

/-- The state after a symbol, and the bit that was pushed into the block stream with its confidence.
-/
def rdsDemodProcessSymbolSample (state : RdsDemodState K) (symbolI symbolQ : K) :
    RdsDemodState K × Option (Bool × K) :=
  let (phase, pushed) :=
    rdsDecodeSymbol { state.phase with phaseScore := state.phase.phaseScore - 1 } symbolI
  (rdsDemodKeepSymbol (rdsDemodPushDecoded { state with phase } pushed) symbolI symbolQ, pushed)

/-- The state after a run of symbols, and the bits that were pushed. -/
def rdsDemodReceive (state : RdsDemodState K) : List (K × K) → RdsDemodState K × List (Bool × K)
  | [] => (state, [])
  | (symbolI, symbolQ) :: symbols =>
    let (state, pushed) := rdsDemodProcessSymbolSample state symbolI symbolQ
    let (state, later) := rdsDemodReceive state symbols
    (state, pushed.toList ++ later)

end Mpxcast
