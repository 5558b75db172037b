import Mpxcast.Dsp.BiphaseDecoding
import Mpxcast.Rds.LockPeriods
import Mpxcast.Rds.Radiotext

/-!
# The demodulator, the block stream and the parser in a row

The demodulator consumes the events of its block stream and hands its groups to the parser. What
comes out is what the receiver alone makes of the bits that were pushed, and the phase is active
exactly while the receiver is in sync.
-/

namespace Mpxcast

variable {K : Type*} [Field K] [LinearOrder K]

/-! ### Events do not matter to the block stream -/

/-- The block stream with other events pending. -/
def RdsBlockStreamState.withEvents (s : RdsBlockStreamState K) (acquired lost : Bool) :
    RdsBlockStreamState K :=
  { s with syncAcquiredEvent := acquired, syncLostEvent := lost }

omit [Field K] [LinearOrder K] in
lemma rdsCountBlock_withEvents (s : RdsBlockStreamState K) (acquired lost : Bool) :
    rdsCountBlock (s.withEvents acquired lost) = (rdsCountBlock s).withEvents acquired lost := by
  rw [rdsCountBlock, rdsCountBlock, rdsRecentErrorPush_eq, rdsRecentErrorPush_eq]
  rfl

lemma rdsProcessBlock_withEvents (s : RdsBlockStreamState K) (acquired lost : Bool)
    (raw : BitVec 32) (offset : RdsOffset) (confidence : K) :
    rdsProcessBlock (s.withEvents acquired lost) raw offset confidence
      = (rdsProcessBlock s raw offset confidence).withEvents acquired lost := by
  unfold rdsProcessBlock rdsHandleReadyGroup rdsStoreBlock RdsBlockStreamState.withEvents
  dsimp only
  split_ifs <;> rfl

lemma rdsProcessBlock_inSync (s : RdsBlockStreamState K) (raw : BitVec 32) (offset : RdsOffset)
    (confidence : K) : (rdsProcessBlock s raw offset confidence).isInSync = s.isInSync := by
  unfold rdsProcessBlock
  dsimp only
  split_ifs <;> rfl

/-- In sync a window raises the event of the loss, if it is one. -/
lemma rdsFindBlockInRegister_held {s : RdsBlockStreamState K} (hsync : s.isInSync = true)
    (acquired lost : Bool) :
    rdsFindBlockInRegister (s.withEvents acquired lost)
      = (rdsFindBlockInRegister s).withEvents acquired
          (lost || !(rdsFindBlockInRegister s).isInSync) := by
  have hacquire : rdsAcquireSync s (rdsRegisterOffset s) s.bitCount = s := if_pos hsync
  have hacquire' : rdsAcquireSync (s.withEvents acquired lost)
      (rdsRegisterOffset (s.withEvents acquired lost)) (s.withEvents acquired lost).bitCount
        = s.withEvents acquired lost := if_pos hsync
  rw [rdsFindBlockInRegister_eq hacquire hsync ⟨rfl, rfl, rfl⟩,
    rdsFindBlockInRegister_eq hacquire' hsync ⟨rfl, rfl, rfl⟩, rdsCountBlock_withEvents]
  have hcounted : (rdsCountBlock s).isInSync = true :=
    (rdsCountBlock_same s).2.2.1.trans hsync
  have hsum : ((rdsCountBlock s).withEvents acquired lost).recentBlockErrorSum
      = (rdsCountBlock s).recentBlockErrorSum := rfl
  rw [hsum]
  split_ifs with hmany
  · have hlost : (lost || !false) = true := Bool.or_true lost
    rw [show (rdsRecentErrorClear
      { rdsCountBlock s with isInSync := false, syncLostEvent := true }).isInSync = false from rfl,
      hlost]
    rfl
  · rw [rdsProcessBlock_withEvents, rdsProcessBlock_inSync, hcounted, Bool.not_true, Bool.or_false]
    rfl

omit [LinearOrder K] in
lemma rdsAcquireSync_searched {s : RdsBlockStreamState K} (hsync : s.isInSync = false)
    (acquired lost : Bool) (o : RdsOffset) (position : BitVec 32) :
    rdsAcquireSync (s.withEvents acquired lost) o position
      = (rdsAcquireSync s o position).withEvents
          (acquired || (rdsAcquireSync s o position).isInSync) lost := by
  have hpushed : rdsSyncBufferPush (s.withEvents acquired lost) o position
      = (rdsSyncBufferPush s o position).withEvents acquired lost := rfl
  have hsearched : (rdsSyncBufferPush s o position).isInSync = false := hsync
  have hfound : rdsSyncBufferIsSequenceFound
      ((rdsSyncBufferPush s o position).withEvents acquired lost)
        = rdsSyncBufferIsSequenceFound (rdsSyncBufferPush s o position) := rfl
  have hsync' : (s.withEvents acquired lost).isInSync = false := hsync
  unfold rdsAcquireSync
  rw [hsync, hsync', if_neg Bool.false_ne_true, if_neg Bool.false_ne_true, hpushed]
  dsimp only
  rw [hfound]
  split_ifs
  · rw [show (rdsRecentErrorClear { rdsSyncBufferPush s o position with
      isInSync := true
      syncAcquiredEvent := true
      expectedOffset := o
      currentGroup := .zero }).isInSync = true from rfl, Bool.or_true]
    rfl
  · rw [hsearched, Bool.or_false]
  · rw [hsync, Bool.or_false]

/-- Out of sync a window raises the event of the acquisition, if it is one. -/
lemma rdsFindBlockInRegister_searched {s : RdsBlockStreamState K} (hsync : s.isInSync = false)
    (acquired lost : Bool) :
    rdsFindBlockInRegister (s.withEvents acquired lost)
      = (rdsFindBlockInRegister s).withEvents (acquired || (rdsFindBlockInRegister s).isInSync)
          lost := by
  have hacquire := rdsAcquireSync_searched hsync acquired lost (rdsRegisterOffset s) s.bitCount
  have hcases := rdsAcquireSync_cases s (rdsRegisterOffset s)
  rw [hsync, if_neg Bool.false_ne_true] at hcases
  have hpushed : (rdsSyncBufferPush s (rdsRegisterOffset s) s.bitCount).isInSync = false := hsync
  split_ifs at hcases with ho hfound
  · rw [hcases, hsync, Bool.or_false] at hacquire
    rw [rdsFindBlockInRegister_searching hcases hsync,
      rdsFindBlockInRegister_searching hacquire hsync, hsync, Bool.or_false]
  · have hclean : ¬(rdsCountBlock (rdsAcquired s)).recentBlockErrorSum
        > rdsMaxErrorsToleratedOver50Blocks := by
      rw [(rdsCountBlock_acquired s).sum_eq]
      decide
    have hinSync : (rdsCountBlock (rdsAcquired s)).isInSync = true :=
      (rdsCountBlock_same (rdsAcquired s)).2.2.1
    have hsum : ((rdsCountBlock (rdsAcquired s)).withEvents true lost).recentBlockErrorSum
        = (rdsCountBlock (rdsAcquired s)).recentBlockErrorSum := rfl
    rw [hcases, show (acquired || (rdsRecentErrorClear
      { rdsSyncBufferPush s (rdsRegisterOffset s) s.bitCount with
        isInSync := true
        syncAcquiredEvent := true
        expectedOffset := rdsRegisterOffset s
        currentGroup := .zero }).isInSync) = true from Bool.or_true acquired] at hacquire
    have hfind := rdsFindBlockInRegister_eq (t := rdsAcquired s) hcases rfl ⟨rfl, rfl, rfl⟩
    have hfind' := rdsFindBlockInRegister_eq (s := s.withEvents acquired lost)
      (t := (rdsAcquired s).withEvents true lost) hacquire rfl ⟨rfl, rfl, rfl⟩
    rw [rdsCountBlock_withEvents, hsum, if_neg hclean, rdsProcessBlock_withEvents] at hfind'
    rw [if_neg hclean] at hfind
    rw [hfind, hfind', rdsProcessBlock_inSync, hinSync, Bool.or_true]
    rfl
  · rw [hcases, hpushed, Bool.or_false] at hacquire
    rw [rdsFindBlockInRegister_searching hcases hpushed,
      rdsFindBlockInRegister_searching hacquire hpushed, hpushed, Bool.or_false]

/-- Pushing a bit raises the events of what it does to sync. -/
lemma rdsBlockStreamPushBit_withEvents (s : RdsBlockStreamState K) (acquired lost bit : Bool)
    (confidence : K) :
    rdsBlockStreamPushBitWithConfidence (s.withEvents acquired lost) bit confidence
      = (rdsBlockStreamPushBitWithConfidence s bit confidence).withEvents
          (acquired || (!s.isInSync
            && (rdsBlockStreamPushBitWithConfidence s bit confidence).isInSync))
          (lost || (s.isInSync
            && !(rdsBlockStreamPushBitWithConfidence s bit confidence).isInSync)) := by
  have hpush (t : RdsBlockStreamState K) : rdsBlockStreamPushBitWithConfidence t bit confidence =
      if t.bitsUntilNextBlock - 1 = 0 then rdsBlockDone (rdsShiftBit t bit confidence)
      else rdsShiftBit t bit confidence := rfl
  have hshift : rdsShiftBit (s.withEvents acquired lost) bit confidence
      = (rdsShiftBit s bit confidence).withEvents acquired lost := rfl
  have hkept : (rdsShiftBit s bit confidence).isInSync = s.isInSync := rfl
  have hdue : (s.withEvents acquired lost).bitsUntilNextBlock = s.bitsUntilNextBlock := rfl
  rw [hpush, hpush, hshift, hdue]
  split_ifs with hzero
  · unfold rdsBlockDone
    cases hsync : s.isInSync with
    | false =>
      rw [rdsFindBlockInRegister_searched (hkept.trans hsync)]
      simp only [Bool.not_false, Bool.true_and, Bool.false_and, Bool.or_false]
      rfl
    | true =>
      rw [rdsFindBlockInRegister_held (hkept.trans hsync)]
      simp only [Bool.not_true, Bool.true_and, Bool.false_and, Bool.or_false]
      rfl
  · rw [hkept]
    cases s.isInSync <;> simp

omit [Field K] [LinearOrder K] in
lemma rdsDrain_withEvents (s : RdsBlockStreamState K) (acquired lost : Bool) :
    rdsDrain (s.withEvents acquired lost)
      = ((rdsDrain s).1.withEvents acquired lost, (rdsDrain s).2) := by
  have hready : (s.withEvents acquired lost).hasGroupReady = s.hasGroupReady := rfl
  unfold rdsDrain
  rw [hready]
  split_ifs <;> rfl

omit [Field K] [LinearOrder K] in
lemma rdsDrain_inSync (s : RdsBlockStreamState K) : (rdsDrain s).1.isInSync = s.isInSync := by
  unfold rdsDrain
  split_ifs <;> rfl

/-! ### One bit -/

/-- The groups go to the parser, and leave the phase active. -/
lemma rdsDemodTakeGroup_foldl (groups : List (RdsGroup K)) : ∀ state : RdsDemodState K,
    (groups.foldl rdsDemodTakeGroup state).activePhase = state.activePhase ∧
      (state.phase.phaseScore ≤ rdsPhaseScoreMax →
        (groups.foldl rdsDemodTakeGroup state).phase.phaseScore ≤ rdsPhaseScoreMax) := by
  induction groups with
  | nil => exact fun _ => ⟨rfl, id⟩
  | cons group groups ih =>
    intro state
    obtain ⟨hactive, hscore⟩ := ih (rdsDemodTakeGroup state group)
    refine ⟨hactive, fun _ => hscore ?_⟩
    unfold rdsDemodTakeGroup rdsRaiseScore
    dsimp only
    split_ifs <;> omega

/-- The demodulator has the state that the receiver and the parser have after these bits. -/
structure DemodLink (pushed : List (Bool × K)) (state : RdsDemodState K) : Prop where
  stream : state.phase.blockStream
    = (rdsReceive rdsBlockStreamInit pushed).1.withEvents false false
  parser : state.parser = rdsParserRun rdsParserInit (rdsReceive rdsBlockStreamInit pushed).2
  active : state.activePhase = if state.phase.blockStream.isInSync then 0 else -1
  score : state.phase.phaseScore ≤ rdsPhaseScoreMax

variable {pushed : List (Bool × K)} {state : RdsDemodState K}

lemma rdsReceive_singleton (s : RdsBlockStreamState K) (bit : Bool) (confidence : K) :
    rdsReceive s [(bit, confidence)]
      = rdsDrain (rdsBlockStreamPushBitWithConfidence s bit confidence) := by
  simp [rdsReceive]

/-- What becomes of the phase, by what happened to sync. -/
structure TakenEvents (before after : Bool) (u : RdsBlockStreamState K)
    (state next : RdsDemodState K) : Prop where
  stream : next.phase.blockStream = u.withEvents false false
  parser : next.parser = state.parser
  active : next.activePhase = if after then 0 else -1
  score : next.phase.phaseScore ≤ rdsPhaseScoreMax

omit [Field K] [LinearOrder K] in
lemma rdsDemodTakeEvents_spec {before : Bool} (after : Bool) (u : RdsBlockStreamState K)
    (hactive : state.activePhase = if before then 0 else -1)
    (hscore : state.phase.phaseScore ≤ rdsPhaseScoreMax) :
    TakenEvents before after u state (rdsDemodTakeSyncLost (rdsDemodTakeSyncAcquired
      (rdsDemodSetStream state (u.withEvents (!before && after) (before && !after))))) := by
  have hraised : rdsRaiseScore state.phase.phaseScore 16 ≤ rdsPhaseScoreMax := by
    unfold rdsRaiseScore
    split_ifs <;> omega
  cases before with
  | false =>
    have hnone : state.activePhase = -1 := hactive
    cases after with
    | false => exact ⟨rfl, rfl, hnone, hscore⟩
    | true =>
      have hacquired : rdsDemodTakeSyncAcquired (rdsDemodSetStream state (u.withEvents true false))
          = { state with
              phase := { state.phase with
                blockStream := u.withEvents false false
                phaseScore := rdsRaiseScore state.phase.phaseScore 16 }
              activePhase := 0 } := by
        simp only [rdsDemodTakeSyncAcquired, rdsBlockStreamConsumeSyncAcquired, rdsDemodSetStream,
          RdsBlockStreamState.withEvents, rdsDemodActivatePhase, hnone, if_true]
        rfl
      simp only [Bool.not_false, Bool.true_and, Bool.false_and, hacquired]
      exact ⟨rfl, rfl, rfl, hraised⟩
  | true =>
    have hfirst : state.activePhase = 0 := hactive
    cases after with
    | false =>
      have hlost : rdsDemodTakeSyncLost (rdsDemodTakeSyncAcquired
          (rdsDemodSetStream state (u.withEvents false true)))
          = { state with
              phase := { state.phase with
                blockStream := u.withEvents false false
                phaseScore := 0 }
              activePhase := -1 } := by
        simp only [rdsDemodTakeSyncLost, rdsBlockStreamConsumeSyncLost, rdsDemodTakeSyncAcquired,
          rdsBlockStreamConsumeSyncAcquired, rdsDemodSetStream, RdsBlockStreamState.withEvents,
          hfirst]
        rfl
      simp only [Bool.not_true, Bool.not_false, Bool.true_and, Bool.false_and, hlost]
      exact ⟨rfl, rfl, rfl, Nat.zero_le _⟩
    | true => exact ⟨rfl, rfl, hfirst, hscore⟩

/-- A bit that is pushed goes through all three. -/
lemma DemodLink.pushBit (h : DemodLink pushed state) (bit : Bool) (confidence : K) :
    DemodLink (pushed ++ [(bit, confidence)]) (rdsDemodPushBit state bit confidence) := by
  obtain ⟨hstream, hparser, hactive, hscore⟩ := h
  obtain ⟨s, hs⟩ : ∃ s, s = (rdsReceive rdsBlockStreamInit pushed).1 := ⟨_, rfl⟩
  obtain ⟨u, hu⟩ : ∃ u, u = rdsBlockStreamPushBitWithConfidence s bit confidence := ⟨_, rfl⟩
  rw [← hs] at hstream
  have hpush : rdsBlockStreamPushBitWithConfidence state.phase.blockStream bit confidence
      = u.withEvents (!s.isInSync && u.isInSync) (s.isInSync && !u.isInSync) := by
    rw [hstream, rdsBlockStreamPushBit_withEvents, Bool.false_or, Bool.false_or, hu]
  have hreceive : rdsReceive rdsBlockStreamInit (pushed ++ [(bit, confidence)])
      = ((rdsDrain u).1, (rdsReceive rdsBlockStreamInit pushed).2 ++ (rdsDrain u).2) := by
    rw [rdsReceive_append, rdsReceive_singleton, ← hs, hu]
  have hbefore : state.activePhase = if s.isInSync then 0 else -1 := by
    rw [hstream] at hactive
    exact hactive
  obtain ⟨htaken, hsame, hnow, hbound⟩ := rdsDemodTakeEvents_spec u.isInSync u hbefore hscore
  have hgroups : rdsDemodPushBit state bit confidence
      = (rdsDrain u).2.foldl rdsDemodTakeGroup (rdsDemodSetStream
          (rdsDemodTakeSyncLost (rdsDemodTakeSyncAcquired (rdsDemodSetStream state
            (u.withEvents (!s.isInSync && u.isInSync) (s.isInSync && !u.isInSync)))))
          ((rdsDrain u).1.withEvents false false)) := by
    rw [rdsDemodPushBit, hpush, rdsDemodTakeGroups, htaken, rdsDrain_withEvents]
  have hparsed := (congrArg RdsDemodState.parser hgroups).trans
    (rdsDemodTakeGroup_foldl_parsed _ _)
  obtain ⟨hkept, hraised⟩ := rdsDemodTakeGroup_foldl (rdsDrain u).2
    (rdsDemodSetStream
      (rdsDemodTakeSyncLost (rdsDemodTakeSyncAcquired (rdsDemodSetStream state
        (u.withEvents (!s.isInSync && u.isInSync) (s.isInSync && !u.isInSync)))))
      ((rdsDrain u).1.withEvents false false))
  rw [← hgroups] at hkept hraised
  have hstream' : (rdsDemodPushBit state bit confidence).phase.blockStream
      = (rdsDrain u).1.withEvents false false := by
    have hconsumed : rdsBlockStreamTake state.phase.blockStream (bit, confidence)
        = (rdsDrain (u.withEvents false false)).1 := by
      rw [rdsBlockStreamTake, hpush]
      rfl
    rw [rdsDemodPushBit_blockStream, hconsumed, rdsDrain_withEvents]
  exact {
    stream := by rw [hstream', hreceive]
    parser := by
      have htaken' : (rdsDemodPushBit state bit confidence).parser
          = rdsParserRun state.parser (rdsDrain u).2 :=
        hparsed.trans (congrArg (rdsParserRun · _) hsame)
      rw [htaken', hparser, hreceive]
      exact List.foldl_append.symm
    active := by
      rw [hstream']
      exact (hkept.trans hnow).trans (by rw [← rdsDrain_inSync u]; rfl)
    score := hraised hbound }

/-! ### A run of symbols -/

/-- Decoding a symbol leaves the score. -/
lemma rdsDecodeSymbol_phaseScore (phase : RdsPhaseState K) (symbolI : K) :
    (rdsDecodeSymbol phase symbolI).1.phaseScore = phase.phaseScore := by
  have hadvance (s : RdsPhaseState K) : (rdsAdvanceBiphaseClock s).phaseScore = s.phaseScore := by
    unfold rdsAdvanceBiphaseClock
    split_ifs <;> rfl
  unfold rdsDecodeSymbol rdsDecodeBiphaseSymbol
  dsimp only
  split_ifs
  · exact hadvance _
  · exact hadvance _
  · exact hadvance _
  · rfl

lemma DemodLink.processSymbol (h : DemodLink pushed state) (symbolI symbolQ : K) :
    DemodLink (pushed ++ (rdsDemodProcessSymbolSample state symbolI symbolQ).2.toList)
      (rdsDemodProcessSymbolSample state symbolI symbolQ).1 := by
  have hstream := rdsDecodeSymbol_blockStream
    { state.phase with phaseScore := state.phase.phaseScore - 1 } symbolI
  have hscore := rdsDecodeSymbol_phaseScore
    { state.phase with phaseScore := state.phase.phaseScore - 1 } symbolI
  rw [rdsDemodProcessSymbolSample]
  generalize rdsDecodeSymbol { state.phase with phaseScore := state.phase.phaseScore - 1 } symbolI
    = decoded at hstream hscore ⊢
  obtain ⟨phase, decoded⟩ := decoded
  have hdecoded : DemodLink pushed { state with phase } := {
    stream := hstream.trans h.stream
    parser := h.parser
    active := h.active.trans (by rw [← hstream])
    score := hscore.le.trans ((Nat.sub_le _ 1).trans h.score) }
  -- keeping the symbol changes none of the four
  cases decoded with
  | none =>
    rw [Option.toList_none, List.append_nil]
    exact ⟨hdecoded.stream, hdecoded.parser, hdecoded.active, hdecoded.score⟩
  | some decoded =>
    have hpushed := hdecoded.pushBit decoded.1 decoded.2
    exact ⟨hpushed.stream, hpushed.parser, hpushed.active, hpushed.score⟩

lemma DemodLink.receive {pushed : List (Bool × K)} {state : RdsDemodState K}
    (h : DemodLink pushed state) (symbols : List (K × K)) :
    DemodLink (pushed ++ (rdsDemodReceive state symbols).2) (rdsDemodReceive state symbols).1 := by
  induction symbols generalizing pushed state with
  | nil =>
    rw [rdsDemodReceive, List.append_nil]
    exact h
  | cons symbol symbols ih =>
    have hrest := ih (h.processSymbol symbol.1 symbol.2)
    rw [List.append_assoc] at hrest
    exact hrest

/-- Whatever the symbols are, the demodulator is the block stream and the parser in a row. Its block
stream is in the state the pushed bits put the receiver in, with both events consumed; its parser
has had every group the receiver delivers, once and in order, and keeps what it knows when sync is
lost and acquired again; the phase is active exactly while the receiver is in sync; and the score
never exceeds its maximum. -/
theorem rdsDemodReceive_linked (symbols : List (K × K)) :
    DemodLink (rdsDemodReceive rdsDemodInit symbols).2
      (rdsDemodReceive rdsDemodInit symbols).1 := by
  have hinit : DemodLink ([] : List (Bool × K)) rdsDemodInit := ⟨rfl, rfl, rfl, Nat.zero_le _⟩
  exact hinit.receive symbols

end Mpxcast
