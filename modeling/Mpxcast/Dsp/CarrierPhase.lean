import Mpxcast.Dsp.RdsDemod

/-!
# Blindness to the phase of the carrier

The carrier loop may lock half a turn away, and then every symbol arrives negated. The hard
decisions are inverted, but bits are decoded from two of them, and the clock looks at magnitudes
only: the same bits are pushed, as long as no decision that is stored was made on a difference of
zero, which counts as positive either way.
-/

namespace Mpxcast

variable {K : Type*} [Field K] [LinearOrder K]

/-! ### The mirrored state -/

/-- The state after the negated symbols: the last symbol is negated and the last decision, if there
was one, is inverted. -/
def RdsPhaseState.mirror (phase : RdsPhaseState K) : RdsPhaseState K :=
  { phase with
    prevSymbolI := -phase.prevSymbolI
    prevSymbolQ := -phase.prevSymbolQ
    prevBiphaseBit :=
      if phase.havePrevBiphaseBit then !phase.prevBiphaseBit else phase.prevBiphaseBit }

def RdsDemodState.mirror (state : RdsDemodState K) : RdsDemodState K :=
  { state with phase := state.phase.mirror }

/-- A difference of zero would be stored as a decision. -/
def RdsPhaseState.StoresZero (phase : RdsPhaseState K) (symbolI : K) : Prop :=
  phase.havePrevSymbol = true ∧ phase.biphaseClock % 2 = phase.biphaseClockPolarity ∧
    (symbolI - phase.prevSymbolI) / ((2 : ℕ) : K) = 0

omit [LinearOrder K] in
lemma rdsDemodInit_mirror : (rdsDemodInit : RdsDemodState K).mirror = rdsDemodInit := by
  simp [RdsDemodState.mirror, RdsPhaseState.mirror, rdsDemodInit]

/-! ### The clock and the decisions -/

lemma rdsAdvanceBiphaseClock_mirror (phase : RdsPhaseState K) :
    rdsAdvanceBiphaseClock phase.mirror = (rdsAdvanceBiphaseClock phase).mirror := by
  unfold rdsAdvanceBiphaseClock
  by_cases hfull : phase.biphaseClock + 1 = rdsBiphaseClockHistoryLength
  · rw [if_pos hfull]
    exact if_pos hfull
  · rw [if_neg hfull]
    exact if_neg hfull

variable [IsStrictOrderedRing K]

/-- A difference other than zero is decided the other way round when it is negated. -/
lemma decide_neg_nonneg {y : K} (hy : y ≠ 0) : decide (-y ≥ 0) = !decide (y ≥ 0) := by
  rcases lt_or_gt_of_ne hy with hneg | hpos
  · simp [hneg.le, hneg.not_ge]
  · simp [hpos.le, hpos.not_ge]

/-- The decoded bit compares two decisions, of which both or none are inverted. -/
lemma rdsDecodeBiphaseSymbol_mirror (phase : RdsPhaseState K) {y : K}
    (hy : phase.biphaseClock % 2 = phase.biphaseClockPolarity → y ≠ 0) :
    rdsDecodeBiphaseSymbol phase.mirror (-y)
      = ((rdsDecodeBiphaseSymbol phase y).1.mirror, (rdsDecodeBiphaseSymbol phase y).2) := by
  unfold rdsDecodeBiphaseSymbol
  dsimp only
  rw [abs_neg]
  by_cases hstored : phase.biphaseClock % 2 = phase.biphaseClockPolarity
  · rw [decide_neg_nonneg (hy hstored), if_pos hstored]
    refine (if_pos hstored).trans ?_
    dsimp only
    rw [← rdsAdvanceBiphaseClock_mirror]
    cases hbit : phase.havePrevBiphaseBit with
    | true => simp [RdsPhaseState.mirror, hbit]
    | false => simp [RdsPhaseState.mirror, hbit]
  · rw [if_neg hstored]
    refine (if_neg hstored).trans ?_
    dsimp only
    rw [← rdsAdvanceBiphaseClock_mirror]
    rfl

lemma rdsDecodeSymbol_mirror (phase : RdsPhaseState K) {symbolI : K}
    (hzero : ¬ phase.StoresZero symbolI) :
    rdsDecodeSymbol phase.mirror (-symbolI)
      = ((rdsDecodeSymbol phase symbolI).1.mirror, (rdsDecodeSymbol phase symbolI).2) := by
  unfold rdsDecodeSymbol
  by_cases hprev : phase.havePrevSymbol = true
  · have hnegated : (-symbolI - phase.mirror.prevSymbolI) / ((2 : ℕ) : K)
        = -((symbolI - phase.prevSymbolI) / ((2 : ℕ) : K)) := by
      rw [← neg_div, neg_sub']
      rfl
    rw [if_pos hprev]
    refine (if_pos hprev).trans ?_
    dsimp only
    rw [hnegated, abs_neg, rdsDecodeBiphaseSymbol_mirror phase fun hstored hy =>
      hzero ⟨hprev, hstored, hy⟩]
  · rw [if_neg hprev]
    exact if_neg hprev

/-! ### Bits and groups -/

section

omit [IsStrictOrderedRing K]

lemma rdsDemodTakeGroups_mirror (state : RdsDemodState K) :
    rdsDemodTakeGroups state.mirror = (rdsDemodTakeGroups state).mirror := by
  have hfold (groups : List (RdsGroup K)) (t : RdsDemodState K) :
      groups.foldl rdsDemodTakeGroup t.mirror = (groups.foldl rdsDemodTakeGroup t).mirror := by
    induction groups generalizing t with
    | nil => rfl
    | cons group groups ih => exact ih (rdsDemodTakeGroup t group)
  exact hfold (rdsDrain state.phase.blockStream).2
    (rdsDemodSetStream state (rdsDrain state.phase.blockStream).1)

omit [LinearOrder K] in
lemma rdsDemodActivatePhase_mirror (state : RdsDemodState K) (phaseIndex : ℤ) :
    rdsDemodActivatePhase state.mirror phaseIndex
      = (rdsDemodActivatePhase state phaseIndex).mirror := by
  unfold rdsDemodActivatePhase
  rw [apply_ite RdsDemodState.mirror]
  rfl

omit [LinearOrder K] in
lemma rdsDemodTakeSyncAcquired_mirror (state : RdsDemodState K) :
    rdsDemodTakeSyncAcquired state.mirror = (rdsDemodTakeSyncAcquired state).mirror := by
  unfold rdsDemodTakeSyncAcquired
  dsimp only
  rw [apply_ite RdsDemodState.mirror, apply_ite RdsDemodState.mirror,
    ← rdsDemodActivatePhase_mirror]
  rfl

omit [LinearOrder K] in
lemma rdsDemodTakeSyncLost_mirror (state : RdsDemodState K) :
    rdsDemodTakeSyncLost state.mirror = (rdsDemodTakeSyncLost state).mirror := by
  unfold rdsDemodTakeSyncLost
  dsimp only
  rw [apply_ite RdsDemodState.mirror]
  rfl

/-- The block stream and the parser do not see the symbols. -/
lemma rdsDemodPushBit_mirror (state : RdsDemodState K) (bit : Bool) (confidence : K) :
    rdsDemodPushBit state.mirror bit confidence
      = (rdsDemodPushBit state bit confidence).mirror := by
  unfold rdsDemodPushBit
  rw [← rdsDemodTakeGroups_mirror, ← rdsDemodTakeSyncLost_mirror,
    ← rdsDemodTakeSyncAcquired_mirror]
  rfl

lemma rdsDemodPushDecoded_mirror (state : RdsDemodState K) (pushed : Option (Bool × K)) :
    rdsDemodPushDecoded state.mirror pushed = (rdsDemodPushDecoded state pushed).mirror := by
  cases pushed with
  | none => rfl
  | some decoded => exact rdsDemodPushBit_mirror state decoded.1 decoded.2

end

/-! ### Symbols -/

lemma rdsDemodProcessSymbolSample_mirror (state : RdsDemodState K) {symbolI : K} (symbolQ : K)
    (hzero : ¬ state.phase.StoresZero symbolI) :
    rdsDemodProcessSymbolSample state.mirror (-symbolI) (-symbolQ)
      = ((rdsDemodProcessSymbolSample state symbolI symbolQ).1.mirror,
        (rdsDemodProcessSymbolSample state symbolI symbolQ).2) := by
  have hdecode := rdsDecodeSymbol_mirror
    { state.phase with phaseScore := state.phase.phaseScore - 1 } hzero
  have hscore : { state.mirror.phase with phaseScore := state.mirror.phase.phaseScore - 1 }
      = RdsPhaseState.mirror { state.phase with phaseScore := state.phase.phaseScore - 1 } := rfl
  unfold rdsDemodProcessSymbolSample
  rw [hscore, hdecode]
  generalize rdsDecodeSymbol { state.phase with phaseScore := state.phase.phaseScore - 1 } symbolI
    = decoded
  have hpush := rdsDemodPushDecoded_mirror { state with phase := decoded.1 } decoded.2
  exact congrArg (fun t => (rdsDemodKeepSymbol t (-symbolI) (-symbolQ), decoded.2)) hpush

/-- A run from the mirrored state on the negated symbols ends in the mirrored state. -/
lemma rdsDemodReceive_mirror (state : RdsDemodState K) {symbols : List (K × K)}
    (hzero : ∀ n symbol, symbols[n]? = some symbol →
      ¬ (rdsDemodReceive state (symbols.take n)).1.phase.StoresZero symbol.1) :
    rdsDemodReceive state.mirror (symbols.map fun symbol => (-symbol.1, -symbol.2))
      = ((rdsDemodReceive state symbols).1.mirror, (rdsDemodReceive state symbols).2) := by
  induction symbols generalizing state with
  | nil => rfl
  | cons symbol symbols ih =>
    have hfirst := rdsDemodProcessSymbolSample_mirror state symbol.2 (hzero 0 symbol rfl)
    have hrest := ih (rdsDemodProcessSymbolSample state symbol.1 symbol.2).1
      fun n later hlater => hzero (n + 1) later hlater
    rw [List.map_cons, rdsDemodReceive, hfirst]
    dsimp only
    rw [hrest]
    rfl

/-- **Decoding is blind to half a turn of the carrier.** When no difference of zero is stored as a
decision, the negated symbols push the same bits with the same confidences. -/
theorem rdsDemodReceive_negated (symbols : List (K × K))
    (hzero : ∀ n symbol, symbols[n]? = some symbol →
      ¬ (rdsDemodReceive rdsDemodInit (symbols.take n)).1.phase.StoresZero symbol.1) :
    let run := rdsDemodReceive rdsDemodInit symbols
    let negated := rdsDemodReceive rdsDemodInit (symbols.map fun symbol => (-symbol.1, -symbol.2))
    negated.2 = run.2 ∧
      negated.1.phase.biphaseClock = run.1.phase.biphaseClock ∧
      negated.1.phase.biphaseClockPolarity = run.1.phase.biphaseClockPolarity ∧
      negated.1.phase.blockStream = run.1.phase.blockStream ∧
      negated.1.parser = run.1.parser := by
  have hmirror := rdsDemodReceive_mirror rdsDemodInit hzero
  rw [rdsDemodInit_mirror] at hmirror
  dsimp only
  rw [hmirror]
  exact ⟨rfl, rfl, rfl, rfl, rfl⟩

/-- Four alternating symbols, of which the last one completes a bit. -/
theorem rdsDemodReceive_negated_alternating :
    let run := rdsDemodReceive rdsDemodInit [((1 : ℚ), 0), (-1, 0), (1, 0), (-1, 0)]
    let negated := rdsDemodReceive rdsDemodInit
      ([((1 : ℚ), 0), (-1, 0), (1, 0), (-1, 0)].map fun symbol => (-symbol.1, -symbol.2))
    negated.2 = run.2 ∧
      negated.1.phase.biphaseClock = run.1.phase.biphaseClock ∧
      negated.1.phase.biphaseClockPolarity = run.1.phase.biphaseClockPolarity ∧
      negated.1.phase.blockStream = run.1.phase.blockStream ∧
      negated.1.parser = run.1.parser := by
  have hfall : ((-1 : ℚ) - 1) / ((2 : ℕ) : ℚ) ≠ 0 := by norm_num
  have hrise : ((1 : ℚ) - -1) / ((2 : ℕ) : ℚ) ≠ 0 := by norm_num
  refine rdsDemodReceive_negated _ fun n symbol hsymbol hzero => ?_
  rcases n with _ | _ | _ | _ | n
  · exact Bool.false_ne_true hzero.1
  · obtain rfl := Option.some.inj hsymbol
    exact hfall hzero.2.2
  · obtain rfl := Option.some.inj hsymbol
    exact hrise hzero.2.2
  · obtain rfl := Option.some.inj hsymbol
    exact hfall hzero.2.2
  · exact absurd hsymbol (by simp)

end Mpxcast
