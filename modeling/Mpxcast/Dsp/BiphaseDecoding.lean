import Mpxcast.Core.ClockRecovery
import Mpxcast.Dsp.RdsDemod

/-!
# Decoding a biphase signal

Bits are encoded differentially and each level is sent as two symbols of opposite sign, possibly
after a stray half of a symbol. Differences within a level have full magnitude, differences across
two levels vanish where the levels change, so the first change settles the recovered clock, and from
then on every level gives one bit.
-/

namespace Mpxcast

open ClockRecovery

variable {K : Type*} [Field K] [LinearOrder K]

/-! ### The transmitter -/

/-- The level of the differential encoding for each bit. -/
def biphaseLevel (initial : Bool) (b : ℕ → Bool) : ℕ → Bool
  | 0 => initial ^^ b 0
  | i + 1 => biphaseLevel initial b i ^^ b (i + 1)

/-- The first or the second symbol of a level; the level `rising` is sent as `(-a, +a)`. -/
def biphaseHalf (a : K) (rising level second : Bool) : K :=
  if (level == rising) == second then a else -a

/-- The parity of the differences within a level: one with a stray symbol in front. -/
def biphaseParity (stray : Option Bool) : ℕ := if stray.isSome then 1 else 0

/-- Symbol number `j` of the transmission; a stray symbol is `a` or `-a`. -/
def biphaseSymbol (a : K) (rising : Bool) (stray : Option Bool) (level : ℕ → Bool) (j : ℕ) : K :=
  if j < biphaseParity stray then if stray = some true then a else -a
  else
    biphaseHalf a rising (level ((j - biphaseParity stray) / 2))
      ((j - biphaseParity stray) % 2 == 1)

/-- The symbols from number `s` up to number `t`, with any quadrature part. -/
def symbolsFrom (x q : ℕ → K) (s t : ℕ) : List (K × K) :=
  (List.range' s (t - s)).map fun j => (x j, q j)

omit [Field K] [LinearOrder K] in
lemma symbolsFrom_succ (x q : ℕ → K) {s t : ℕ} (h : s ≤ t) :
    symbolsFrom x q s (t + 1) = symbolsFrom x q s t ++ [(x t, q t)] := by
  rw [symbolsFrom, Nat.succ_sub h, List.range'_concat, List.map_append, Nat.one_mul,
    Nat.add_sub_cancel' h]
  rfl

omit [Field K] [LinearOrder K] in
lemma symbolsFrom_append (x q : ℕ → K) {s t u : ℕ} (hst : s ≤ t) (htu : t ≤ u) :
    symbolsFrom x q s u = symbolsFrom x q s t ++ symbolsFrom x q t u := by
  have hsplit : List.range' s (u - s) = List.range' s (t - s) ++ List.range' t (u - t) := by
    have happend := List.range'_append_1 (s := s) (m := t - s) (n := u - t)
    rw [Nat.add_sub_cancel' hst, Nat.add_comm, Nat.sub_add_sub_cancel htu hst] at happend
    exact happend.symm
  rw [symbolsFrom, hsplit, List.map_append]
  rfl

/-- Half the difference of two successive symbols. -/
def symbolDifference (x : ℕ → K) (j : ℕ) : K := (x (j + 1) - x j) / ((2 : ℕ) : K)

section

variable [IsStrictOrderedRing K] {a : K} {rising : Bool} {stray : Option Bool} {level : ℕ → Bool}

omit [Field K] [LinearOrder K] [IsStrictOrderedRing K] in
lemma biphaseParity_lt (stray : Option Bool) : biphaseParity stray < 2 := by
  unfold biphaseParity
  split_ifs
  · exact one_lt_two
  · exact two_pos

omit [LinearOrder K] [IsStrictOrderedRing K] in
/-- Behind the stray symbol, the levels are sent in pairs of symbols. -/
lemma biphaseSymbol_add (a : K) (rising : Bool) (stray : Option Bool) (level : ℕ → Bool) (j : ℕ) :
    biphaseSymbol a rising stray level (j + biphaseParity stray)
      = biphaseHalf a rising (level (j / 2)) (j % 2 == 1) := by
  rw [biphaseSymbol, if_neg (by omega), Nat.add_sub_cancel]

omit [LinearOrder K] [IsStrictOrderedRing K] in
/-- The two symbols of a level have opposite signs. -/
lemma biphaseHalf_first (a : K) (rising level : Bool) :
    biphaseHalf a rising level false = -biphaseHalf a rising level true := by
  unfold biphaseHalf
  cases level == rising with
  | false => simp
  | true => simp

omit [LinearOrder K] [IsStrictOrderedRing K] in
/-- The two levels have opposite signs. -/
lemma biphaseHalf_not (a : K) (rising level second : Bool) :
    biphaseHalf a rising (!level) second = -biphaseHalf a rising level second := by
  unfold biphaseHalf
  cases level <;> cases rising <;> cases second <;> simp

lemma abs_biphaseHalf (ha : 0 < a) (rising level second : Bool) :
    |biphaseHalf a rising level second| = a := by
  unfold biphaseHalf
  split_ifs
  · exact abs_of_pos ha
  · rw [abs_neg, abs_of_pos ha]

/-- Within a level, the difference is its second symbol. -/
lemma symbolDifference_within (a : K) (rising : Bool) (stray : Option Bool) (level : ℕ → Bool)
    (k : ℕ) :
    symbolDifference (biphaseSymbol a rising stray level) (2 * k + biphaseParity stray)
      = biphaseHalf a rising (level k) true := by
  have hfirst := biphaseSymbol_add a rising stray level (2 * k)
  have hsecond := biphaseSymbol_add a rising stray level (2 * k + 1)
  rw [Nat.mul_div_cancel_left k two_pos, Nat.mul_mod_right] at hfirst
  rw [show (2 * k + 1) / 2 = k by omega, show (2 * k + 1) % 2 = 1 by omega] at hsecond
  rw [symbolDifference, Nat.add_right_comm, hsecond, hfirst]
  change (biphaseHalf a rising (level k) true - biphaseHalf a rising (level k) false) / _ = _
  rw [biphaseHalf_first, sub_neg_eq_add, ← two_mul, Nat.cast_ofNat,
    mul_div_cancel_left₀ _ two_ne_zero]

/-- Across two levels, it vanishes where they differ. -/
lemma symbolDifference_across (ha : 0 < a) (rising : Bool) (stray : Option Bool)
    (level : ℕ → Bool) (k : ℕ) :
    |symbolDifference (biphaseSymbol a rising stray level) (2 * k + 1 + biphaseParity stray)|
      = if level k = level (k + 1) then a else 0 := by
  have hfirst := biphaseSymbol_add a rising stray level (2 * k + 1)
  have hsecond := biphaseSymbol_add a rising stray level (2 * k + 1 + 1)
  rw [show (2 * k + 1) / 2 = k by omega, show (2 * k + 1) % 2 = 1 by omega] at hfirst
  rw [show (2 * k + 1 + 1) / 2 = k + 1 by omega, show (2 * k + 1 + 1) % 2 = 0 by omega] at hsecond
  rw [symbolDifference, Nat.add_right_comm, hsecond, hfirst]
  change |(biphaseHalf a rising (level (k + 1)) false
    - biphaseHalf a rising (level k) true) / _| = _
  rw [biphaseHalf_first]
  split_ifs with heq
  · rw [← heq, ← neg_add', ← two_mul, ← mul_neg, Nat.cast_ofNat,
      mul_div_cancel_left₀ _ two_ne_zero, abs_neg, abs_biphaseHalf ha]
  · have hnot : level (k + 1) = !level k := by
      cases hk : level k <;> cases hk' : level (k + 1) <;> simp_all
    rw [hnot, biphaseHalf_not, neg_neg, sub_self, zero_div, abs_zero]

/-- The difference to the stray symbol. -/
lemma symbolDifference_stray (ha : 0 < a) (rising s : Bool) (level : ℕ → Bool) :
    |symbolDifference (biphaseSymbol a rising (some s) level) 0| ≤ a := by
  have hnext := biphaseSymbol_add a rising (some s) level 0
  have hbound : |biphaseHalf a rising (level (0 / 2)) (0 % 2 == 1)| = a := abs_biphaseHalf ha _ _ _
  have hstray : |biphaseSymbol a rising (some s) level 0| = a := by
    have hparity : biphaseParity (some s) = 1 := rfl
    rw [biphaseSymbol, hparity, if_pos Nat.one_pos]
    split_ifs
    · exact abs_of_pos ha
    · rw [abs_neg, abs_of_pos ha]
  rw [← hnext] at hbound
  change |(biphaseSymbol a rising (some s) level (0 + biphaseParity (some s))
    - biphaseSymbol a rising (some s) level 0) / _| ≤ a
  rw [abs_div, Nat.cast_ofNat, abs_of_pos (zero_lt_two (α := K)), div_le_iff₀ zero_lt_two, mul_two]
  refine (abs_sub _ _).trans ?_
  rw [hbound, hstray]

/-- The differences within the levels carry the clock. -/
lemma biphase_carried (ha : 0 < a) (rising : Bool) (stray : Option Bool) (level : ℕ → Bool) :
    Carried (fun j => |symbolDifference (biphaseSymbol a rising stray level) j|) a
      (biphaseParity stray) where
  lt_two := biphaseParity_lt stray
  carrier j hj := by
    obtain ⟨k, rfl⟩ : ∃ k, j = 2 * k + biphaseParity stray := ⟨j / 2, by omega⟩
    rw [symbolDifference_within, abs_biphaseHalf ha]
  other j hj := by
    have hlt := biphaseParity_lt stray
    rcases Nat.lt_or_ge j (1 + biphaseParity stray) with hsmall | hlarge
    · cases stray with
      | none =>
        obtain rfl : j = 0 := by simpa [biphaseParity] using hsmall
        exact absurd rfl hj
      | some s =>
        have hparity : biphaseParity (some s) = 1 := rfl
        obtain rfl : j = 0 := by omega
        exact symbolDifference_stray ha rising s level
    · obtain ⟨k, rfl⟩ : ∃ k, j = 2 * k + 1 + biphaseParity stray :=
        ⟨(j - 1 - biphaseParity stray) / 2, by omega⟩
      rw [symbolDifference_across ha]
      split_ifs
      · exact le_rfl
      · exact ha.le

end

/-! ### The decoder -/

/-- Two phases with the same clock and the same bit to compare with. -/
structure SameClock (s t : RdsPhaseState K) : Prop where
  history : t.biphaseClockHistory = s.biphaseClockHistory
  clock : t.biphaseClock = s.biphaseClock
  polarity : t.biphaseClockPolarity = s.biphaseClockPolarity
  haveBit : t.havePrevBiphaseBit = s.havePrevBiphaseBit
  bit : t.prevBiphaseBit = s.prevBiphaseBit

omit [Field K] [LinearOrder K] in
lemma SameClock.refl (s : RdsPhaseState K) : SameClock s s := ⟨rfl, rfl, rfl, rfl, rfl⟩

omit [Field K] [LinearOrder K] in
lemma SameClock.trans {s t u : RdsPhaseState K} (h : SameClock s t) (h' : SameClock t u) :
    SameClock s u :=
  ⟨h'.history.trans h.history, h'.clock.trans h.clock, h'.polarity.trans h.polarity,
    h'.haveBit.trans h.haveBit, h'.bit.trans h.bit⟩

lemma rdsDemodTakeGroups_clock (state : RdsDemodState K) :
    SameClock state.phase (rdsDemodTakeGroups state).phase := by
  have hfold (groups : List (RdsGroup K)) (t : RdsDemodState K) :
      SameClock t.phase (groups.foldl rdsDemodTakeGroup t).phase := by
    induction groups generalizing t with
    | nil => exact SameClock.refl _
    | cons group groups ih =>
      have hgroup : SameClock t.phase (rdsDemodTakeGroup t group).phase := ⟨rfl, rfl, rfl, rfl, rfl⟩
      exact hgroup.trans (ih _)
  have hstream : SameClock state.phase
      (rdsDemodSetStream state (rdsDrain state.phase.blockStream).1).phase :=
    ⟨rfl, rfl, rfl, rfl, rfl⟩
  exact hstream.trans (hfold _ _)

omit [Field K] [LinearOrder K] in
lemma rdsDemodTakeSyncAcquired_clock (state : RdsDemodState K) :
    SameClock state.phase (rdsDemodTakeSyncAcquired state).phase := by
  unfold rdsDemodTakeSyncAcquired rdsDemodActivatePhase
  dsimp only
  split_ifs <;> exact ⟨rfl, rfl, rfl, rfl, rfl⟩

omit [Field K] [LinearOrder K] in
lemma rdsDemodTakeSyncLost_clock (state : RdsDemodState K) :
    SameClock state.phase (rdsDemodTakeSyncLost state).phase := by
  unfold rdsDemodTakeSyncLost
  dsimp only
  split_ifs <;> exact ⟨rfl, rfl, rfl, rfl, rfl⟩

/-- The block stream and the parser do not touch the clock. -/
lemma rdsDemodPushBit_clock (state : RdsDemodState K) (bit : Bool) (confidence : K) :
    SameClock state.phase (rdsDemodPushBit state bit confidence).phase := by
  have hpush : SameClock state.phase (rdsDemodSetStream state
      (rdsBlockStreamPushBitWithConfidence state.phase.blockStream bit confidence)).phase :=
    ⟨rfl, rfl, rfl, rfl, rfl⟩
  exact ((hpush.trans (rdsDemodTakeSyncAcquired_clock _)).trans
    (rdsDemodTakeSyncLost_clock _)).trans (rdsDemodTakeGroups_clock _)

/-- A decoded bit or none: the clock stays. -/
lemma rdsDemodPushDecoded_clock (state : RdsDemodState K) (pushed : Option (Bool × K)) :
    SameClock state.phase (rdsDemodPushDecoded state pushed).phase := by
  cases pushed with
  | none => exact SameClock.refl _
  | some decoded => exact rdsDemodPushBit_clock state decoded.1 decoded.2

/-- A symbol after the first one is decoded by its difference to the one before. -/
lemma rdsDemodProcessSymbolSample_clock {state : RdsDemodState K}
    (h : state.phase.havePrevSymbol = true) (symbolI symbolQ : K) :
    ∃ s, SameClock state.phase s ∧
      SameClock (rdsDecodeBiphaseSymbol s
          ((symbolI - state.phase.prevSymbolI) / ((2 : ℕ) : K))).1
        (rdsDemodProcessSymbolSample state symbolI symbolQ).1.phase ∧
      (rdsDemodProcessSymbolSample state symbolI symbolQ).2
        = (rdsDecodeBiphaseSymbol s
            ((symbolI - state.phase.prevSymbolI) / ((2 : ℕ) : K))).2.map fun bit =>
          (bit, |(symbolI - state.phase.prevSymbolI) / ((2 : ℕ) : K)|) := by
  obtain ⟨s, hs⟩ : ∃ s, s = { state.phase with phaseScore := state.phase.phaseScore - 1 } :=
    ⟨_, rfl⟩
  have hprev : s.prevSymbolI = state.phase.prevSymbolI := by rw [hs]
  have hdecode : rdsDecodeSymbol s symbolI =
      ((rdsDecodeBiphaseSymbol s ((symbolI - s.prevSymbolI) / ((2 : ℕ) : K))).1,
        (rdsDecodeBiphaseSymbol s ((symbolI - s.prevSymbolI) / ((2 : ℕ) : K))).2.map fun bit =>
          (bit, |(symbolI - s.prevSymbolI) / ((2 : ℕ) : K)|)) := by
    refine if_pos ?_
    rw [hs]
    exact h
  rw [rdsDemodProcessSymbolSample, ← hs, hdecode, hprev]
  refine ⟨s, by rw [hs]; exact ⟨rfl, rfl, rfl, rfl, rfl⟩, ?_, rfl⟩
  have hkeep (t : RdsDemodState K) :
      SameClock t.phase (rdsDemodKeepSymbol t symbolI symbolQ).phase := ⟨rfl, rfl, rfl, rfl, rfl⟩
  exact (rdsDemodPushDecoded_clock
    { state with phase := (rdsDecodeBiphaseSymbol s _).1 } _).trans (hkeep _)

/-! ### The clock in a run -/

/-- The clock after the differences `y 0, …, y (m - 1)`. -/
structure TracksClock (y : ℕ → K) (m : ℕ) (phase : RdsPhaseState K) : Prop where
  clock : phase.biphaseClock = m % 128
  length : phase.biphaseClockHistory.length = 128
  history : ∀ j < m % 128, phase.biphaseClockHistory[j]? = some |y (128 * (m / 128) + j)|
  polarity : phase.biphaseClockPolarity = selected 64 (fun j => |y j|) (m / 128)
  haveBit : 0 < m → phase.havePrevBiphaseBit = true

lemma TracksClock.congr {y : ℕ → K} {m : ℕ} {s t : RdsPhaseState K}
    (h : TracksClock y m s) (hsame : SameClock s t) : TracksClock y m t where
  clock := hsame.clock.trans h.clock
  length := hsame.history ▸ h.length
  history := hsame.history ▸ h.history
  polarity := hsame.polarity.trans h.polarity
  haveBit hm := hsame.haveBit.trans (h.haveBit hm)

/-- A full history holds the magnitudes of its window. -/
lemma rdsBiphaseClockSum_eq {y : ℕ → K} {history : List K} {w parity : ℕ} (hparity : parity < 2)
    (h : ∀ j < 128, history[j]? = some |y (128 * w + j)|) :
    rdsBiphaseClockSum history parity = windowSum 64 (fun j => |y j|) w parity := by
  have hsum : rdsBiphaseClockSum history parity
      = ∑ i ∈ Finset.range 64, history.getD (2 * i + parity) 0 := rfl
  rw [hsum, windowSum]
  refine Finset.sum_congr rfl fun i hi => ?_
  rw [Finset.mem_range] at hi
  rw [List.getD_eq_getElem?_getD, h _ (by omega), Option.getD_some, Nat.add_assoc]

/-- A difference that has entered the history ends its window or not. -/
lemma rdsAdvanceBiphaseClock_tracks {y : ℕ → K} {m : ℕ} {t : RdsPhaseState K}
    (hclock : t.biphaseClock = m % 128) (hlength : t.biphaseClockHistory.length = 128)
    (hhistory : ∀ j ≤ m % 128, t.biphaseClockHistory[j]? = some |y (128 * (m / 128) + j)|)
    (hpolarity : t.biphaseClockPolarity = selected 64 (fun j => |y j|) (m / 128))
    (hbit : t.havePrevBiphaseBit = true) :
    TracksClock y (m + 1) (rdsAdvanceBiphaseClock t) ∧
      (rdsAdvanceBiphaseClock t).prevBiphaseBit = t.prevBiphaseBit := by
  unfold rdsAdvanceBiphaseClock
  rw [hclock]
  split_ifs with hfull
  · have hwindow : (m + 1) / 128 = m / 128 + 1 := by
      simp only [rdsBiphaseClockHistoryLength] at hfull
      omega
    have hsum (parity : ℕ) (hparity : parity < 2) :
        rdsBiphaseClockSum t.biphaseClockHistory parity
          = windowSum 64 (fun j => |y j|) (m / 128) parity := by
      simp only [rdsBiphaseClockHistoryLength] at hfull
      exact rdsBiphaseClockSum_eq hparity fun j hj => hhistory j (by omega)
    simp only [rdsBiphaseClockHistoryLength] at hfull
    refine ⟨⟨?_, List.length_replicate, fun j hj => ?_, ?_, fun _ => hbit⟩, rfl⟩
    · dsimp only
      omega
    · omega
    · dsimp only
      rw [hsum 0 two_pos, hsum 1 one_lt_two, hpolarity, hwindow]
      rfl
  · simp only [rdsBiphaseClockHistoryLength] at hfull
    have hwindow : (m + 1) / 128 = m / 128 := by omega
    refine ⟨⟨?_, hlength, fun j hj => ?_, ?_, fun _ => hbit⟩, rfl⟩
    · dsimp only
      omega
    · rw [hwindow]
      exact hhistory j (by omega)
    · rw [hwindow]
      exact hpolarity

/-- The clock moves on by one difference. -/
lemma TracksClock.decode {y : ℕ → K} {m : ℕ} {s : RdsPhaseState K} (h : TracksClock y m s) :
    TracksClock y (m + 1) (rdsDecodeBiphaseSymbol s (y m)).1 ∧
      (rdsDecodeBiphaseSymbol s (y m)).1.prevBiphaseBit
        = (if m % 2 = s.biphaseClockPolarity then decide (y m ≥ 0) else s.prevBiphaseBit) ∧
      (rdsDecodeBiphaseSymbol s (y m)).2
        = if m % 2 = s.biphaseClockPolarity ∧ s.havePrevBiphaseBit = true then
            some (decide (y m ≥ 0) != s.prevBiphaseBit)
          else none := by
  have hclock : s.biphaseClock % 2 = m % 2 := by
    rw [h.clock]
    omega
  obtain ⟨t, ht⟩ : ∃ t, t = { s with
      biphaseClockHistory := s.biphaseClockHistory.set s.biphaseClock |y m|
      prevBiphaseBit := if m % 2 = s.biphaseClockPolarity then decide (y m ≥ 0)
        else s.prevBiphaseBit
      havePrevBiphaseBit := s.havePrevBiphaseBit || decide (m % 2 = s.biphaseClockPolarity) } :=
    ⟨_, rfl⟩
  have hdecode : rdsDecodeBiphaseSymbol s (y m) = (rdsAdvanceBiphaseClock t,
      if m % 2 = s.biphaseClockPolarity ∧ s.havePrevBiphaseBit = true then
        some (decide (y m ≥ 0) != s.prevBiphaseBit)
      else none) := by
    rw [rdsDecodeBiphaseSymbol, ht]
    dsimp only
    rw [hclock]
    by_cases hon : m % 2 = s.biphaseClockPolarity
    · simp [hon]
    · simp [hon]
  have hlt : s.biphaseClock < s.biphaseClockHistory.length := by
    rw [h.clock, h.length]
    exact Nat.mod_lt m (by decide)
  have hhistory : ∀ j ≤ m % 128,
      t.biphaseClockHistory[j]? = some |y (128 * (m / 128) + j)| := by
    intro j hj
    rw [ht]
    rcases hj.lt_or_eq with hold | rfl
    · have hne : s.biphaseClock ≠ j := by
        rw [h.clock]
        exact hold.ne'
      exact (List.getElem?_set_ne hne).trans (h.history j hold)
    · rw [Nat.div_add_mod, ← h.clock]
      exact List.getElem?_set_self hlt
  have hbit : t.havePrevBiphaseBit = true := by
    rw [ht]
    rcases Nat.eq_zero_or_pos m with rfl | hpos
    · have hfirst : 0 % 2 = s.biphaseClockPolarity := by
        rw [h.polarity]
        rfl
      simp [← hfirst]
    · simp [h.haveBit hpos]
  have hclock' : t.biphaseClock = m % 128 := by
    rw [ht]
    exact h.clock
  have hlength : t.biphaseClockHistory.length = 128 := by
    rw [ht]
    exact List.length_set.trans h.length
  have hpolarity : t.biphaseClockPolarity = selected 64 (fun j => |y j|) (m / 128) := by
    rw [ht]
    exact h.polarity
  obtain ⟨htracks, hprev⟩ :=
    rdsAdvanceBiphaseClock_tracks hclock' hlength hhistory hpolarity hbit
  rw [hdecode]
  refine ⟨htracks, hprev.trans ?_, rfl⟩
  rw [ht]

lemma rdsDemodReceive_append (state : RdsDemodState K) (u v : List (K × K)) :
    rdsDemodReceive state (u ++ v) =
      ((rdsDemodReceive (rdsDemodReceive state u).1 v).1,
        (rdsDemodReceive state u).2 ++ (rdsDemodReceive (rdsDemodReceive state u).1 v).2) := by
  induction u generalizing state with
  | nil => simp [rdsDemodReceive]
  | cons symbol u ih => simp [rdsDemodReceive, ih]

/-- The state after symbol number `m`. -/
structure Demodulated (x : ℕ → K) (m : ℕ) (state : RdsDemodState K) : Prop where
  havePrev : state.phase.havePrevSymbol = true
  prev : state.phase.prevSymbolI = x m
  clock : TracksClock (symbolDifference x) m state.phase

/-- The first symbol starts the clock. -/
lemma demodulated_first (x : ℕ → K) (symbolQ : K) :
    Demodulated x 0 (rdsDemodProcessSymbolSample rdsDemodInit (x 0) symbolQ).1 where
  havePrev := rfl
  prev := rfl
  clock := ⟨rfl, rfl, fun j hj => absurd hj (Nat.not_lt_zero j), rfl,
    fun h => absurd h (lt_irrefl 0)⟩

/-- What the next symbol does. -/
lemma Demodulated.next {x : ℕ → K} {m : ℕ} {state : RdsDemodState K} (h : Demodulated x m state)
    (symbolQ : K) :
    Demodulated x (m + 1) (rdsDemodProcessSymbolSample state (x (m + 1)) symbolQ).1 ∧
      (rdsDemodProcessSymbolSample state (x (m + 1)) symbolQ).1.phase.prevBiphaseBit
        = (if m % 2 = state.phase.biphaseClockPolarity then decide (symbolDifference x m ≥ 0)
          else state.phase.prevBiphaseBit) ∧
      (rdsDemodProcessSymbolSample state (x (m + 1)) symbolQ).2
        = if m % 2 = state.phase.biphaseClockPolarity ∧ state.phase.havePrevBiphaseBit = true then
            some (decide (symbolDifference x m ≥ 0) != state.phase.prevBiphaseBit,
              |symbolDifference x m|)
          else none := by
  obtain ⟨s, hs, hclock, hpushed⟩ :=
    rdsDemodProcessSymbolSample_clock h.havePrev (x (m + 1)) symbolQ
  have hdifference : (x (m + 1) - state.phase.prevSymbolI) / ((2 : ℕ) : K)
      = symbolDifference x m := by
    rw [h.prev]
    rfl
  rw [hdifference] at hclock hpushed
  obtain ⟨htracks, hbit, hdecoded⟩ := (h.clock.congr hs).decode
  rw [hs.polarity, hs.bit] at hbit hdecoded
  rw [hs.haveBit] at hdecoded
  refine ⟨⟨rfl, rfl, htracks.congr hclock⟩, hclock.bit.trans hbit, ?_⟩
  rw [hpushed, hdecoded]
  split_ifs <;> rfl

/-- The state after symbol number `m`, whatever the symbols are. -/
lemma rdsDemodReceive_demodulated (x q : ℕ → K) (m : ℕ) :
    Demodulated x m (rdsDemodReceive rdsDemodInit (symbolsFrom x q 0 (m + 1))).1 := by
  induction m with
  | zero => exact demodulated_first x (q 0)
  | succ m ih =>
    rw [symbolsFrom_succ x q (Nat.zero_le (m + 1)), rdsDemodReceive_append]
    exact (ih.next (q (m + 1))).1

/-! ### Bits of the transmission -/

section

variable [IsStrictOrderedRing K] {a : K} {initial rising : Bool} {stray : Option Bool}
  {b : ℕ → Bool}

lemma biphaseHalf_nonneg (ha : 0 < a) (rising level : Bool) :
    decide (biphaseHalf a rising level true ≥ 0) = (level == rising) := by
  unfold biphaseHalf
  cases level == rising with
  | false => simp [ha]
  | true => simp [ha.le]

/-- Two successive levels give back the bit between them. -/
lemma biphaseLevel_differ (initial : Bool) (b : ℕ → Bool) (rising : Bool) (k : ℕ) :
    ((biphaseLevel initial b (k + 1) == rising) != (biphaseLevel initial b k == rising))
      = b (k + 1) := by
  rw [biphaseLevel]
  cases biphaseLevel initial b k <;> cases b (k + 1) <;> cases rising <;> rfl

/-- From the window on that holds a change of level, the polarity is that of the transmitter. -/
lemma Demodulated.polarity (ha : 0 < a) {level : ℕ → Bool} {i m : ℕ} {state : RdsDemodState K}
    (h : Demodulated (biphaseSymbol a rising stray level) m state)
    (hchange : level i ≠ level (i + 1))
    (hm : (2 * i + 1 + biphaseParity stray) / 128 < m / 128) :
    state.phase.biphaseClockPolarity = biphaseParity stray := by
  have hlt := biphaseParity_lt stray
  have hgap : |symbolDifference (biphaseSymbol a rising stray level)
      (2 * i + 1 + biphaseParity stray)| < a := by
    rw [symbolDifference_across ha, if_neg hchange]
    exact ha
  rw [h.clock.polarity]
  exact (biphase_carried ha rising stray level).selected_eq (by decide) (by omega) hgap hm

/-- What is pushed behind the first entry continues a run of indices. -/
lemma drop_one_push {β : Type*} {f : ℕ → β} {c k : ℕ} {pushed : List β} {x : β}
    (hlength : pushed.length = k - c)
    (hpushed : pushed.drop 1 = (List.range' (c + 1) (k - (c + 1))).map f) (hx : c < k → x = f k) :
    (pushed ++ [x]).drop 1 = (List.range' (c + 1) (k + 1 - (c + 1))).map f := by
  rcases Nat.lt_or_ge c k with hlater | hfirst
  · have hrange : List.range' (c + 1) (k + 1 - (c + 1))
        = List.range' (c + 1) (k - (c + 1)) ++ [k] := by
      rw [show k + 1 - (c + 1) = k - (c + 1) + 1 by omega, List.range'_concat, Nat.one_mul,
        Nat.add_sub_cancel' hlater]
    rw [List.drop_append_of_le_length (by omega), hpushed, hrange, List.map_append, hx hlater]
    rfl
  · have hempty : pushed = [] := List.eq_nil_of_length_eq_zero (by omega)
    rw [hempty, Nat.sub_eq_zero_of_le (by omega)]
    rfl

/-- Bits pushed while the polarity is right: from the second one on, they are those transmitted. -/
lemma rdsDemodReceive_locked (ha : 0 < a) (initial rising : Bool) (stray : Option Bool)
    (b : ℕ → Bool) (q : ℕ → K) {w m : ℕ} {state : RdsDemodState K}
    (hstate : Demodulated (biphaseSymbol a rising stray (biphaseLevel initial b)) (128 * (w + 1))
      state)
    (hpolarity : ∀ {n s}, 128 * (w + 1) ≤ n →
      Demodulated (biphaseSymbol a rising stray (biphaseLevel initial b)) n s →
      s.phase.biphaseClockPolarity = biphaseParity stray)
    (hm : 128 * (w + 1) ≤ m) :
    let run := rdsDemodReceive state (symbolsFrom
      (biphaseSymbol a rising stray (biphaseLevel initial b)) q (128 * (w + 1) + 1) (m + 1))
    let k := (m + 1 - biphaseParity stray) / 2
    Demodulated (biphaseSymbol a rising stray (biphaseLevel initial b)) m run.1 ∧
      run.2.length = k - 64 * (w + 1) ∧
      run.2.drop 1 = (List.range' (64 * (w + 1) + 1) (k - (64 * (w + 1) + 1))).map
        (fun i => (b i, a)) ∧
      (64 * (w + 1) < k →
        run.1.phase.prevBiphaseBit = (biphaseLevel initial b (k - 1) == rising)) := by
  have hlt := biphaseParity_lt stray
  induction m, hm using Nat.le_induction with
  | base =>
    have hnone : symbolsFrom (biphaseSymbol a rising stray (biphaseLevel initial b)) q
        (128 * (w + 1) + 1) (128 * (w + 1) + 1) = [] := by
      rw [symbolsFrom, Nat.sub_self]
      rfl
    rw [hnone]
    refine ⟨hstate, ?_, ?_, fun h => ?_⟩
    · rw [rdsDemodReceive, List.length_nil]
      omega
    · rw [Nat.sub_eq_zero_of_le (by omega)]
      rfl
    · omega
  | succ m hm ih =>
    rw [symbolsFrom_succ _ q (by omega : 128 * (w + 1) + 1 ≤ m + 1), rdsDemodReceive_append]
    obtain ⟨hdemodulated, hlength, hbits, hprev⟩ := ih
    generalize rdsDemodReceive state (symbolsFrom _ q (128 * (w + 1) + 1) (m + 1)) = run at *
    obtain ⟨hnext, hbit, hpushed⟩ := hdemodulated.next (q (m + 1))
    rw [hpolarity hm hdemodulated] at hbit hpushed
    rw [hdemodulated.clock.haveBit (by omega)] at hpushed
    simp only [and_true] at hpushed
    dsimp only [rdsDemodReceive]
    rw [hpushed, hbit]
    refine ⟨hnext, ?_⟩
    by_cases hon : m % 2 = biphaseParity stray
    · obtain ⟨k, rfl⟩ : ∃ k, m = 2 * k + biphaseParity stray := ⟨m / 2, by omega⟩
      rw [if_pos hon, if_pos hon, symbolDifference_within, abs_biphaseHalf ha,
        biphaseHalf_nonneg ha]
      rw [show (2 * k + biphaseParity stray + 1 - biphaseParity stray) / 2 = k by omega]
        at hlength hbits hprev
      rw [show (2 * k + biphaseParity stray + 1 + 1 - biphaseParity stray) / 2 = k + 1 by omega]
      refine ⟨?_, ?_, fun _ => rfl⟩
      · rw [List.length_append, hlength, Option.toList_some, List.append_nil, List.length_singleton]
        omega
      · refine drop_one_push hlength hbits fun hlater => ?_
        -- The bit before belongs to the level before.
        obtain ⟨k, rfl⟩ : ∃ n, k = n + 1 := ⟨k - 1, by omega⟩
        rw [hprev hlater, Nat.add_sub_cancel, biphaseLevel_differ]
    · rw [if_neg hon, if_neg hon, show (m + 1 + 1 - biphaseParity stray) / 2
        = (m + 1 - biphaseParity stray) / 2 by omega, Option.toList_none, List.append_nil,
        List.append_nil]
      exact ⟨hlength, hbits, hprev⟩

end

/-! ### The block stream -/

/-- The block stream takes a bit; its events and its group are consumed. -/
def rdsBlockStreamTake (stream : RdsBlockStreamState K) (decoded : Bool × K) :
    RdsBlockStreamState K :=
  let stream := rdsBlockStreamPushBitWithConfidence stream decoded.1 decoded.2
  let stream := (rdsBlockStreamConsumeSyncAcquired stream).1
  let stream := (rdsBlockStreamConsumeSyncLost stream).1
  (rdsDrain stream).1

lemma rdsDemodPushBit_blockStream (state : RdsDemodState K) (bit : Bool) (confidence : K) :
    (rdsDemodPushBit state bit confidence).phase.blockStream
      = rdsBlockStreamTake state.phase.blockStream (bit, confidence) := by
  have hacquired (t : RdsDemodState K) : (rdsDemodTakeSyncAcquired t).phase.blockStream
      = (rdsBlockStreamConsumeSyncAcquired t.phase.blockStream).1 := by
    unfold rdsDemodTakeSyncAcquired rdsDemodActivatePhase
    dsimp only
    split_ifs <;> rfl
  have hlost (t : RdsDemodState K) : (rdsDemodTakeSyncLost t).phase.blockStream
      = (rdsBlockStreamConsumeSyncLost t.phase.blockStream).1 := by
    unfold rdsDemodTakeSyncLost
    dsimp only
    split_ifs <;> rfl
  have hfold (groups : List (RdsGroup K)) (t : RdsDemodState K) :
      (groups.foldl rdsDemodTakeGroup t).phase.blockStream = t.phase.blockStream := by
    induction groups generalizing t with
    | nil => rfl
    | cons group groups ih => exact ih _
  have hgroups (t : RdsDemodState K) : (rdsDemodTakeGroups t).phase.blockStream
      = (rdsDrain t.phase.blockStream).1 := hfold _ _
  rw [rdsDemodPushBit, hgroups, hlost, hacquired]
  rfl

/-- Decoding does not touch the block stream. -/
lemma rdsDecodeSymbol_blockStream (phase : RdsPhaseState K) (symbolI : K) :
    (rdsDecodeSymbol phase symbolI).1.blockStream = phase.blockStream := by
  have hadvance (s : RdsPhaseState K) : (rdsAdvanceBiphaseClock s).blockStream = s.blockStream := by
    unfold rdsAdvanceBiphaseClock
    split_ifs <;> rfl
  unfold rdsDecodeSymbol rdsDecodeBiphaseSymbol
  dsimp only
  split_ifs
  · exact hadvance _
  · exact hadvance _
  · exact hadvance _
  · rfl

lemma rdsDemodProcessSymbolSample_blockStream (state : RdsDemodState K) (symbolI symbolQ : K) :
    (rdsDemodProcessSymbolSample state symbolI symbolQ).1.phase.blockStream
      = (rdsDemodProcessSymbolSample state symbolI symbolQ).2.toList.foldl rdsBlockStreamTake
          state.phase.blockStream := by
  have hstream := rdsDecodeSymbol_blockStream
    { state.phase with phaseScore := state.phase.phaseScore - 1 } symbolI
  rw [rdsDemodProcessSymbolSample]
  generalize rdsDecodeSymbol { state.phase with phaseScore := state.phase.phaseScore - 1 } symbolI
    = decoded at hstream
  obtain ⟨phase, pushed⟩ := decoded
  cases pushed with
  | none => exact hstream
  | some pushed =>
    have hpush := rdsDemodPushBit_blockStream { state with phase } pushed.1 pushed.2
    rw [hstream] at hpush
    exact hpush

/-- The bits that are pushed are all the block stream gets. -/
lemma rdsDemodReceive_blockStream (state : RdsDemodState K) (symbols : List (K × K)) :
    (rdsDemodReceive state symbols).1.phase.blockStream
      = (rdsDemodReceive state symbols).2.foldl rdsBlockStreamTake state.phase.blockStream := by
  induction symbols generalizing state with
  | nil => rfl
  | cons symbol symbols ih =>
    have hsymbol := rdsDemodProcessSymbolSample_blockStream state symbol.1 symbol.2
    have hrest := ih (rdsDemodProcessSymbolSample state symbol.1 symbol.2).1
    rw [hsymbol, ← List.foldl_append] at hrest
    exact hrest

/-- Biphase and differential decoding recovers the bits. After the first clock window with a
difference taken across two levels that differ (window `w` here) the polarity is the transmitter's
parity for the rest of the run, and from the second bit on, the bits pushed are those of the
transmission, each with confidence `a`: after `t` symbols the last of them is that of the last level
sent completely. -/
theorem rdsDemodReceive_biphase [IsStrictOrderedRing K] {a : K} (ha : 0 < a)
    (initial rising : Bool) (stray : Option Bool) (b : ℕ → Bool) (q : ℕ → K) {w t : ℕ}
    (hw : ∃ i, (2 * i + 1 + biphaseParity stray) / 128 = w ∧
      biphaseLevel initial b i ≠ biphaseLevel initial b (i + 1))
    (ht : 128 * (w + 1) < t) :
    let symbols := symbolsFrom (biphaseSymbol a rising stray (biphaseLevel initial b)) q
    let locked := (rdsDemodReceive rdsDemodInit (symbols 0 (128 * (w + 1) + 1))).1
    let run := rdsDemodReceive locked (symbols (128 * (w + 1) + 1) t)
    run.1 = (rdsDemodReceive rdsDemodInit (symbols 0 t)).1 ∧
      run.1.phase.biphaseClockPolarity = biphaseParity stray ∧
      run.1.phase.blockStream = run.2.foldl rdsBlockStreamTake locked.phase.blockStream ∧
      run.2.drop 1 = (List.range' (64 * (w + 1) + 1)
        ((t - biphaseParity stray) / 2 - (64 * (w + 1) + 1))).map fun i => (b i, a) := by
  obtain ⟨i, hi, hchange⟩ := hw
  obtain ⟨m, rfl⟩ : ∃ m, t = m + 1 := ⟨t - 1, by omega⟩
  have hpolarity {n : ℕ} {s : RdsDemodState K} (hn : 128 * (w + 1) ≤ n)
      (hs : Demodulated (biphaseSymbol a rising stray (biphaseLevel initial b)) n s) :
      s.phase.biphaseClockPolarity = biphaseParity stray :=
    hs.polarity ha hchange (by omega)
  obtain ⟨hdemodulated, -, hbits, -⟩ := rdsDemodReceive_locked ha initial rising stray b q
    (rdsDemodReceive_demodulated _ q (128 * (w + 1))) hpolarity (Nat.le_of_lt_succ ht)
  refine ⟨?_, hpolarity (Nat.le_of_lt_succ ht) hdemodulated, rdsDemodReceive_blockStream _ _, hbits⟩
  rw [symbolsFrom_append _ q (Nat.zero_le (128 * (w + 1) + 1)) ht, rdsDemodReceive_append]

/-- With a stray symbol in front, the odd differences are selected; every third bit is set. -/
theorem rdsDemodReceive_biphase_stray :
    let symbols := symbolsFrom (biphaseSymbol (1 : ℚ) true (some true)
      (biphaseLevel false fun i => i % 3 == 1)) fun _ => 0
    let locked := (rdsDemodReceive rdsDemodInit (symbols 0 129)).1
    let run := rdsDemodReceive locked (symbols 129 141)
    run.1.phase.biphaseClockPolarity = 1 ∧
      run.2.drop 1 = [(false, 1), (false, 1), (true, 1), (false, 1), (false, 1)] := by
  obtain ⟨-, hpolarity, -, hbits⟩ := @rdsDemodReceive_biphase ℚ _ _ _ 1 one_pos false true
    (some true) (fun i => i % 3 == 1) (fun _ => 0) 0 141 ⟨0, by decide, by decide⟩ (by decide)
  have hlocked : 128 * (0 + 1) + 1 = 129 := rfl
  rw [hlocked] at hpolarity hbits
  exact ⟨hpolarity.trans rfl, hbits.trans rfl⟩

end Mpxcast
