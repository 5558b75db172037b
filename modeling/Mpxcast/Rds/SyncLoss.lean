import Mpxcast.Rds.LockPeriods

/-!
# Loss of sync

The ring of recent block errors is cleared when sync is acquired and when it is lost, so within a
lock period it counts the errors of that period only: the number of blocks with errors among the
last fifty processed. Sync is lost at the block with which that number exceeds 35, and nowhere else.
-/

namespace Mpxcast

open ShiftRegister SlidingCount

variable {K : Type*} [Field K] [LinearOrder K]

/-! ### Judging a block -/

/-- The state in which the window that ends with bit `t` is judged: `rds_acquire_sync` has been
called on the shifted state. -/
def rdsJudgedAt (input : List (Bool × K)) (t : ℕ) : RdsBlockStreamState K :=
  match input[t - 1]? with
  | some (bit, confidence) =>
    let s := rdsShiftBit (rdsStateAt input (t - 1)) bit confidence
    rdsAcquireSync s (rdsRegisterOffset s) s.bitCount
  | none => rdsStateAt input (t - 1)

/-- `had_errors` of the block that ends with bit `t`. -/
def rdsHadErrorsAt (input : List (Bool × K)) (t : ℕ) : Bool :=
  rdsRegisterOffset (rdsJudgedAt input t) ≠ rdsSlotOffset (rdsJudgedAt input t)

/-- The number of blocks with errors among the last `min 50 n` of the first `n` blocks of the lock
period that starts with bit `a`. -/
def rdsRecentErrors (input : List (Bool × K)) (a n : ℕ) : ℕ :=
  (List.range' (n - min 50 n) (min 50 n)).countP fun j => rdsHadErrorsAt input (a + 26 * j)

/-- The errors of the first `n` blocks of a lock period, newest first. -/
def rdsErrorsSince (input : List (Bool × K)) (a : ℕ) : ℕ → List Bool
  | 0 => []
  | n + 1 => rdsHadErrorsAt input (a + 26 * n) :: rdsErrorsSince input a n

variable {input : List (Bool × K)} {a t : ℕ}

lemma rdsErrorsSince_length (input : List (Bool × K)) (a n : ℕ) :
    (rdsErrorsSince input a n).length = n := by
  induction n with
  | zero => rfl
  | succ n ih => rw [rdsErrorsSince, List.length_cons, ih]

lemma rdsErrorsSince_getElem? (input : List (Bool × K)) (a : ℕ) {n i : ℕ} (hi : i < n) :
    (rdsErrorsSince input a n)[i]? = some (rdsHadErrorsAt input (a + 26 * (n - 1 - i))) := by
  induction n generalizing i with
  | zero => exact absurd hi (Nat.not_lt_zero i)
  | succ n ih =>
    cases i with
    | zero => rfl
    | succ i =>
      have hprev := ih (Nat.lt_of_succ_lt_succ hi)
      rw [rdsErrorsSince, List.getElem?_cons_succ, hprev, Nat.sub_sub, Nat.add_comm 1 i]
      rfl

/-- The window of the ring is the window of the last blocks. -/
lemma recent_rdsErrorsSince (input : List (Bool × K)) (a n : ℕ) :
    recent 50 (rdsErrorsSince input a n) = rdsRecentErrors input a n := by
  have htake : (rdsErrorsSince input a n).take 50
      = ((List.range' (n - min 50 n) (min 50 n)).map fun j =>
          rdsHadErrorsAt input (a + 26 * j)).reverse := by
    refine List.ext_getElem? fun i => ?_
    rw [List.getElem?_take]
    split_ifs with hi
    · rcases Nat.lt_or_ge i n with hlt | hge
      · rw [rdsErrorsSince_getElem? input a hlt, List.getElem?_reverse (by simp; omega)]
        simp only [List.length_map, List.length_range', List.getElem?_map]
        rw [List.getElem?_range' (by omega)]
        simp only [Option.map_some, Nat.one_mul]
        congr 4
        omega
      · rw [List.getElem?_eq_none (by rw [rdsErrorsSince_length]; exact hge),
          List.getElem?_eq_none (by simp; omega)]
    · rw [List.getElem?_eq_none (by simp; omega)]
  rw [recent, htake, List.count_reverse, rdsRecentErrors, List.count_eq_countP, List.countP_map]
  refine congrArg (fun p => List.countP p _) (funext fun j => ?_)
  simp

/-! ### The ring in a run -/

lemma rdsJudgedAt_succ (ht : t < input.length) :
    rdsJudgedAt input (t + 1) =
      let s := rdsShiftBit (rdsStateAt input t) input[t].1 input[t].2
      rdsAcquireSync s (rdsRegisterOffset s) s.bitCount := by
  rw [rdsJudgedAt, Nat.add_sub_cancel, List.getElem?_eq_getElem ht]

omit [LinearOrder K] in
lemma rdsAcquireSync_sameRegisters (s : RdsBlockStreamState K) (o : RdsOffset) :
    SameRegisters s (rdsAcquireSync s o s.bitCount) := by
  rw [rdsAcquireSync_cases]
  split_ifs
  · exact ⟨rfl, rfl, rfl⟩
  · exact ⟨rfl, rfl, rfl⟩
  · exact ⟨rfl, rfl, rfl⟩
  · exact ⟨rfl, rfl, rfl⟩

omit [Field K] [LinearOrder K] in
/-- Draining takes the group and nothing else. -/
lemma rdsDrain_same (s : RdsBlockStreamState K) :
    (rdsDrain s).1.isInSync = s.isInSync ∧ errorRing (rdsDrain s).1 = errorRing s := by
  unfold rdsDrain
  split_ifs
  · exact ⟨rfl, rfl⟩
  · exact ⟨rfl, rfl⟩

/-- The window that is due is judged: one error too many clears the ring and loses sync, any other
block enters the ring. -/
lemma rdsStateAt_judged (ht : t < input.length)
    (hdue : (rdsStateAt input t).bitsUntilNextBlock = 1)
    (hsync : (rdsJudgedAt input (t + 1)).isInSync = true) {history : List Bool}
    (hhistory : ErrorHistory (rdsJudgedAt input (t + 1)) history) :
    if rdsMaxErrorsToleratedOver50Blocks <
        recent 50 (rdsHadErrorsAt input (t + 1) :: history) then
      (rdsStateAt input (t + 1)).isInSync = false ∧ ErrorHistory (rdsStateAt input (t + 1)) []
    else
      (rdsStateAt input (t + 1)).isInSync = true ∧
        ErrorHistory (rdsStateAt input (t + 1)) (rdsHadErrorsAt input (t + 1) :: history) := by
  have hsum := (rdsCountBlock_errors hhistory).sum_eq
  have hstate : rdsStateAt input (t + 1) = _ :=
    (rdsStateAt_succ ht).trans (congrArg Prod.fst (rdsReceive_find hdue input[t].1 input[t].2))
  have hfind := rdsFindBlockInRegister_eq (rdsJudgedAt_succ ht).symm hsync
    (rdsJudgedAt_succ ht ▸ rdsAcquireSync_sameRegisters _ _)
  have hblock := rdsFindBlockInRegister_inSync (rdsJudgedAt_succ ht).symm hsync
    (rdsJudgedAt_succ ht ▸ rdsAcquireSync_sameRegisters _ _)
  rw [hsum] at hfind hblock
  obtain ⟨hinSync, hring⟩ := rdsDrain_same
    { rdsFindBlockInRegister (rdsShiftBit (rdsStateAt input t) input[t].1 input[t].2) with
      bitsUntilNextBlock := if (rdsFindBlockInRegister
        (rdsShiftBit (rdsStateAt input t) input[t].1 input[t].2)).isInSync
          then BitVec.ofNat 32 rdsBlockLength else 1 }
  rw [← hstate] at hinSync hring
  rw [ErrorHistory, ErrorHistory, hinSync, hring]
  have hflag : rdsHadErrorsAt input (t + 1) = decide (rdsRegisterOffset (rdsJudgedAt input (t + 1))
      ≠ rdsSlotOffset (rdsJudgedAt input (t + 1))) := rfl
  rw [← hflag] at hfind hblock
  by_cases hmany : rdsMaxErrorsToleratedOver50Blocks <
      recent 50 (rdsHadErrorsAt input (t + 1) :: history)
  · rw [if_pos hmany] at hfind ⊢
    rw [hfind]
    exact ⟨rfl, SlidingCount.Ring.represents_empty 50⟩
  · rw [if_neg hmany] at hblock ⊢
    exact ⟨hblock.sync, hblock.errors history hhistory⟩

/-- A window that does not lead to sync leaves the ring alone. -/
lemma rdsStateAt_searching (ht : t < input.length)
    (hdue : (rdsStateAt input t).bitsUntilNextBlock = 1)
    (hsync : (rdsJudgedAt input (t + 1)).isInSync = false) :
    (rdsStateAt input (t + 1)).isInSync = false ∧
      errorRing (rdsStateAt input (t + 1)) = errorRing (rdsJudgedAt input (t + 1)) := by
  have hstate := (rdsStateAt_succ ht).trans
    (congrArg Prod.fst (rdsReceive_find hdue input[t].1 input[t].2))
  rw [rdsFindBlockInRegister_searching (rdsJudgedAt_succ ht).symm hsync] at hstate
  obtain ⟨hinSync, hring⟩ := rdsDrain_same { rdsJudgedAt input (t + 1) with
    bitsUntilNextBlock := if (rdsJudgedAt input (t + 1)).isInSync
      then BitVec.ofNat 32 rdsBlockLength else 1 }
  rw [← hstate] at hinSync hring
  exact ⟨hinSync.trans hsync, hring⟩

/-- Sync that is held is not acquired again. -/
lemma rdsJudgedAt_inSync (ht : t < input.length) (hsync : (rdsStateAt input t).isInSync = true) :
    (rdsJudgedAt input (t + 1)).isInSync = true ∧
      errorRing (rdsJudgedAt input (t + 1)) = errorRing (rdsStateAt input t) := by
  have hjudged : rdsJudgedAt input (t + 1)
      = rdsShiftBit (rdsStateAt input t) input[t].1 input[t].2 := by
    rw [rdsJudgedAt_succ ht]
    exact if_pos hsync
  rw [hjudged]
  exact ⟨hsync, rfl⟩

/-- Acquiring sync clears the ring, a pulse that does not complete a sequence leaves it alone. -/
lemma rdsJudgedAt_searching (ht : t < input.length)
    (hsync : (rdsStateAt input t).isInSync = false)
    (hring : ErrorHistory (rdsStateAt input t) []) :
    ErrorHistory (rdsJudgedAt input (t + 1)) [] ∧
      ((rdsJudgedAt input (t + 1)).isInSync = true → rdsHadErrorsAt input (t + 1) = false) := by
  have hunsynced : (rdsShiftBit (rdsStateAt input t) input[t].1 input[t].2).isInSync = false :=
    hsync
  have hshifted : ErrorHistory (rdsShiftBit (rdsStateAt input t) input[t].1 input[t].2) [] := hring
  have hjudged := rdsJudgedAt_succ ht
  unfold rdsHadErrorsAt
  generalize rdsShiftBit (rdsStateAt input t) input[t].1 input[t].2 = s at *
  dsimp only at hjudged
  rw [rdsAcquireSync_cases, if_neg (by simp [hunsynced])] at hjudged
  rw [hjudged]
  split_ifs with ho hfound
  · exact ⟨hshifted, fun h => absurd (h.symm.trans hunsynced) Bool.false_ne_true.symm⟩
  · refine ⟨SlidingCount.Ring.represents_empty 50, fun _ => ?_⟩
    have hslot : rdsSlotOffset (rdsAcquired s) = rdsRegisterOffset (rdsAcquired s) :=
      rdsSlotOffset_acquired s
    exact decide_eq_false (not_not_intro hslot.symm)
  · exact ⟨hshifted, fun h => absurd (h.symm.trans hunsynced) Bool.false_ne_true.symm⟩

/-- Out of sync the ring is empty; within a lock period it holds the errors of its blocks. -/
lemma rdsStateAt_errorHistory (ht : t ≤ input.length) :
    ((rdsStateAt input t).isInSync = false → ErrorHistory (rdsStateAt input t) []) ∧
      ∀ a, RdsLock input a t →
        ErrorHistory (rdsStateAt input t) (rdsErrorsSince input a ((t - a) / 26 + 1)) := by
  induction t with
  | zero =>
    refine ⟨fun _ => SlidingCount.Ring.represents_empty 50, fun a hlock => ?_⟩
    exact absurd hlock.le (not_le.2 hlock.pos)
  | succ t ih =>
    obtain ⟨hsearching, hlocks⟩ := ih (Nat.le_of_succ_le ht)
    obtain ⟨ps, hrun⟩ := exists_rdsRun (Nat.le_of_succ_le ht)
    have hkept {a b : ℕ} (hlock : RdsLock input a t) (hlock' : RdsLock input b (t + 1)) : b = a :=
      hlock'.start_eq (v := t + 1) (hlock.extend (hlock'.held _ hlock'.le le_rfl)) le_rfl le_rfl
        hlock'.le (Nat.le_succ_of_le hlock.le)
    rcases hrun.phase with hsearch | ⟨a, k, r, hlocked, -⟩
    · obtain ⟨hring, hclean⟩ :=
        rdsJudgedAt_searching ht hsearch.unsynced (hsearching hsearch.unsynced)
      cases hsync : (rdsJudgedAt input (t + 1)).isInSync with
      | false =>
        obtain ⟨hunsynced, hsame⟩ := rdsStateAt_searching ht hsearch.bits hsync
        rw [ErrorHistory, hsame]
        refine ⟨fun _ => hring, fun a hlock => ?_⟩
        exact absurd (hunsynced.symm.trans (hlock.held _ hlock.le le_rfl)) Bool.false_ne_true
      | true =>
        have hjudged := rdsStateAt_judged ht hsearch.bits hsync hring
        rw [hclean hsync, if_neg (by decide)] at hjudged
        obtain ⟨hsynced, herrors⟩ := hjudged
        refine ⟨fun h => absurd (h.symm.trans hsynced) Bool.false_ne_true, fun a hlock => ?_⟩
        have hstart : a = t + 1 := by
          by_contra hne
          have hle := hlock.le
          have hheld := hlock.held t (by omega) (Nat.le_succ t)
          exact absurd (hsearch.unsynced.symm.trans hheld) Bool.false_ne_true
        rw [hstart, Nat.sub_self, ← hclean hsync] at *
        exact herrors
    · have heq := hlocked.eq
      have hbefore := hlocks a hlocked.lock
      rcases (Nat.le_of_lt_succ hlocked.lt).lt_or_eq with hlt | rfl
      · obtain ⟨hstate, -⟩ := hlocked.wait hrun.drained ht (by omega)
        have hheld := hlocked.lock.held t hlocked.lock.le le_rfl
        rw [hstate]
        refine ⟨fun h => absurd (h.symm.trans hheld) Bool.false_ne_true, fun b hlock => ?_⟩
        rw [hkept hlocked.lock hlock, show (t + 1 - a) / 26 = (t - a) / 26 by omega]
        exact hbefore
      · obtain ⟨hsync, hsame⟩ :=
          rdsJudgedAt_inSync ht (hlocked.lock.held t hlocked.lock.le le_rfl)
        rw [ErrorHistory, ← hsame] at hbefore
        have hjudged := rdsStateAt_judged ht hlocked.bits hsync hbefore
        split_ifs at hjudged with hmany
        · refine ⟨fun _ => hjudged.2, fun b hlock => ?_⟩
          exact absurd (hjudged.1.symm.trans (hlock.held _ hlock.le le_rfl)) Bool.false_ne_true
        · refine ⟨fun h => absurd (h.symm.trans hjudged.1) Bool.false_ne_true, fun b hlock => ?_⟩
          rw [hkept hlocked.lock hlock, show (t + 1 - a) / 26 = (t - a) / 26 + 1 by omega,
            rdsErrorsSince, show a + 26 * ((t - a) / 26 + 1) = t + 1 by omega]
          exact hjudged.2

/-- In every state of a run the ring represents some history. -/
lemma exists_errorHistory (ht : t ≤ input.length) :
    ∃ history, ErrorHistory (rdsStateAt input t) history := by
  obtain ⟨hsearching, hlocks⟩ := rdsStateAt_errorHistory ht
  obtain ⟨ps, hrun⟩ := exists_rdsRun ht
  rcases hrun.phase with hsearch | ⟨a, k, r, hlocked, -⟩
  · exact ⟨[], hsearching hsearch.unsynced⟩
  · exact ⟨_, hlocks a hlocked.lock⟩

/-- So does the state in which a block is judged. -/
lemma exists_errorHistory_judged (ht : t < input.length) :
    ∃ history, ErrorHistory (rdsJudgedAt input (t + 1)) history := by
  cases hsync : (rdsStateAt input t).isInSync with
  | false =>
    have hring := (rdsStateAt_errorHistory ht.le).1 hsync
    exact ⟨[], (rdsJudgedAt_searching ht hsync hring).1⟩
  | true =>
    obtain ⟨history, hhistory⟩ := exists_errorHistory ht.le
    obtain ⟨-, hsame⟩ := rdsJudgedAt_inSync ht hsync
    rw [ErrorHistory, ← hsame] at hhistory
    exact ⟨history, hhistory⟩

omit [Field K] [LinearOrder K] in
/-- The bounds of the ring. -/
lemma ErrorHistory.bounds {s : RdsBlockStreamState K} {history : List Bool}
    (h : ErrorHistory s history) :
    s.recentBlockErrorsPos < 50 ∧ s.recentBlockErrorsCount ≤ 50 := by
  have hpos : s.recentBlockErrorsPos = history.length % 50 := SlidingCount.Ring.Represents.pos_eq h
  have hcount : s.recentBlockErrorsCount = min 50 history.length :=
    SlidingCount.Ring.Represents.count_eq h
  omega

/-- Blocks end 26 bits apart, and the one with too many errors is the last of its lock period. -/
lemma RdsLock.lost_iff (h : RdsLock input a t) (ht : t < input.length) :
    ((rdsStateAt input t).bitsUntilNextBlock = 1 ↔ 26 ∣ t + 1 - a) ∧
      ((rdsStateAt input (t + 1)).isInSync = false ↔ ∃ n, t + 1 = a + 26 * n ∧
        rdsMaxErrorsToleratedOver50Blocks < rdsRecentErrors input a (n + 1)) := by
  obtain ⟨ps, hrun⟩ := exists_rdsRun ht.le
  have hheld := h.held t h.le le_rfl
  rcases hrun.phase with hsearch | ⟨b, k, r, hlocked, -⟩
  · exact absurd (hsearch.unsynced.symm.trans hheld) Bool.false_ne_true
  · obtain rfl : a = b := h.start_eq hlocked.lock le_rfl le_rfl h.le hlocked.lock.le
    have heq := hlocked.eq
    have hlt := hlocked.lt
    have hdue : (rdsStateAt input t).bitsUntilNextBlock = 1 ↔ r = 25 := by
      rw [hlocked.bits, ← BitVec.toNat_inj]
      simp
      omega
    refine ⟨hdue.trans (by omega), ?_⟩
    rcases (Nat.le_of_lt_succ hlt).lt_or_eq with hinside | rfl
    · have hstate := (hlocked.wait hrun.drained ht (by omega)).1
      have hsynced : (rdsStateAt input (t + 1)).isInSync = true := by
        rw [hstate]
        exact hheld
      constructor
      · exact fun hlost => absurd (hlost.symm.trans hsynced) Bool.false_ne_true
      · rintro ⟨n, hn, -⟩
        omega
    · obtain ⟨hsync, hsame⟩ := rdsJudgedAt_inSync ht hheld
      have hring := (rdsStateAt_errorHistory ht.le).2 a h
      rw [ErrorHistory, ← hsame] at hring
      have hjudged := rdsStateAt_judged ht hlocked.bits hsync hring
      have hcount : recent 50
          (rdsHadErrorsAt input (t + 1) :: rdsErrorsSince input a ((t - a) / 26 + 1))
            = rdsRecentErrors input a (k + 1 + 1) := by
        rw [show (t - a) / 26 + 1 = k + 1 by omega, show t + 1 = a + 26 * (k + 1) by omega,
          ← recent_rdsErrorsSince]
        rfl
      rw [hcount] at hjudged
      constructor
      · intro hlost
        refine ⟨k + 1, by omega, ?_⟩
        by_contra hfew
        rw [if_neg hfew] at hjudged
        exact absurd (hlost.symm.trans hjudged.1) Bool.false_ne_true
      · rintro ⟨n, hn, hmany⟩
        obtain rfl : n = k + 1 := by omega
        rw [if_pos hmany] at hjudged
        exact hjudged.1

/-- The sync-loss window. In sync, the sum is the number of blocks with errors among the last
`min 50 n` of the `n` blocks that ended since sync was acquired, the first of them with the
acquiring bit `a` itself; the indices stay in range and nothing is subtracted that was not added;
and sync is lost exactly at the end of a block with which that number exceeds 35. -/
theorem rdsStateAt_syncLossWindow (input : List (Bool × K)) :
    (∀ t ≤ input.length, (rdsStateAt input t).isInSync = true → ∃ a, RdsLock input a t) ∧
    (∀ t ≤ input.length, ∀ a, RdsLock input a t →
      (rdsStateAt input t).recentBlockErrorSum
        = rdsRecentErrors input a ((t - a) / 26 + 1)) ∧
    (∀ t ≤ input.length, (rdsStateAt input t).recentBlockErrorsPos < 50 ∧
      (rdsStateAt input t).recentBlockErrorsCount ≤ 50) ∧
    (∀ t < input.length, (rdsJudgedAt input (t + 1)).recentBlockErrorsCount = 50 →
      ((rdsJudgedAt input (t + 1)).recentBlockErrors.getD
        (rdsJudgedAt input (t + 1)).recentBlockErrorsPos false).toNat
          ≤ (rdsJudgedAt input (t + 1)).recentBlockErrorSum) ∧
    (∀ t < input.length, ∀ a, RdsLock input a t →
      ((rdsStateAt input t).bitsUntilNextBlock = 1 ↔ 26 ∣ t + 1 - a) ∧
      ((rdsStateAt input (t + 1)).isInSync = false ↔
        ∃ n, t + 1 = a + 26 * n ∧ 35 < rdsRecentErrors input a (n + 1))) ∧
    (∀ t < input.length, (rdsStateAt input t).isInSync = false →
      (rdsJudgedAt input (t + 1)).isInSync = true →
        RdsLock input (t + 1) (t + 1) ∧ rdsRecentErrors input (t + 1) 1 = 0) := by
  refine ⟨fun t ht hsync => ?_, fun t ht a hlock => ?_, fun t ht => ?_, fun t ht hfull => ?_,
    fun t ht a hlock => hlock.lost_iff ht, fun t ht hbefore hsync => ?_⟩
  · obtain ⟨ps, hrun⟩ := exists_rdsRun ht
    rcases hrun.phase with hsearch | ⟨a, k, r, hlocked, -⟩
    · exact absurd (hsearch.unsynced.symm.trans hsync) Bool.false_ne_true
    · exact ⟨a, hlocked.lock⟩
  · rw [← recent_rdsErrorsSince]
    exact ((rdsStateAt_errorHistory ht).2 a hlock).sum_eq
  · obtain ⟨history, hhistory⟩ := exists_errorHistory ht
    exact hhistory.bounds
  · obtain ⟨history, hhistory⟩ := exists_errorHistory_judged ht
    exact SlidingCount.Ring.Represents.oldest_le hhistory hfull
  · obtain ⟨ps, hrun⟩ := exists_rdsRun ht.le
    have hsearch : Searching input t ps := by
      rcases hrun.phase with hsearch | ⟨a, k, r, hlocked, -⟩
      · exact hsearch
      · have hheld := hlocked.lock.held t hlocked.lock.le le_rfl
        exact absurd (hbefore.symm.trans hheld) Bool.false_ne_true
    obtain ⟨hring, hclean⟩ :=
      rdsJudgedAt_searching ht hbefore ((rdsStateAt_errorHistory ht.le).1 hbefore)
    have hjudged := rdsStateAt_judged ht hsearch.bits hsync hring
    rw [hclean hsync, if_neg (by decide)] at hjudged
    refine ⟨⟨Nat.succ_pos t, le_rfl, hbefore, fun u hu hut => ?_⟩, ?_⟩
    · obtain rfl : u = t + 1 := le_antisymm hut hu
      exact hjudged.1
    · rw [← recent_rdsErrorsSince, rdsErrorsSince, Nat.mul_zero, Nat.add_zero, hclean hsync]
      rfl

end Mpxcast
