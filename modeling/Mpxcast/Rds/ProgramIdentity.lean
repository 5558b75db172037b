import Mpxcast.Rds.ErrorCorrection
import Mpxcast.Rds.LockPeriods
import Mpxcast.Rds.Radiotext

/-!
# Programme identification

`rds_parser_process_group` is to let a noisy block 1 change the PI only as long as there is none. A
block that the block stream hands over with errors has been corrected, and corrected blocks are
usable, so every accepted group sets the PI. The PI stays as the source intends on those runs where
corrected blocks repeat it.
-/

namespace Mpxcast

open ShiftRegister

variable {K : Type*} [Field K] [LinearOrder K]

/-! ### Blocks of the block stream -/

/-- A block with errors is only handed over when it has been corrected. -/
lemma rdsBlockOf_usable {o : RdsOffset} {raw : BitVec 32} {confidences : List K}
    {block : RdsBlock K} (h : rdsBlockOf o raw confidences = some block) :
    rdsBlockIsUsableForText block = true := by
  unfold rdsBlockOf at h
  dsimp only at h
  split_ifs at h with hoffset hburst hsoft
  · obtain rfl := Option.some.inj h
    rfl
  · obtain rfl := Option.some.inj h
    simp [rdsBlockIsUsableForText, rdsCorrectBurstErrors_count_pos hburst]
  · obtain rfl := Option.some.inj h
    simp [rdsBlockIsUsableForText, rdsCorrectSoftErrors_count_pos hsoft]

/-- Every received block of every group of a run is usable. -/
lemma rdsReceive_usable {input : List (Bool × K)} {group : RdsGroup K}
    (hgroup : group ∈ (rdsReceive rdsBlockStreamInit input).2) {i : Fin 4}
    (hreceived : (group.blocks i).isReceived = true) :
    rdsBlockIsUsableForText (group.blocks i) = true := by
  rw [rdsReceive_delivered, List.mem_flatMap] at hgroup
  obtain ⟨t, ht, hdelivered⟩ := hgroup
  obtain ⟨a, only, honly, -, hfilled⟩ :=
    exists_lock_of_delivered (List.mem_range.1 ht) (List.ne_nil_of_mem hdelivered)
  obtain rfl : group = only := by simpa [honly] using hdelivered
  obtain ⟨-, p, -, hblock⟩ := hfilled i hreceived
  obtain ⟨o, -, -, hstored⟩ := hblock.stored
  exact rdsBlockOf_usable hstored

/-! ### The PI of the parser -/

/-- The PI and whether there is one. -/
def stationPi (state : RdsParserState K) : Bool × BitVec 16 := (state.info.hasPi, state.info.pi)

lemma stationPi_updatePs (state : RdsParserState K) (block2 block4 : BitVec 16) (quality : K) :
    stationPi (rdsUpdatePs state block2 block4 quality) = stationPi state := by
  unfold rdsUpdatePs
  dsimp only
  rw [apply_ite stationPi]
  exact ite_self _

lemma stationPi_processPsGroup (state : RdsParserState K) (group : RdsGroup K) :
    stationPi (rdsProcessPsGroup state group) = stationPi state := by
  unfold rdsProcessPsGroup
  dsimp only
  rw [apply_ite stationPi, stationPi_updatePs]
  exact ite_self _

omit [LinearOrder K] in
lemma stationPi_updateTextAb (state : RdsParserState K) (ab : Bool) :
    stationPi (rdsUpdateTextAb state ab) = stationPi state := by
  unfold rdsUpdateTextAb
  rw [apply_ite stationPi]
  exact ite_self _

lemma stationPi_updateRadiotextLoop (quality : K) (chars : List UInt8) :
    ∀ (state : RdsParserState K) (position : ℕ),
      stationPi (rdsUpdateRadiotextLoop state position chars quality) = stationPi state := by
  induction chars with
  | nil => exact fun _ _ => rfl
  | cons char chars ih =>
    intro state position
    have hchar : stationPi (rdsUpdateRadiotextChar state position char quality)
        = stationPi state := by
      unfold rdsUpdateRadiotextChar
      dsimp only
      rw [apply_ite stationPi]
      exact ite_self _
    rw [rdsUpdateRadiotextLoop, apply_ite stationPi, ih, hchar, ite_self]

lemma stationPi_processRadiotextGroup (state : RdsParserState K) (group : RdsGroup K) :
    stationPi (rdsProcessRadiotextGroup state group) = stationPi state := by
  rw [rdsProcessRadiotextGroup_eq, apply_ite stationPi, stationPi_updateTextAb]
  have hchars : stationPi (rdsUpdateRadiotextChars (rdsUpdateTextAb state (groupAb group))
      (textPosition group) (textChars group) (textQuality group)) = stationPi state :=
    (stationPi_updateRadiotextLoop _ _ _ _).trans (stationPi_updateTextAb state _)
  rw [hchars, ite_self]

/-- Only an accepted group sets the PI, and its other parts leave it alone. -/
lemma stationPi_processGroup (state : RdsParserState K) (group : RdsGroup K) :
    stationPi (rdsParserProcessGroup state group).1 =
      if rdsGroupIsAccepted group = true then stationPi (rdsUpdateStation state group)
      else stationPi state := by
  unfold rdsParserProcessGroup
  cases rdsGroupIsAccepted group with
  | false => rfl
  | true =>
    have hreport (s : RdsParserState K) (count : ℕ) :
        stationPi (rdsReport s count).1 = stationPi s := rfl
    simp only [Bool.not_true, Bool.false_eq_true, if_false, if_true, hreport,
      apply_ite stationPi, stationPi_processRadiotextGroup, stationPi_processPsGroup, ite_self]

/-! ### The PI of a run -/

/-- The data of block 1 of the last group that was accepted. -/
def lastAcceptedPi (groups : List (RdsGroup K)) : Option (BitVec 16) :=
  ((groups.filter rdsGroupIsAccepted).getLast?).map fun group => (group.blocks 0).data

/-- The PI does what the source says: a noisy block 1 does not change a PI that is there, and only a
block 1 without errors does. -/
def PiGuarded (groups : List (RdsGroup K)) : Prop :=
  ∀ n (hn : n < groups.length),
    let state := rdsParserRun rdsParserInit (groups.take n)
    let state' := (rdsParserProcessGroup state groups[n]).1
    state.info.hasPi = true →
      ((groups[n].blocks 0).isReceived = true → (groups[n].blocks 0).hadErrors = true →
        state'.info.pi = state.info.pi) ∧
      (state'.info.pi ≠ state.info.pi →
        (groups[n].blocks 0).isReceived = true ∧ (groups[n].blocks 0).hadErrors = false)

/-- When received blocks are usable, the PI is that of the last accepted group. -/
lemma stationPi_run (groups : List (RdsGroup K))
    (husable : ∀ group ∈ groups, (group.blocks 0).isReceived = true →
      rdsBlockIsUsableForText (group.blocks 0) = true) :
    stationPi (rdsParserRun rdsParserInit groups) =
      ((lastAcceptedPi groups).isSome, (lastAcceptedPi groups).getD 0) := by
  induction groups using List.reverseRecOn with
  | nil => rfl
  | append_singleton groups group ih =>
    have hstep := stationPi_processGroup (rdsParserRun rdsParserInit groups) group
    rw [rdsParserRun_concat, hstep, lastAcceptedPi, List.filter_append]
    cases haccepted : rdsGroupIsAccepted group with
    | false =>
      rw [if_neg Bool.false_ne_true, ih fun g hg => husable g (List.mem_append_left _ hg)]
      simp [haccepted, lastAcceptedPi]
    | true =>
      have hreceived : (group.blocks 0).isReceived = true :=
        (Bool.and_eq_true_iff.1 haccepted).1
      have hlast : group ∈ groups ++ [group] :=
        List.mem_append_right _ (List.mem_singleton_self group)
      have hblock := husable group hlast hreceived
      simp [haccepted, stationPi, rdsUpdateStation, hblock]

/-- In a run, the PI is guarded if and only if a corrected block 1 repeats the PI of the accepted
group before it. -/
theorem rdsParser_piGuarded_iff (input : List (Bool × K)) :
    PiGuarded (rdsReceive rdsBlockStreamInit input).2 ↔
      ∀ n (hn : n < (rdsReceive rdsBlockStreamInit input).2.length),
        rdsGroupIsAccepted (rdsReceive rdsBlockStreamInit input).2[n] = true →
        ((rdsReceive rdsBlockStreamInit input).2[n].blocks 0).hadErrors = true →
        ∀ pi ∈ lastAcceptedPi ((rdsReceive rdsBlockStreamInit input).2.take n),
          ((rdsReceive rdsBlockStreamInit input).2[n].blocks 0).data = pi := by
  have husable (group : RdsGroup K) (hgroup : group ∈ (rdsReceive rdsBlockStreamInit input).2)
      (hreceived : (group.blocks 0).isReceived = true) :
      rdsBlockIsUsableForText (group.blocks 0) = true := rdsReceive_usable hgroup hreceived
  generalize (rdsReceive rdsBlockStreamInit input).2 = groups at husable ⊢
  refine forall₂_congr fun n hn => ?_
  have hblock := husable groups[n] (List.getElem_mem hn)
  obtain ⟨hhas, hpi⟩ := Prod.mk.inj (stationPi_run (groups.take n) fun group hgroup =>
    husable group (List.mem_of_mem_take hgroup))
  have hstep := stationPi_processGroup (rdsParserRun rdsParserInit (groups.take n)) groups[n]
  dsimp only
  rw [hhas, hpi]
  cases hlast : lastAcceptedPi (groups.take n) with
  | none => simp
  | some pi =>
    cases haccepted : rdsGroupIsAccepted groups[n] with
    | false =>
      rw [haccepted, if_neg Bool.false_ne_true] at hstep
      have hkept := (Prod.mk.inj hstep).2
      simp [hkept, hpi, hlast]
    | true =>
      have hreceived : (groups[n].blocks 0).isReceived = true :=
        (Bool.and_eq_true_iff.1 haccepted).1
      rw [haccepted, if_pos rfl] at hstep
      have hset := (Prod.mk.inj hstep).2
      simp only [rdsUpdateStation, hblock hreceived, Bool.true_or, if_true] at hset
      rw [hset, hreceived]
      cases (groups[n].blocks 0).hadErrors <;> simp

/-- Blocks B, C and D acquire sync, a clean group sets the PI to `0x3202`, and in the group after it
a block 1 with the PI `0x3203` arrives with one wrong bit. -/
def noisyPiInput : List (Bool × ℚ) :=
  unweighted (txBits 1 [radiotextGroup, radiotextGroup] ++ bits 14159659#26 ++
    txBits 1 [radiotextGroup])

lemma noisyPiInput_groups : 2 < (rdsReceive rdsBlockStreamInit noisyPiInput).2.length := by
  decide +kernel

/-- The corrected block 1 changes the PI. -/
theorem rdsParser_not_piGuarded : ¬ PiGuarded (rdsReceive rdsBlockStreamInit noisyPiInput).2 := by
  intro h
  have hkept := (h 2 noisyPiInput_groups (by decide +kernel)).1 (by decide +kernel)
    (by decide +kernel)
  exact absurd hkept (by decide +kernel)

end Mpxcast
