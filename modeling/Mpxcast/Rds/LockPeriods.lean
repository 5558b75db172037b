import Mpxcast.Core.RecentWindow
import Mpxcast.Rds.BitSteps

/-!
# Lock periods

Whole runs of the block stream, bit by bit. A lock period starts at the bit that completes the third
of three matching pulses and ends when too many recent blocks had errors; within it a block is
processed every 26 bits and a group is handed over after every fourth slot. Groups are made of the
windows of one lock period, and what was found before a lock plays no part in the next one.
-/

namespace Mpxcast

open ShiftRegister SlidingCount RecentWindow

variable {K : Type*} [Field K] [LinearOrder K]

/-! ### Runs -/

/-- The receiver after `t` bits. -/
def rdsStateAt (input : List (Bool × K)) (t : ℕ) : RdsBlockStreamState K :=
  (rdsReceive rdsBlockStreamInit (input.take t)).1

/-- The groups handed over after bit `t`; bits are counted from 1. -/
def rdsDeliveredAt (input : List (Bool × K)) (t : ℕ) : List (RdsGroup K) :=
  (rdsReceive (rdsStateAt input (t - 1)) ((input.take t).drop (t - 1))).2

/-- The 26 bits that end with bit `t`. -/
def rdsWindowAt (input : List (Bool × K)) (t : ℕ) : BitVec 26 :=
  feed 0 ((input.take t).map Prod.fst)

/-- The confidences of the 26 bits that end with bit `t`. -/
def rdsConfidencesAt (input : List (Bool × K)) (t : ℕ) : List K :=
  window rdsBlockLength 0 ((input.take t).map Prod.snd)

variable {input : List (Bool × K)} {t : ℕ}

omit [Field K] [LinearOrder K] in
lemma take_succ_eq (ht : t < input.length) : input.take (t + 1) = input.take t ++ [input[t]] :=
  (List.take_append_getElem ht).symm

lemma rdsStateAt_succ (ht : t < input.length) :
    rdsStateAt input (t + 1) = (rdsReceive (rdsStateAt input t) [input[t]]).1 := by
  rw [rdsStateAt, take_succ_eq ht, rdsReceive_append]
  rfl

lemma rdsDeliveredAt_succ (ht : t < input.length) :
    rdsDeliveredAt input (t + 1) = (rdsReceive (rdsStateAt input t) [input[t]]).2 := by
  have hdrop : (input.take (t + 1)).drop t = [input[t]] := by
    rw [take_succ_eq ht, List.drop_left' (List.length_take_of_le ht.le)]
  rw [rdsDeliveredAt, Nat.add_sub_cancel, hdrop]

/-- What the run hands over is what it hands over bit by bit. -/
lemma rdsReceive_delivered (input : List (Bool × K)) :
    (rdsReceive rdsBlockStreamInit input).2
      = (List.range input.length).flatMap fun t => rdsDeliveredAt input (t + 1) := by
  suffices h : ∀ n ≤ input.length, (rdsReceive rdsBlockStreamInit (input.take n)).2
      = (List.range n).flatMap fun t => rdsDeliveredAt input (t + 1) by
    simpa using h input.length le_rfl
  intro n
  induction n with
  | zero => exact fun _ => rfl
  | succ n ih =>
    intro hn
    rw [take_succ_eq hn, rdsReceive_append, ih (Nat.le_of_lt hn), List.range_succ,
      List.flatMap_append, List.flatMap_singleton, rdsDeliveredAt_succ hn]
    rfl

/-- The registers show the last bits of the input. -/
structure FollowsInput (input : List (Bool × K)) (t : ℕ) (s : RdsBlockStreamState K) : Prop where
  register : s.inputRegister = feed 0 ((input.take t).map Prod.fst)
  confidences : s.inputConfidenceRegister = rdsConfidencesAt input t
  count : s.bitCount = BitVec.ofNat 32 t

omit [LinearOrder K] in
lemma followsInput_init : FollowsInput input 0 (rdsBlockStreamInit : RdsBlockStreamState K) where
  register := by simp [rdsBlockStreamInit]
  confidences := by simp [rdsBlockStreamInit, rdsConfidencesAt]
  count := rfl

omit [LinearOrder K] in
lemma FollowsInput.shift {s : RdsBlockStreamState K} (h : FollowsInput input t s)
    (ht : t < input.length) :
    FollowsInput input (t + 1) (rdsShiftBit s input[t].1 input[t].2) where
  register := by
    rw [take_succ_eq ht, List.map_append, List.map_singleton, feed_append, ← h.register]
    rfl
  confidences := by
    rw [rdsConfidencesAt, take_succ_eq ht, List.map_append, List.map_singleton,
      ← window_push (by decide : 0 < rdsBlockLength)]
    exact congrArg (fun cs => cs.tail ++ [input[t].2]) h.confidences
  count := by
    have hcount : (rdsShiftBit s input[t].1 input[t].2).bitCount = s.bitCount + 1 := rfl
    rw [hcount, h.count, BitVec.ofNat_add]
    rfl

omit [LinearOrder K] in
lemma FollowsInput.congr {s u : RdsBlockStreamState K} (h : FollowsInput input t s)
    (hsame : SameRegisters s u) : FollowsInput input t u where
  register := hsame.register.trans h.register
  confidences := hsame.confidences.trans h.confidences
  count := hsame.count.trans h.count

omit [LinearOrder K] in
/-- The word in the register. -/
lemma FollowsInput.word {s : RdsBlockStreamState K} (h : FollowsInput input t s) :
    s.inputRegister &&& rdsBlockBitmask = (rdsWindowAt input t).setWidth 32 := by
  rw [h.register, and_rdsBlockBitmask, feed_setWidth _ _ (by decide)]
  rfl

omit [LinearOrder K] in
lemma FollowsInput.offset {s : RdsBlockStreamState K} (h : FollowsInput input t s) :
    rdsRegisterOffset s = wordOffset (rdsWindowAt input t) := by
  rw [rdsRegisterOffset, h.word]
  rfl

/-- The block that the window ending with bit `t` leaves in the slot of an offset. -/
def rdsBlockAt (input : List (Bool × K)) (t : ℕ) (o : RdsOffset) : Option (RdsBlock K) :=
  rdsBlockOf o ((rdsWindowAt input t).setWidth 32) (rdsConfidencesAt input t)

/-! ### Offsets and slots -/

lemma rdsGetNextOffsetFor_ne (o : RdsOffset) : rdsGetNextOffsetFor o ≠ .invalid := by
  cases o <;> decide

/-- The slots of a group are taken in order. -/
lemma rdsGetBlockNumberForOffset_next {o : RdsOffset} (ho : o ≠ .invalid) :
    (rdsGetBlockNumberForOffset (rdsGetNextOffsetFor o)).val
      = ((rdsGetBlockNumberForOffset o).val + 1) % 4 := by
  cases o with
  | invalid => exact absurd rfl ho
  | a | b | c | cPrime | d => rfl

lemma rdsGetNextOffsetFor_eq_a_iff {o : RdsOffset} (ho : o ≠ .invalid) :
    rdsGetNextOffsetFor o = .a ↔ (rdsGetBlockNumberForOffset o).val = 3 := by
  cases o with
  | invalid => exact absurd rfl ho
  | a | b | c | cPrime | d => decide

lemma rdsGetBlockNumberForOffset_eq_zero_iff {o : RdsOffset} (ho : o ≠ .invalid) :
    (rdsGetBlockNumberForOffset o).val = 0 ↔ o = .a := by
  cases o with
  | invalid => exact absurd rfl ho
  | a | b | c | cPrime | d => decide

omit [Field K] [LinearOrder K] in
/-- A C' does not change the slot. -/
lemma rdsSlotOffset_same {s : RdsBlockStreamState K} (hs : s.expectedOffset ≠ .invalid) :
    rdsSlotOffset s ≠ .invalid ∧ rdsGetBlockNumberForOffset (rdsSlotOffset s)
      = rdsGetBlockNumberForOffset s.expectedOffset := by
  unfold rdsSlotOffset
  split_ifs with h
  · rw [h.1]
    exact ⟨by decide, rfl⟩
  · exact ⟨hs, rfl⟩

/-! ### Blocks of one lock period -/

/-- Sync is held from bit `a` to bit `t`, and was not held before. -/
structure RdsLock (input : List (Bool × K)) (a t : ℕ) : Prop where
  pos : 0 < a
  le : a ≤ t
  before : (rdsStateAt input (a - 1)).isInSync = false
  held : ∀ u, a ≤ u → u ≤ t → (rdsStateAt input u).isInSync = true

/-- Lock periods that share a bit start together. -/
lemma RdsLock.start_eq {a b t u v : ℕ} (h : RdsLock input a t) (h' : RdsLock input b u)
    (hat : v ≤ t) (hbu : v ≤ u) (hav : a ≤ v) (hbv : b ≤ v) : a = b := by
  have hpos := h.pos
  have hpos' := h'.pos
  rcases lt_trichotomy a b with hlt | heq | hlt
  · have hheld := h.held (b - 1) (by omega) (by omega)
    rw [h'.before] at hheld
    exact absurd hheld Bool.false_ne_true
  · exact heq
  · have hheld := h'.held (a - 1) (by omega) (by omega)
    rw [h.before] at hheld
    exact absurd hheld Bool.false_ne_true

lemma RdsLock.extend {a : ℕ} (h : RdsLock input a t)
    (hsync : (rdsStateAt input (t + 1)).isInSync = true) : RdsLock input a (t + 1) where
  pos := h.pos
  le := Nat.le_succ_of_le h.le
  before := h.before
  held u hau hut := by
    rcases hut.lt_or_eq with hlt | rfl
    · exact h.held u hau (Nat.le_of_lt_succ hlt)
    · exact hsync

lemma RdsLock.restrict {a u : ℕ} (h : RdsLock input a t) (hau : a ≤ u) (hut : u ≤ t) :
    RdsLock input a u where
  pos := h.pos
  le := hau
  before := h.before
  held v hav hvu := h.held v hav (hvu.trans hut)

/-- A block is what the window that ended with bit `p` leaves in its slot, and that window was
looked at no earlier than bit `a`. -/
structure FilledAt (input : List (Bool × K)) (a p : ℕ) (i : Fin 4) (block : RdsBlock K) :
    Prop where
  le : a ≤ p
  due : (rdsStateAt input (p - 1)).bitsUntilNextBlock = 1
  stored : ∃ o, o ≠ .invalid ∧ rdsGetBlockNumberForOffset o = i ∧ rdsBlockAt input p o = some block

/-- The blocks a group has received stand in the slots before slot `n`, which is due at bit `t`. -/
def GroupFilled (input : List (Bool × K)) (a t n : ℕ) (group : RdsGroup K) : Prop :=
  ∀ i, (group.blocks i).isReceived = true →
    i.val < n ∧ ∃ p, p + 26 * n = t + 26 * i.val ∧ FilledAt input a p i (group.blocks i)

lemma groupFilled_zero (input : List (Bool × K)) (a t n : ℕ) :
    GroupFilled input a t n .zero := fun _ h => absurd h Bool.false_ne_true

/-- The window of bit `t` fills the slot that is due. -/
lemma GroupFilled.stored {a n : ℕ} {group : RdsGroup K} (h : GroupFilled input a t n group)
    {o : RdsOffset} (ho : o ≠ .invalid) (hn : (rdsGetBlockNumberForOffset o).val = n) (ha : a ≤ t)
    (hdue : (rdsStateAt input (t - 1)).bitsUntilNextBlock = 1) :
    GroupFilled input a (t + 26) (n + 1)
      (rdsStored group o ((rdsWindowAt input t).setWidth 32) (rdsConfidencesAt input t)) := by
  have hkept (i : Fin 4) (hi : (group.blocks i).isReceived = true) : i.val < n + 1 ∧
      ∃ p, p + 26 * (n + 1) = t + 26 + 26 * i.val ∧ FilledAt input a p i (group.blocks i) := by
    obtain ⟨hlt, p, hp, hfilled⟩ := h i hi
    exact ⟨by omega, p, by omega, hfilled⟩
  intro i hi
  unfold rdsStored at hi ⊢
  cases hblock : rdsBlockOf o ((rdsWindowAt input t).setWidth 32) (rdsConfidencesAt input t) with
  | none =>
    rw [hblock] at hi
    exact hkept i hi
  | some block =>
    simp only [hblock] at hi ⊢
    by_cases heq : i = rdsGetBlockNumberForOffset o
    · subst heq
      rw [Function.update_self]
      exact ⟨by omega, t, by omega, ha, hdue, o, ho, rfl, hblock⟩
    · rw [Function.update_of_ne heq] at hi ⊢
      exact hkept i hi

/-! ### Processed blocks -/

/-- A block has been processed and the stream drained. -/
structure BlockTaken (s t : RdsBlockStreamState K) (groups : List (RdsGroup K)) : Prop where
  sync : t.isInSync = true
  bits : t.bitsUntilNextBlock = BitVec.ofNat 32 rdsBlockLength
  drained : t.hasGroupReady = false
  registers : SameRegisters s t
  pulses : SamePulses s t
  expected : t.expectedOffset = rdsGetNextOffsetFor (rdsSlotOffset s)
  group :
    if rdsGetNextOffsetFor (rdsSlotOffset s) = .a then
      t.currentGroup = .zero ∧ groups = [rdsStoredGroup s]
    else t.currentGroup = rdsStoredGroup s ∧ groups = []
  errors : ∀ history, ErrorHistory s history →
    ErrorHistory t (decide (rdsRegisterOffset s ≠ rdsSlotOffset s) :: history)

omit [Field K] [LinearOrder K] in
lemma rdsDrain_ready {s : RdsBlockStreamState K} (h : s.hasGroupReady = true) :
    rdsDrain s = ({ s with hasGroupReady := false }, [s.readyGroup]) := by
  rw [rdsDrain, if_pos h]
  rfl

omit [Field K] [LinearOrder K] in
lemma rdsDrain_idle {s : RdsBlockStreamState K} (h : s.hasGroupReady = false) :
    rdsDrain s = (s, []) := by
  rw [rdsDrain, if_neg (by simp [h])]

lemma BlockStep.taken {s t : RdsBlockStreamState K} (h : BlockStep s t)
    (hdrained : s.hasGroupReady = false) {bits : BitVec 32}
    (hbits : bits = BitVec.ofNat 32 rdsBlockLength) :
    BlockTaken s (rdsDrain { t with bitsUntilNextBlock := bits }).1
      (rdsDrain { t with bitsUntilNextBlock := bits }).2 := by
  have hregisters : SameRegisters s t := h.registers
  have hgroup := h.group
  by_cases hlast : rdsGetNextOffsetFor (rdsSlotOffset s) = .a
  · rw [if_pos hlast] at hgroup
    obtain ⟨hcurrent, hready, hreadyGroup⟩ := hgroup
    rw [rdsDrain_ready (s := { t with bitsUntilNextBlock := bits }) hready]
    refine ⟨h.sync, hbits, rfl, ⟨hregisters.register, hregisters.confidences, hregisters.count⟩,
      ⟨h.pulses.offsets, h.pulses.positions⟩, h.expected, ?_, h.errors⟩
    rw [if_pos hlast]
    exact ⟨hcurrent, congrArg (fun group => [group]) hreadyGroup⟩
  · rw [if_neg hlast] at hgroup
    obtain ⟨hcurrent, hready⟩ := hgroup
    have hidle : t.hasGroupReady = false := hready.trans hdrained
    rw [rdsDrain_idle (s := { t with bitsUntilNextBlock := bits }) hidle]
    refine ⟨h.sync, hbits, hidle, ⟨hregisters.register, hregisters.confidences, hregisters.count⟩,
      ⟨h.pulses.offsets, h.pulses.positions⟩, h.expected, ?_, h.errors⟩
    rw [if_neg hlast]
    exact ⟨hcurrent, rfl⟩

/-- The processed block is stored in its slot, and a full group is handed over. -/
lemma BlockTaken.filled {s u : RdsBlockStreamState K} {groups : List (RdsGroup K)} {a : ℕ}
    (h : BlockTaken s u groups) (hfollows : FollowsInput input t s)
    (hs : s.expectedOffset ≠ .invalid) (ha : a ≤ t)
    (hdue : (rdsStateAt input (t - 1)).bitsUntilNextBlock = 1)
    (hgroup : GroupFilled input a t (rdsGetBlockNumberForOffset s.expectedOffset).val
      s.currentGroup) :
    GroupFilled input a (t + 26) (rdsGetBlockNumberForOffset u.expectedOffset).val u.currentGroup ∧
      if u.expectedOffset = .a then
        ∃ group, groups = [group] ∧ GroupFilled input a (t + 26) 4 group
      else groups = [] := by
  obtain ⟨hslot, hnumber⟩ := rdsSlotOffset_same hs
  rw [← hnumber] at hgroup
  have hstored := hgroup.stored hslot rfl ha hdue
  have heq : rdsStoredGroup s = rdsStored s.currentGroup (rdsSlotOffset s)
      ((rdsWindowAt input t).setWidth 32) (rdsConfidencesAt input t) := by
    rw [rdsStoredGroup, hfollows.word, hfollows.confidences]
  rw [← heq] at hstored
  have hlast := rdsGetNextOffsetFor_eq_a_iff hslot
  have hnext := rdsGetBlockNumberForOffset_next hslot
  have hlt := (rdsGetBlockNumberForOffset (rdsSlotOffset s)).isLt
  have htaken := h.group
  rw [h.expected]
  split_ifs at htaken ⊢ with ha
  · obtain ⟨hzero, hgroups⟩ := htaken
    rw [hlast.1 ha] at hstored
    rw [hzero]
    exact ⟨groupFilled_zero _ _ _ _, _, hgroups, hstored⟩
  · obtain ⟨hcurrent, hgroups⟩ := htaken
    have hne : (rdsGetBlockNumberForOffset (rdsSlotOffset s)).val ≠ 3 := fun h3 => ha (hlast.2 h3)
    rw [hnext, hcurrent, Nat.mod_eq_of_lt (by omega)]
    exact ⟨hstored, hgroups⟩

/-! ### Pulses -/

/-- The pulse history holds the windows of the bits `ps`, which were recognised by an offset. -/
structure Pulses (input : List (Bool × K)) (t : ℕ) (s : RdsBlockStreamState K) (ps : List ℕ) :
    Prop where
  offsets : s.syncOffsets = window 8 .invalid (ps.map fun p => wordOffset (rdsWindowAt input p))
  positions : s.syncPositions = window 8 0 (ps.map (BitVec.ofNat 32))
  sorted : ps.Pairwise (· < ·)
  range : ∀ p ∈ ps, 0 < p ∧ p ≤ t

/-- A pulse follows another one at a distance of up to six blocks and in step with the slots. -/
def PulseFollows (input : List (Bool × K)) (q p : ℕ) : Prop :=
  ∃ k, 0 < k ∧ k ≤ 6 ∧ p = q + rdsBlockLength * k ∧
    wordOffset (rdsWindowAt input q) ≠ .invalid ∧ wordOffset (rdsWindowAt input p) ≠ .invalid ∧
    ((rdsGetBlockNumberForOffset (wordOffset (rdsWindowAt input q))).val + k) % 4
      = (rdsGetBlockNumberForOffset (wordOffset (rdsWindowAt input p))).val

omit [Field K] [LinearOrder K] in
lemma PulseFollows.lt {p q : ℕ} (h : PulseFollows input q p) : q < p := by
  obtain ⟨k, hk, -, rfl, -⟩ := h
  exact Nat.lt_add_of_pos_right (Nat.mul_pos (by decide) hk)

omit [LinearOrder K] in
lemma pulses_init : Pulses input 0 (rdsBlockStreamInit : RdsBlockStreamState K) [] where
  offsets := rfl
  positions := rfl
  sorted := List.Pairwise.nil
  range := by simp

omit [Field K] [LinearOrder K] in
lemma Pulses.congr {s u : RdsBlockStreamState K} {ps : List ℕ} (h : Pulses input t s ps)
    (hsame : SamePulses s u) : Pulses input t u ps where
  offsets := hsame.offsets.trans h.offsets
  positions := hsame.positions.trans h.positions
  sorted := h.sorted
  range := h.range

omit [Field K] [LinearOrder K] in
lemma Pulses.mono {s : RdsBlockStreamState K} {ps : List ℕ} (h : Pulses input t s ps) :
    Pulses input (t + 1) s ps where
  offsets := h.offsets
  positions := h.positions
  sorted := h.sorted
  range p hp := ⟨(h.range p hp).1, Nat.le_succ_of_le (h.range p hp).2⟩

omit [LinearOrder K] in
/-- A recognised window enters the history with its bit number. -/
lemma Pulses.push {s : RdsBlockStreamState K} {ps : List ℕ} (h : Pulses input t s ps)
    (hfollows : FollowsInput input (t + 1) s) :
    Pulses input (t + 1) (rdsSyncBufferPush s (rdsRegisterOffset s) s.bitCount)
      (ps ++ [t + 1]) where
  offsets := by
    rw [List.map_append, List.map_singleton, ← window_push (by decide), ← h.offsets,
      ← hfollows.offset]
    rfl
  positions := by
    rw [List.map_append, List.map_singleton, ← window_push (by decide), ← h.positions,
      ← hfollows.count]
    rfl
  sorted := by
    refine List.pairwise_append.2 ⟨h.sorted, List.pairwise_singleton _ _, fun p hp q hq => ?_⟩
    obtain rfl : q = t + 1 := List.mem_singleton.1 hq
    exact Nat.lt_succ_of_le (h.range p hp).2
  range p hp := by
    rcases List.mem_append.1 hp with hold | hnew
    · exact h.mono.range p hold
    · obtain rfl : p = t + 1 := List.mem_singleton.1 hnew
      exact ⟨Nat.succ_pos t, le_rfl⟩

omit [Field K] [LinearOrder K] in
/-- A slot of the history that shows an offset holds a pulse, which is one of the last eight. -/
lemma Pulses.slot {s : RdsBlockStreamState K} {ps : List ℕ} (h : Pulses input t s ps) {i : ℕ}
    (hi : i < 8) (hoffset : s.syncOffsets.getD i .invalid ≠ .invalid) :
    ∃ p, 8 ≤ ps.length + i ∧ ps[ps.length + i - 8]? = some p ∧
      s.syncOffsets.getD i .invalid = wordOffset (rdsWindowAt input p) ∧
      s.syncPositions.getD i 0 = BitVec.ofNat 32 p := by
  have hlen : 8 ≤ ps.length + i := by
    rw [h.offsets] at hoffset
    simpa using window_getD_ne hoffset
  obtain ⟨p, hp⟩ : ∃ p, ps[ps.length + i - 8]? = some p :=
    ⟨_, List.getElem?_eq_getElem (by omega)⟩
  refine ⟨p, hlen, hp, ?_, ?_⟩
  · rw [h.offsets, List.getD_eq_getElem?_getD, window_getElem?, List.length_map, if_pos hlen,
      List.getElem?_map, hp]
    rfl
  · rw [h.positions, List.getD_eq_getElem?_getD, window_getElem?, List.length_map, if_pos hlen,
      List.getElem?_map, hp]
    rfl

omit [Field K] [LinearOrder K] in
/-- Slots that follow one another hold pulses that do; bit numbers do not wrap. -/
lemma Pulses.follows {s : RdsBlockStreamState K} {ps : List ℕ} (h : Pulses input t s ps)
    (ht : t < 2 ^ 32) {i j : ℕ} (hij : j < i) (hi : i < 8)
    (hfollows : rdsSyncSlotFollows s i j = true) :
    ∃ p q, ps[ps.length + i - 8]? = some p ∧ ps[ps.length + j - 8]? = some q ∧
      PulseFollows input q p := by
  obtain ⟨hmod, hdiv, hoi, hoj, hnumber⟩ := of_decide_eq_true hfollows
  obtain ⟨p, -, hp, hop, hpos⟩ := h.slot hi hoi
  obtain ⟨q, hlen, hq, hoq, hqos⟩ := h.slot (hij.trans hi) hoj
  obtain ⟨hilt, hip⟩ := List.getElem?_eq_some_iff.1 hp
  obtain ⟨hjlt, hjq⟩ := List.getElem?_eq_some_iff.1 hq
  have hlt : q < p := by
    rw [← hip, ← hjq]
    exact List.pairwise_iff_getElem.1 h.sorted _ _ hjlt hilt (by omega)
  have hle : p ≤ t := (h.range p (List.mem_of_getElem? hp)).2
  have hdistance : (BitVec.ofNat 32 p - BitVec.ofNat 32 q).toNat = p - q := by
    rw [BitVec.toNat_sub_of_le (by simp [BitVec.le_def]; omega)]
    simp
    omega
  rw [hpos, hqos, hdistance] at hmod hdiv hnumber
  rw [hop] at hoi hnumber
  rw [hoq] at hoj hnumber
  simp only [rdsBlockLength] at hmod hdiv hnumber
  refine ⟨p, q, hp, hq, (p - q) / 26, by omega, hdiv, ?_, hoj, hoi, hnumber⟩
  simp only [rdsBlockLength]
  omega

omit [Field K] [LinearOrder K] in
/-- A found sequence is made of pulses from the history, the last of which is the newest. -/
lemma Pulses.sequence {s : RdsBlockStreamState K} {ps : List ℕ} {p : ℕ}
    (h : Pulses input t s (ps ++ [p])) (ht : t < 2 ^ 32)
    (hfound : rdsSyncBufferIsSequenceFound s = true) :
    ∃ p₁ ∈ ps, ∃ p₂ ∈ ps, PulseFollows input p₁ p₂ ∧ PulseFollows input p₂ p := by
  simp only [rdsSyncBufferIsSequenceFound, List.any_eq_true, List.mem_filter, List.mem_range,
    decide_eq_true_eq, Bool.and_eq_true] at hfound
  obtain ⟨first, hfirst, second, ⟨hsecond, hlt⟩, hthird, hfollow⟩ := hfound
  obtain ⟨p₃, p₂, hp₃, hp₂, hfollows₃⟩ := h.follows ht hsecond (by omega) hthird
  obtain ⟨q₂, p₁, hq₂, hp₁, hfollows₂⟩ := h.follows ht hlt (by omega) hfollow
  obtain rfl : p₂ = q₂ := Option.some.inj (hp₂.symm.trans hq₂)
  obtain rfl : p = p₃ := by
    rw [List.length_append, List.length_singleton, Nat.add_sub_cancel (n := ps.length) (m := 8),
      List.getElem?_append_right le_rfl] at hp₃
    simpa using hp₃
  have hlt₃ := hfollows₃.lt
  have hlt₂ := hfollows₂.lt
  have hold {q : ℕ} {n : ℕ} (hq : (ps ++ [p])[n]? = some q) (hlt : q < p) : q ∈ ps := by
    rcases List.mem_append.1 (List.mem_of_getElem? hq) with hmem | hlast
    · exact hmem
    · exact absurd (List.mem_singleton.1 hlast) hlt.ne
  exact ⟨p₁, hold hp₁ (hlt₂.trans hlt₃), p₂, hold hp₂ hlt₃, hfollows₂, hfollows₃⟩

/-! ### Runs through lock periods -/

/-- Sync is not held after bit `t`. A pulse in the history is either more recent than the last loss
of sync, or older than the shortest lock. -/
structure Searching (input : List (Bool × K)) (t : ℕ) (ps : List ℕ) : Prop where
  unsynced : (rdsStateAt input t).isInSync = false
  bits : (rdsStateAt input t).bitsUntilNextBlock = 1
  delivered : rdsDeliveredAt input t = []
  age : ∀ p ∈ ps, p + 936 ≤ t ∨
    ∀ u, p ≤ u + 1 → u ≤ t → (rdsStateAt input u).isInSync = false

/-- After bit `t`, sync has been held since bit `a` for `k` blocks and `r` bits. -/
structure Locked (input : List (Bool × K)) (t a k r : ℕ) : Prop where
  eq : t = a + 26 * k + r
  lt : r < 26
  lock : RdsLock input a t
  bits : (rdsStateAt input t).bitsUntilNextBlock = BitVec.ofNat 32 (26 - r)
  expected : (rdsStateAt input t).expectedOffset ≠ .invalid
  slot : (rdsGetBlockNumberForOffset (rdsStateAt input t).expectedOffset).val
    = ((rdsGetBlockNumberForOffset (rdsStateAt input a).expectedOffset).val + k) % 4
  group : GroupFilled input a (a + 26 * k + 26)
    (rdsGetBlockNumberForOffset (rdsStateAt input t).expectedOffset).val
    (rdsStateAt input t).currentGroup
  errors : ∃ history, ErrorHistory (rdsStateAt input t) history ∧ history.count true ≤ k
  delivered :
    if r = 0 ∧ (rdsStateAt input t).expectedOffset = .a then
      ∃ group, rdsDeliveredAt input t = [group] ∧ GroupFilled input a (t + 26) 4 group
    else rdsDeliveredAt input t = []

/-- The invariant of a run; `ps` are the bits whose windows are in the history. -/
structure RdsRun (input : List (Bool × K)) (t : ℕ) (ps : List ℕ) : Prop where
  follows : FollowsInput input t (rdsStateAt input t)
  drained : (rdsStateAt input t).hasGroupReady = false
  pulses : Pulses input t (rdsStateAt input t) ps
  phase : Searching input t ps ∨ ∃ a k r, Locked input t a k r ∧ ∀ p ∈ ps, p ≤ a

lemma rdsRun_init (input : List (Bool × K)) : RdsRun input 0 [] where
  follows := followsInput_init
  drained := rfl
  pulses := pulses_init
  phase := .inl ⟨rfl, rfl, rfl, by simp⟩

/-- A bit inside a block is shifted in and nothing is handed over. -/
lemma Locked.wait {a k r : ℕ} (hlocked : Locked input t a k r)
    (hdrained : (rdsStateAt input t).hasGroupReady = false) (ht : t < input.length)
    (hr : r + 1 < 26) :
    rdsStateAt input (t + 1) = rdsShiftBit (rdsStateAt input t) input[t].1 input[t].2 ∧
      rdsDeliveredAt input (t + 1) = [] := by
  have hwait : (rdsStateAt input t).bitsUntilNextBlock ≠ 1 := by
    rw [hlocked.bits]
    intro heq
    have htoNat := congrArg BitVec.toNat heq
    simp at htoNat
    omega
  have hreceive := rdsReceive_wait hdrained hwait input[t].1 input[t].2
  rw [rdsStateAt_succ ht, rdsDeliveredAt_succ ht, hreceive]
  exact ⟨rfl, rfl⟩

/-- Inside a block nothing but the registers changes. -/
lemma RdsRun.wait {ps : List ℕ} {a k r : ℕ} (h : RdsRun input t ps) (hlocked : Locked input t a k r)
    (hps : ∀ p ∈ ps, p ≤ a) (ht : t < input.length) (hr : r + 1 < 26) :
    RdsRun input (t + 1) ps := by
  obtain ⟨hstate, hdelivered⟩ := hlocked.wait h.drained ht hr
  have heq := hlocked.eq
  refine ⟨?_, ?_, ?_, .inr ⟨a, k, r + 1, ?_, hps⟩⟩
  · rw [hstate]
    exact h.follows.shift ht
  · rw [hstate]
    exact h.drained
  · rw [hstate]
    exact Pulses.congr (u := rdsShiftBit _ _ _) h.pulses.mono ⟨rfl, rfl⟩
  · refine ⟨by omega, hr, hlocked.lock.extend ?_, ?_, ?_, ?_, ?_, ?_, ?_⟩
    · rw [hstate]
      exact hlocked.lock.held t hlocked.lock.le le_rfl
    · rw [hstate]
      have hbits := hlocked.bits
      have hshift : (rdsShiftBit (rdsStateAt input t) input[t].1 input[t].2).bitsUntilNextBlock
        = (rdsStateAt input t).bitsUntilNextBlock - 1 := rfl
      rw [hshift, hbits]
      apply BitVec.eq_of_toNat_eq
      rw [BitVec.toNat_sub_of_le (by simp [BitVec.le_def]; omega)]
      simp
      omega
    · rw [hstate]
      exact hlocked.expected
    · rw [hstate]
      exact hlocked.slot
    · rw [hstate]
      exact hlocked.group
    · rw [hstate]
      exact hlocked.errors
    · rw [if_neg (by omega)]
      exact hdelivered

/-- A processed block belongs to the lock period that holds. -/
lemma RdsRun.block {ps : List ℕ} {a k : ℕ} (h : RdsRun input t ps) (hlocked : Locked input t a k 25)
    (hps : ∀ p ∈ ps, p ≤ a) (ht : t < input.length)
    (htaken : BlockTaken (rdsShiftBit (rdsStateAt input t) input[t].1 input[t].2)
      (rdsStateAt input (t + 1)) (rdsDeliveredAt input (t + 1))) :
    RdsRun input (t + 1) ps := by
  have hfollows := h.follows.shift ht
  have heq := hlocked.eq
  obtain ⟨history, hhistory, hcount⟩ := hlocked.errors
  have hgroup := hlocked.group
  rw [show a + 26 * k + 26 = t + 1 by omega] at hgroup
  obtain ⟨hfilled, hdelivered⟩ := htaken.filled hfollows hlocked.expected
    (Nat.le_succ_of_le hlocked.lock.le) hlocked.bits hgroup
  obtain ⟨hslot, hnumber⟩ := rdsSlotOffset_same
    (s := rdsShiftBit (rdsStateAt input t) input[t].1 input[t].2) hlocked.expected
  refine ⟨hfollows.congr htaken.registers, htaken.drained,
    Pulses.congr (Pulses.congr (u := rdsShiftBit _ _ _) h.pulses.mono ⟨rfl, rfl⟩) htaken.pulses,
    .inr ⟨a, k + 1, 0, ⟨by omega, by decide, hlocked.lock.extend htaken.sync, htaken.bits, ?_, ?_,
      ?_, ?_, ?_⟩, hps⟩⟩
  · rw [htaken.expected]
    exact rdsGetNextOffsetFor_ne _
  · have hnumberAt : rdsGetBlockNumberForOffset (rdsSlotOffset
        (rdsShiftBit (rdsStateAt input t) input[t].1 input[t].2))
        = rdsGetBlockNumberForOffset (rdsStateAt input t).expectedOffset := hnumber
    have hbefore := hlocked.slot
    rw [htaken.expected, rdsGetBlockNumberForOffset_next hslot, hnumberAt]
    omega
  · rw [show a + 26 * (k + 1) + 26 = t + 1 + 26 by omega]
    exact hfilled
  · refine ⟨_, htaken.errors history hhistory, ?_⟩
    rw [List.count_cons]
    split_ifs <;> omega
  · simpa using hdelivered

/-- The third pulse begins a lock period with an empty group. -/
lemma RdsRun.acquire {ps : List ℕ} (h : RdsRun input t ps) (hsearch : Searching input t ps)
    (ht : t < input.length)
    (ho : rdsRegisterOffset (rdsShiftBit (rdsStateAt input t) input[t].1 input[t].2) ≠ .invalid)
    (htaken : BlockTaken (rdsAcquired (rdsShiftBit (rdsStateAt input t) input[t].1 input[t].2))
      (rdsStateAt input (t + 1)) (rdsDeliveredAt input (t + 1))) :
    RdsRun input (t + 1) (ps ++ [t + 1]) := by
  have hfollows := h.follows.shift ht
  have hpulses := Pulses.push (Pulses.congr (u := rdsShiftBit _ _ _) h.pulses ⟨rfl, rfl⟩) hfollows
  generalize hs : rdsShiftBit (rdsStateAt input t) input[t].1 input[t].2 = s
    at ho htaken hfollows hpulses
  have hfollows' : FollowsInput input (t + 1) (rdsAcquired s) := hfollows.congr ⟨rfl, rfl, rfl⟩
  obtain ⟨hfilled, hdelivered⟩ := htaken.filled (a := t + 1) hfollows' ho le_rfl hsearch.bits
    (groupFilled_zero _ _ _ _)
  refine ⟨hfollows'.congr htaken.registers, htaken.drained,
    Pulses.congr (Pulses.congr (u := rdsAcquired s) hpulses ⟨rfl, rfl⟩) htaken.pulses,
    .inr ⟨t + 1, 0, 0, ⟨rfl, by decide, ⟨Nat.succ_pos t, le_rfl, hsearch.unsynced, ?_⟩, htaken.bits,
      ?_, ?_, hfilled, ?_, ?_⟩, fun p hp => (hpulses.range p hp).2⟩⟩
  · intro u hu hut
    obtain rfl : u = t + 1 := le_antisymm hut hu
    exact htaken.sync
  · rw [htaken.expected]
    exact rdsGetNextOffsetFor_ne _
  · exact (Nat.mod_eq_of_lt (Fin.isLt _)).symm
  · refine ⟨_, htaken.errors [] (errorHistory_clear _), ?_⟩
    have hoffset : rdsRegisterOffset (rdsAcquired s) = rdsSlotOffset (rdsAcquired s) :=
      (rdsSlotOffset_acquired s).symm
    simp [hoffset]
  · simpa using hdelivered

/-- A window that leaves the receiver out of sync hands nothing over. -/
lemma searching_of_due {u : RdsBlockStreamState K} {ps : List ℕ} {bits : BitVec 32}
    (hstate : rdsStateAt input t = (rdsDrain { u with bitsUntilNextBlock := bits }).1)
    (hdelivered : rdsDeliveredAt input t = (rdsDrain { u with bitsUntilNextBlock := bits }).2)
    (hbits : bits = 1) (hdrained : u.hasGroupReady = false) (hunsynced : u.isInSync = false)
    (hfollows : FollowsInput input t u) (hpulses : Pulses input t u ps)
    (hage : (rdsStateAt input t).isInSync = false → ∀ p ∈ ps, p + 936 ≤ t ∨
      ∀ u, p ≤ u + 1 → u ≤ t → (rdsStateAt input u).isInSync = false) :
    RdsRun input t ps := by
  rw [rdsDrain_idle (s := { u with bitsUntilNextBlock := bits }) hdrained] at hstate hdelivered
  have hunsyncedAt : (rdsStateAt input t).isInSync = false := by
    rw [hstate]
    exact hunsynced
  refine ⟨?_, ?_, ?_, .inl ⟨hunsyncedAt, ?_, hdelivered, hage hunsyncedAt⟩⟩
  · rw [hstate]
    exact hfollows.congr ⟨rfl, rfl, rfl⟩
  · rw [hstate]
    exact hdrained
  · rw [hstate]
    exact hpulses.congr ⟨rfl, rfl⟩
  · rw [hstate]
    exact hbits

/-- Pulses get older, and a search that goes on keeps the recent ones recent. -/
lemma Searching.age_succ {ps : List ℕ} (h : Searching input t ps)
    (hunsynced : (rdsStateAt input (t + 1)).isInSync = false) : ∀ p ∈ ps ++ [t + 1],
    p + 936 ≤ t + 1 ∨ ∀ u, p ≤ u + 1 → u ≤ t + 1 → (rdsStateAt input u).isInSync = false := by
  intro p hp
  have hlast (u : ℕ) (hu : t ≤ u) (hut : u ≤ t + 1) : (rdsStateAt input u).isInSync = false := by
    rcases hu.eq_or_lt with rfl | hlt
    · exact h.unsynced
    · obtain rfl : u = t + 1 := by omega
      exact hunsynced
  rcases List.mem_append.1 hp with hold | hnew
  · rcases h.age p hold with hage | hrecent
    · exact .inl (by omega)
    · refine .inr fun u hpu hut => ?_
      rcases Nat.lt_or_ge t u with hlt | hle
      · exact hlast u hlt.le hut
      · exact hrecent u hpu hle
  · obtain rfl : p = t + 1 := List.mem_singleton.1 hnew
    exact .inr fun u hpu hut => hlast u (by omega) hut

/-- The outcome of a bit that completes a window, as states of the run. -/
lemma rdsStateAt_due (ht : t < input.length) (hdue : (rdsStateAt input t).bitsUntilNextBlock = 1) :
    ∃ u bits, RdsFind (rdsShiftBit (rdsStateAt input t) input[t].1 input[t].2) u ∧
      bits = (if u.isInSync then BitVec.ofNat 32 rdsBlockLength else 1) ∧
      rdsStateAt input (t + 1) = (rdsDrain { u with bitsUntilNextBlock := bits }).1 ∧
      rdsDeliveredAt input (t + 1) = (rdsDrain { u with bitsUntilNextBlock := bits }).2 := by
  obtain ⟨u, hfind, hreceive⟩ := rdsReceive_due hdue input[t].1 input[t].2
  refine ⟨u, _, hfind, rfl, ?_, ?_⟩
  · rw [rdsStateAt_succ ht, hreceive]
  · rw [rdsDeliveredAt_succ ht, hreceive]

/-- A bit pushed during the search for sync. -/
lemma RdsRun.search {ps : List ℕ} (h : RdsRun input t ps) (hsearch : Searching input t ps)
    (ht : t < input.length) : ∃ ps', RdsRun input (t + 1) ps' := by
  obtain ⟨u, bits, hfind, hbits, hstate, hdelivered⟩ := rdsStateAt_due ht hsearch.bits
  have hfollows := h.follows.shift ht
  have hpulses : Pulses input t (rdsShiftBit (rdsStateAt input t) input[t].1 input[t].2) ps :=
    h.pulses.congr ⟨rfl, rfl⟩
  have hdrained : (rdsShiftBit (rdsStateAt input t) input[t].1 input[t].2).hasGroupReady = false :=
    h.drained
  have hunsynced : (rdsShiftBit (rdsStateAt input t) input[t].1 input[t].2).isInSync = false :=
    hsearch.unsynced
  obtain ⟨ho, rfl⟩ | ⟨ho, rfl⟩ | ⟨ho, hfound, hblock⟩ := hfind.of_searching hunsynced
  · refine ⟨ps, searching_of_due hstate hdelivered (by rw [hbits, hunsynced]; rfl) hdrained
      hunsynced hfollows hpulses.mono fun hout p hp => ?_⟩
    exact hsearch.age_succ hout p (List.mem_append_left _ hp)
  · refine ⟨ps ++ [t + 1], searching_of_due hstate hdelivered ?_ hdrained hunsynced
      (hfollows.congr ⟨rfl, rfl, rfl⟩) (hpulses.push hfollows) hsearch.age_succ⟩
    rw [hbits, if_neg]
    simpa [rdsSyncBufferPush] using hunsynced
  · have hlength : bits = BitVec.ofNat 32 rdsBlockLength := by
      rw [hbits, hblock.sync]
      rfl
    have htaken := hblock.taken hdrained hlength
    rw [← hstate, ← hdelivered] at htaken
    exact ⟨_, h.acquire hsearch ht ho htaken⟩

/-- A bit that completes a block in sync. A lock that is lost has lasted for 36 blocks at least. -/
lemma RdsRun.due {ps : List ℕ} {a k : ℕ} (h : RdsRun input t ps) (hlocked : Locked input t a k 25)
    (hps : ∀ p ∈ ps, p ≤ a) (ht : t < input.length) : ∃ ps', RdsRun input (t + 1) ps' := by
  obtain ⟨u, bits, hfind, hbits, hstate, hdelivered⟩ := rdsStateAt_due ht hlocked.bits
  have hfollows := h.follows.shift ht
  have hdrained : (rdsShiftBit (rdsStateAt input t) input[t].1 input[t].2).hasGroupReady = false :=
    h.drained
  have hsynced : (rdsShiftBit (rdsStateAt input t) input[t].1 input[t].2).isInSync = true :=
    hlocked.lock.held t hlocked.lock.le le_rfl
  rcases hfind.of_inSync hsynced with hloss | hblock
  · obtain ⟨history, hhistory, hcount⟩ := hlocked.errors
    have hrecent := hloss.errors history hhistory
    have hle := recent_le_count 50 (decide (rdsRegisterOffset
      (rdsShiftBit (rdsStateAt input t) input[t].1 input[t].2) ≠ rdsSlotOffset
        (rdsShiftBit (rdsStateAt input t) input[t].1 input[t].2)) :: history)
    rw [List.count_cons] at hle
    have hlong : 36 ≤ k + 1 := by
      simp only [rdsMaxErrorsToleratedOver50Blocks] at hrecent
      split_ifs at hle <;> omega
    have heq := hlocked.eq
    refine ⟨ps, searching_of_due hstate hdelivered (by rw [hbits, hloss.unsynced]; rfl)
      (hloss.drained.trans hdrained) hloss.unsynced (hfollows.congr hloss.registers)
      (Pulses.congr (Pulses.congr (u := rdsShiftBit _ _ _) h.pulses.mono ⟨rfl, rfl⟩) hloss.pulses)
      fun _ p hp => .inl ?_⟩
    have hold := hps p hp
    omega
  · have hlength : bits = BitVec.ofNat 32 rdsBlockLength := by
      rw [hbits, hblock.sync]
      rfl
    have htaken := hblock.taken hdrained hlength
    rw [← hstate, ← hdelivered] at htaken
    exact ⟨ps, h.block hlocked hps ht htaken⟩

/-- The invariant of a run holds after every bit. -/
theorem exists_rdsRun (ht : t ≤ input.length) : ∃ ps, RdsRun input t ps := by
  induction t with
  | zero => exact ⟨[], rdsRun_init input⟩
  | succ t ih =>
    obtain ⟨ps, hrun⟩ := ih (Nat.le_of_succ_le ht)
    rcases hrun.phase with hsearch | ⟨a, k, r, hlocked, hps⟩
    · exact hrun.search hsearch ht
    · rcases (Nat.le_of_lt_succ hlocked.lt).lt_or_eq with hlt | rfl
      · exact ⟨ps, hrun.wait hlocked hps ht (by omega)⟩
      · exact hrun.due hlocked hps ht

/-! ### Groups of a run -/

/-- A block without errors holds the data bits of its window, which is a word of its slot. -/
lemma FilledAt.errorFree {a p : ℕ} {i : Fin 4} {block : RdsBlock K} (h : FilledAt input a p i block)
    (hclean : block.hadErrors = false) :
    block.data = (rdsWindowAt input p).extractLsb' 10 16 ∧
      wordOffset (rdsWindowAt input p) ≠ .invalid ∧
      rdsGetBlockNumberForOffset (wordOffset (rdsWindowAt input p)) = i := by
  obtain ⟨o, ho, hnumber, hblock⟩ := h.stored
  obtain ⟨hoffset, hdata⟩ := rdsBlockOf_errorFree hblock hclean
  have hword : wordOffset (rdsWindowAt input p) = o := hoffset
  rw [hword, hdata]
  exact ⟨data_eq _, ho, hnumber⟩

/-- A bit hands over one group at most. It belongs to the lock period of the bit. -/
lemma exists_lock_of_delivered (ht : t ≤ input.length) (hne : rdsDeliveredAt input t ≠ []) :
    ∃ a group, rdsDeliveredAt input t = [group] ∧ RdsLock input a t ∧
      GroupFilled input a (t + 26) 4 group := by
  obtain ⟨ps, hrun⟩ := exists_rdsRun ht
  rcases hrun.phase with hsearch | ⟨a, k, r, hlocked, -⟩
  · exact absurd hsearch.delivered hne
  · have hdelivered := hlocked.delivered
    split_ifs at hdelivered
    · obtain ⟨group, hgroup, hfilled⟩ := hdelivered
      exact ⟨a, group, hgroup, hlocked.lock, hfilled⟩
    · exact absurd hdelivered hne

/-- Within a lock period a group is handed over after every fourth slot. -/
lemma RdsLock.delivered_iff {a : ℕ} (h : RdsLock input a t) (ht : t ≤ input.length) :
    rdsDeliveredAt input t ≠ [] ↔ ∃ n, t = a + 26 * n ∧
      ((rdsGetBlockNumberForOffset (rdsStateAt input a).expectedOffset).val + n) % 4 = 0 := by
  obtain ⟨ps, hrun⟩ := exists_rdsRun ht
  rcases hrun.phase with hsearch | ⟨b, k, r, hlocked, -⟩
  · have hheld := h.held t h.le le_rfl
    rw [hsearch.unsynced] at hheld
    exact absurd hheld Bool.false_ne_true
  · obtain rfl : a = b := h.start_eq hlocked.lock le_rfl le_rfl h.le hlocked.lock.le
    have heq := hlocked.eq
    have hlt := hlocked.lt
    have hlast := rdsGetBlockNumberForOffset_eq_zero_iff hlocked.expected
    rw [hlocked.slot] at hlast
    have hdelivered := hlocked.delivered
    constructor
    · intro hne
      split_ifs at hdelivered with hcomplete
      · exact ⟨k, by omega, hlast.2 hcomplete.2⟩
      · exact absurd hdelivered hne
    · rintro ⟨n, hn, hmod⟩
      obtain rfl : n = k := by omega
      rw [if_pos ⟨by omega, hlast.1 hmod⟩] at hdelivered
      obtain ⟨group, hgroup, -⟩ := hdelivered
      rw [hgroup]
      exact List.cons_ne_nil _ _

/-- The countdown to the next window is one outside lock periods, and at most one block within. -/
lemma rdsStateAt_bits (ht : t ≤ input.length) :
    if (rdsStateAt input t).isInSync then
      0 < (rdsStateAt input t).bitsUntilNextBlock.toNat ∧
        (rdsStateAt input t).bitsUntilNextBlock.toNat ≤ rdsBlockLength
    else (rdsStateAt input t).bitsUntilNextBlock = 1 := by
  obtain ⟨ps, hrun⟩ := exists_rdsRun ht
  rcases hrun.phase with hsearch | ⟨a, k, r, hlocked, -⟩
  · rw [if_neg (by simp [hsearch.unsynced])]
    exact hsearch.bits
  · have hlt := hlocked.lt
    rw [if_pos (hlocked.lock.held t hlocked.lock.le le_rfl), hlocked.bits, rdsBlockLength]
    simp
    omega

/-- Groups never mix windows or lock periods. Every received block is made of the window of its own
slot, within the lock period in which the group is handed over; slots before the lock are not
received; within a lock period a group is handed over after exactly every 104 bits. -/
theorem rdsDeliveredAt_lockPeriod (input : List (Bool × K)) :
    (∀ t ≤ input.length, ∀ group ∈ rdsDeliveredAt input t, ∃ a, RdsLock input a t ∧ ∀ i : Fin 4,
      ((group.blocks i).isReceived = true → ∃ p, p + 26 * (3 - i.val) = t ∧
        FilledAt input a p i (group.blocks i) ∧
        ((group.blocks i).hadErrors = false →
          (group.blocks i).data = (rdsWindowAt input p).extractLsb' 10 16 ∧
          wordOffset (rdsWindowAt input p) ≠ .invalid ∧
          rdsGetBlockNumberForOffset (wordOffset (rdsWindowAt input p)) = i)) ∧
      (t < a + 26 * (3 - i.val) → (group.blocks i).isReceived = false)) ∧
    (∀ a t₁ t₂, RdsLock input a t₂ → t₂ ≤ input.length → a ≤ t₁ → t₁ ≤ t₂ →
      rdsDeliveredAt input t₁ ≠ [] → rdsDeliveredAt input t₂ ≠ [] →
      104 ∣ t₂ - t₁ ∧
        ∀ m, t₁ + 104 * m ≤ t₂ → ∃ group, rdsDeliveredAt input (t₁ + 104 * m) = [group]) ∧
    ∀ t ≤ input.length,
      if (rdsStateAt input t).isInSync then
        0 < (rdsStateAt input t).bitsUntilNextBlock.toNat ∧
          (rdsStateAt input t).bitsUntilNextBlock.toNat ≤ rdsBlockLength
      else (rdsStateAt input t).bitsUntilNextBlock = 1 := by
  refine ⟨fun t ht group hgroup => ?_, fun a t₁ t₂ hlock ht hat htt h₁ h₂ => ?_,
    fun t ht => rdsStateAt_bits ht⟩
  · obtain ⟨a, only, honly, hlock, hfilled⟩ :=
      exists_lock_of_delivered ht (List.ne_nil_of_mem hgroup)
    obtain rfl : group = only := by simpa [honly] using hgroup
    refine ⟨a, hlock, fun i => ⟨fun hi => ?_, fun hi => ?_⟩⟩
    · obtain ⟨-, p, hp, hblock⟩ := hfilled i hi
      exact ⟨p, by omega, hblock, hblock.errorFree⟩
    · by_contra hreceived
      obtain ⟨-, p, hp, hblock⟩ := hfilled i (by simpa using hreceived)
      have hle := hblock.le
      omega
  · have hiff (u : ℕ) (hu : a ≤ u) (hut : u ≤ t₂) :=
      (hlock.restrict hu hut).delivered_iff (hut.trans ht)
    obtain ⟨n₁, hn₁, hmod₁⟩ := (hiff t₁ hat htt).1 h₁
    obtain ⟨n₂, hn₂, hmod₂⟩ := (hiff t₂ (hat.trans htt) le_rfl).1 h₂
    refine ⟨by omega, fun m hm => ?_⟩
    have hne := (hiff (t₁ + 104 * m) (by omega) hm).2 ⟨n₁ + 4 * m, by omega, by omega⟩
    obtain ⟨b, group, hgroup, -⟩ := exists_lock_of_delivered (hm.trans ht) hne
    exact ⟨group, hgroup⟩

/-- Sync is declared on evidence: three pulses at the right distances, all of them seen since the
last loss of sync, and the slot of the third one is taken up. -/
theorem rdsStateAt_acquired {input : List (Bool × K)} {t : ℕ} (hlength : input.length < 2 ^ 32)
    (ht : t < input.length) (hbefore : (rdsStateAt input t).isInSync = false)
    (hafter : (rdsStateAt input (t + 1)).isInSync = true) :
    ∃ p₁ p₂, 0 < p₁ ∧ PulseFollows input p₁ p₂ ∧ PulseFollows input p₂ (t + 1) ∧
      (∀ u, p₁ ≤ u + 1 → u ≤ t → (rdsStateAt input u).isInSync = false) ∧
      (rdsAcquireSync (rdsShiftBit (rdsStateAt input t) input[t].1 input[t].2)
        (wordOffset (rdsWindowAt input (t + 1))) (BitVec.ofNat 32 (t + 1))).expectedOffset
          = wordOffset (rdsWindowAt input (t + 1)) ∧
      (rdsStateAt input (t + 1)).expectedOffset
        = rdsGetNextOffsetFor (wordOffset (rdsWindowAt input (t + 1))) := by
  obtain ⟨ps, hrun⟩ := exists_rdsRun ht.le
  have hsearch : Searching input t ps := by
    rcases hrun.phase with hsearch | ⟨a, k, r, hlocked, -⟩
    · exact hsearch
    · have hheld := hlocked.lock.held t hlocked.lock.le le_rfl
      rw [hbefore] at hheld
      exact absurd hheld Bool.false_ne_true
  obtain ⟨u, bits, hfind, hbits, hstate, hdelivered⟩ := rdsStateAt_due ht hsearch.bits
  have hfollows := hrun.follows.shift ht
  have hpulses :=
    Pulses.push (Pulses.congr (u := rdsShiftBit _ _ _) hrun.pulses ⟨rfl, rfl⟩) hfollows
  have hunsynced : (rdsShiftBit (rdsStateAt input t) input[t].1 input[t].2).isInSync = false :=
    hbefore
  have hsynced : u.isInSync = true := by
    rw [hstate] at hafter
    unfold rdsDrain at hafter
    split_ifs at hafter <;> exact hafter
  rw [← hfollows.offset, ← hfollows.count]
  generalize rdsShiftBit (rdsStateAt input t) input[t].1 input[t].2 = s
    at hfind hfollows hpulses hunsynced ⊢
  obtain ⟨ho, rfl⟩ | ⟨ho, rfl⟩ | ⟨ho, hfound, hblock⟩ := hfind.of_searching hunsynced
  · rw [hunsynced] at hsynced
    exact absurd hsynced Bool.false_ne_true
  · have hpushed : s.isInSync = true := hsynced
    rw [hunsynced] at hpushed
    exact absurd hpushed Bool.false_ne_true
  · obtain ⟨p₁, hp₁, p₂, hp₂, hfollows₂, hfollows₃⟩ :=
      hpulses.sequence (Nat.lt_of_le_of_lt ht hlength) hfound
    refine ⟨p₁, p₂, (hrun.pulses.range p₁ hp₁).1, hfollows₂, hfollows₃, ?_, ?_, ?_⟩
    · -- A pulse from before the last lock is too old to be followed.
      obtain ⟨k₂, -, hk₂, heq₂, -⟩ := hfollows₂
      obtain ⟨k₃, -, hk₃, heq₃, -⟩ := hfollows₃
      simp only [rdsBlockLength] at heq₂ heq₃
      rcases hsearch.age p₁ hp₁ with hold | hrecent
      · omega
      · exact hrecent
    · rw [rdsAcquireSync_cases, if_neg (by simp [hunsynced]), if_neg ho, if_pos hfound]
      rfl
    · have hexpected : (rdsStateAt input (t + 1)).expectedOffset = u.expectedOffset := by
        rw [hstate]
        unfold rdsDrain
        split_ifs <;> rfl
      rw [hexpected, hblock.expected, rdsSlotOffset_acquired]

/-- The third block of a clean group acquires sync. -/
theorem rdsStateAt_acquired_radiotext :
    ∃ p₁ p₂, 0 < p₁ ∧ PulseFollows (unweighted (txBits 0 [radiotextGroup])) p₁ p₂ ∧
      PulseFollows (unweighted (txBits 0 [radiotextGroup])) p₂ 78 := by
  obtain ⟨p₁, p₂, hpos, h₂, h₃, -⟩ :=
    @rdsStateAt_acquired ℚ _ _ (unweighted (txBits 0 [radiotextGroup])) 77 (by decide)
      (by decide) (by decide +kernel) (by decide +kernel)
  exact ⟨p₁, p₂, hpos, h₂, h₃⟩

end Mpxcast
