import Mpxcast.Rds.ErrorCorrection
import Mpxcast.Rds.SyncLoss

/-!
# Decoding a stream with bursts

The channel flips one bit or two neighbouring bits in some of the blocks. In sync the receiver
undoes every such burst and says which blocks were hit; it holds on to the stream as long as no
fifty blocks in a row hold more hits than it tolerates.
-/

namespace Mpxcast

open ShiftRegister SlidingCount SyndromeDecoding

/-! ### The channel -/

/-- What the channel does to a block, with the number of bits it flips. -/
inductive AirError : ℕ → BitVec 26 → Prop
  | none : AirError 0 0#26
  | burst {count : ℕ} {e : BitVec 26} (h : BurstError count e) : AirError count e

/-- A group on air. The third block of version B must not be hit: until it has seen C' the receiver
expects C, and would correct towards that. -/
structure RdsAirGroup extends RdsTxGroup where
  flipped : Fin 4 → ℕ
  error : Fin 4 → BitVec 26
  errors : ∀ i, AirError (flipped i) (error i)
  plain : versionB = true → flipped 2 = 0

namespace RdsAirGroup

def word (air : RdsAirGroup) (i : Fin 4) : BitVec 26 := air.words i ^^^ air.error i

def hit (air : RdsAirGroup) (i : Fin 4) : Bool := decide (0 < air.flipped i)

/-- The bits of the blocks from `i` on. -/
def bitsFrom (air : RdsAirGroup) (i : ℕ) : List Bool :=
  (((List.finRange 4).drop i).map air.word).flatMap bits

/-- The hits of the blocks from `i` on. -/
def hitsFrom (air : RdsAirGroup) (i : ℕ) : List Bool := ((List.finRange 4).drop i).map air.hit

lemma bitsFrom_eq (air : RdsAirGroup) (i : Fin 4) :
    air.bitsFrom i = bits (air.word i) ++ air.bitsFrom (i + 1 : ℕ) := by
  fin_cases i <;> rfl

lemma hitsFrom_eq (air : RdsAirGroup) (i : Fin 4) :
    air.hitsFrom i = air.hit i :: air.hitsFrom (i + 1 : ℕ) := by
  fin_cases i <;> rfl

end RdsAirGroup

/-- What fifty blocks in a row hold is tolerated, the blocks `history` before the first one
included. -/
def Bearable (history hits : List Bool) : Prop :=
  ∀ n, recent 50 ((hits.take n).reverse ++ history) ≤ rdsMaxErrorsToleratedOver50Blocks

lemma Bearable.cons {history hits : List Bool} {hit : Bool} (h : Bearable history (hit :: hits)) :
    recent 50 (hit :: history) ≤ rdsMaxErrorsToleratedOver50Blocks ∧
      Bearable (hit :: history) hits := by
  constructor
  · exact h 1
  · intro n
    have hnext := h (n + 1)
    rwa [List.take_succ_cons, List.reverse_cons, List.append_assoc] at hnext

/-- Up to thirty-five blocks are always tolerated. -/
lemma bearable_of_length {history hits : List Bool}
    (h : hits.length + history.length ≤ rdsMaxErrorsToleratedOver50Blocks) :
    Bearable history hits := by
  intro n
  have hcount := (recent_le_count 50 ((hits.take n).reverse ++ history)).trans List.count_le_length
  rw [List.length_append, List.length_reverse, List.length_take] at hcount
  omega

/-! ### One block -/

/-- A burst has a syndrome of its own. -/
lemma rdsCalculateSyndrome_burst {count : ℕ} {e : BitVec 26} (he : BurstError count e) :
    rdsCalculateSyndrome (e.setWidth 32) ≠ 0 ∧ rdsCalculateSyndrome (e.setWidth 32)
      ≠ rdsCalculateSyndrome (rdsOffsetWord .c)
        ^^^ rdsCalculateSyndrome (rdsOffsetWord .cPrime) := by
  have hall : ∀ burst ∈ rdsBursts, rdsCalculateSyndrome (burst.2.setWidth 32) ≠ 0 ∧
      rdsCalculateSyndrome (burst.2.setWidth 32) ≠ rdsCalculateSyndrome (rdsOffsetWord .c)
        ^^^ rdsCalculateSyndrome (rdsOffsetWord .cPrime) := by
    decide +kernel
  exact hall (count, e) (mem_rdsBursts.mpr he)

/-- A block that was hit is not a word of its offset, and a C does not become a C'. -/
lemma wordOffset_burst {o : RdsOffset} (ho : o ≠ .invalid) {word e : BitVec 26} {count : ℕ}
    (hword : wordOffset word = o) (he : BurstError count e) :
    wordOffset (word ^^^ e) ≠ o ∧ (o = .c → wordOffset (word ^^^ e) ≠ .cPrime) := by
  obtain ⟨hzero, hprime⟩ := rdsCalculateSyndrome_burst he
  have hsyndrome := (wordOffset_eq_iff ho word).mp hword
  constructor
  · intro hsame
    rw [wordOffset_eq_iff ho, BitVec.setWidth_xor, rdsCalculateSyndrome_xor, hsyndrome] at hsame
    have hnone := congrArg (rdsCalculateSyndrome (rdsOffsetWord o) ^^^ ·) hsame
    rw [← BitVec.xor_assoc, BitVec.xor_self, BitVec.zero_xor] at hnone
    exact hzero hnone
  · rintro rfl hother
    rw [wordOffset_eq_iff (by decide), BitVec.setWidth_xor, rdsCalculateSyndrome_xor, hsyndrome]
      at hother
    refine hprime ?_
    rw [← hother, ← BitVec.xor_assoc, BitVec.xor_self, BitVec.zero_xor]

variable {K : Type*} [Field K] [LinearOrder K]

/-- What is stored for a block on air. -/
structure AirBlock (air : RdsAirGroup) (i : Fin 4) (block : RdsBlock K) : Prop where
  data : block.data = air.data i
  received : block.isReceived = true
  errors : block.hadErrors = air.hit i
  corrected : block.correctedBitCount = air.flipped i

/-- A group is delivered as it was sent, with the blocks marked that were hit. -/
def AirReceived (air : RdsAirGroup) (group : RdsGroup K) : Prop :=
  ∀ i, AirBlock air i (group.blocks i)

lemma rdsBlockOf_air (air : RdsAirGroup) (i : Fin 4) (confidences : List K) :
    ∃ block, rdsBlockOf (air.offset i) ((air.word i).setWidth 32) confidences = some block ∧
      AirBlock air i block := by
  have ho : air.offset i ≠ .invalid := txOffset_ne_invalid air.versionB i
  have hdata : (((air.words i).setWidth 32) >>> rdsCheckwordLength).setWidth 16 = air.data i :=
    data_eq _
  have herror := air.errors i
  unfold rdsBlockOf RdsAirGroup.word
  generalize hflipped : air.flipped i = count at herror
  generalize air.error i = e at herror
  cases herror with
  | none =>
    have hoffset : rdsGetOffsetForSyndrome
        (rdsCalculateSyndrome ((air.words i ^^^ 0#26).setWidth 32)) = air.offset i := by
      rw [BitVec.xor_zero]
      exact air.valid i
    dsimp only
    rw [if_pos hoffset, BitVec.xor_zero]
    refine ⟨_, rfl, hdata, rfl, ?_, hflipped.symm⟩
    rw [RdsAirGroup.hit, hflipped]
    rfl
  | burst hburst =>
    have hoffset : rdsGetOffsetForSyndrome (rdsCalculateSyndrome ((air.words i ^^^ e).setWidth 32))
        ≠ air.offset i := (wordOffset_burst ho (air.valid i) hburst).1
    have hpos : 0 < count := by
      cases hburst with
      | single => exact Nat.one_pos
      | double => exact Nat.two_pos
    have hcorrect : rdsCorrectBurstErrors ((air.words i ^^^ e).setWidth 32) (air.offset i)
        = ⟨(air.words i).setWidth 32, count, true⟩ :=
      rdsCorrectBurstErrors_of_burst ho (air.valid i) hburst
    dsimp only
    rw [if_neg hoffset, hcorrect]
    refine ⟨_, rfl, hdata, rfl, ?_, hflipped.symm⟩
    rw [RdsAirGroup.hit, hflipped]
    exact (decide_eq_true hpos).symm

/-- The receiver is about to process block `i` of `air`. It has stored the blocks before it, and the
errors of the blocks so far are `history`. -/
structure AirStep (air : RdsAirGroup) (i : Fin 4) (history : List Bool)
    (s : RdsBlockStreamState K) : Prop where
  sync : s.isInSync = true
  expected : s.expectedOffset = nominalOffset i
  history : ErrorHistory s history
  stored : ∀ j < i, AirBlock air j (s.currentGroup.blocks j)

variable {air : RdsAirGroup} {i : Fin 4} {history : List Bool} {s t : RdsBlockStreamState K}

/-- The word on air is one of its offset unless it was hit. -/
lemma RdsAirGroup.wordOffset_word (air : RdsAirGroup) (i : Fin 4) :
    (air.hit i = false → wordOffset (air.word i) = air.offset i) ∧
      (air.hit i = true → wordOffset (air.word i) ≠ air.offset i ∧
        (air.offset i = .c → wordOffset (air.word i) ≠ .cPrime)) := by
  have ho : air.offset i ≠ .invalid := txOffset_ne_invalid air.versionB i
  have herror := air.errors i
  unfold RdsAirGroup.hit RdsAirGroup.word
  generalize air.flipped i = count at herror
  generalize air.error i = e at herror
  cases herror with
  | none =>
    refine ⟨fun _ => ?_, fun h => absurd h (by decide)⟩
    rw [BitVec.xor_zero]
    exact air.valid i
  | burst hburst =>
    refine ⟨fun h => ?_, fun _ => wordOffset_burst ho (air.valid i) hburst⟩
    cases hburst with
    | single => exact absurd h (by decide)
    | double => exact absurd h (by decide)

/-- A block that was hit is not the third one of version B. -/
lemma RdsAirGroup.nominal_of_hit (air : RdsAirGroup) {i : Fin 4} (h : air.hit i = true) :
    nominalOffset i = air.offset i := by
  have hplain := air.plain
  unfold RdsAirGroup.hit at h
  unfold nominalOffset RdsTxGroup.offset
  fin_cases i
  · rfl
  · rfl
  · cases hversion : air.versionB with
    | false => rfl
    | true =>
      have hnone := hplain hversion
      have hpos : 0 < air.flipped 2 := of_decide_eq_true h
      omega
  · rfl

omit [Field K] [LinearOrder K] in
/-- The block is processed for its own slot, and counts as an error if it was hit. -/
lemma AirStep.slot (h : AirStep air i history s)
    (hreg : s.inputRegister &&& rdsBlockBitmask = (air.word i).setWidth 32) :
    rdsSlotOffset s = air.offset i ∧
      decide (rdsRegisterOffset s ≠ rdsSlotOffset s) = air.hit i := by
  have hregister : rdsRegisterOffset s = wordOffset (air.word i) := by
    rw [rdsRegisterOffset, hreg]
    rfl
  obtain ⟨hclean, hdirty⟩ := air.wordOffset_word i
  rw [rdsSlotOffset, h.expected, hregister]
  cases hhit : air.hit i with
  | false =>
    have hslot : (if nominalOffset i = .c ∧ air.offset i = .cPrime then .cPrime
        else nominalOffset i) = air.offset i := by
      unfold nominalOffset RdsTxGroup.offset
      fin_cases i <;> cases air.versionB <;> rfl
    rw [hclean hhit, hslot]
    exact ⟨rfl, decide_eq_false (not_not_intro rfl)⟩
  | true =>
    obtain ⟨hne, hprime⟩ := hdirty hhit
    rw [air.nominal_of_hit hhit, if_neg fun hc => hprime hc.1 hc.2]
    exact ⟨rfl, decide_eq_true hne⟩

/-- The current group with the block added. -/
lemma AirStep.storedGroup (h : AirStep air i history s)
    (hreg : s.inputRegister &&& rdsBlockBitmask = (air.word i).setWidth 32) :
    ∀ j ≤ i, AirBlock air j ((rdsStoredGroup s).blocks j) := by
  intro j hj
  obtain ⟨block, hblock, hair⟩ := rdsBlockOf_air air i s.inputConfidenceRegister
  have hnumber : rdsGetBlockNumberForOffset (air.offset i) = i :=
    rdsGetBlockNumberForOffset_txOffset _ _
  simp only [rdsStoredGroup, (h.slot hreg).1, hreg, rdsStored, hblock, hnumber]
  rcases hj.eq_or_lt with rfl | hlt
  · rw [Function.update_self]
    exact hair
  · rw [Function.update_of_ne hlt.ne]
    exact h.stored j hlt

/-- As long as the hits are tolerated the block is processed. -/
lemma AirStep.find (h : AirStep air i history s)
    (hreg : s.inputRegister &&& rdsBlockBitmask = (air.word i).setWidth 32)
    (hbearable : recent 50 (air.hit i :: history) ≤ rdsMaxErrorsToleratedOver50Blocks) :
    BlockStep s (rdsFindBlockInRegister s) := by
  rcases (rdsFind_of_findBlock s).of_inSync h.sync with hloss | hblock
  · have hmany := hloss.errors history h.history
    rw [(h.slot hreg).2] at hmany
    omega
  · exact hblock

/-- A block short of the last one of its group. -/
lemma AirStep.find_next (h : AirStep air i history s) (hi : i < 3)
    (hreg : s.inputRegister &&& rdsBlockBitmask = (air.word i).setWidth 32)
    (hblock : BlockStep s t) :
    AirStep air (i + 1) (air.hit i :: history) t ∧ t.hasGroupReady = s.hasGroupReady := by
  obtain ⟨hslot, hhit⟩ := h.slot hreg
  have hnext : rdsGetNextOffsetFor (rdsSlotOffset s) = nominalOffset (i + 1) := by
    rw [hslot]
    exact rdsGetNextOffsetFor_txOffset _ _
  have hne : nominalOffset (i + 1) ≠ .a := by
    rw [Ne, nominalOffset_eq_a_iff]
    omega
  have hgroup := hblock.group
  rw [hnext, if_neg hne] at hgroup
  refine ⟨⟨hblock.sync, hblock.expected.trans hnext, ?_, fun j hj => ?_⟩, hgroup.2⟩
  · rw [← hhit]
    exact hblock.errors history h.history
  · rw [hgroup.1]
    exact h.storedGroup hreg j (by omega)

/-- The last block of a group. -/
lemma AirStep.find_last (h : AirStep air 3 history s)
    (hreg : s.inputRegister &&& rdsBlockBitmask = (air.word 3).setWidth 32)
    (hblock : BlockStep s t) :
    (∀ air', AirStep air' 0 (air.hit 3 :: history) t) ∧ t.hasGroupReady = true ∧
      AirReceived air t.readyGroup := by
  obtain ⟨hslot, hhit⟩ := h.slot hreg
  have hnext : rdsGetNextOffsetFor (rdsSlotOffset s) = .a := by
    rw [hslot]
    rfl
  have hgroup := hblock.group
  rw [hnext, if_pos rfl] at hgroup
  refine ⟨fun air' => ⟨hblock.sync, hblock.expected.trans hnext, ?_, ?_⟩, hgroup.2.1, fun j => ?_⟩
  · rw [← hhit]
    exact hblock.errors history h.history
  · exact fun j hj => absurd hj (Fin.not_lt_zero j)
  · rw [hgroup.2.2]
    exact h.storedGroup hreg j (Fin.le_last j)

/-! ### Whole groups -/

/-- The receiver has just finished a block and stands before block `i`. -/
structure AirAligned (air : RdsAirGroup) (i : Fin 4) (history : List Bool)
    (s : RdsBlockStreamState K) : Prop extends AirStep air i history s where
  aligned : s.bitsUntilNextBlock = 26
  drained : s.hasGroupReady = false

/-- The receiver is in sync at every point of the input. -/
def InSyncThroughout (s : RdsBlockStreamState K) (input : List (Bool × K)) : Prop :=
  ∀ n ≤ input.length, (rdsReceive s (input.take n)).1.isInSync = true

lemma InSyncThroughout.append {x y : List (Bool × K)} (hx : InSyncThroughout s x)
    (hy : InSyncThroughout (rdsReceive s x).1 y) : InSyncThroughout s (x ++ y) := by
  intro n hn
  rcases le_or_gt n x.length with hle | hgt
  · rw [List.take_append_of_le_length hle]
    exact hx n hle
  · rw [List.length_append] at hn
    obtain ⟨k, rfl⟩ := Nat.exists_eq_add_of_le hgt.le
    rw [List.take_length_add_append, rdsReceive_append]
    exact hy k (by omega)

/-- A block on air, up to the draining behind its last bit. -/
lemma AirAligned.receive_block (h : AirAligned air i history s) {input : List (Bool × K)}
    (hbits : input.map Prod.fst = bits (air.word i))
    (hbearable : recent 50 (air.hit i :: history) ≤ rdsMaxErrorsToleratedOver50Blocks) :
    ∃ s₁ t, AirStep air i history s₁ ∧
      s₁.inputRegister &&& rdsBlockBitmask = (air.word i).setWidth 32 ∧
      s₁.hasGroupReady = false ∧ BlockStep s₁ t ∧
      rdsReceive s input = rdsDrain { t with bitsUntilNextBlock := 26 } ∧
      InSyncThroughout s input := by
  obtain ⟨s₁, confidences, bitCount, hrec, hs₁, hquiet⟩ :=
    rdsReceive_block h.drained h.aligned hbits
  have hstep : AirStep air i history s₁ := by
    rw [hs₁]
    exact ⟨h.sync, h.expected, h.history, h.stored⟩
  have hreg : s₁.inputRegister &&& rdsBlockBitmask = (air.word i).setWidth 32 := by
    rw [hs₁]
    exact window_eq _ _
  have hblock := hstep.find hreg hbearable
  rw [if_pos hblock.sync] at hrec
  refine ⟨s₁, _, hstep, hreg, hs₁ ▸ h.drained, hblock, hrec, fun n hn => ?_⟩
  rcases hn.lt_or_eq with hlt | rfl
  · exact (hquiet n hlt).1.trans h.sync
  · rw [List.take_length, hrec]
    unfold rdsDrain
    split_ifs
    · exact hblock.sync
    · exact hblock.sync

/-- A block short of the last one of its group delivers nothing. -/
lemma AirAligned.receive_next (h : AirAligned air i history s) (hi : i < 3)
    {input : List (Bool × K)} (hbits : input.map Prod.fst = bits (air.word i))
    (hbearable : recent 50 (air.hit i :: history) ≤ rdsMaxErrorsToleratedOver50Blocks) :
    AirAligned air (i + 1) (air.hit i :: history) (rdsReceive s input).1 ∧
      (rdsReceive s input).2 = [] ∧ InSyncThroughout s input := by
  obtain ⟨s₁, t, hstep, hreg, hdrained, hblock, hrec, hsync⟩ := h.receive_block hbits hbearable
  obtain ⟨hnext, hready⟩ := hstep.find_next hi hreg hblock
  have hidle : t.hasGroupReady = false := hready.trans hdrained
  rw [hrec, rdsDrain, if_neg (by simp [hidle])]
  exact ⟨⟨⟨hnext.sync, hnext.expected, hnext.history, hnext.stored⟩, rfl, hidle⟩, rfl, hsync⟩

/-- The last block of a group delivers it. -/
lemma AirAligned.receive_last (h : AirAligned air 3 history s) {input : List (Bool × K)}
    (hbits : input.map Prod.fst = bits (air.word 3))
    (hbearable : recent 50 (air.hit 3 :: history) ≤ rdsMaxErrorsToleratedOver50Blocks) :
    (∀ air', AirAligned air' 0 (air.hit 3 :: history) (rdsReceive s input).1) ∧
      (∃ group, (rdsReceive s input).2 = [group] ∧ AirReceived air group) ∧
      InSyncThroughout s input := by
  obtain ⟨s₁, t, hstep, hreg, -, hblock, hrec, hsync⟩ := h.receive_block hbits hbearable
  obtain ⟨hnext, hready, hreceived⟩ := hstep.find_last hreg hblock
  rw [hrec, rdsDrain, if_pos hready]
  refine ⟨fun air' => ?_, ⟨_, rfl, hreceived⟩, hsync⟩
  obtain ⟨hinSync, hexpected, hhistory, hstored⟩ := hnext air'
  exact ⟨⟨hinSync, hexpected, hhistory, hstored⟩, rfl, rfl⟩

/-- The rest of a group, with the hits behind it. -/
lemma AirAligned.receive_group {rest : List Bool} :
    ∀ (k : ℕ) {i : Fin 4} {history : List Bool} {s : RdsBlockStreamState K}
      {input : List (Bool × K)}, (i : ℕ) + k = 3 → AirAligned air i history s →
      Bearable history (air.hitsFrom i ++ rest) → input.map Prod.fst = air.bitsFrom i →
      ∃ history', (∀ air', AirAligned air' 0 history' (rdsReceive s input).1) ∧
        Bearable history' rest ∧
        (∃ group, (rdsReceive s input).2 = [group] ∧ AirReceived air group) ∧
        InSyncThroughout s input := by
  intro k
  induction k with
  | zero =>
    intro i history s input hi h hbearable hbits
    obtain rfl : i = 3 := by omega
    obtain ⟨hnow, hlater⟩ := hbearable.cons
    obtain ⟨haligned, hgroup, hsync⟩ := h.receive_last (hbits.trans (List.append_nil _)) hnow
    exact ⟨_, haligned, hlater, hgroup, hsync⟩
  | succ k ih =>
    intro i history s input hi h hbearable hbits
    rw [air.bitsFrom_eq] at hbits
    rw [air.hitsFrom_eq] at hbearable
    obtain ⟨x, y, rfl, hx, hy⟩ := List.map_eq_append_iff.mp hbits
    obtain ⟨hnow, hlater⟩ := hbearable.cons
    obtain ⟨hnext, hnone, hsync⟩ := h.receive_next (by omega) hx hnow
    have hsucc : ((i + 1 : Fin 4) : ℕ) = i + 1 := by omega
    rw [← hsucc] at hy hlater
    obtain ⟨history', haligned, hbearable', ⟨group, hgroups, hgroup⟩, hsync'⟩ :=
      ih (by omega) hnext hlater hy
    rw [rdsReceive_append, hnone, List.nil_append]
    exact ⟨history', haligned, hbearable', ⟨group, hgroups, hgroup⟩, hsync.append hsync'⟩

/-- Whole groups, one after the other. -/
lemma AirAligned.receive_groups {groups : List RdsAirGroup} {history : List Bool}
    {s : RdsBlockStreamState K} (h : ∀ air, AirAligned air 0 history s) (hsync : s.isInSync = true)
    (hbearable : Bearable history (groups.flatMap (RdsAirGroup.hitsFrom · 0)))
    {input : List (Bool × K)}
    (hbits : input.map Prod.fst = groups.flatMap (RdsAirGroup.bitsFrom · 0)) :
    List.Forall₂ AirReceived groups (rdsReceive s input).2 ∧ InSyncThroughout s input := by
  induction groups generalizing history s input with
  | nil =>
    obtain rfl : input = [] := List.map_eq_nil_iff.mp hbits
    refine ⟨.nil, fun n _ => ?_⟩
    rw [List.take_nil]
    exact hsync
  | cons air groups ih =>
    obtain ⟨x, y, rfl, hx, hy⟩ := List.map_eq_append_iff.mp hbits
    rw [List.flatMap_cons] at hbearable
    obtain ⟨history', haligned, hbearable', ⟨group, hgroups, hgroup⟩, hheld⟩ :=
      (h air).receive_group 3 rfl hbearable hx
    obtain ⟨hrest, hheld'⟩ := ih haligned (haligned air).sync hbearable' hy
    rw [rdsReceive_append, hgroups]
    exact ⟨.cons hgroup hrest, hheld.append hheld'⟩

/-! ### Runs -/

/-- Behind a group that was handed over the receiver stands before the first block of the next. -/
lemma RdsLock.airAligned {input : List (Bool × K)} {a t : ℕ} (h : RdsLock input a t)
    (ht : t ≤ input.length) (hdelivered : rdsDeliveredAt input t ≠ []) (air : RdsAirGroup) :
    AirAligned air 0 (rdsErrorsSince input a ((t - a) / 26 + 1)) (rdsStateAt input t) := by
  obtain ⟨ps, hrun⟩ := exists_rdsRun ht
  rcases hrun.phase with hsearch | ⟨b, k, r, hlocked, -⟩
  · exact absurd hsearch.delivered hdelivered
  · have hgroup := hlocked.delivered
    have hbits := hlocked.bits
    split_ifs at hgroup with hboundary
    · obtain ⟨rfl, hexpected⟩ := hboundary
      refine ⟨⟨h.held t h.le le_rfl, hexpected, (rdsStateAt_errorHistory ht).2 a h, ?_⟩, hbits,
        hrun.drained⟩
      exact fun j hj => absurd hj (Fin.not_lt_zero j)
    · exact absurd hgroup hdelivered

/-- **Bursts do not reach the groups.** Behind any group that was handed over in any run, let the
groups that follow be hit by bursts of one bit or two neighbouring bits per block, in such a way
that no fifty blocks of the lock period in a row hold more than 35 hits. Then the receiver stays in
sync, and every group is handed over with the data that was sent, its blocks marked with what was
corrected. -/
theorem rdsReceive_bursts {input : List (Bool × K)} {a t : ℕ} (ht : t ≤ input.length)
    (hlock : RdsLock input a t) (hdelivered : rdsDeliveredAt input t ≠ [])
    (groups : List RdsAirGroup)
    (hbits : (input.drop t).map Prod.fst = groups.flatMap (RdsAirGroup.bitsFrom · 0))
    (hbearable : Bearable (rdsErrorsSince input a ((t - a) / 26 + 1))
      (groups.flatMap (RdsAirGroup.hitsFrom · 0))) :
    List.Forall₂ AirReceived groups (rdsReceive (rdsStateAt input t) (input.drop t)).2 ∧
      RdsLock input a input.length := by
  have hsync := hlock.held t hlock.le le_rfl
  obtain ⟨hgroups, hheld⟩ :=
    AirAligned.receive_groups (hlock.airAligned ht hdelivered) hsync hbearable hbits
  refine ⟨hgroups, hlock.pos, hlock.le.trans ht, hlock.before, fun u hau hu => ?_⟩
  rcases le_or_gt u t with hle | hgt
  · exact hlock.held u hau hle
  · obtain ⟨n, rfl⟩ := Nat.exists_eq_add_of_le hgt.le
    have hsplit : rdsStateAt input (t + n)
        = (rdsReceive (rdsStateAt input t) ((input.drop t).take n)).1 := by
      rw [rdsStateAt, rdsStateAt, List.take_add, rdsReceive_append]
    rw [hsplit]
    exact hheld n (by rw [List.length_drop]; omega)

/-- The radiotext group with a bit flipped in its first block and two in its third. -/
def hitRadiotextGroup : RdsAirGroup where
  toRdsTxGroup := radiotextGroup
  flipped := ![1, 0, 2, 0]
  error := ![BitVec.twoPow 26 7, 0#26, BitVec.twoPow 26 13 ||| BitVec.twoPow 26 14, 0#26]
  errors := by
    intro i
    fin_cases i
    · exact .burst (.single 7 (by decide))
    · exact .none
    · exact .burst (.double 13 (by decide))
    · exact .none
  plain h := absurd h (by decide)

/-- Two groups without errors. -/
def radiotextLockInput : List (Bool × ℚ) := unweighted (txBits 0 [radiotextGroup, radiotextGroup])

lemma radiotextLockInput_length : radiotextLockInput.length = 208 := by
  decide +kernel

/-- The receiver locks on to the two groups and hands over the second of them, whatever follows. -/
lemma radiotextLockInput_lock (following : List (Bool × ℚ)) :
    RdsLock (radiotextLockInput ++ following) 78 208 ∧
      rdsDeliveredAt (radiotextLockInput ++ following) 208 ≠ [] := by
  have hpulse : ∀ n < 79, 0 < n → n ≠ 26 → n ≠ 52 → n ≠ 78 →
      windowOffset ((txBits 0 [radiotextGroup, radiotextGroup]).take n) = .invalid := by
    decide +kernel
  have hbits : radiotextLockInput.map Prod.fst = txBits 0 [radiotextGroup, radiotextGroup] := by
    simp [radiotextLockInput, unweighted, Function.comp_def]
  have hlength := radiotextLockInput_length
  have hwhole : radiotextLockInput.map Prod.fst = bits (radiotextGroup.words 0)
      ++ bits (radiotextGroup.words (0 + 1)) ++ radiotextGroup.bitsFrom (2 : Fin 4)
      ++ [radiotextGroup].flatMap fun tx => tx.bitsFrom 0 := hbits.trans rfl
  obtain ⟨hclean, -⟩ := rdsReceive_three radiotextGroup radiotextGroup 0 rfl hwhole
    (by rw [hbits]; exact fun n h0 h78 _ => hpulse n (by omega) h0)
  have htake (u : ℕ) (hu : u ≤ 208) :
      rdsStateAt (radiotextLockInput ++ following) u = rdsStateAt radiotextLockInput u := by
    rw [rdsStateAt, rdsStateAt, List.take_append_of_le_length (hlength ▸ hu)]
  have hstate (u : ℕ) (hu : u ≤ 208) :
      (rdsStateAt (radiotextLockInput ++ following) u).isInSync = true ↔ 78 ≤ u := by
    rw [htake u hu]
    exact (hclean u (hlength ▸ hu)).1
  have hlock : RdsLock (radiotextLockInput ++ following) 78 208 := by
    refine ⟨by decide, by decide, ?_, fun u h78 hu => (hstate u hu).mpr h78⟩
    exact Bool.eq_false_iff.mpr fun h => absurd ((hstate 77 (by decide)).mp h) (by decide)
  have hle : 208 ≤ (radiotextLockInput ++ following).length := by
    rw [List.length_append, hlength]
    exact Nat.le_add_right _ _
  refine ⟨hlock, (hlock.delivered_iff hle).mpr ⟨5, rfl, ?_⟩⟩
  have hslot : (rdsStateAt radiotextLockInput 78).expectedOffset = .d := by decide +kernel
  rw [htake 78 (by decide), hslot]
  rfl

theorem rdsReceive_bursts_radiotext :
    let input := radiotextLockInput
      ++ unweighted ([hitRadiotextGroup, hitRadiotextGroup].flatMap (RdsAirGroup.bitsFrom · 0))
    List.Forall₂ AirReceived [hitRadiotextGroup, hitRadiotextGroup]
      (rdsReceive (rdsStateAt input 208) (input.drop 208)).2 ∧ RdsLock input 78 input.length := by
  obtain ⟨hlock, hdelivered⟩ := radiotextLockInput_lock
    (unweighted ([hitRadiotextGroup, hitRadiotextGroup].flatMap (RdsAirGroup.bitsFrom · 0)))
  refine rdsReceive_bursts (by decide +kernel) hlock hdelivered
    [hitRadiotextGroup, hitRadiotextGroup] ?_ (bearable_of_length ?_)
  · rw [List.drop_left' radiotextLockInput_length]
    simp [unweighted, Function.comp_def]
  · rw [rdsErrorsSince_length]
    decide

end Mpxcast
