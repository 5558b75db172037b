import Mpxcast.Core.Reassembly
import Mpxcast.Rds.Parser

/-!
# Radiotext assembly

The radiotext of the parser as a buffer of received characters: what one character does to it, when
the parser holds it to be complete, and what is assembled from a transmission that carries one
message.
-/

namespace Mpxcast

open CFloat CMemory Reassembly

variable {K : Type*}

/-- The characters received since the text was last cleared. -/
def radiotextBuffer (state : RdsParserState K) : Buffer UInt8 :=
  fun i =>
    if maskSeen state.radiotextSeenMask i then some (charAt state.info.radiotext i) else none

/-- Slots that have not been received hold NUL. -/
def RadiotextBlank (state : RdsParserState K) : Prop :=
  ∀ i, radiotextBuffer state i = none → charAt state.info.radiotext i = 0

lemma maskSeen_eq_false {w : ℕ} (mask : BitVec w) {i : ℕ} (hi : w ≤ i) :
    maskSeen mask i = false := by
  rw [maskSeen_eq]
  exact BitVec.getLsbD_of_ge _ _ hi

lemma charAt_setIfInBounds {n : ℕ} (chars : Vector UInt8 n) {i : ℕ} (hi : i < n) (c : UInt8)
    (j : ℕ) :
    charAt (chars.setIfInBounds i c) j = if j = i then c else charAt chars j := by
  rw [charAt, charAt, Vector.getElem?_setIfInBounds]
  rcases eq_or_ne j i with rfl | hne
  · simp [hi]
  · simp [hne, hne.symm]

lemma charAt_replicate {n : ℕ} (i : ℕ) : charAt (Vector.replicate n 0) i = 0 := by
  rw [charAt, Vector.getElem?_replicate]
  split <;> rfl

lemma radiotextBuffer_eq_none {state : RdsParserState K} {i : ℕ} :
    radiotextBuffer state i = none ↔ maskSeen state.radiotextSeenMask i = false := by
  simp [radiotextBuffer]

/-- The parser has received the slots `received`, and in them nothing but the message. -/
structure Assembled (message : List UInt8) (received : ℕ → Prop) (state : RdsParserState K) :
    Prop where
  blank : RadiotextBlank state
  agrees : Agrees 0 64 message (radiotextBuffer state)
  received_iff : ∀ i, (radiotextBuffer state i).isSome ↔ received i

/-! ### Completeness -/

/-- A seen character other than a blank. -/
def visibleAt (state : RdsParserState K) (i : ℕ) : Bool :=
  maskSeen state.radiotextSeenMask i && charAt state.info.radiotext i ≠ 0x20

/-- The scan passes over slots that do not end the text. -/
lemma rdsRadiotextScan_append (state : RdsParserState K) (rest : List ℕ) :
    ∀ (slots : List ℕ) (hasNonSpace : Bool), (∀ i ∈ slots, radiotextBuffer state i ≠ some 0) →
      rdsRadiotextScan state (slots ++ rest) hasNonSpace
        = rdsRadiotextScan state rest (hasNonSpace || slots.any (visibleAt state)) := by
  intro slots
  induction slots with
  | nil => intro hasNonSpace _; simp
  | cons i slots ih =>
    intro hasNonSpace hslots
    have hi := hslots i List.mem_cons_self
    have hrest := fun b => ih b fun j hj => hslots j (List.mem_cons_of_mem i hj)
    rw [List.cons_append, rdsRadiotextScan, List.any_cons]
    cases hseen : maskSeen state.radiotextSeenMask i with
    | false => simp [hrest, visibleAt, hseen]
    | true =>
      have hchar : charAt state.info.radiotext i ≠ 0 := by
        simpa [radiotextBuffer, hseen] using hi
      simp [hrest, visibleAt, hseen, hchar, Bool.or_assoc]

/-- The scan finds the end of the buffer. -/
lemma rdsRadiotextScan_endsAt {state : RdsParserState K} {e : ℕ}
    (h : EndsAt 0 64 (radiotextBuffer state) e) :
    rdsRadiotextScan state (List.range 64) false
      = (if e < 64 then some e else none, (List.range e).any (visibleAt state)) := by
  have hbefore : ∀ i ∈ List.range e, radiotextBuffer state i ≠ some 0 :=
    fun i hi => h.before i (List.mem_range.mp hi)
  rcases h.le.lt_or_eq with hlt | rfl
  · obtain ⟨n, hn⟩ := Nat.exists_eq_add_of_lt hlt
    have hsplit : List.range 64 = List.range e ++ e :: List.range' (e + 1) n := by
      rw [hn, List.range_eq_range', List.range_eq_range', Nat.add_assoc, ← List.range'_append_1,
        Nat.zero_add, List.range'_succ]
    have hstop := h.stop hlt
    rw [radiotextBuffer, Option.ite_none_right_eq_some, Option.some_inj] at hstop
    rw [hsplit, rdsRadiotextScan_append _ _ _ _ hbefore, rdsRadiotextScan, hstop.1, hstop.2,
      if_pos hlt]
    simp
  · have hscan := rdsRadiotextScan_append state [] (List.range 64) false hbefore
    rw [List.append_nil] at hscan
    rw [hscan, rdsRadiotextScan, if_neg (lt_irrefl _), Bool.false_or]

/-- Up to its end the buffer is filled where characters have been seen. -/
lemma filled_iff_seen {state : RdsParserState K} {e : ℕ}
    (h : EndsAt 0 64 (radiotextBuffer state) e) :
    Filled 0 (radiotextBuffer state) e ↔
      (List.range e).all (maskSeen state.radiotextSeenMask ·) = true := by
  simp only [List.all_eq_true, List.mem_range]
  constructor
  · intro hfilled i hi
    obtain ⟨c, hc, -⟩ := hfilled i hi
    exact (Option.ite_none_right_eq_some.mp hc).1
  · intro hseen i hi
    have hbuffer : radiotextBuffer state i = some (charAt state.info.radiotext i) :=
      if_pos (hseen i hi)
    exact ⟨_, hbuffer, fun hzero => h.before i hi (by rw [hbuffer, hzero])⟩

lemma allOnes_iff_seen (mask : BitVec 64) :
    mask = BitVec.allOnes 64 ↔ (List.range 64).all (maskSeen mask ·) = true := by
  simp only [List.all_eq_true, List.mem_range]
  constructor
  · rintro rfl i hi
    rw [maskSeen_eq, BitVec.getLsbD_allOnes, decide_eq_true hi]
  · intro hseen
    refine BitVec.eq_of_getLsbD_eq fun i hi => ?_
    rw [← maskSeen_eq, hseen i hi, BitVec.getLsbD_allOnes, decide_eq_true hi]

/-- The text shows something if a visible character has been seen. -/
lemma visible_iff {state : RdsParserState K} {e : ℕ} (h : EndsAt 0 64 (radiotextBuffer state) e)
    (hfilled : Filled 0 (radiotextBuffer state) e) :
    (∃ c ∈ text 0 64 (radiotextBuffer state), c ≠ 0x20) ↔
      (List.range e).any (visibleAt state) = true := by
  simp only [h.mem_text_iff hfilled, List.any_eq_true, List.mem_range]
  constructor
  · rintro ⟨c, ⟨i, hi, hc⟩, hne⟩
    obtain ⟨hseen, hchar⟩ := Option.ite_none_right_eq_some.mp hc
    rw [Option.some_inj] at hchar
    exact ⟨i, hi, by simp [visibleAt, hseen, hchar, hne]⟩
  · rintro ⟨i, hi, hvisible⟩
    rw [visibleAt, Bool.and_eq_true, decide_eq_true_iff] at hvisible
    exact ⟨charAt state.info.radiotext i, ⟨i, hi, if_pos hvisible.1⟩, hvisible.2⟩

/-- **When the parser holds a radiotext to be complete**: it is filled up to its end and not blank.
-/
theorem rdsParserRadiotextIsComplete_iff (state : RdsParserState K) :
    rdsParserRadiotextIsComplete state = true ↔
      Complete 0 64 (radiotextBuffer state) ∧
        ∃ c ∈ text 0 64 (radiotextBuffer state), c ≠ 0x20 := by
  obtain ⟨e, hend⟩ := exists_endsAt 0 64 (radiotextBuffer state)
  rw [hend.complete_iff]
  unfold rdsParserRadiotextIsComplete
  rw [rdsRadiotextScan_endsAt hend]
  by_cases hfilled : Filled 0 (radiotextBuffer state) e
  · have hall := (filled_iff_seen hend).mp hfilled
    rw [and_iff_right hfilled, visible_iff hend hfilled]
    by_cases hfirst : charAt state.info.radiotext 0 = 0
    · have he : e = 0 := by
        by_contra hne
        obtain ⟨c, hc, hzero⟩ := hfilled 0 (Nat.pos_of_ne_zero hne)
        obtain ⟨-, hchar⟩ := Option.ite_none_right_eq_some.mp hc
        rw [Option.some_inj, hfirst] at hchar
        exact hzero hchar.symm
      subst he
      simp [hfirst]
    · rw [if_neg hfirst]
      rcases hend.le.lt_or_eq with hlt | rfl
      · rw [if_pos hlt]
        dsimp only
        rw [if_pos hall]
      · have hagain : (List.range 64).any (fun i => charAt state.info.radiotext i ≠ 0x20)
            = (List.range 64).any (visibleAt state) := by
          rw [Bool.eq_iff_iff, List.any_eq_true, List.any_eq_true]
          refine exists_congr fun i => and_congr_right fun hi => ?_
          rw [visibleAt, List.all_eq_true.mp hall i hi, Bool.true_and]
        rw [if_neg (lt_irrefl _)]
        dsimp only
        rw [if_neg (not_not.mpr ((allOnes_iff_seen _).mpr hall)), if_pos hall, hagain, Bool.or_self]
  · have hnone := (filled_iff_seen hend).not.mp hfilled
    refine iff_of_false ?_ fun h => hfilled h.1
    by_cases hfirst : charAt state.info.radiotext 0 = 0
    · simp [hfirst]
    · rw [if_neg hfirst]
      rcases hend.le.lt_or_eq with hlt | rfl
      · rw [if_pos hlt]
        dsimp only
        rw [if_neg hnone]
        exact Bool.false_ne_true
      · rw [if_neg (lt_irrefl _)]
        dsimp only
        rw [if_pos ((allOnes_iff_seen _).not.mpr hnone)]
        exact Bool.false_ne_true

/-- The C string in the radiotext array is the text in the buffer. -/
lemma cString_radiotext {state : RdsParserState K} (h : RadiotextBlank state) :
    cString state.info.radiotext.toList = text 0 64 (radiotextBuffer state) := by
  have hslot (i : ℕ) : (radiotextBuffer state i).getD 0 = charAt state.info.radiotext i := by
    cases hbuffer : radiotextBuffer state i with
    | none => rw [h i hbuffer, Option.getD_none]
    | some c =>
      obtain ⟨-, hchar⟩ := Option.ite_none_right_eq_some.mp hbuffer
      rw [Option.some_inj] at hchar
      rw [hchar, Option.getD_some]
  have hlist : state.info.radiotext.toList
      = ((List.range 64).map fun i => (radiotextBuffer state i).getD 0) ++ [0] := by
    have hlast : charAt state.info.radiotext 64 = 0 :=
      h 64 (radiotextBuffer_eq_none.mpr (maskSeen_eq_false _ le_rfl))
    refine List.ext_getElem (by simp) fun i hi hi' => ?_
    have hchar : state.info.radiotext.toList[i] = charAt state.info.radiotext i := by
      rw [Vector.length_toList] at hi
      simp [charAt, hi]
    rw [hchar]
    rw [Vector.length_toList] at hi
    rcases Nat.lt_or_ge i 64 with hlt | hge
    · rw [List.getElem_append_left (by simpa using hlt), List.getElem_map, List.getElem_range,
        hslot]
    · obtain rfl : i = 64 := by omega
      rw [hlast, List.getElem_append_right (by simp)]
      simp
  rw [cString, hlist, text, List.takeWhile_append]
  split_ifs with hlen
  · rw [List.takeWhile_cons_of_neg (by simp), List.append_nil]
    exact ((List.takeWhile_prefix _).eq_of_length hlen).symm
  · rfl

/-! ### Groups -/

/-- A group of type 2 that the parser does not ignore. -/
def IsRadiotextGroup (group : RdsGroup K) : Prop :=
  rdsGroupIsAccepted group = true ∧ rdsGetGroupTypeNumber (group.blocks 1).data = 2

/-- Version B as opposed to version A. -/
def groupIsB (group : RdsGroup K) : Bool := rdsGetGroupVersionIsB (group.blocks 1).data

def groupAb (group : RdsGroup K) : Bool := rdsGetTextAb (group.blocks 1).data

/-- The slot of the first character a radiotext group carries. -/
def textPosition (group : RdsGroup K) : ℕ :=
  ((group.blocks 1).data &&& 0x0F).toNat * if groupIsB group then 2 else 4

def textChars (group : RdsGroup K) : List UInt8 :=
  if groupIsB group then blockChars (group.blocks 3).data
  else blockChars (group.blocks 2).data ++ blockChars (group.blocks 3).data

/-- The blocks that carry the text are usable. -/
def textUsable (group : RdsGroup K) : Bool :=
  rdsBlockIsUsableForText (group.blocks 1) &&
    (groupIsB group || rdsBlockIsUsableForText (group.blocks 2)) &&
    rdsBlockIsUsableForText (group.blocks 3)

/-- A segment lies within the text of its version. -/
lemma textPosition_add_length (group : RdsGroup K) :
    textPosition group + (textChars group).length ≤ if groupIsB group then 32 else 64 := by
  have hsegment : ((group.blocks 1).data &&& 0x0F).toNat ≤ 15 := by
    rw [BitVec.toNat_and]
    exact Nat.and_le_right
  unfold textPosition textChars
  cases groupIsB group with
  | false =>
    have hlen : (blockChars (group.blocks 2).data ++ blockChars (group.blocks 3).data).length = 4 :=
      rfl
    simp only [Bool.false_eq_true, if_false, hlen]
    omega
  | true =>
    have hlen : (blockChars (group.blocks 3).data).length = 2 := rfl
    simp only [if_true, hlen]
    omega

/-- Two states with the same radiotext. -/
structure SameText (s t : RdsParserState K) : Prop where
  text : t.info.radiotext = s.info.radiotext
  mask : t.radiotextSeenMask = s.radiotextSeenMask
  ab : t.radiotextAb = s.radiotextAb
  valid : t.radiotextAbValid = s.radiotextAbValid

lemma SameText.refl (s : RdsParserState K) : SameText s s := ⟨rfl, rfl, rfl, rfl⟩

lemma SameText.trans {s t u : RdsParserState K} (h : SameText s t) (h' : SameText t u) :
    SameText s u :=
  ⟨h'.text.trans h.text, h'.mask.trans h.mask, h'.ab.trans h.ab, h'.valid.trans h.valid⟩

/-- They also agree on the qualities with which it was received. -/
structure SameReception (s t : RdsParserState K) : Prop extends SameText s t where
  quality : t.radiotextQuality = s.radiotextQuality

lemma SameReception.refl (s : RdsParserState K) : SameReception s s := ⟨.refl s, rfl⟩

lemma SameReception.trans {s t u : RdsParserState K} (h : SameReception s t)
    (h' : SameReception t u) : SameReception s u :=
  ⟨h.toSameText.trans h'.toSameText, h'.quality.trans h.quality⟩

lemma SameText.buffer {s t : RdsParserState K} (h : SameText s t) :
    radiotextBuffer t = radiotextBuffer s := by
  unfold radiotextBuffer
  rw [h.text, h.mask]

variable [RoundedOps K] [LinearOrder K]

/-! ### Storing characters -/

/-- One character: it is stored unless a different one of better quality is there. -/
lemma rdsUpdateRadiotextChar_buffer (state : RdsParserState K) {i : ℕ} (hi : i < 64) (char : UInt8)
    (quality : K) :
    ∃ c, radiotextBuffer (rdsUpdateRadiotextChar state i char quality)
        = Function.update (radiotextBuffer state) i (some c) ∧
      ((∀ c', radiotextBuffer state i = some c' → c' = rdsSanitizeChar char) →
        c = rdsSanitizeChar char) := by
  unfold rdsUpdateRadiotextChar
  dsimp only
  by_cases hkeep : maskSeen state.radiotextSeenMask i ∧ !(maskSeen state.radiotextSeenMask i &&
      decide (charAt state.info.radiotext i = rdsSanitizeChar char)) ∧
      quality < state.radiotextQuality[i]?.getD 0
  · rw [if_pos hkeep]
    have hbuffer : radiotextBuffer state i = some (charAt state.info.radiotext i) := if_pos hkeep.1
    refine ⟨charAt state.info.radiotext i, ?_, fun h => h _ hbuffer⟩
    rw [← hbuffer, Function.update_eq_self]
  · rw [if_neg hkeep]
    refine ⟨rdsSanitizeChar char, ?_, fun _ => rfl⟩
    funext j
    simp only [radiotextBuffer, maskSeen_or _ hi, charAt_setIfInBounds _ (by omega : i < 65)]
    rcases eq_or_ne j i with rfl | hne
    · simp
    · simp [hne, radiotextBuffer]

lemma rdsUpdateRadiotextChar_blank {state : RdsParserState K} (h : RadiotextBlank state) {i : ℕ}
    (hi : i < 64) (char : UInt8) (quality : K) :
    RadiotextBlank (rdsUpdateRadiotextChar state i char quality) := by
  intro j hj
  rw [radiotextBuffer_eq_none] at hj
  unfold rdsUpdateRadiotextChar at hj ⊢
  dsimp only at hj ⊢
  by_cases hkeep : maskSeen state.radiotextSeenMask i ∧ !(maskSeen state.radiotextSeenMask i &&
      decide (charAt state.info.radiotext i = rdsSanitizeChar char)) ∧
      quality < state.radiotextQuality[i]?.getD 0
  · rw [if_pos hkeep] at hj ⊢
    exact h j (radiotextBuffer_eq_none.mpr hj)
  · rw [if_neg hkeep] at hj ⊢
    simp only [maskSeen_or _ hi, Bool.or_eq_false_iff, decide_eq_false_iff_not] at hj
    simp only [charAt_setIfInBounds _ (by omega : i < 65), if_neg hj.2]
    exact h j (radiotextBuffer_eq_none.mpr hj.1)

/-- One character of the message, or one beyond its end. -/
lemma Assembled.char {message : List UInt8} {received : ℕ → Prop} {state : RdsParserState K}
    (h : Assembled message received state) {i : ℕ} (hi : i < 64) {char : UInt8}
    (hchar : i ≤ message.length → rdsSanitizeChar char = message.getD i 0) (quality : K) :
    Assembled message (fun j => received j ∨ j = i)
      (rdsUpdateRadiotextChar state i char quality) := by
  obtain ⟨c, hbuffer, hc⟩ := rdsUpdateRadiotextChar_buffer state hi char quality
  refine ⟨rdsUpdateRadiotextChar_blank h.blank hi char quality, ?_, fun j => ?_⟩
  · rw [hbuffer]
    refine h.agrees.update fun hle => ?_
    rw [← hchar hle]
    exact hc fun c' hc' => (h.agrees i hle hi c' hc').trans (hchar hle).symm
  · rw [hbuffer]
    rcases eq_or_ne j i with rfl | hne
    · simp
    · rw [Function.update_of_ne hne, h.received_iff]
      simp [hne]

/-- The characters of a segment. -/
lemma Assembled.loop {message : List UInt8} (quality : K) :
    ∀ (chars : List UInt8) {received : ℕ → Prop} {state : RdsParserState K} {position : ℕ},
      Assembled message received state → position + chars.length ≤ 64 →
      (∀ j < chars.length, position + j ≤ message.length →
        rdsSanitizeChar (chars.getD j 0) = message.getD (position + j) 0) →
      Assembled message (fun i => received i ∨ position ≤ i ∧ i < position + chars.length)
        (rdsUpdateRadiotextLoop state position chars quality) := by
  intro chars
  induction chars with
  | nil =>
    intro received state position h _ _
    refine ⟨h.blank, h.agrees, fun i => (h.received_iff i).trans ?_⟩
    simp only [List.length_nil, Nat.add_zero]
    exact ⟨.inl, fun hor => hor.resolve_right fun hlt => absurd hlt.1 (not_le.mpr hlt.2)⟩
  | cons char chars ih =>
    intro received state position h hfits hchars
    rw [List.length_cons] at hfits hchars
    have hchar : Assembled message _ (rdsUpdateRadiotextChar state position char quality) :=
      h.char (by omega) (fun hle => hchars 0 (by omega) hle) quality
    have hrest := @ih _ _ (position + 1) hchar (by omega) fun j hj hle => by
      have hj' := hchars (j + 1) (by omega) (by omega)
      rwa [List.getD_cons_succ, ← Nat.add_assoc, Nat.add_right_comm] at hj'
    rw [rdsUpdateRadiotextLoop, if_neg (by omega)]
    refine ⟨hrest.blank, hrest.agrees, fun i => (hrest.received_iff i).trans ?_⟩
    rw [List.length_cons, or_assoc]
    refine or_congr_right ?_
    omega

/-- The end of the array is not one of the slots. -/
lemma Assembled.chars {message : List UInt8} {received : ℕ → Prop} {state : RdsParserState K}
    (h : Assembled message received state) {position : ℕ} {chars : List UInt8}
    (hfits : position + chars.length ≤ 64)
    (hchars : ∀ j < chars.length, position + j ≤ message.length →
      rdsSanitizeChar (chars.getD j 0) = message.getD (position + j) 0) (quality : K) :
    Assembled message (fun i => received i ∨ position ≤ i ∧ i < position + chars.length)
      (rdsUpdateRadiotextChars state position chars quality) := by
  have hloop := h.loop quality chars hfits hchars
  have hsame : radiotextBuffer (rdsUpdateRadiotextChars state position chars quality)
      = radiotextBuffer (rdsUpdateRadiotextLoop state position chars quality) := by
    funext i
    simp only [radiotextBuffer, rdsUpdateRadiotextChars,
      charAt_setIfInBounds _ (by omega : 64 < 65)]
    rcases eq_or_ne i 64 with rfl | hne
    · simp [maskSeen_eq_false]
    · rw [if_neg hne]
  refine ⟨fun i hi => ?_, hsame ▸ hloop.agrees, hsame ▸ hloop.received_iff⟩
  rw [hsame] at hi
  simp only [rdsUpdateRadiotextChars, charAt_setIfInBounds _ (by omega : 64 < 65)]
  split_ifs
  · rfl
  · exact hloop.blank i hi

/-! ### Processing a group -/

/-- The quality with which the text of a group was received. -/
def textQuality (group : RdsGroup K) : K :=
  if groupIsB group then rdsGroupTextQuality (group.blocks 1) (group.blocks 3)
  else rdsGroupTextQuality2a (group.blocks 1) (group.blocks 2) (group.blocks 3)

lemma rdsProcessRadiotextGroup_eq (state : RdsParserState K) (group : RdsGroup K) :
    rdsProcessRadiotextGroup state group =
      if textUsable group then
        rdsUpdateRadiotextChars (rdsUpdateTextAb state (groupAb group)) (textPosition group)
          (textChars group) (textQuality group)
      else rdsUpdateTextAb state (groupAb group) := by
  unfold rdsProcessRadiotextGroup textUsable textPosition textChars textQuality
  dsimp only
  cases hversion : groupIsB group with
  | false =>
    rw [groupIsB] at hversion
    simp [hversion, groupAb, and_assoc]
  | true =>
    rw [groupIsB] at hversion
    simp [hversion, groupAb]

lemma rdsUpdatePs_sameReception (state : RdsParserState K) (block2 block4 : BitVec 16)
    (quality : K) : SameReception state (rdsUpdatePs state block2 block4 quality) := by
  unfold rdsUpdatePs
  dsimp only
  by_cases hkeep : maskSeen state.psSeenMask (block2 &&& 0x03).toNat ∧
      !(maskSeen state.psSeenMask (block2 &&& 0x03).toNat &&
        decide (charAt state.info.ps ((block2 &&& 0x03).toNat * 2)
          = rdsSanitizeChar ((blockChars block4).getD 0 0)) &&
        decide (charAt state.info.ps ((block2 &&& 0x03).toNat * 2 + 1)
          = rdsSanitizeChar ((blockChars block4).getD 1 0))) ∧
      quality < state.psSegmentQuality[(block2 &&& 0x03).toNat]?.getD 0
  · rw [if_pos hkeep]
    exact .refl state
  · rw [if_neg hkeep]
    exact ⟨⟨rfl, rfl, rfl, rfl⟩, rfl⟩

lemma rdsProcessPsGroup_sameReception (state : RdsParserState K) (group : RdsGroup K) :
    SameReception state (rdsProcessPsGroup state group) := by
  unfold rdsProcessPsGroup
  dsimp only
  by_cases husable : rdsBlockIsUsableForText (group.blocks 1) ∧
      rdsBlockIsUsableForText (group.blocks 3)
  · rw [if_pos husable]
    refine SameReception.trans ?_ (rdsUpdatePs_sameReception _ _ _ _)
    exact ⟨⟨rfl, rfl, rfl, rfl⟩, rfl⟩
  · rw [if_neg husable]
    exact ⟨⟨rfl, rfl, rfl, rfl⟩, rfl⟩

/-- What a group does to the radiotext and its qualities. -/
lemma rdsParserProcessGroup_sameReception (state : RdsParserState K) (group : RdsGroup K) :
    ∃ t, SameReception state t ∧
      (IsRadiotextGroup group →
        SameReception (rdsProcessRadiotextGroup t group) (rdsParserProcessGroup state group).1) ∧
      (¬IsRadiotextGroup group → SameReception state (rdsParserProcessGroup state group).1) := by
  unfold rdsParserProcessGroup
  dsimp only
  cases haccepted : rdsGroupIsAccepted group with
  | false =>
    refine ⟨state, .refl state, fun h => ?_, fun _ => .refl state⟩
    rw [IsRadiotextGroup, haccepted] at h
    exact absurd h.1 Bool.false_ne_true
  | true =>
    have hstation : SameReception state (rdsUpdateStation state group) :=
      ⟨⟨rfl, rfl, rfl, rfl⟩, rfl⟩
    have hps : SameReception state (if rdsGetGroupTypeNumber (group.blocks 1).data = 0 then
        rdsProcessPsGroup (rdsUpdateStation state group) group
        else rdsUpdateStation state group) := by
      split_ifs
      · exact hstation.trans (rdsProcessPsGroup_sameReception _ _)
      · exact hstation
    refine ⟨_, hps, fun h => ?_, fun h => ?_⟩
    · simp only [Bool.not_true, Bool.false_eq_true, if_false, if_pos h.2]
      exact ⟨⟨rfl, rfl, rfl, rfl⟩, rfl⟩
    · have htype : rdsGetGroupTypeNumber (group.blocks 1).data ≠ 2 :=
        fun htwo => h ⟨haccepted, htwo⟩
      simp only [Bool.not_true, Bool.false_eq_true, if_false, if_neg htype]
      exact hps.trans ⟨⟨rfl, rfl, rfl, rfl⟩, rfl⟩

/-- What a group does to the radiotext. -/
lemma rdsParserProcessGroup_sameText (state : RdsParserState K) (group : RdsGroup K) :
    ∃ t, SameText state t ∧
      (IsRadiotextGroup group →
        SameText (rdsProcessRadiotextGroup t group) (rdsParserProcessGroup state group).1) ∧
      (¬IsRadiotextGroup group → SameText state (rdsParserProcessGroup state group).1) := by
  obtain ⟨t, hsame, hradiotext, hother⟩ := rdsParserProcessGroup_sameReception state group
  exact ⟨t, hsame.toSameText, fun h => (hradiotext h).toSameText, fun h => (hother h).toSameText⟩

/-! ### A transmission -/

/-- A text of at most `capacity` characters, with something to see in it. -/
structure RadiotextMessage (capacity : ℕ) where
  text : List UInt8
  length_le : text.length ≤ capacity
  no_terminator : ∀ c ∈ text, c ≠ 0 ∧ c ≠ 0x0d ∧ c ≠ 0x0a
  visible : ∃ c ∈ text, isprint c = true ∧ c ≠ 0x20

namespace RadiotextMessage

variable {capacity : ℕ}

/-- The message with its unprintable characters replaced by blanks. -/
def sanitised (message : RadiotextMessage capacity) : List UInt8 :=
  message.text.map fun c => if isprint c then c else 0x20

/-- The characters of the group are those of the message, and a carriage return behind it. -/
def CarriedBy (message : RadiotextMessage capacity) (group : RdsGroup K) : Prop :=
  ∀ j < (textChars group).length, textPosition group + j ≤ message.text.length →
    (textChars group).getD j 0 = message.text.getD (textPosition group + j) 0x0d

lemma length_sanitised (message : RadiotextMessage capacity) :
    message.sanitised.length = message.text.length := List.length_map _

lemma sanitised_getD (message : RadiotextMessage capacity) (i : ℕ) :
    message.sanitised.getD i 0 = rdsSanitizeChar (message.text.getD i 0x0d) := by
  rcases Nat.lt_or_ge i message.text.length with hlt | hge
  · obtain ⟨h0, hcr, hlf⟩ := message.no_terminator _ (List.getElem_mem hlt)
    rw [List.getD_eq_getElem _ _ (by rwa [length_sanitised]), List.getD_eq_getElem _ _ hlt,
      rdsSanitizeChar, if_neg (by simp [h0, hcr, hlf])]
    simp [sanitised]
  · rw [List.getD_eq_default _ _ (by rwa [length_sanitised]), List.getD_eq_default _ _ hge]
    rfl

lemma nul_notMem_sanitised (message : RadiotextMessage capacity) : 0 ∉ message.sanitised := by
  rw [sanitised, List.mem_map]
  rintro ⟨c, hc, hzero⟩
  split_ifs at hzero with hprint
  · exact (message.no_terminator c hc).1 hzero
  · exact absurd hzero (by decide)

lemma exists_visible (message : RadiotextMessage capacity) : ∃ c ∈ message.sanitised, c ≠ 0x20 := by
  obtain ⟨c, hc, hprint, hne⟩ := message.visible
  exact ⟨c, List.mem_map.mpr ⟨c, hc, if_pos hprint⟩, hne⟩

end RadiotextMessage

/-- The slot has been received in a usable radiotext group. -/
def Received (groups : List (RdsGroup K)) (i : ℕ) : Prop :=
  ∃ group ∈ groups, IsRadiotextGroup group ∧ textUsable group = true ∧
    textPosition group ≤ i ∧ i < textPosition group + (textChars group).length

/-- The radiotext groups are of one version and carry the message under one flag. -/
def Carries {capacity : ℕ} (groups : List (RdsGroup K)) (versionB ab : Bool)
    (message : RadiotextMessage capacity) : Prop :=
  ∀ group ∈ groups, IsRadiotextGroup group →
    groupIsB group = versionB ∧ groupAb group = ab ∧
      (textUsable group = true → message.CarriedBy group)

/-- The group starts a new text. -/
def FlagChange (state : RdsParserState K) (group : RdsGroup K) : Prop :=
  IsRadiotextGroup group ∧
    (state.radiotextAbValid = false ∨ state.radiotextAb ≠ groupAb group)

def rdsParserRun (state : RdsParserState K) (groups : List (RdsGroup K)) : RdsParserState K :=
  groups.foldl (fun state group => (rdsParserProcessGroup state group).1) state

lemma rdsParserRun_concat (state : RdsParserState K) (groups : List (RdsGroup K))
    (group : RdsGroup K) : rdsParserRun state (groups ++ [group])
      = (rdsParserProcessGroup (rdsParserRun state groups) group).1 :=
  List.foldl_append

/-- The parser assembles the message under the given flag. -/
structure Assembling (ab : Bool) (message : List UInt8) (received : ℕ → Prop)
    (state : RdsParserState K) : Prop where
  valid : state.radiotextAbValid = true
  ab : state.radiotextAb = ab
  assembled : Assembled message received state

omit [RoundedOps K] [LinearOrder K] in
lemma Assembling.congr {ab : Bool} {message : List UInt8} {received : ℕ → Prop}
    {s t : RdsParserState K} (h : Assembling ab message received s) (hsame : SameText s t) :
    Assembling ab message received t := by
  obtain ⟨blank, agrees, received_iff⟩ := h.assembled
  refine ⟨hsame.valid.trans h.valid, hsame.ab.trans h.ab, ?_, ?_, ?_⟩
  · intro i hi
    rw [hsame.buffer] at hi
    rw [hsame.text]
    exact blank i hi
  · rw [hsame.buffer]
    exact agrees
  · rw [hsame.buffer]
    exact received_iff

omit [RoundedOps K] [LinearOrder K] in
lemma Assembling.received_congr {ab : Bool} {message : List UInt8} {received received' : ℕ → Prop}
    {state : RdsParserState K} (h : Assembling ab message received state)
    (hiff : ∀ i, received i ↔ received' i) : Assembling ab message received' state :=
  ⟨h.valid, h.ab, h.assembled.blank, h.assembled.agrees,
    fun i => (h.assembled.received_iff i).trans (hiff i)⟩

lemma rdsUpdateRadiotextLoop_ab (quality : K) :
    ∀ (chars : List UInt8) (state : RdsParserState K) (position : ℕ),
      (rdsUpdateRadiotextLoop state position chars quality).radiotextAb = state.radiotextAb ∧
        (rdsUpdateRadiotextLoop state position chars quality).radiotextAbValid
          = state.radiotextAbValid := by
  intro chars
  induction chars with
  | nil => exact fun _ _ => ⟨rfl, rfl⟩
  | cons char chars ih =>
    intro state position
    rw [rdsUpdateRadiotextLoop]
    by_cases hend : 64 ≤ position
    · rw [if_pos hend]
      exact ⟨rfl, rfl⟩
    · rw [if_neg hend, (ih _ _).1, (ih _ _).2, rdsUpdateRadiotextChar]
      dsimp only
      split_ifs <;> exact ⟨rfl, rfl⟩

/-- A radiotext group that has set the flag stores its characters. -/
lemma Assembling.group {capacity : ℕ} {ab : Bool} {message : RadiotextMessage capacity}
    {received : ℕ → Prop} {state : RdsParserState K} {group : RdsGroup K}
    (h : Assembling ab message.sanitised received (rdsUpdateTextAb state (groupAb group)))
    (hcarried : textUsable group = true → message.CarriedBy group) :
    Assembling ab message.sanitised
      (fun i => received i ∨ textUsable group = true ∧
        textPosition group ≤ i ∧ i < textPosition group + (textChars group).length)
      (rdsProcessRadiotextGroup state group) := by
  rw [rdsProcessRadiotextGroup_eq]
  cases husable : textUsable group with
  | false =>
    simp only [Bool.false_eq_true, if_false, false_and, or_false]
    exact h
  | true =>
    have hfits : textPosition group + (textChars group).length ≤ 64 := by
      refine (textPosition_add_length group).trans ?_
      split_ifs <;> omega
    have hchars := h.assembled.chars hfits (fun j hj hle => by
      rw [message.length_sanitised] at hle
      rw [hcarried husable j hj hle, message.sanitised_getD]) (textQuality group)
    have hab := rdsUpdateRadiotextLoop_ab (textQuality group) (textChars group)
      (rdsUpdateTextAb state (groupAb group)) (textPosition group)
    simp only [if_true, true_and]
    exact ⟨hab.2.trans h.valid, hab.1.trans h.ab, hchars⟩

/-- One group of the transmission. -/
lemma Assembling.step {capacity : ℕ} {versionB ab : Bool} {message : RadiotextMessage capacity}
    {received : ℕ → Prop} {state : RdsParserState K}
    (h : Assembling ab message.sanitised received state) {group : RdsGroup K}
    (hcarries : Carries [group] versionB ab message) :
    Assembling ab message.sanitised (fun i => received i ∨ Received [group] i)
      (rdsParserProcessGroup state group).1 := by
  obtain ⟨t, hsame, hradiotext, hother⟩ := rdsParserProcessGroup_sameText state group
  by_cases hgroup : IsRadiotextGroup group
  · obtain ⟨-, hab, hcarried⟩ := hcarries group List.mem_cons_self hgroup
    have ht := h.congr hsame
    have hkeep : rdsUpdateTextAb t (groupAb group) = t :=
      if_neg (by simp [ht.valid, ht.ab, hab])
    rw [← hkeep] at ht
    refine ((ht.group hcarried).congr (hradiotext hgroup)).received_congr fun i => ?_
    simp [Received, hgroup]
  · refine (h.congr (hother hgroup)).received_congr fun i => ?_
    simp [Received, hgroup]

lemma Assembling.run {capacity : ℕ} {versionB ab : Bool} {message : RadiotextMessage capacity} :
    ∀ (groups : List (RdsGroup K)) {received : ℕ → Prop} {state : RdsParserState K},
      Assembling ab message.sanitised received state → Carries groups versionB ab message →
      Assembling ab message.sanitised (fun i => received i ∨ Received groups i)
        (rdsParserRun state groups) := by
  intro groups
  induction groups with
  | nil =>
    intro received state h _
    exact h.received_congr fun i => by simp [Received]
  | cons group groups ih =>
    intro received state h hcarries
    have hfirst : Carries [group] versionB ab message := fun g hg =>
      hcarries g (List.mem_cons.mpr (.inl (List.mem_singleton.mp hg)))
    have hstep := h.step hfirst
    have hrun := ih hstep fun g hg => hcarries g (List.mem_cons_of_mem group hg)
    exact hrun.received_congr fun i => by simp [Received, or_assoc]

/-- **What is assembled from a transmission.** -/
theorem assembling_run {capacity : ℕ} {versionB : Bool} {message : RadiotextMessage capacity}
    {state : RdsParserState K} {first : RdsGroup K} {rest : List (RdsGroup K)}
    (hfirst : FlagChange state first)
    (hcarries : Carries (first :: rest) versionB (groupAb first) message) :
    Assembling (groupAb first) message.sanitised (Received (first :: rest))
      (rdsParserRun state (first :: rest)) := by
  obtain ⟨t, hsame, hradiotext, -⟩ := rdsParserProcessGroup_sameText state first
  obtain ⟨-, -, hcarried⟩ := hcarries first List.mem_cons_self hfirst.1
  have hclear : rdsUpdateTextAb t (groupAb first) = rdsClearRadiotext
      { t with radiotextAb := groupAb first, radiotextAbValid := true } := by
    refine if_pos ?_
    rw [hsame.valid, hsame.ab]
    simpa using hfirst.2
  have hstart : Assembling (groupAb first) message.sanitised (fun _ => False)
      (rdsUpdateTextAb t (groupAb first)) := by
    have hnone : radiotextBuffer (rdsUpdateTextAb t (groupAb first)) = fun _ => none := by
      rw [hclear]
      funext i
      rw [radiotextBuffer_eq_none, maskSeen_eq]
      exact BitVec.getLsbD_zero
    refine ⟨by rw [hclear]; rfl, by rw [hclear]; rfl, fun i _ => ?_, ?_, fun i => ?_⟩
    · rw [hclear]
      exact charAt_replicate i
    · rw [hnone]
      exact agrees_empty _ _ _
    · simp [hnone]
  have hfirst' := ((hstart.group hcarried).congr (hradiotext hfirst.1)).run rest fun g hg =>
    hcarries g (List.mem_cons_of_mem first hg)
  exact hfirst'.received_congr fun i => by simp [Received, hfirst.1]

omit [RoundedOps K] [LinearOrder K] in
/-- When the text of a transmission is complete, and what it reads. -/
lemma assembling_complete {capacity : ℕ} (hcapacity : capacity ≤ 64) {ab : Bool}
    {message : RadiotextMessage capacity} {received : ℕ → Prop} {state : RdsParserState K}
    (h : Assembling ab message.sanitised received state) :
    (rdsParserHasCompleteRadiotext state = true ↔
        ∀ i ≤ message.text.length, i < 64 → received i) ∧
      ((∀ i ≤ message.text.length, i < 64 → received i) →
        cString state.info.radiotext.toList = message.sanitised) := by
  have hlen : message.sanitised.length ≤ 64 := by
    rw [message.length_sanitised]
    exact message.length_le.trans hcapacity
  have hreceived : (∀ i ≤ message.sanitised.length, i < 64 → (radiotextBuffer state i).isSome) ↔
      ∀ i ≤ message.text.length, i < 64 → received i := by
    rw [message.length_sanitised]
    exact forall_congr' fun i => imp_congr_right fun _ => imp_congr_right fun _ =>
      h.assembled.received_iff i
  have htext (hall : ∀ i ≤ message.text.length, i < 64 → received i) :=
    text_eq hlen message.nul_notMem_sanitised h.assembled.agrees (hreceived.mpr hall)
  constructor
  · rw [rdsParserHasCompleteRadiotext, rdsParserRadiotextIsComplete_iff,
      complete_iff hlen message.nul_notMem_sanitised h.assembled.agrees, hreceived]
    refine and_iff_left_of_imp fun hall => ?_
    rw [htext hall]
    exact message.exists_visible
  · intro hall
    rw [cString_radiotext h.assembled.blank, htext hall]

/-! ### Both versions -/

/-- **Version A radiotext.** The text is complete exactly when all of it has been received since the
flag changed, and then it reads as it was sent. -/
theorem rdsParserHasCompleteRadiotext_versionA (state : RdsParserState K)
    (message : RadiotextMessage 64) (first : RdsGroup K) (rest : List (RdsGroup K))
    (hfirst : FlagChange state first)
    (hcarries : Carries (first :: rest) false (groupAb first) message) :
    (rdsParserHasCompleteRadiotext (rdsParserRun state (first :: rest)) = true ↔
        ∀ i ≤ message.text.length, i < 64 → Received (first :: rest) i) ∧
      (rdsParserHasCompleteRadiotext (rdsParserRun state (first :: rest)) = true →
        cString (rdsParserRun state (first :: rest)).info.radiotext.toList =
          message.sanitised) := by
  obtain ⟨hcomplete, htext⟩ := assembling_complete le_rfl (assembling_run hfirst hcarries)
  exact ⟨hcomplete, fun h => htext (hcomplete.mp h)⟩

/-- A usable block. -/
def cleanTextBlock (data : BitVec 16) : RdsBlock ℚ := ⟨data, true, false, false, 0, 0⟩

/-- A radiotext group with flag 0 and the letter `A` throughout its segment. -/
def letterGroup (versionB : Bool) (segment : ℕ) : RdsGroup ℚ where
  blocks := ![cleanTextBlock 0x3202,
    cleanTextBlock ((if versionB then 0x2800 else 0x2000) ||| BitVec.ofNat 16 segment),
    cleanTextBlock 0x4141, cleanTextBlock 0x4141]

def letterGroups (versionB : Bool) : List (RdsGroup ℚ) :=
  letterGroup versionB 0 :: (List.range' 1 15).map (letterGroup versionB)

lemma mem_letterGroups {versionB : Bool} {group : RdsGroup ℚ} :
    group ∈ letterGroups versionB ↔ ∃ segment < 16, letterGroup versionB segment = group := by
  constructor
  · intro h
    rcases List.mem_cons.mp h with rfl | h
    · exact ⟨0, by decide, rfl⟩
    · obtain ⟨segment, hsegment, rfl⟩ := List.mem_map.mp h
      exact ⟨segment, (List.mem_range'_1.mp hsegment).2, rfl⟩
  · rintro ⟨_ | segment, hsegment, rfl⟩
    · exact List.mem_cons_self
    · refine List.mem_cons_of_mem _ (List.mem_map.mpr ⟨segment + 1, ?_, rfl⟩)
      exact List.mem_range'_1.mpr ⟨Nat.le_add_left 1 segment, hsegment⟩

/-- The message of `capacity` letters `A`. -/
def letterMessage (capacity : ℕ) (hpos : 0 < capacity) : RadiotextMessage capacity where
  text := List.replicate capacity 0x41
  length_le := by rw [List.length_replicate]
  no_terminator c hc := by
    rw [List.eq_of_mem_replicate hc]
    decide
  visible := ⟨0x41, List.mem_replicate.mpr ⟨hpos.ne', rfl⟩, by decide⟩

lemma letterGroup_fields (versionB : Bool) : ∀ segment < 16,
    groupIsB (letterGroup versionB segment) = versionB ∧
      groupAb (letterGroup versionB segment) = false ∧
      rdsGetGroupTypeNumber ((letterGroup versionB segment).blocks 1).data = 2 ∧
      textPosition (letterGroup versionB segment) = segment * if versionB then 2 else 4 := by
  cases versionB <;> decide

lemma letterGroups_carry (versionB : Bool) {capacity : ℕ} (hpos : 0 < capacity)
    (hcapacity : capacity = if versionB then 32 else 64) :
    Carries (letterGroups versionB) versionB false (letterMessage capacity hpos) := by
  intro group hgroup _
  obtain ⟨segment, hsegment, rfl⟩ := mem_letterGroups.mp hgroup
  obtain ⟨hversion, hab, -, -⟩ := letterGroup_fields versionB segment hsegment
  refine ⟨hversion, hab, fun _ j hj _ => ?_⟩
  have hfits := textPosition_add_length (letterGroup versionB segment)
  rw [hversion, ← hcapacity] at hfits
  have hchars : ∀ c ∈ textChars (letterGroup versionB segment), c = 0x41 := by
    rw [textChars, hversion]
    cases versionB <;> simp [letterGroup, cleanTextBlock, blockChars]
  have hmessage : (letterMessage capacity hpos).text.getD
      (textPosition (letterGroup versionB segment) + j) 0x0d = 0x41 :=
    List.getD_replicate _ (by omega)
  rw [hmessage, List.getD_eq_getElem _ _ hj]
  exact hchars _ (List.getElem_mem hj)

lemma letterGroups_received (versionB : Bool) {i : ℕ} (hi : i < if versionB then 32 else 64) :
    Received (letterGroups versionB) i := by
  have hsegment : i / (if versionB then 2 else 4) < 16 := by
    cases versionB <;> simp at hi ⊢ <;> omega
  obtain ⟨hversion, -, htype, hposition⟩ := letterGroup_fields versionB _ hsegment
  refine ⟨_, mem_letterGroups.mpr ⟨_, hsegment, rfl⟩, ⟨rfl, htype⟩, ?_, ?_⟩
  · rw [textUsable, hversion]
    cases versionB <;> rfl
  · rw [hposition, textChars, hversion]
    cases versionB <;> simp [blockChars] <;> omega

theorem rdsParserHasCompleteRadiotext_versionA_letters :
    (rdsParserHasCompleteRadiotext (rdsParserRun rdsParserInit (letterGroups false)) = true ↔
        ∀ i ≤ (letterMessage 64 (by decide)).text.length, i < 64 →
          Received (letterGroups false) i) ∧
      (rdsParserHasCompleteRadiotext (rdsParserRun rdsParserInit (letterGroups false)) = true →
        cString (rdsParserRun rdsParserInit (letterGroups false)).info.radiotext.toList
          = (letterMessage 64 (by decide)).sanitised) :=
  rdsParserHasCompleteRadiotext_versionA rdsParserInit (letterMessage 64 (by decide))
    (letterGroup false 0) ((List.range' 1 15).map (letterGroup false))
    ⟨⟨rfl, rfl⟩, .inl rfl⟩ (letterGroups_carry false _ rfl)

/-- **Version B radiotext.** A text that has been received in full is complete exactly when it is
shorter than the 32 characters of its version: the parser waits for all 64 slots of version A when
there is no carriage return. -/
theorem rdsParserHasCompleteRadiotext_versionB (state : RdsParserState K)
    (message : RadiotextMessage 32) (first : RdsGroup K) (rest : List (RdsGroup K))
    (hfirst : FlagChange state first)
    (hcarries : Carries (first :: rest) true (groupAb first) message)
    (hreceived : ∀ i ≤ message.text.length, i < 32 → Received (first :: rest) i) :
    (rdsParserHasCompleteRadiotext (rdsParserRun state (first :: rest)) = true ∧
        cString (rdsParserRun state (first :: rest)).info.radiotext.toList = message.sanitised) ↔
      message.text.length < 32 := by
  obtain ⟨hcomplete, htext⟩ :=
    assembling_complete (by omega : 32 ≤ 64) (assembling_run hfirst hcarries)
  have hall : (∀ i ≤ message.text.length, i < 64 → Received (first :: rest) i) ↔
      message.text.length < 32 := by
    constructor
    · intro hall
      by_contra hge
      obtain ⟨group, hgroup, hradiotext, -, -, hlt⟩ := hall 32 (not_lt.mp hge) (by omega)
      have hfits := textPosition_add_length group
      rw [(hcarries group hgroup hradiotext).1, if_pos rfl] at hfits
      omega
    · exact fun hlt i hi _ => hreceived i hi (hi.trans_lt hlt)
  rw [hcomplete, ← hall]
  exact and_iff_left_of_imp htext

/-- A version B group with flag 0 and two characters of the text. -/
def pairGroup (segment chars : BitVec 16) : RdsGroup ℚ where
  blocks := ![cleanTextBlock 0x3202, cleanTextBlock (0x2800 ||| segment), cleanTextBlock 0x3202,
    cleanTextBlock chars]

/-- The text `RADIO`, ended by a carriage return, with its last segment first. -/
def radioGroups : List (RdsGroup ℚ) := [pairGroup 2 0x4f0d, pairGroup 0 0x5241, pairGroup 1 0x4449]

def radioMessage : RadiotextMessage 32 where
  text := [0x52, 0x41, 0x44, 0x49, 0x4f]
  length_le := by decide
  no_terminator := by decide +kernel
  visible := ⟨0x52, List.mem_cons_self, by decide⟩

lemma radioGroups_carry : Carries radioGroups true false radioMessage := by
  have hgroup : ∀ group ∈ radioGroups, groupIsB group = true ∧ groupAb group = false ∧
      RadiotextMessage.CarriedBy radioMessage group := by
    unfold radioGroups RadiotextMessage.CarriedBy
    decide
  exact fun group hmem _ =>
    ⟨(hgroup group hmem).1, (hgroup group hmem).2.1, fun _ => (hgroup group hmem).2.2⟩

theorem rdsParserHasCompleteRadiotext_versionB_radio :
    rdsParserHasCompleteRadiotext (rdsParserRun rdsParserInit radioGroups) = true ∧
      cString (rdsParserRun rdsParserInit radioGroups).info.radiotext.toList
        = [0x52, 0x41, 0x44, 0x49, 0x4f] := by
  refine (rdsParserHasCompleteRadiotext_versionB rdsParserInit radioMessage (pairGroup 2 0x4f0d)
    [pairGroup 0 0x5241, pairGroup 1 0x4449] ⟨⟨rfl, rfl⟩, .inl rfl⟩ radioGroups_carry ?_).mpr
    (by decide)
  have hreceived : ∀ i ≤ 5, ∃ group ∈ radioGroups, IsRadiotextGroup group ∧
      textUsable group = true ∧ textPosition group ≤ i ∧
      i < textPosition group + (textChars group).length := by
    unfold IsRadiotextGroup radioGroups
    decide
  exact fun i hi _ => hreceived i hi

/-- Sixteen groups carry a text of 32 letters in full, and it does not become complete. -/
theorem rdsParserHasCompleteRadiotext_versionB_letters :
    FlagChange rdsParserInit (letterGroup true 0) ∧
      Carries (letterGroups true) true false (letterMessage 32 (by decide)) ∧
      (∀ i < 32, Received (letterGroups true) i) ∧
      rdsParserHasCompleteRadiotext (rdsParserRun rdsParserInit (letterGroups true)) = false :=
  ⟨⟨⟨rfl, rfl⟩, .inl rfl⟩, letterGroups_carry true _ rfl, fun _ hi => letterGroups_received true hi,
    by decide +kernel⟩

end Mpxcast
