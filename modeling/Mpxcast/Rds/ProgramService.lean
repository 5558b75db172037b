import Mathlib.Data.List.DropRight
import Mpxcast.Core.TrimmedAssembly
import Mpxcast.Rds.Radiotext

/-!
# Programme service name assembly

The eight characters of the name arrive in four segments. `rds_trim_string` runs after each segment,
over the array the segments are put together in, so it also cuts off blanks in front of segments
that are still missing. The name comes out when every blank before its last letter has been received
again after it was last lost in this way.
-/

namespace Mpxcast

open CFloat CMemory TrimmedAssembly

/-! ### Trimming -/

section

variable {n : ℕ}

/-- The C string ends in front of the first NUL. -/
lemma lt_cString_length_iff (chars : List UInt8) (i : ℕ) :
    i < (cString chars).length ↔ ∀ j ≤ i, chars.getD j 0 ≠ 0 := by
  induction chars generalizing i with
  | nil =>
    refine iff_of_false (Nat.not_lt_zero i) fun h => h 0 (Nat.zero_le i) ?_
    exact List.getD_nil
  | cons c chars ih =>
    rw [cString, List.takeWhile_cons]
    by_cases hc : c = 0
    · rw [if_neg (by simpa using hc)]
      exact iff_of_false (Nat.not_lt_zero i) fun h => h 0 (Nat.zero_le i) hc
    · rw [if_pos (by simpa using hc), List.length_cons]
      cases i with
      | zero =>
        refine iff_of_true (Nat.succ_pos _) fun j hj => ?_
        obtain rfl := Nat.le_zero.1 hj
        exact hc
      | succ i =>
        rw [Nat.add_lt_add_iff_right, ← cString, ih i]
        constructor
        · intro h j hj
          cases j with
          | zero => exact hc
          | succ j => exact h j (Nat.le_of_succ_le_succ hj)
        · exact fun h j hj => h (j + 1) (Nat.succ_le_succ hj)

lemma charAt_eq_getD (chars : Vector UInt8 n) (i : ℕ) : charAt chars i = chars.toList.getD i 0 := by
  rw [charAt, List.getD_eq_getElem?_getD, Vector.getElem?_toList]

/-- The loop overwrites the blanks at the end. -/
lemma charAt_rdsTrimLoop (text : Vector UInt8 n) {length : ℕ} (hlength : length ≤ n) (i : ℕ) :
    charAt (rdsTrimLoop text length) i =
      if i < length ∧ ∀ j, i ≤ j → j < length → charAt text j = 0x20 then 0 else charAt text i := by
  induction length generalizing text with
  | zero => rw [rdsTrimLoop, if_neg fun h => Nat.not_lt_zero i h.1]
  | succ length ih =>
    rw [rdsTrimLoop]
    by_cases hblank : charAt text length = 0x20
    · rw [if_pos hblank, ih _ (Nat.le_of_succ_le hlength)]
      simp only [charAt_setIfInBounds text (Nat.lt_of_succ_le hlength)]
      rcases Nat.lt_trichotomy i length with hlt | rfl | hlt
      · have hiff : (∀ j, i ≤ j → j < length → (if j = length then 0 else charAt text j) = 0x20) ↔
            ∀ j, i ≤ j → j < length + 1 → charAt text j = 0x20 := by
          constructor
          · intro h j hij hj
            rcases (Nat.le_of_lt_succ hj).lt_or_eq with hjlt | rfl
            · simpa [hjlt.ne] using h j hij hjlt
            · exact hblank
          · intro h j hij hj
            rw [if_neg hj.ne]
            exact h j hij (Nat.lt_succ_of_lt hj)
        simp only [hiff, hlt, Nat.lt_succ_of_lt hlt, hlt.ne, true_and, if_false]
      · have hall : ∀ j, i ≤ j → j < i + 1 → charAt text j = 0x20 := by
          intro j hij hj
          obtain rfl : j = i := by omega
          exact hblank
        rw [if_neg (fun h => lt_irrefl _ h.1), if_pos rfl, if_pos ⟨Nat.lt_succ_self i, hall⟩]
      · rw [if_neg (by omega), if_neg hlt.ne', if_neg (by omega)]
    · rw [if_neg hblank, if_neg]
      rintro ⟨hi, hall⟩
      exact hblank (hall length (Nat.le_of_lt_succ hi) (Nat.lt_succ_self length))

/-- `rds_trim_string` overwrites the blanks at the end of the C string. -/
lemma charAt_rdsTrimString (text : Vector UInt8 n) (i : ℕ) :
    charAt (rdsTrimString text) i =
      if i < (cString text.toList).length ∧
          ∀ j, i ≤ j → j < (cString text.toList).length → charAt text j = 0x20 then 0
      else charAt text i :=
  charAt_rdsTrimLoop text ((cString_length_le _).trans_eq text.length_toList) i

end

/-! ### Names -/

/-- Eight printable characters. -/
structure ProgramServiceName where
  chars : Vector UInt8 8
  printable : ∀ i < 8, isprint (charAt chars i) = true

namespace ProgramServiceName

variable (name : ProgramServiceName)

/-- The name without the blanks at its end. -/
def trimmed : List UInt8 := name.chars.toList.rdropWhile (· = 0x20)

def Blank (i : ℕ) : Prop := charAt name.chars i = 0x20

/-- The characters that stand after the segments, newest segment first. -/
def Stands (history : List ℕ) (i : ℕ) : Prop :=
  TrimmedAssembly.Stands 8 (· / 2) name.Blank history i

def Kept (history : List ℕ) (i : ℕ) : Prop :=
  TrimmedAssembly.Kept 8 (· / 2) name.Blank history i

variable {name} {i : ℕ}

lemma char_ne_zero (hi : i < 8) : charAt name.chars i ≠ 0 := by
  intro hzero
  have hprint := name.printable i hi
  rw [hzero] at hprint
  exact absurd hprint (by decide)

/-- Printable characters are stored as they are. -/
lemma sanitize_char (hi : i < 8) : rdsSanitizeChar (charAt name.chars i) = charAt name.chars i := by
  have hprint := name.printable i hi
  unfold rdsSanitizeChar
  rw [if_neg, if_pos hprint]
  rintro (hc | hc | hc) <;> rw [hc] at hprint <;> exact absurd hprint (by decide)

lemma trimmed_append : ∃ blanks, name.trimmed ++ blanks = name.chars.toList ∧
    ∀ c ∈ blanks, c = 0x20 :=
  ⟨_, List.rdropWhile_append_rtakeWhile,
    fun c hc => by simpa using List.mem_rtakeWhile_imp hc⟩

lemma trimmed_length_le : name.trimmed.length ≤ 8 :=
  (List.rdropWhile_prefix _ _).length_le.trans_eq name.chars.length_toList

/-- The name ends with a letter once it is trimmed. -/
lemma not_blank_last (hpos : 0 < name.trimmed.length) :
    ¬ name.Blank (name.trimmed.length - 1) := by
  have hne : name.trimmed ≠ [] := List.ne_nil_of_length_pos hpos
  have hlast : ¬ decide (name.trimmed.getLast hne = 0x20) = true :=
    List.rdropWhile_last_not _ name.chars.toList hne
  obtain ⟨blanks, happend, -⟩ := name.trimmed_append
  rw [Blank, charAt_eq_getD, ← happend, List.getD_append _ _ _ _ (by omega)]
  intro hblank
  refine hlast (decide_eq_true ?_)
  rw [List.getLast_eq_getElem, ← hblank, List.getD_eq_getElem _ _ (by omega)]

lemma blank_of_ge (hi : name.trimmed.length ≤ i) (hi8 : i < 8) : name.Blank i := by
  obtain ⟨blanks, happend, hblanks⟩ := name.trimmed_append
  have hlength : name.trimmed.length + blanks.length = 8 := by
    rw [← List.length_append, happend, name.chars.length_toList]
  rw [Blank, charAt_eq_getD, ← happend, List.getD_append_right _ _ _ _ hi,
    List.getD_eq_getElem _ _ (by omega)]
  exact hblanks _ (List.getElem_mem _)

end ProgramServiceName

/-! ### Storing a segment -/

/-- The array holds the characters of the name that stand, and NUL elsewhere. -/
structure Shows (name : ProgramServiceName) (stands : ℕ → Prop) (ps : Vector UInt8 9) : Prop where
  char : ∀ i < 8, stands i → charAt ps i = charAt name.chars i
  gap : ∀ i < 8, ¬ stands i → charAt ps i = 0
  terminator : charAt ps 8 = 0

variable {name : ProgramServiceName} {stands : ℕ → Prop} {ps : Vector UInt8 9} {i : ℕ}

/-- The C string reaches as far as the name can be read. -/
lemma Shows.lt_length_iff (h : Shows name stands ps) (i : ℕ) :
    i < (cString ps.toList).length ↔ i < 8 ∧ StandsTo stands i := by
  simp only [lt_cString_length_iff, ← charAt_eq_getD]
  constructor
  · intro hne
    have hi : i < 8 := by
      by_contra hge
      exact hne 8 (by omega) h.terminator
    refine ⟨hi, fun j hj => ?_⟩
    by_contra hgap
    exact hne j hj (h.gap j (by omega) hgap)
  · rintro ⟨hi, hstands⟩ j hj
    rw [h.char j (by omega) (hstands j hj)]
    exact ProgramServiceName.char_ne_zero (by omega)

/-- Trimming cuts off the blanks that the name can be read up to. -/
lemma Shows.trim (h : Shows name stands ps) :
    Shows name (fun i => stands i ∧ ¬ Cut 8 name.Blank stands i) (rdsTrimString ps) := by
  have hcut (i : ℕ) (hi : i < 8) : (i < (cString ps.toList).length ∧
      ∀ j, i ≤ j → j < (cString ps.toList).length → charAt ps j = 0x20) ↔
        Cut 8 name.Blank stands i := by
    simp only [h.lt_length_iff, hi, true_and, Cut, ProgramServiceName.Blank]
    constructor
    · rintro ⟨hstands, hblanks⟩
      refine ⟨?_, hstands, fun k hik hk hletter hstandsk => hletter ?_⟩
      · rw [← h.char i hi (hstands i le_rfl)]
        exact hblanks i le_rfl ⟨hi, hstands⟩
      · rw [← h.char k hk (hstandsk k le_rfl)]
        exact hblanks k hik.le ⟨hk, hstandsk⟩
    · rintro ⟨hblank, hstands, hgap⟩
      refine ⟨hstands, fun j hij hj => ?_⟩
      rw [h.char j hj.1 (hj.2 j le_rfl)]
      rcases hij.eq_or_lt with rfl | hlt
      · exact hblank
      · by_contra hletter
        exact hgap j hlt hj.1 hletter hj.2
  refine ⟨fun i hi hkept => ?_, fun i hi hgap => ?_, ?_⟩
  · rw [charAt_rdsTrimString, if_neg ((hcut i hi).not.2 hkept.2)]
    exact h.char i hi hkept.1
  · rw [charAt_rdsTrimString]
    split_ifs with htrim
    · rfl
    · rw [hcut i hi] at htrim
      exact h.gap i hi fun hstands => hgap ⟨hstands, htrim⟩
  · rw [charAt_rdsTrimString, h.terminator, ite_self]

/-- The two characters of a segment are stored on top of what is there. -/
lemma Shows.store (h : Shows name stands ps) {a : ℕ} (ha : a < 4) :
    Shows name (fun i => i / 2 = a ∨ stands i)
      (((ps.setIfInBounds (a * 2) (charAt name.chars (a * 2))).setIfInBounds (a * 2 + 1)
        (charAt name.chars (a * 2 + 1))).setIfInBounds 8 0) := by
  have hchar (i : ℕ) : charAt (((ps.setIfInBounds (a * 2) (charAt name.chars
      (a * 2))).setIfInBounds (a * 2 + 1) (charAt name.chars (a * 2 + 1))).setIfInBounds 8 0) i =
        if i = 8 then 0 else if i / 2 = a then charAt name.chars i else charAt ps i := by
    rw [charAt_setIfInBounds _ (by decide), charAt_setIfInBounds _ (by omega),
      charAt_setIfInBounds _ (by omega)]
    by_cases hseg : i / 2 = a
    · have hcases : i = a * 2 ∨ i = a * 2 + 1 := by omega
      rcases hcases with rfl | rfl <;> simp [hseg]
    · rw [if_neg (by omega : ¬ i = a * 2 + 1), if_neg (by omega : ¬ i = a * 2), if_neg hseg]
  refine ⟨fun i hi hstands => ?_, fun i hi hgap => ?_, ?_⟩
  · rw [hchar, if_neg hi.ne]
    split_ifs with hseg
    · rfl
    · exact h.char i hi (hstands.resolve_left hseg)
  · rw [hchar, if_neg hi.ne, if_neg fun hseg => hgap (.inl hseg)]
    exact h.gap i hi fun hstands => hgap (.inr hstands)
  · rw [hchar, if_pos rfl]

/-! ### Groups -/

variable {K : Type*} [RoundedOps K] [LinearOrder K]

/-- The segment a group of type 0 carries. -/
def psAddress (group : RdsGroup K) : ℕ := ((group.blocks 1).data &&& 0x03).toNat

/-- A usable group of type 0 with a segment of the name, received with the given quality. -/
structure CarriesPs (name : ProgramServiceName) (quality : K) (group : RdsGroup K) : Prop where
  accepted : rdsGroupIsAccepted group = true
  type : rdsGetGroupTypeNumber (group.blocks 1).data = 0
  usable : rdsBlockIsUsableForText (group.blocks 1) = true ∧
    rdsBlockIsUsableForText (group.blocks 3) = true
  chars : blockChars (group.blocks 3).data = [charAt name.chars (psAddress group * 2),
    charAt name.chars (psAddress group * 2 + 1)]
  quality_eq : rdsGroupTextQuality (group.blocks 1) (group.blocks 3) = quality

/-- The parser after the segments of a name, newest segment first. -/
structure PsAssembled (name : ProgramServiceName) (quality : K) (history : List ℕ)
    (state : RdsParserState K) : Prop where
  shows : Shows name (name.Kept history) state.info.ps
  seen : ∀ a < 4, maskSeen state.psSeenMask a = true ↔ a ∈ history
  quality : ∀ a ∈ history, state.psSegmentQuality[a]?.getD 0 = quality

omit [RoundedOps K] [LinearOrder K] in
lemma psAddress_lt (group : RdsGroup K) : psAddress group < 4 := by
  have hle : psAddress group ≤ 3 := by
    rw [psAddress, BitVec.toNat_and]
    exact Nat.and_le_right
  omega

omit [LinearOrder K] in
lemma psAssembled_init (name : ProgramServiceName) (quality : K) :
    PsAssembled name quality [] rdsParserInit where
  shows := {
    char := fun i _ hkept => absurd hkept (not_kept_nil i)
    gap := fun i _ _ => charAt_replicate i
    terminator := charAt_replicate 8 }
  seen := by simp [rdsParserInit, maskSeen_eq]
  quality := by simp

/-- A segment of the same quality is always stored. -/
lemma PsAssembled.update {quality : K} {history : List ℕ} {state : RdsParserState K}
    (h : PsAssembled name quality history state) {block2 block4 : BitVec 16} {a : ℕ}
    (ha : (block2 &&& 0x03).toNat = a) (ha4 : a < 4)
    (hchars : blockChars block4 = [charAt name.chars (a * 2), charAt name.chars (a * 2 + 1)]) :
    PsAssembled name quality (a :: history) (rdsUpdatePs state block2 block4 quality) := by
  have hstored : ¬ (maskSeen state.psSeenMask a = true ∧
      (!(maskSeen state.psSeenMask a && decide (charAt state.info.ps (a * 2)
        = charAt name.chars (a * 2)) && decide (charAt state.info.ps (a * 2 + 1)
        = charAt name.chars (a * 2 + 1)))) = true ∧
      quality < state.psSegmentQuality[a]?.getD 0) := by
    rintro ⟨hseen, -, hlt⟩
    rw [h.quality a ((h.seen a ha4).1 hseen)] at hlt
    exact lt_irrefl _ hlt
  have hfirst : rdsSanitizeChar (charAt name.chars (a * 2)) = charAt name.chars (a * 2) :=
    ProgramServiceName.sanitize_char (by omega)
  have hsecond : rdsSanitizeChar (charAt name.chars (a * 2 + 1)) = charAt name.chars (a * 2 + 1) :=
    ProgramServiceName.sanitize_char (by omega)
  unfold rdsUpdatePs
  dsimp only
  rw [ha, hchars]
  simp only [List.getD_cons_zero, List.getD_cons_succ, hfirst, hsecond]
  rw [if_neg hstored]
  refine ⟨(h.shows.store ha4).trim, fun b hb => ?_, fun b hb => ?_⟩
  · rw [maskSeen_or _ (by omega : a < 8), Bool.or_eq_true, h.seen b hb, decide_eq_true_iff,
      List.mem_cons, or_comm]
  · rw [List.mem_cons] at hb
    cases hseen : maskSeen state.psSeenMask a with
    | true =>
      have ha' : a ∈ history := (h.seen a ha4).1 hseen
      have hb' : b ∈ history := hb.elim (fun heq => heq ▸ ha') id
      simp [h.quality a ha', h.quality b hb']
    | false =>
      simp only [Bool.not_false, true_or, if_true, Vector.getElem?_setIfInBounds]
      rcases eq_or_ne a b with rfl | hne
      · simp [ha4]
      · simpa [hne] using h.quality b (hb.resolve_left hne.symm)

/-- A group that carries a segment stores it. -/
lemma PsAssembled.group {quality : K} {history : List ℕ} {state : RdsParserState K}
    {group : RdsGroup K} (h : PsAssembled name quality history state)
    (hcarries : CarriesPs name quality group) :
    PsAssembled name quality (psAddress group :: history)
      (rdsParserProcessGroup state group).1 := by
  have hprocess : (rdsParserProcessGroup state group).1 =
      (rdsReport (rdsProcessPsGroup (rdsUpdateStation state group) group)
        ((List.finRange 4).filter fun i => (group.blocks i).hadErrors).length).1 := by
    simp [rdsParserProcessGroup, hcarries.accepted, hcarries.type]
  have hstation : PsAssembled name quality history { rdsUpdateStation state group with
      info := { (rdsUpdateStation state group).info with
        ta := (group.blocks 1).data &&& (1#16 <<< 4) ≠ 0 } } :=
    ⟨h.shows, h.seen, h.quality⟩
  have hupdate := hstation.update rfl (psAddress_lt group) hcarries.chars
  have hps : rdsProcessPsGroup (rdsUpdateStation state group) group =
      rdsUpdatePs { rdsUpdateStation state group with
        info := { (rdsUpdateStation state group).info with
          ta := (group.blocks 1).data &&& (1#16 <<< 4) ≠ 0 } } (group.blocks 1).data
        (group.blocks 3).data quality := by
    rw [rdsProcessPsGroup, ← hcarries.quality_eq]
    exact if_pos hcarries.usable
  rw [hprocess, hps]
  exact ⟨hupdate.shows, hupdate.seen, hupdate.quality⟩

/-- The segments of a run, newest first. -/
lemma psAssembled_run {quality : K} (groups : List (RdsGroup K))
    (hcarries : ∀ group ∈ groups, CarriesPs name quality group) :
    PsAssembled name quality (groups.map psAddress).reverse
      (rdsParserRun rdsParserInit groups) := by
  induction groups using List.reverseRecOn with
  | nil => exact psAssembled_init name quality
  | append_singleton groups group ih =>
    rw [rdsParserRun_concat, List.map_append, List.map_singleton, List.reverse_append,
      List.reverse_singleton, List.singleton_append]
    exact (ih fun g hg => hcarries g (List.mem_append_left _ hg)).group
      (hcarries group (List.mem_append_right _ (List.mem_singleton_self group)))

/-- The array reads as the trimmed name when its characters stand up to the last letter. -/
lemma Shows.cString_eq_iff {history : List ℕ} (h : Shows name (name.Kept history) ps) :
    cString ps.toList = name.trimmed ↔ ∀ i < name.trimmed.length, name.Stands history i := by
  have hle := name.trimmed_length_le
  constructor
  · intro heq i hi
    rw [← heq, h.lt_length_iff] at hi
    exact (hi.2 i le_rfl).1
  · intro hstands
    have hkept (i : ℕ) (hi : i < name.trimmed.length) : name.Kept history i :=
      kept_of_stands hstands hle ProgramServiceName.not_blank_last hi
    have hlength : (cString ps.toList).length = name.trimmed.length := by
      refine le_antisymm ?_ (Nat.le_of_not_lt fun hlt => ?_)
      · by_contra hlt
        obtain ⟨h8, hreads⟩ := (h.lt_length_iff _).1 (not_le.1 hlt)
        exact not_kept_of_end hstands (fun i => ProgramServiceName.blank_of_ge) h8
          (hreads _ le_rfl)
      · have hmissing := (h.lt_length_iff (cString ps.toList).length).not.1 (lt_irrefl _)
        exact hmissing ⟨by omega, fun j hj => hkept j (by omega)⟩
    obtain ⟨blanks, happend, -⟩ := name.trimmed_append
    refine List.ext_getElem hlength fun i hi hi' => ?_
    have hread : (cString ps.toList)[i] = charAt ps i := by
      have hlt := hi.trans_le (cString_length_le ps.toList)
      rw [charAt_eq_getD, List.getD_eq_getElem _ _ hlt]
      exact (List.takeWhile_prefix _).getElem hi
    have hchar : name.trimmed[i] = charAt name.chars i := by
      rw [charAt_eq_getD, ← happend, List.getD_append _ _ _ _ hi', List.getD_eq_getElem _ _ hi']
    rw [hread, hchar]
    exact h.char i (by omega) (hkept i hi')

/-- How the two blocks of a group of type 0 were received that carry its text: usable, as the groups
that are stored have them. -/
structure PsReception (K : Type*) where
  block2 : RdsBlock K
  block4 : RdsBlock K
  usable : rdsBlockIsUsableForText block2 = true ∧ rdsBlockIsUsableForText block4 = true

def PsReception.quality (reception : PsReception K) : K :=
  rdsGroupTextQuality reception.block2 reception.block4

/-- A group of type 0 with a segment of a name. -/
def psGroup (name : ProgramServiceName) (reception : PsReception K) (a : ℕ) : RdsGroup K where
  blocks := ![⟨0, true, false, false, 0, 0⟩, { reception.block2 with data := BitVec.ofNat 16 a },
    ⟨0, false, false, false, 0, 0⟩,
    { reception.block4 with data := BitVec.ofNat 16 ((charAt name.chars (a * 2)).toNat * 256
        + (charAt name.chars (a * 2 + 1)).toNat) }]

lemma blockChars_ofNat (first second : UInt8) :
    blockChars (BitVec.ofNat 16 (first.toNat * 256 + second.toNat)) = [first, second] := by
  have hfirst := first.toNat_lt
  have hsecond := second.toNat_lt
  have hand : (first.toNat * 256 + second.toNat) &&& (2 ^ 8 - 1) = second.toNat := by
    rw [Nat.and_two_pow_sub_one_eq_mod]
    omega
  refine List.cons_eq_cons.2 ⟨UInt8.toNat_inj.1 ?_, List.cons_eq_cons.2 ⟨UInt8.toNat_inj.1 ?_, rfl⟩⟩
  · rw [UInt8.toNat_ofBitVec, BitVec.toNat_setWidth, BitVec.toNat_ushiftRight, BitVec.toNat_ofNat,
      Nat.shiftRight_eq_div_pow]
    omega
  · rw [UInt8.toNat_ofBitVec, BitVec.toNat_setWidth, BitVec.toNat_and, BitVec.toNat_ofNat,
      Nat.mod_eq_of_lt (by omega : first.toNat * 256 + second.toNat < 2 ^ 16)]
    exact (congrArg (· % 2 ^ 8) hand).trans (Nat.mod_eq_of_lt hsecond)

omit [LinearOrder K] in
lemma psAddress_psGroup (name : ProgramServiceName) (reception : PsReception K) {a : ℕ}
    (ha : a < 4) : psAddress (psGroup name reception a) = a := by
  have hdata : ((psGroup name reception a).blocks 1).data = BitVec.ofNat 16 a := rfl
  rw [psAddress, hdata]
  interval_cases a <;> decide

omit [LinearOrder K] in
lemma psGroup_carries (name : ProgramServiceName) (reception : PsReception K) {a : ℕ}
    (ha : a < 4) : CarriesPs name reception.quality (psGroup name reception a) where
  accepted := by
    obtain ⟨hreceived, -⟩ := Bool.and_eq_true_iff.1 reception.usable.1
    exact hreceived
  type := by
    have hdata : ((psGroup name reception a).blocks 1).data = BitVec.ofNat 16 a := rfl
    rw [hdata]
    interval_cases a <;> decide
  usable := reception.usable
  chars := by
    rw [psAddress_psGroup name reception ha]
    exact blockChars_ofNat _ _
  quality_eq := rfl

/-! ### Complete names -/

/-- No segment before the last letter ends in a blank. -/
def ProgramServiceName.Joined (name : ProgramServiceName) : Prop :=
  ∀ i < name.trimmed.length, i % 2 = 1 → ¬ name.Blank i

/-- A name without blanks between segments stands as soon as it is received. -/
lemma ProgramServiceName.stands_of_joined (h : name.Joined) {history : List ℕ}
    (hall : ∀ a < 4, a ∈ history) : ∀ i < name.trimmed.length, name.Stands history i := by
  have hle := name.trimmed_length_le
  intro i hi
  refine (stands_iff_of_joined hle (fun j hj hblank => ?_) i hi).2 (hall _ (by omega))
  have hlast : j ≠ name.trimmed.length - 1 := by
    rintro rfl
    exact ProgramServiceName.not_blank_last (by omega) hblank
  have heven : j % 2 ≠ 1 := fun hodd => h j hj hodd hblank
  exact ⟨by omega, h (j + 1) (by omega) (by omega), by omega⟩

/-- In order, the first blank at the end of a segment is lost when the segment is stored. -/
lemma ProgramServiceName.not_kept_inOrder (hi : i < name.trimmed.length) (hodd : i % 2 = 1)
    (hblank : name.Blank i) (hfirst : ∀ j < i, j % 2 = 1 → ¬ name.Blank j) :
    ¬ name.Kept (List.range (i / 2 + 1)).reverse i := by
  have hle := name.trimmed_length_le
  have hmem (b : ℕ) : b ∈ (List.range (i / 2 + 1)).reverse ↔ b ≤ i / 2 := by
    rw [List.mem_reverse, List.mem_range, Nat.lt_succ_iff]
  rintro ⟨-, hcut⟩
  refine hcut ⟨hblank, fun j hj => ?_, fun k hk hk8 _ hstands => ?_⟩
  · rcases Nat.lt_or_ge j (2 * (i / 2)) with hlt | hge
    · refine (stands_iff_of_joined (by omega : 2 * (i / 2) ≤ 8) (fun l hl hlblank => ?_) j hlt).2
        ((hmem _).2 (by omega))
      have heven : l % 2 ≠ 1 := fun hlodd => hfirst l (by omega) hlodd hlblank
      exact ⟨by omega, hfirst (l + 1) (by omega) (by omega), by omega⟩
    · rw [List.range_succ, List.reverse_concat]
      exact (stands_cons _).2 (.inl (by omega))
  · have hreceived := (hmem _).1 (hstands k le_rfl).mem
    omega

/-- What is lost in order stays lost. -/
lemma ProgramServiceName.joined_of_inOrder
    (h : ∀ i < name.trimmed.length, name.Stands (List.range 4).reverse i) : name.Joined := by
  by_contra hsplit
  obtain ⟨i, ⟨hi, hodd, hblank⟩, hleast⟩ :
      ∃ i, (i < name.trimmed.length ∧ i % 2 = 1 ∧ name.Blank i) ∧
        ∀ j < i, ¬ (j < name.trimmed.length ∧ j % 2 = 1 ∧ name.Blank j) := by
    have hexists : ∃ i, i < name.trimmed.length ∧ i % 2 = 1 ∧ name.Blank i := by
      unfold ProgramServiceName.Joined at hsplit
      push Not at hsplit
      exact hsplit
    classical
    exact ⟨Nat.find hexists, Nat.find_spec hexists, fun j hj => Nat.find_min hexists hj⟩
  have hle := name.trimmed_length_le
  have hlast : i ≠ name.trimmed.length - 1 := by
    rintro rfl
    exact ProgramServiceName.not_blank_last (by omega) hblank
  have hlost := ProgramServiceName.not_kept_inOrder hi hodd hblank
    fun j hj hjodd hjblank => hleast j hj ⟨by omega, hjodd, hjblank⟩
  have hlater : ∃ b later,
      (List.range 4).reverse = b :: (later ++ (List.range (i / 2 + 1)).reverse) ∧
        i / 2 ∉ b :: later := by
    have hsegment : i / 2 = 0 ∨ i / 2 = 1 ∨ i / 2 = 2 := by omega
    rcases hsegment with heq | heq | heq <;> rw [heq]
    · exact ⟨3, [2, 1], rfl, by decide⟩
    · exact ⟨3, [2], rfl, by decide⟩
    · exact ⟨3, [], rfl, by decide⟩
  obtain ⟨b, later, hrange, hnot⟩ := hlater
  rw [List.mem_cons, not_or] at hnot
  have hstands := h i hi
  rw [hrange] at hstands
  exact ((stands_cons b).1 hstands).elim hnot.1 (not_kept_append hlost hnot.2)

/-- The name comes out of a sequence of groups when its characters stand up to its last letter, and
it comes out of every complete sequence when no segment before that ends in a blank. All groups are
received with one quality. -/
theorem rdsParserRun_ps_iff (name : ProgramServiceName) (reception : PsReception K) :
    (∀ groups : List (RdsGroup K), (∀ group ∈ groups, CarriesPs name reception.quality group) →
      (∀ a < 4, a ∈ groups.map psAddress) →
      (cString (rdsParserRun rdsParserInit groups).info.ps.toList = name.trimmed ↔
        ∀ i < name.trimmed.length, name.Stands (groups.map psAddress).reverse i)) ∧
    ((∀ groups : List (RdsGroup K), (∀ group ∈ groups, CarriesPs name reception.quality group) →
        (∀ a < 4, a ∈ groups.map psAddress) →
        cString (rdsParserRun rdsParserInit groups).info.ps.toList = name.trimmed) ↔
      name.Joined) := by
  have hiff (groups : List (RdsGroup K))
      (hcarries : ∀ group ∈ groups, CarriesPs name reception.quality group) :=
    (psAssembled_run groups hcarries).shows.cString_eq_iff
  refine ⟨fun groups hcarries _ => hiff groups hcarries, fun h => ?_,
    fun h groups hcarries hall => ?_⟩
  · have hcarries : ∀ group ∈ (List.range 4).map (psGroup name reception),
        CarriesPs name reception.quality group := by
      intro group hgroup
      obtain ⟨a, ha, rfl⟩ := List.mem_map.1 hgroup
      exact psGroup_carries name reception (List.mem_range.1 ha)
    have haddresses :
        ((List.range 4).map (psGroup name reception)).map psAddress = List.range 4 := by
      rw [List.map_map]
      exact (List.map_congr_left fun a ha => psAddress_psGroup name reception
        (List.mem_range.1 ha)).trans (List.map_id _)
    have hshown := h _ hcarries fun a ha => by rw [haddresses]; exact List.mem_range.2 ha
    rw [hiff _ hcarries, haddresses] at hshown
    exact ProgramServiceName.joined_of_inOrder hshown
  · refine (hiff groups hcarries).2 (ProgramServiceName.stands_of_joined h fun a ha => ?_)
    exact List.mem_reverse.2 (hall a ha)

/-- `AB  CDEF`. -/
def splitName : ProgramServiceName where
  chars := #v[0x41, 0x42, 0x20, 0x20, 0x43, 0x44, 0x45, 0x46]
  printable := by decide

/-- Blocks without errors, of confidence zero. -/
def cleanReception : PsReception ℚ where
  block2 := ⟨0, true, false, false, 0, 0⟩
  block4 := ⟨0, true, false, false, 0, 0⟩
  usable := ⟨rfl, rfl⟩

/-- Received in order, the name with two blanks in the middle reads `AB`. -/
theorem rdsParserRun_ps_split :
    cleanReception.quality = 4 ∧
    (∀ group ∈ (List.range 4).map (psGroup splitName cleanReception),
      CarriesPs splitName cleanReception.quality group) ∧
    (∀ a < 4, a ∈ ((List.range 4).map (psGroup splitName cleanReception)).map psAddress) ∧
    cString (rdsParserRun rdsParserInit
      ((List.range 4).map (psGroup splitName cleanReception))).info.ps.toList = [0x41, 0x42] ∧
    splitName.trimmed ≠ [0x41, 0x42] := by
  refine ⟨by decide +kernel, fun group hgroup => ?_, by decide +kernel, by decide +kernel,
    by decide +kernel⟩
  obtain ⟨a, ha, rfl⟩ := List.mem_map.1 hgroup
  exact psGroup_carries splitName cleanReception (List.mem_range.1 ha)

end Mpxcast
