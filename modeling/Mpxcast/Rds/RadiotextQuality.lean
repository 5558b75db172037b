import Mpxcast.Core.LastMaximum
import Mpxcast.Rds.Radiotext

/-!
# Better reception wins

Each slot of the radiotext keeps, of the usable groups that carried it since the text was cleared,
the last one of the best quality: its quality and its character. Segments of both versions overlap
freely.
-/

namespace Mpxcast

open CFloat LastMaximum

variable {K : Type*}

/-- The group is usable radiotext and carries slot `i`. -/
def carriesSlot (i : ℕ) (group : RdsGroup K) : Bool :=
  rdsGroupIsAccepted group && decide (rdsGetGroupTypeNumber (group.blocks 1).data = 2) &&
    textUsable group && decide (textPosition group ≤ i) &&
    decide (i < textPosition group + (textChars group).length)

/-- The character that a group carries for slot `i`, as it is stored. -/
def carriedChar (i : ℕ) (group : RdsGroup K) : UInt8 :=
  rdsSanitizeChar ((textChars group).getD (i - textPosition group) 0)

lemma carriesSlot_iff {i : ℕ} {group : RdsGroup K} :
    carriesSlot i group = true ↔ IsRadiotextGroup group ∧ textUsable group = true ∧
      textPosition group ≤ i ∧ i < textPosition group + (textChars group).length := by
  simp only [carriesSlot, IsRadiotextGroup, Bool.and_eq_true, decide_eq_true_eq, and_assoc]

section

variable [RoundedOps K] [LinearOrder K]

/-- What the parser holds for slot `i`: whether it was seen, its quality, and its character. -/
def radiotextSlot (state : RdsParserState K) (i : ℕ) : Bool × K × UInt8 :=
  (maskSeen state.radiotextSeenMask i, state.radiotextQuality[i]?.getD 0,
    charAt state.info.radiotext i)

/-- What a slot holds that keeps a reception, or none. -/
def slotOf (kept : Option (K × UInt8)) : Bool × K × UInt8 :=
  (kept.isSome, (kept.getD (0, 0)).1, (kept.getD (0, 0)).2)

omit [LinearOrder K] in
lemma SameReception.slot {s t : RdsParserState K} (h : SameReception s t) (i : ℕ) :
    radiotextSlot t i = radiotextSlot s i := by
  rw [radiotextSlot, h.mask, h.quality, h.text]
  rfl

/-! ### Storing characters -/

omit [LinearOrder K] in
lemma getD_setIfInBounds {n : ℕ} (values : Vector K n) {i : ℕ} (hi : i < n) (x : K) (j : ℕ) :
    (values.setIfInBounds i x)[j]?.getD 0 = if j = i then x else values[j]?.getD 0 := by
  rw [Vector.getElem?_setIfInBounds]
  rcases eq_or_ne j i with rfl | hne
  · simp [hi]
  · simp [hne, hne.symm]

/-- One character enters its slot. -/
lemma rdsUpdateRadiotextChar_slot (state : RdsParserState K) {i : ℕ} (hi : i < 64) (char : UInt8)
    (quality : K) {kept : Option (K × UInt8)} (h : radiotextSlot state i = slotOf kept) :
    radiotextSlot (rdsUpdateRadiotextChar state i char quality) i
      = slotOf (keep Prod.fst kept (quality, rdsSanitizeChar char)) := by
  have hseen : maskSeen state.radiotextSeenMask i = kept.isSome := congrArg Prod.fst h
  have hquality : state.radiotextQuality[i]?.getD 0 = (kept.getD (0, 0)).1 :=
    congrArg (fun slot => slot.2.1) h
  have hchar : charAt state.info.radiotext i = (kept.getD (0, 0)).2 :=
    congrArg (fun slot => slot.2.2) h
  unfold rdsUpdateRadiotextChar
  dsimp only
  rw [hseen, hquality, hchar]
  cases kept with
  | none =>
    simp [radiotextSlot, slotOf, keep, maskSeen_or _ hi, getD_setIfInBounds _ hi,
      charAt_setIfInBounds _ (by omega : i < 65)]
  | some r =>
    simp only [keep, Option.isSome_some, Option.getD_some, Bool.true_and, true_and,
      Bool.not_true, Bool.false_eq_true, false_or]
    rcases lt_or_ge quality r.1 with hlt | hle
    · rw [if_pos hlt]
      by_cases hsame : r.2 = rdsSanitizeChar char
      · -- refreshed: the character is there already and its quality stays
        simp [radiotextSlot, slotOf, hsame, hquality, not_lt.2 hlt.le, maskSeen_or _ hi,
          charAt_setIfInBounds _ (by omega : i < 65)]
      · simpa [hsame, hlt] using h
    · rw [if_neg (not_lt.2 hle)]
      have hraised : ((if r.1 < quality then state.radiotextQuality.setIfInBounds i quality
          else state.radiotextQuality)[i]?.getD 0) = quality := by
        split_ifs with hlt
        · rw [getD_setIfInBounds _ hi, if_pos rfl]
        · rw [hquality]
          exact le_antisymm hle (not_lt.1 hlt)
      simp [radiotextSlot, slotOf, not_lt.2 hle, hraised, maskSeen_or _ hi,
        charAt_setIfInBounds _ (by omega : i < 65)]

/-- The other slots stay as they are. -/
lemma rdsUpdateRadiotextChar_slot_ne (state : RdsParserState K) {i : ℕ} (hi : i < 64)
    (char : UInt8) (quality : K) {j : ℕ} (hne : j ≠ i) :
    radiotextSlot (rdsUpdateRadiotextChar state i char quality) j = radiotextSlot state j := by
  unfold rdsUpdateRadiotextChar
  dsimp only
  split_ifs
  · rfl
  · simp [radiotextSlot, hne, maskSeen_or _ hi, getD_setIfInBounds _ hi,
      charAt_setIfInBounds _ (by omega : i < 65)]
  · simp [radiotextSlot, hne, maskSeen_or _ hi, charAt_setIfInBounds _ (by omega : i < 65)]

/-- The characters of a segment enter their slots. -/
lemma rdsUpdateRadiotextLoop_slot (quality : K) {i : ℕ} :
    ∀ (chars : List UInt8) (state : RdsParserState K) {position : ℕ},
      position + chars.length ≤ 64 →
      (i < position ∨ position + chars.length ≤ i →
        radiotextSlot (rdsUpdateRadiotextLoop state position chars quality) i
          = radiotextSlot state i) ∧
      ∀ {kept : Option (K × UInt8)}, radiotextSlot state i = slotOf kept →
        position ≤ i → i < position + chars.length →
        radiotextSlot (rdsUpdateRadiotextLoop state position chars quality) i
          = slotOf (keep Prod.fst kept
              (quality, rdsSanitizeChar (chars.getD (i - position) 0))) := by
  intro chars
  induction chars with
  | nil =>
    intro state position _
    exact ⟨fun _ => rfl, fun _ hge hlt => absurd hlt (not_lt.2 hge)⟩
  | cons char chars ih =>
    intro state position hfits
    rw [List.length_cons] at hfits ⊢
    have hposition : position < 64 := by omega
    have hfits' : position + 1 + chars.length ≤ 64 := by omega
    obtain ⟨houtside, hinside⟩ := ih (rdsUpdateRadiotextChar state position char quality) hfits'
    rw [rdsUpdateRadiotextLoop, if_neg (not_le.2 hposition)]
    constructor
    · intro hi
      rw [houtside (by omega)]
      exact rdsUpdateRadiotextChar_slot_ne state hposition char quality (by omega)
    · intro kept h hge hlt
      rcases hge.eq_or_lt with rfl | hgt
      · rw [houtside (.inl (Nat.lt_succ_self _)), Nat.sub_self, List.getD_cons_zero]
        exact rdsUpdateRadiotextChar_slot state hposition char quality h
      · have hrest := rdsUpdateRadiotextChar_slot_ne state hposition char quality hgt.ne'
        obtain ⟨n, rfl⟩ := Nat.exists_eq_add_of_lt hgt
        rw [hinside (hrest.trans h) hgt (by omega)]
        rw [show position + n + 1 - position = n + 1 by omega,
          show position + n + 1 - (position + 1) = n by omega, List.getD_cons_succ]

omit [RoundedOps K] [LinearOrder K] in
lemma charAt_terminated (chars : Vector UInt8 65) {i : ℕ} (hi : i < 64) :
    charAt (chars.setIfInBounds 64 0) i = charAt chars i := by
  rw [charAt_setIfInBounds _ (by omega : 64 < 65), if_neg hi.ne]

/-- The terminator is behind the slots. -/
lemma rdsUpdateRadiotextChars_slot (state : RdsParserState K) (position : ℕ) (chars : List UInt8)
    (quality : K) {i : ℕ} (hi : i < 64) :
    radiotextSlot (rdsUpdateRadiotextChars state position chars quality) i
      = radiotextSlot (rdsUpdateRadiotextLoop state position chars quality) i := by
  simp only [radiotextSlot, rdsUpdateRadiotextChars, charAt_terminated _ hi]

/-! ### Groups -/

/-- What slot `i` receives from a group that carries it. -/
def reception (i : ℕ) (group : RdsGroup K) : K × UInt8 := (textQuality group, carriedChar i group)

/-- The parser has the flag `ab`, and slot `i` holds the best of the receptions from the groups. -/
structure Receiving (ab : Bool) (i : ℕ) (groups : List (RdsGroup K)) (state : RdsParserState K) :
    Prop where
  valid : state.radiotextAbValid = true
  ab : state.radiotextAb = ab
  slot : radiotextSlot state i
    = slotOf ((best textQuality (groups.filter (carriesSlot i))).map (reception i))

variable {ab : Bool} {i : ℕ} {groups : List (RdsGroup K)} {state t : RdsParserState K}
  {group : RdsGroup K}

lemma Receiving.congr (h : Receiving ab i groups state) (hsame : SameReception state t) :
    Receiving ab i groups t :=
  ⟨hsame.valid.trans h.valid, hsame.ab.trans h.ab, (hsame.slot i).trans h.slot⟩

/-- A group that does not carry the slot does not count. -/
lemma Receiving.other (h : Receiving ab i groups state) (hcarries : carriesSlot i group = false) :
    Receiving ab i (groups ++ [group]) state := by
  refine ⟨h.valid, h.ab, ?_⟩
  rw [List.filter_append, List.filter_singleton, hcarries]
  simpa using h.slot

/-- A radiotext group that has set the flag stores its characters. -/
lemma Receiving.process (h : Receiving ab i groups (rdsUpdateTextAb state (groupAb group)))
    (hi : i < 64) (hgroup : IsRadiotextGroup group) :
    Receiving ab i (groups ++ [group]) (rdsProcessRadiotextGroup state group) := by
  rw [rdsProcessRadiotextGroup_eq]
  cases husable : textUsable group with
  | false =>
    refine h.other ?_
    rw [Bool.eq_false_iff, ne_eq, carriesSlot_iff, husable]
    exact fun hcarries => Bool.false_ne_true hcarries.2.1
  | true =>
    have hfits : textPosition group + (textChars group).length ≤ 64 := by
      refine (textPosition_add_length group).trans ?_
      split_ifs <;> omega
    obtain ⟨houtside, hinside⟩ := rdsUpdateRadiotextLoop_slot (i := i) (textQuality group)
      (textChars group) (rdsUpdateTextAb state (groupAb group)) hfits
    have hab := rdsUpdateRadiotextLoop_ab (textQuality group) (textChars group)
      (rdsUpdateTextAb state (groupAb group)) (textPosition group)
    have hslot := rdsUpdateRadiotextChars_slot (rdsUpdateTextAb state (groupAb group))
      (textPosition group) (textChars group) (textQuality group) hi
    simp only [if_true]
    cases hcarries : carriesSlot i group with
    | true =>
      obtain ⟨-, -, hge, hlt⟩ := carriesSlot_iff.1 hcarries
      refine ⟨hab.2.trans h.valid, hab.1.trans h.ab, ?_⟩
      rw [hslot, hinside h.slot hge hlt, List.filter_append, List.filter_singleton, hcarries]
      simp only [cond_true]
      rw [best_concat]
      exact congrArg slotOf (keep_map Prod.fst (reception i) _ group)
    | false =>
      have hplace : i < textPosition group ∨ textPosition group + (textChars group).length ≤ i := by
        rw [Bool.eq_false_iff, ne_eq, carriesSlot_iff] at hcarries
        by_contra hinside
        rw [not_or, not_lt, not_le] at hinside
        exact hcarries ⟨hgroup, husable, hinside⟩
      have hsame := Receiving.other h hcarries
      exact ⟨hab.2.trans h.valid, hab.1.trans h.ab,
        (hslot.trans (houtside hplace)).trans hsame.slot⟩

/-- One group under the flag. -/
lemma Receiving.step (h : Receiving ab i groups state) (hi : i < 64)
    (hab : IsRadiotextGroup group → groupAb group = ab) :
    Receiving ab i (groups ++ [group]) (rdsParserProcessGroup state group).1 := by
  obtain ⟨t, hsame, hradiotext, hother⟩ := rdsParserProcessGroup_sameReception state group
  by_cases hgroup : IsRadiotextGroup group
  · have ht := h.congr hsame
    have hkeep : rdsUpdateTextAb t (groupAb group) = t :=
      if_neg (by simp [ht.valid, ht.ab, hab hgroup])
    rw [← hkeep] at ht
    exact (ht.process hi hgroup).congr (hradiotext hgroup)
  · refine (h.congr (hother hgroup)).other ?_
    rw [Bool.eq_false_iff, ne_eq, carriesSlot_iff]
    exact fun hcarries => hgroup hcarries.1

/-- The group that changes the flag clears the text before it stores its own characters. -/
lemma Receiving.first (hfirst : FlagChange state group) (hi : i < 64) :
    Receiving (groupAb group) i [group] (rdsParserProcessGroup state group).1 := by
  obtain ⟨t, hsame, hradiotext, -⟩ := rdsParserProcessGroup_sameReception state group
  have hclear : rdsUpdateTextAb t (groupAb group) = rdsClearRadiotext
      { t with radiotextAb := groupAb group, radiotextAbValid := true } := by
    refine if_pos ?_
    rw [hsame.valid, hsame.ab]
    simpa using hfirst.2
  have hstart : Receiving (groupAb group) i [] (rdsUpdateTextAb t (groupAb group)) := by
    rw [hclear]
    refine ⟨rfl, rfl, ?_⟩
    simp [radiotextSlot, slotOf, rdsClearRadiotext, charAt_replicate, maskSeen_eq, hi]
  exact (hstart.process hi hfirst.1).congr (hradiotext hfirst.1)

/-- **What a slot holds** after any run of groups under one flag. -/
lemma Receiving.run (hfirst : FlagChange state group) (hi : i < 64) {rest : List (RdsGroup K)}
    (hflag : ∀ g ∈ rest, IsRadiotextGroup g → groupAb g = groupAb group) :
    Receiving (groupAb group) i (group :: rest) (rdsParserRun state (group :: rest)) := by
  induction rest using List.reverseRecOn with
  | nil => exact .first hfirst hi
  | append_singleton rest g ih =>
    rw [← List.cons_append, rdsParserRun_concat]
    refine (ih fun g' hg' => hflag g' (List.mem_append_left _ hg')).step hi ?_
    exact hflag g (List.mem_append_right _ (List.mem_singleton_self g))

/-! ### Better reception wins -/

/-- Slot `i` holds the best that the groups, each of which carries it, had for it. -/
structure BestReception (i : ℕ) (carriers : List (RdsGroup K)) (state : RdsParserState K) :
    Prop where
  seen_iff : maskSeen state.radiotextSeenMask i = true ↔ carriers ≠ []
  untouched : carriers = [] →
    state.radiotextQuality[i]?.getD 0 = 0 ∧ charAt state.info.radiotext i = 0
  quality_ge : ∀ g ∈ carriers, textQuality g ≤ state.radiotextQuality[i]?.getD 0
  quality_mem : carriers ≠ [] →
    ∃ g ∈ carriers, state.radiotextQuality[i]?.getD 0 = textQuality g
  character : carriers ≠ [] →
    ∃ g, LastRecord textQuality carriers g ∧ charAt state.info.radiotext i = carriedChar i g

lemma Receiving.bestReception (h : Receiving ab i groups state) :
    BestReception i (groups.filter (carriesSlot i)) state := by
  have hslot := h.slot
  cases hbest : best textQuality (groups.filter (carriesSlot i)) with
  | none =>
    have hnone := best_eq_none.1 hbest
    rw [hbest] at hslot
    have hseen : maskSeen state.radiotextSeenMask i = false := congrArg Prod.fst hslot
    rw [hnone]
    refine ⟨by simp [hseen], fun _ => ?_, by simp, by simp, by simp⟩
    exact ⟨congrArg (fun slot => slot.2.1) hslot, congrArg (fun slot => slot.2.2) hslot⟩
  | some g =>
    have hne : groups.filter (carriesSlot i) ≠ [] := fun hnone => by
      rw [best_eq_none.2 hnone] at hbest
      exact absurd hbest (by simp)
    obtain ⟨hmem, hle⟩ := le_best hbest
    rw [hbest] at hslot
    have hseen : maskSeen state.radiotextSeenMask i = true := congrArg Prod.fst hslot
    have hquality : state.radiotextQuality[i]?.getD 0 = textQuality g :=
      congrArg (fun slot => slot.2.1) hslot
    have hchar : charAt state.info.radiotext i = carriedChar i g :=
      congrArg (fun slot => slot.2.2) hslot
    refine ⟨by simp only [hseen, true_iff]; exact hne, fun hnone => absurd hnone hne, ?_, ?_, ?_⟩
    · rw [hquality]
      exact hle
    · exact fun _ => ⟨g, hmem, hquality⟩
    · exact fun _ => ⟨g, lastRecord_best hbest, hchar⟩

/-- A group changes the slot only if it carries it no worse than any group before. -/
lemma Receiving.slot_eq (h : Receiving ab i groups state) (hi : i < 64)
    (hab : IsRadiotextGroup group → groupAb group = ab)
    (hworse : carriesSlot i group = true →
      ∃ g ∈ groups, carriesSlot i g = true ∧ textQuality group < textQuality g) :
    radiotextSlot (rdsParserProcessGroup state group).1 i = radiotextSlot state i := by
  rw [(h.step hi hab).slot, h.slot, List.filter_append, List.filter_singleton]
  cases hcarries : carriesSlot i group with
  | false => simp
  | true =>
    obtain ⟨g, hg, hgcarries, hlt⟩ := hworse hcarries
    have hgmem := List.mem_filter.2 ⟨hg, hgcarries⟩
    rw [cond_true, best_concat]
    cases hbest : best textQuality (groups.filter (carriesSlot i)) with
    | none => exact absurd (best_eq_none.1 hbest) (List.ne_nil_of_mem hgmem)
    | some r =>
      have hbetter : textQuality group < textQuality r := hlt.trans_le ((le_best hbest).2 g hgmem)
      have hkeep : keep textQuality (some r) group = some r := if_pos hbetter
      rw [hkeep]

/-- **Better reception wins.** After any run of groups under one flag, each slot of the radiotext
holds the best quality it was received with since the text was cleared, and the character of the
last group that was no worse than those before it; no worse group changes it afterwards. -/
theorem rdsParserRun_bestReception (state : RdsParserState K) (first : RdsGroup K)
    (rest : List (RdsGroup K)) (hfirst : FlagChange state first)
    (hflag : ∀ g ∈ rest, IsRadiotextGroup g → groupAb g = groupAb first) {i : ℕ} (hi : i < 64) :
    BestReception i ((first :: rest).filter (carriesSlot i)) (rdsParserRun state (first :: rest)) ∧
      ∀ next : RdsGroup K, (IsRadiotextGroup next → groupAb next = groupAb first) →
        (carriesSlot i next = true →
          ∃ g ∈ first :: rest, carriesSlot i g = true ∧ textQuality next < textQuality g) →
        radiotextSlot (rdsParserProcessGroup (rdsParserRun state (first :: rest)) next).1 i
          = radiotextSlot (rdsParserRun state (first :: rest)) i := by
  have hrun := Receiving.run hfirst hi hflag
  exact ⟨hrun.bestReception, fun next hab hworse => hrun.slot_eq hi hab hworse⟩

/-- Two groups that carry the first slot. -/
theorem rdsParserRun_bestReception_letters :
    BestReception 0 ([letterGroup false 0, letterGroup true 0].filter (carriesSlot 0))
        (rdsParserRun rdsParserInit [letterGroup false 0, letterGroup true 0]) ∧
      ∀ next : RdsGroup ℚ, (IsRadiotextGroup next → groupAb next = groupAb (letterGroup false 0)) →
        (carriesSlot 0 next = true →
          ∃ g ∈ [letterGroup false 0, letterGroup true 0],
            carriesSlot 0 g = true ∧ textQuality next < textQuality g) →
        radiotextSlot (rdsParserProcessGroup
            (rdsParserRun rdsParserInit [letterGroup false 0, letterGroup true 0]) next).1 0
          = radiotextSlot
            (rdsParserRun rdsParserInit [letterGroup false 0, letterGroup true 0]) 0 :=
  rdsParserRun_bestReception rdsParserInit (letterGroup false 0) [letterGroup true 0]
    ⟨⟨rfl, rfl⟩, .inl rfl⟩ (by simp only [List.mem_singleton]; rintro g rfl _; rfl) (by omega)

end

end Mpxcast
