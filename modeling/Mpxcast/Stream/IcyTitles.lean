import Mpxcast.Stream.Session

/-!
# Titles on air

Whole sequences of metadata updates. The titles that are shown are clean: printable, without quotes
and semicolons, and not blank at either end. A partial radiotext shows the title that was kept,
which is the one on air unless the last complete radiotext had nothing to show.
-/

namespace Mpxcast

/-! ### Clean titles -/

/-- A character that can stand in a title. -/
def IsTitleChar (c : UInt8) : Prop := 32 ≤ c ∧ c ≤ 126 ∧ c ≠ 0x27 ∧ c ≠ 0x3b

lemma isTitleChar_iff {c : UInt8} :
    IsTitleChar c ↔ (32 ≤ c ∧ c < 127) ∧ ¬(c = 0x27 ∨ c = 0x3b) := by
  have hle : c ≤ 126 ↔ c < 127 := by
    rw [UInt8.le_iff_toNat_le, UInt8.lt_iff_toNat_lt]
    exact Nat.lt_succ_iff.symm
  rw [IsTitleChar, hle, not_or, and_assoc]

structure CleanTitle (title : List UInt8) : Prop where
  printable : ∀ c ∈ title, IsTitleChar c
  head : title.head? ≠ some 0x20
  last : title.getLast? ≠ some 0x20

lemma cleanTitle_nil : CleanTitle [] where
  printable := by simp
  head := by simp
  last := by simp

/-- What the copying loop has written. -/
structure CopiedText (capacity : ℕ) (dest : List UInt8) (started : Bool) : Prop where
  printable : ∀ c ∈ dest, IsTitleChar c
  head : dest.head? ≠ some 0x20
  started_iff : started = true ↔ dest ≠ []
  length_le : dest.length ≤ capacity - 1

lemma copiedText_nil (capacity : ℕ) : CopiedText capacity [] false where
  printable := by simp
  head := by simp
  started_iff := by simp
  length_le := Nat.zero_le _

/-- A character is added, which is no blank at the start. -/
lemma CopiedText.push {capacity : ℕ} {dest : List UInt8} {started : Bool} {c : UInt8}
    (h : CopiedText capacity dest started) (hc : IsTitleChar c)
    (hblank : started = false → c ≠ 0x20) (hroom : dest.length + 1 < capacity) :
    CopiedText capacity (dest ++ [c]) true where
  printable c' hc' := by
    rcases List.mem_append.1 hc' with hold | hnew
    · exact h.printable c' hold
    · rw [List.mem_singleton.1 hnew]
      exact hc
  head := by
    cases dest with
    | nil =>
      have hstarted : started = false := by
        have hiff := h.started_iff
        simpa using hiff
      intro heq
      exact hblank hstarted (by simpa using heq)
    | cons c' dest => simpa using h.head
  started_iff := by simp
  length_le := by
    rw [List.length_append, List.length_singleton]
    omega

lemma icyCopyLoop_copied (capacity : ℕ) (source : List UInt8) {dest : List UInt8} {started : Bool}
    (h : CopiedText capacity dest started) :
    ∃ started', CopiedText capacity (icyCopyLoop capacity source dest started) started' := by
  induction source generalizing dest started with
  | nil => exact ⟨started, h⟩
  | cons c source ih =>
    rw [icyCopyLoop]
    split_ifs with hroom hquote hstarted hprintable hblank
    · exact ih h
    · refine ih (h.push ⟨by decide, by decide, by decide, by decide⟩ (fun hout => ?_) hroom)
      exact absurd hout (by simpa using hstarted)
    · exact ih h
    · exact ih (h.push (isTitleChar_iff.2 ⟨hprintable, hquote⟩)
        (fun hout heq => hblank ⟨by simp [hout], heq⟩) hroom)
    · exact ih h
    · exact ⟨started, h⟩

/-- What `icy_copy_text` writes is clean and fits. -/
lemma icyCopyText_clean (capacity : ℕ) (source : List UInt8) :
    CleanTitle (icyCopyText capacity source) ∧
      (icyCopyText capacity source).length ≤ capacity - 1 := by
  obtain ⟨started, hcopied⟩ := icyCopyLoop_copied capacity source (copiedText_nil capacity)
  have hinitial : icyCopyText capacity source <+: icyCopyLoop capacity source [] false :=
    List.rdropWhile_prefix _ _
  refine ⟨⟨fun c hc => hcopied.printable c (hinitial.subset hc), fun heq => ?_, fun heq => ?_⟩,
    hinitial.length_le.trans hcopied.length_le⟩
  · obtain ⟨rest, hrest⟩ := hinitial
    refine hcopied.head ?_
    rw [← hrest, List.head?_append, heq]
    rfl
  · have hne : icyCopyText capacity source ≠ [] := by
      intro hempty
      rw [hempty] at heq
      simp at heq
    have hlast := List.rdropWhile_last_not (fun c : UInt8 => decide (c = 0x20))
      (icyCopyLoop capacity source [] false) hne
    rw [List.getLast?_eq_some_getLast hne, Option.some_inj] at heq
    exact hlast (decide_eq_true heq)

/-- Clean text is copied as it is. -/
lemma icyCopyLoop_started (capacity : ℕ) {source : List UInt8}
    (hsource : ∀ c ∈ source, IsTitleChar c) (dest : List UInt8)
    (hroom : dest.length + source.length < capacity) :
    icyCopyLoop capacity source dest true = dest ++ source := by
  induction source generalizing dest with
  | nil => rw [icyCopyLoop, List.append_nil]
  | cons c source ih =>
    obtain ⟨hprintable, hquote⟩ := isTitleChar_iff.1 (hsource c List.mem_cons_self)
    have hnext : (dest ++ [c]).length + source.length < capacity := by
      rw [List.length_append, List.length_singleton, Nat.add_assoc, Nat.add_comm 1]
      exact hroom
    have hrest := ih (fun c' hc' => hsource c' (List.mem_cons_of_mem c hc')) (dest ++ [c]) hnext
    rw [List.length_cons] at hroom
    rw [icyCopyLoop, if_pos (by omega), if_neg hquote, if_pos hprintable, if_neg (by simp),
      hrest, List.append_assoc]
    rfl

/-- A clean title that fits is its own copy. -/
lemma CleanTitle.copy {capacity : ℕ} {title : List UInt8} (h : CleanTitle title)
    (hroom : title.length ≤ capacity - 1) : icyCopyText capacity title = title := by
  cases title with
  | nil => rfl
  | cons c title =>
    have hpush : icyCopyLoop capacity (c :: title) [] false
        = icyCopyLoop capacity (c :: title) [] true := by
      have hne : c ≠ 0x20 := by simpa using h.head
      obtain ⟨hprintable, hquote⟩ := isTitleChar_iff.1 (h.printable c List.mem_cons_self)
      rw [icyCopyLoop, icyCopyLoop]
      simp [hne, hprintable, hquote]
    rw [List.length_cons] at hroom
    rw [icyCopyText, hpush, icyCopyLoop_started capacity h.printable [] (by simp; omega),
      List.nil_append, List.rdropWhile_eq_self_iff]
    intro hne heq
    refine h.last ?_
    rw [List.getLast?_eq_some_getLast hne, of_decide_eq_true heq]

/-- `icy_copy_text` is idempotent. -/
lemma icyCopyText_idempotent (capacity : ℕ) (source : List UInt8) :
    icyCopyText capacity (icyCopyText capacity source) = icyCopyText capacity source := by
  obtain ⟨hclean, hlength⟩ := icyCopyText_clean capacity source
  exact hclean.copy hlength

/-! ### Sequences of updates -/

/-- The state after a sequence of calls of `icy_metadata_update`, each with a radiotext and whether
it is complete. -/
def icyUpdates (enabled : Bool) (calls : List (List UInt8 × Bool)) : IcyMetadataState :=
  calls.foldl (fun icy call => (icyMetadataUpdate icy call.1 call.2).1) (icyMetadataInit enabled)

/-- The radiotexts have the length the parser guarantees. -/
def RadiotextLengths (calls : List (List UInt8 × Bool)) : Prop :=
  ∀ call ∈ calls, call.1.length ≤ 64

/-- The title that a complete radiotext is turned into. -/
def icyTitle (radiotext : List UInt8) : List UInt8 := icyCopyText (icyTitleMaxLength + 1) radiotext

variable (enabled : Bool) {calls : List (List UInt8 × Bool)} {call : List UInt8 × Bool}

lemma icyUpdates_concat (enabled : Bool) (calls : List (List UInt8 × Bool))
    (call : List UInt8 × Bool) :
    icyUpdates enabled (calls ++ [call])
      = (icyMetadataUpdate (icyUpdates enabled calls) call.1 call.2).1 :=
  List.foldl_concat ..

lemma RadiotextLengths.concat (h : RadiotextLengths (calls ++ [call])) :
    RadiotextLengths calls ∧ call.1.length ≤ 64 :=
  ⟨fun c hc => h c (List.mem_append_left _ hc),
    h call (List.mem_append_right _ (List.mem_singleton_self call))⟩

/-- The metadata is ready for the next call. -/
lemma icyUpdates_ready (h : RadiotextLengths calls) : IcyReady (icyUpdates enabled calls) := by
  induction calls using List.reverseRecOn with
  | nil => exact icyReady_init enabled
  | append_singleton calls call ih =>
    obtain ⟨hcalls, hcall⟩ := h.concat
    rw [icyUpdates_concat]
    exact (icyMetadataUpdate_spec (ih hcalls) (hcall.trans (by decide)) call.2).2.1

/-- What is on air after a call. -/
lemma icyUpdates_block (h : RadiotextLengths (calls ++ [call])) :
    (icyUpdates enabled (calls ++ [call])).block
        = icyTitleBlock (icyNextTitle (icyUpdates enabled calls) call.1 call.2) ∧
      (icyUpdates enabled (calls ++ [call])).metadataLength
        = (icyTitleBlock (icyNextTitle (icyUpdates enabled calls) call.1 call.2)).length := by
  obtain ⟨hcalls, hcall⟩ := h.concat
  rw [icyUpdates_concat,
    icyMetadataUpdate_eq (icyUpdates_ready enabled hcalls) (hcall.trans (by decide))]
  exact ⟨List.take_left, rfl⟩

/-- The title that is kept: that of the last complete radiotext with something to show. -/
lemma icyUpdates_stableTitle (h : RadiotextLengths (calls ++ [call])) :
    (icyUpdates enabled (calls ++ [call])).stableTitle =
      if call.2 = true ∧ icyTitle call.1 ≠ [] then icyTitle call.1
      else (icyUpdates enabled calls).stableTitle := by
  obtain ⟨hcalls, hcall⟩ := h.concat
  obtain ⟨radiotext, complete⟩ := call
  rw [icyUpdates_concat,
    icyMetadataUpdate_eq (icyUpdates_ready enabled hcalls) (hcall.trans (by decide))]
  dsimp only
  unfold icyNextTitle
  rw [← icyTitle]
  cases complete with
  | false => simp
  | true =>
    by_cases hempty : radiotext = []
    · have hnone : icyTitle [] = [] := rfl
      simp [hempty, hnone]
    · simp [hempty]

/-- The kept title is clean. -/
lemma icyUpdates_clean (h : RadiotextLengths calls) :
    CleanTitle (icyUpdates enabled calls).stableTitle := by
  induction calls using List.reverseRecOn with
  | nil => exact cleanTitle_nil
  | append_singleton calls call ih =>
    rw [icyUpdates_stableTitle enabled h]
    split_ifs
    · exact (icyCopyText_clean _ _).1
    · exact ih h.concat.1

/-- So is the title that is shown. -/
lemma icyNextTitle_clean (h : RadiotextLengths calls) (radiotext : List UInt8) (complete : Bool) :
    CleanTitle (icyNextTitle (icyUpdates enabled calls) radiotext complete) := by
  unfold icyNextTitle
  split_ifs
  · exact (icyCopyText_clean _ _).1
  · exact icyUpdates_clean enabled h

/-- Metadata blocks are well formed and free of injection. Every call of a sequence succeeds, the
length is that of the length byte and within the array, and the block is a single zero byte or
`StreamTitle='t';` with a clean title `t`, padded with fewer than 16 NUL bytes; a complete radiotext
that is not empty shows its own copy, and copying is idempotent. -/
theorem icyMetadataUpdate_wellFormed (enabled : Bool) (calls : List (List UInt8 × Bool))
    (radiotext : List UInt8) (complete : Bool)
    (h : RadiotextLengths (calls ++ [(radiotext, complete)])) :
    let update := icyMetadataUpdate (icyUpdates enabled calls) radiotext complete
    update.2 = 0 ∧
      (∃ n, update.1.metadataBlock.head? = some n ∧
        update.1.metadataLength = 1 + 16 * n.toNat) ∧
      update.1.metadataLength ≤ icyMetadataBlockCapacity ∧
      (∃ title, CleanTitle title ∧
        (title = [] ∧ update.1.block = [0] ∨
          title ≠ [] ∧ ∃ n padding, padding < 16 ∧
            update.1.block = n :: (icyStreamTitle title ++ List.replicate padding 0)) ∧
        (complete = true → radiotext ≠ [] →
          title = icyCopyText (icyTitleMaxLength + 1) radiotext)) ∧
      ∀ capacity source,
        icyCopyText capacity (icyCopyText capacity source) = icyCopyText capacity source := by
  obtain ⟨hcalls, hradiotext⟩ := h.concat
  obtain ⟨hresult, hready, hwell, -⟩ := icyMetadataUpdate_spec
    (icyUpdates_ready enabled hcalls) (hradiotext.trans (by decide)) complete
  have hblock := (icyUpdates_block enabled h).1
  rw [icyUpdates_concat] at hblock
  have hclean := icyNextTitle_clean enabled hcalls radiotext complete
  refine ⟨hresult, ?_, hready.block_length ▸ hwell.length_le, ⟨_, hclean, ?_, ?_⟩,
    icyCopyText_idempotent⟩
  · obtain ⟨n, rest, hcons, hlength⟩ := hwell.length_eq
    exact ⟨n, by rw [hcons]; rfl, hlength⟩
  · rw [hblock]
    generalize icyNextTitle (icyUpdates enabled calls) radiotext complete = title
    by_cases hempty : title = []
    · left
      rw [icyTitleBlock, if_pos hempty]
      exact ⟨hempty, rfl⟩
    · right
      rw [icyTitleBlock, if_neg hempty]
      refine ⟨hempty, _, _, ?_, rfl⟩
      omega
  · intro hcomplete hne
    exact if_pos ⟨hcomplete, hne⟩

/-- The bytes of `A';B`, complete, after a complete and a partial radiotext. -/
theorem icyMetadataUpdate_wellFormed_quote :
    let update := icyMetadataUpdate (icyUpdates true [([0x58], true), ([0x59, 0x5a], false)])
      [0x41, 0x27, 0x3b, 0x42] true
    update.2 = 0 ∧ update.1.metadataLength ≤ icyMetadataBlockCapacity ∧
      ∃ title n padding, CleanTitle title ∧ title = [0x41, 0x20, 0x20, 0x42] ∧ padding < 16 ∧
        update.1.block = n :: (icyStreamTitle title ++ List.replicate padding 0) := by
  obtain ⟨hresult, -, hfits, ⟨title, hclean, hshown, hcopy⟩, -⟩ := icyMetadataUpdate_wellFormed true
    [([0x58], true), ([0x59, 0x5a], false)] [0x41, 0x27, 0x3b, 0x42] true
    (by simp [RadiotextLengths])
  have htitle : title = [0x41, 0x20, 0x20, 0x42] :=
    (hcopy rfl (List.cons_ne_nil _ _)).trans (by decide)
  rcases hshown with ⟨hnone, -⟩ | ⟨-, n, padding, hpadding, hblock⟩
  · exact absurd (hnone.symm.trans htitle) (List.cons_ne_nil _ _).symm
  · exact ⟨hresult, hfits, title, n, padding, hclean, htitle, hpadding, hblock⟩

/-! ### Partial radiotext -/

lemma rdropWhile_append_replicate (l : List UInt8) (n : ℕ) :
    (l ++ List.replicate n 0).rdropWhile (· = 0) = l.rdropWhile (· = 0) := by
  induction n with
  | zero => rw [List.replicate_zero, List.append_nil]
  | succ n ih =>
    rw [List.replicate_succ', ← List.append_assoc, List.rdropWhile_concat_pos _ _ _ (by simp), ih]

/-- A block shows its title. -/
lemma icyTitleBlock_inj {title title' : List UInt8} :
    icyTitleBlock title = icyTitleBlock title' ↔ title = title' := by
  refine ⟨fun h => ?_, fun h => congrArg icyTitleBlock h⟩
  have hfield (t : List UInt8) (n : ℕ) :
      (icyStreamTitle t ++ List.replicate n 0).rdropWhile (· = 0) = icyStreamTitle t := by
    rw [rdropWhile_append_replicate, List.rdropWhile_eq_self_iff]
    intro hne
    simp [icyStreamTitle]
  have hlength := congrArg List.length h
  by_cases hempty : title = []
  · by_cases hempty' : title' = []
    · rw [hempty, hempty']
    · rw [icyTitleBlock_length hempty', icyTitleBlock, if_pos hempty, List.length_singleton]
        at hlength
      omega
  · by_cases hempty' : title' = []
    · rw [icyTitleBlock_length hempty, icyTitleBlock, if_pos hempty', List.length_singleton]
        at hlength
      omega
    · rw [icyTitleBlock, if_neg hempty, icyTitleBlock, if_neg hempty'] at h
      have hfields := congrArg (List.rdropWhile fun c : UInt8 => decide (c = 0))
        (List.cons_eq_cons.1 h).2
      rw [hfield, hfield, icyStreamTitle, icyStreamTitle] at hfields
      exact List.append_cancel_left (List.append_cancel_right hfields)

/-- A title has been kept once a complete radiotext had something to show. -/
lemma icyUpdates_stableTitle_ne (h : RadiotextLengths calls) :
    (icyUpdates enabled calls).stableTitle ≠ [] ↔
      ∃ call ∈ calls, call.2 = true ∧ icyTitle call.1 ≠ [] := by
  induction calls using List.reverseRecOn with
  | nil => simp [icyUpdates, icyMetadataInit]
  | append_singleton calls call ih =>
    rw [icyUpdates_stableTitle enabled h]
    simp only [List.mem_append, List.mem_singleton, or_and_right, exists_or, exists_eq_left]
    split_ifs with hshown
    · exact iff_of_true hshown.2 (.inr hshown)
    · rw [ih h.concat.1, or_iff_left hshown]

/-- The call had a complete radiotext with nothing to show. -/
def BlankUpdate (call : List UInt8 × Bool) : Prop :=
  call.2 = true ∧ call.1 ≠ [] ∧ icyTitle call.1 = []

/-- One partial call: the title on air changes exactly if the call before it had nothing to show and
another title had been kept. -/
lemma icyUpdates_partial_iff (radiotext : List UInt8)
    (h : RadiotextLengths (calls ++ [call, (radiotext, false)])) :
    ((icyUpdates enabled (calls ++ [call, (radiotext, false)])).metadataLength
        = (icyUpdates enabled (calls ++ [call])).metadataLength ∧
      (icyUpdates enabled (calls ++ [call, (radiotext, false)])).block
        = (icyUpdates enabled (calls ++ [call])).block) ↔
      ¬(BlankUpdate call ∧ ∃ c ∈ calls, c.2 = true ∧ icyTitle c.1 ≠ []) := by
  have hassoc : calls ++ [call, (radiotext, false)] = calls ++ [call] ++ [(radiotext, false)] := by
    rw [List.append_assoc]
    rfl
  rw [hassoc] at h ⊢
  obtain ⟨hbefore, -⟩ := h.concat
  obtain ⟨hblock, hlength⟩ := icyUpdates_block enabled h
  obtain ⟨hblock', hlength'⟩ := icyUpdates_block enabled hbefore
  have hkept : icyNextTitle (icyUpdates enabled (calls ++ [call])) radiotext false
      = (icyUpdates enabled (calls ++ [call])).stableTitle := if_neg (by simp)
  rw [hkept] at hblock hlength
  rw [hblock, hlength, hblock', hlength', icyTitleBlock_inj,
    ← icyUpdates_stableTitle_ne enabled hbefore.concat.1,
    icyUpdates_stableTitle enabled hbefore, and_iff_right_of_imp fun heq => by rw [heq]]
  unfold icyNextTitle BlankUpdate
  rw [← icyTitle]
  generalize (icyUpdates enabled calls).stableTitle = kept
  by_cases hcomplete : call.2 = true
  · by_cases hempty : call.1 = []
    · have hnone : icyTitle [] = [] := rfl
      simp [hempty, hnone]
    · by_cases hshown : icyTitle call.1 = []
      · simp [hcomplete, hempty, hshown]
      · simp [hcomplete, hempty, hshown]
  · simp [hcomplete]

/-- The title on air is stable: no call with a partial radiotext changes the length or the bytes of
the block, once there has been an update. -/
def TitleStable (enabled : Bool) (calls : List (List UInt8 × Bool)) : Prop :=
  ∀ earlier radiotext later, earlier ≠ [] → calls = earlier ++ (radiotext, false) :: later →
    (icyUpdates enabled (earlier ++ [(radiotext, false)])).metadataLength
        = (icyUpdates enabled earlier).metadataLength ∧
      (icyUpdates enabled (earlier ++ [(radiotext, false)])).block
        = (icyUpdates enabled earlier).block

/-- Where a partial radiotext directly follows a complete one with nothing to show, no complete
radiotext before had anything to show. -/
def NoTitleReturns (calls : List (List UInt8 × Bool)) : Prop :=
  ∀ earlier blank radiotext later, calls = earlier ++ blank :: (radiotext, false) :: later →
    BlankUpdate blank → ∀ call ∈ earlier, call.2 = true → icyTitle call.1 = []

/-- A title that was replaced by an empty one returns with the next partial radiotext. -/
theorem titleStable_blanked :
    ¬ ∀ enabled calls, RadiotextLengths calls → TitleStable enabled calls := by
  intro hstable
  have hlengths : RadiotextLengths [([0x58], true), ([0x3b], true), ([], false)] := by
    simp [RadiotextLengths]
  have hkept := hstable true _ hlengths [([0x58], true), ([0x3b], true)] [] []
    (List.cons_ne_nil _ _) rfl
  have hiff := @icyUpdates_partial_iff true [([0x58], true)] ([0x3b], true) [] hlengths
  refine hiff.1 hkept ⟨⟨rfl, List.cons_ne_nil _ _, by decide⟩, _, List.mem_singleton_self _, rfl,
    by decide⟩

/-- The title on air is stable in exactly the sequences in which no title returns. -/
theorem titleStable_iff (enabled : Bool) {calls : List (List UInt8 × Bool)}
    (h : RadiotextLengths calls) : TitleStable enabled calls ↔ NoTitleReturns calls := by
  have hinitial {earlier later : List (List UInt8 × Bool)} (heq : calls = earlier ++ later) :
      RadiotextLengths earlier := by
    intro call hcall
    refine h call ?_
    rw [heq]
    exact List.mem_append_left _ hcall
  constructor
  · intro hstable earlier blank radiotext later heq hblank call hcall hcomplete
    have hsplit : calls = earlier ++ [blank] ++ (radiotext, false) :: later := by
      rw [heq, List.append_assoc]
      rfl
    have hsplit' : calls = (earlier ++ [blank, (radiotext, false)]) ++ later := by
      rw [heq, List.append_assoc]
      rfl
    have hkept := hstable (earlier ++ [blank]) radiotext later (by simp) hsplit
    rw [List.append_assoc] at hkept
    have hiff := (icyUpdates_partial_iff enabled radiotext (hinitial hsplit')).1 hkept
    by_contra hshown
    exact hiff ⟨hblank, call, hcall, hcomplete, hshown⟩
  · intro hreturns earlier radiotext later hne heq
    obtain ⟨calls', call, rfl⟩ : ∃ calls' call, earlier = calls' ++ [call] :=
      ⟨_, _, (List.dropLast_append_getLast hne).symm⟩
    have hsplit : calls = calls' ++ call :: (radiotext, false) :: later := by
      rw [heq, List.append_assoc]
      rfl
    have hsplit' : calls = (calls' ++ [call, (radiotext, false)]) ++ later := by
      rw [hsplit, List.append_assoc]
      rfl
    have hiff := (icyUpdates_partial_iff enabled radiotext (hinitial hsplit')).2
    rw [List.append_assoc]
    refine hiff ?_
    rintro ⟨hblank, c, hc, hcomplete, hshown⟩
    exact hshown (hreturns calls' call radiotext later hsplit hblank c hc hcomplete)

/-- A letter and then nothing: the letter stays. -/
theorem titleStable_iff_letter : TitleStable true [([0x58], true), ([], false)] := by
  refine (titleStable_iff true (by simp [RadiotextLengths])).2 ?_
  intro earlier blank radiotext later heq hblank call hcall
  have hlength := congrArg List.length heq
  have hpos := List.length_pos_of_mem hcall
  simp only [List.length_append, List.length_cons, List.length_nil] at hlength
  omega

end Mpxcast
