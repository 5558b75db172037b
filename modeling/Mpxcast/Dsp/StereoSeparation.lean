import Mathlib.Analysis.SpecialFunctions.Trigonometric.Basic
import Mpxcast.Dsp.PilotDoubler

/-!
# Separation of the stereo channels

An ideal multiplex with constant levels, in exact real arithmetic. The doubled pilot is a sine of
amplitude one, so the difference signal is the level of the subchannel times the square of that
sine: on average half of the level. The matrix adds it to the sum without making up for the half,
and each channel leaks into the other.
-/

namespace Mpxcast

open Real ToneDoubler

/-! ### The matrix -/

/-- The first `n` frames have been replaced by their channels. -/
structure FmStereoState.Separated {K : Type*} [Field K] (state next : FmStereoState K) (n : ℕ) :
    Prop where
  left : ∀ i sumSample diffSample, state.pilotMpx.load i = some sumSample →
    state.stereoSubchannel.load i = some diffSample → next.pilotMpx.load i
      = some (if i < n then (fmStereoMatrix sumSample diffSample).1 else sumSample)
  right : ∀ i sumSample diffSample, state.pilotMpx.load i = some sumSample →
    state.stereoSubchannel.load i = some diffSample → next.stereoSubchannel.load i
      = some (if i < n then (fmStereoMatrix sumSample diffSample).2 else diffSample)

/-- One more sample of a channel is in place. -/
lemma MpxBlock.load_replaced {K : Type*} {block next : MpxBlock K} {n i : ℕ} {x channel sample : K}
    (hn : n < fmPipelineDspBlockSamples) (hnext : next.samples = block.samples.set n x)
    (hload : block.load i = some (if i < n then channel else sample))
    (hchannel : i = n → channel = x) :
    next.load i = some (if i < n + 1 then channel else sample) := by
  rw [load_of_store hn hnext, hload]
  rcases Nat.lt_trichotomy i n with hlt | rfl | hgt
  · rw [if_neg hlt.ne, if_pos hlt, if_pos (Nat.lt_succ_of_lt hlt)]
  · rw [if_pos rfl, if_pos i.lt_succ_self, hchannel rfl]
  · rw [if_neg hgt.ne', if_neg hgt.not_gt, if_neg (Nat.not_lt.2 hgt)]

/-- The rounds of the loop up to the `n`-th. -/
lemma fmStereoMatrixRounds_separated {K : Type*} [Field K] (state : FmStereoState K) {n : ℕ}
    (hn : n ≤ fmPipelineDspBlockSamples) :
    ∃ next, (List.range n).foldlM fmStereoMatrixRound state = some next ∧
      state.Separated next n := by
  induction n with
  | zero =>
    refine ⟨state, rfl, fun i s d hs _ => ?_, fun i s d _ hd => ?_⟩
    · rw [hs, if_neg (Nat.not_lt_zero i)]
    · rw [hd, if_neg (Nat.not_lt_zero i)]
  | succ n ih =>
    obtain ⟨next, hfold, hnext⟩ := ih (by omega)
    have hlt : n < fmPipelineDspBlockSamples := hn
    obtain ⟨s, hs⟩ := state.pilotMpx.exists_load hlt
    obtain ⟨d, hd⟩ := state.stereoSubchannel.exists_load hlt
    have hsum := hnext.left n s d hs hd
    have hdiff := hnext.right n s d hs hd
    rw [if_neg (lt_irrefl n)] at hsum hdiff
    obtain ⟨left, hstoreLeft, hleft⟩ := next.pilotMpx.store_eq hlt (fmStereoMatrix s d).1
    obtain ⟨right, hstoreRight, hright⟩ :=
      next.stereoSubchannel.store_eq hlt (fmStereoMatrix s d).2
    -- A frame that was not replaced yet is the one the loop started with.
    have hframe : ∀ s' d', state.pilotMpx.load n = some s' →
        state.stereoSubchannel.load n = some d' → fmStereoMatrix s' d' = fmStereoMatrix s d := by
      intro s' d' hs' hd'
      rw [Option.some.inj (hs'.symm.trans hs), Option.some.inj (hd'.symm.trans hd)]
    refine ⟨{ next with pilotMpx := left, stereoSubchannel := right }, ?_, ?_, ?_⟩
    · rw [List.range_succ, List.foldlM_append, hfold]
      simp [fmStereoMatrixRound, hsum, hdiff, hstoreLeft, hstoreRight]
    · intro i s' d' hs' hd'
      refine MpxBlock.load_replaced hlt hleft (hnext.left i s' d' hs' hd') ?_
      rintro rfl
      rw [hframe s' d' hs' hd']
    · intro i s' d' hs' hd'
      refine MpxBlock.load_replaced hlt hright (hnext.right i s' d' hs' hd') ?_
      rintro rfl
      rw [hframe s' d' hs' hd']

/-- The loop puts out the matrix of every frame. -/
theorem fmStereoOutputAudioBlock_separated {K : Type*} [Field K] (state : FmStereoState K)
    (frameCount : ℕ) :
    ∃ next, fmStereoOutputAudioBlock state frameCount = some next ∧
      state.Separated next (min frameCount fmPipelineAudioBlockSamples) := by
  have hcount : (if frameCount > fmPipelineAudioBlockSamples then fmPipelineAudioBlockSamples
      else frameCount) = min frameCount fmPipelineAudioBlockSamples := by
    split_ifs with hgt
    · rw [min_eq_right (le_of_lt hgt)]
    · rw [min_eq_left (not_lt.1 hgt)]
  unfold fmStereoOutputAudioBlock
  rw [hcount]
  exact fmStereoMatrixRounds_separated state ((min_le_right _ _).trans (by decide))

/-! ### The difference signal -/

/-- The phase of the pilot at sample `n`. -/
noncomputable def pilotPhase (t₀ w : ℝ) (n : ℕ) : ℝ := t₀ + n * w

/-- The subcarrier at sample `n`: the pilot at twice its phase. -/
noncomputable def subcarrier (t₀ w : ℝ) (n : ℕ) : ℝ := sin (pilotPhase t₀ w n + pilotPhase t₀ w n)

lemma subcarrier_eq (t₀ w : ℝ) (n : ℕ) : subcarrier t₀ w n = sin (2 * pilotPhase t₀ w n) := by
  rw [subcarrier, two_mul]

/-- The pilot and the subchannel of an ideal multiplex from sample `start` on. -/
noncomputable def idealBank (A t₀ w D : ℝ) (start : ℕ) : MpxBlock ℝ × MpxBlock ℝ :=
  (.ofFn fun i => A * sin (pilotPhase t₀ w (start + i)),
    .ofFn fun i => D * subcarrier t₀ w (start + i))

/-- The difference signal that comes out at sample `n`. -/
noncomputable def idealDifference (t₀ w D : ℝ) (n : ℕ) : ℝ := D * subcarrier t₀ w n ^ 2

/-- The doubler is set to the step of the pilot and has seen the sample before `n`. -/
structure FmStereoState.Tracks (state : FmStereoState ℝ) (A t₀ w : ℝ) (n : ℕ) : Prop where
  sinStep : state.pilotSinStep = sin w
  cosStep : state.pilotCosStep = cos w
  prev : state.prevPilotSample = A * sin (pilotPhase t₀ w n - w)

variable {A t₀ w D : ℝ} {state : FmStereoState ℝ}

/-- The pilot is doubled exactly. -/
lemma FmStereoState.Tracks.doubledPilot (hA : A ≠ 0) (hw : sin w ≠ 0) {n : ℕ}
    (h : state.Tracks A t₀ w n) :
    fmStereoDoubledPilot state (A * sin (pilotPhase t₀ w n)) = subcarrier t₀ w n := by
  have htone := double_tone (cos w) hw hA (sin_sq_add_cos_sq (pilotPhase t₀ w n))
  rw [fmStereoDoubledPilot_eq, h.sinStep, h.cosStep, h.prev, sin_sub, htone, subcarrier_eq,
    sin_two_mul]
  push_cast
  rfl

lemma FmStereoState.Tracks.next {n : ℕ} (h : state.Tracks A t₀ w n) :
    FmStereoState.Tracks { state with prevPilotSample := A * sin (pilotPhase t₀ w n) } A t₀ w
      (n + 1) := by
  refine ⟨h.sinStep, h.cosStep, ?_⟩
  have hphase : pilotPhase t₀ w (n + 1) - w = pilotPhase t₀ w n := by
    unfold pilotPhase
    push_cast
    ring
  rw [hphase]

/-- A stretch of the pilot. -/
lemma FmStereoState.Tracks.doubleAll (hA : A ≠ 0) (hw : sin w ≠ 0) {start : ℕ}
    (h : state.Tracks A t₀ w start) (count : ℕ) :
    doubleAll state.pilotSinStep state.pilotCosStep state.prevPilotSample
        ((List.range' start count).map fun n => A * sin (pilotPhase t₀ w n))
      = (List.range' start count).map (subcarrier t₀ w) := by
  induction count generalizing state start with
  | zero => rfl
  | succ count ih =>
    rw [List.range'_succ, List.map_cons, doubleAll_cons, ← fmStereoDoubledPilot_eq,
      h.doubledPilot hA hw, List.map_cons]
    exact congrArg _ (ih h.next)

/-! ### Averages -/

/-- The average of a run of samples. -/
noncomputable def average (xs : List ℝ) : ℝ := xs.sum / xs.length

lemma average_map_range' (f : ℕ → ℝ) (start count : ℕ) :
    average ((List.range' start count).map f)
      = (∑ i ∈ Finset.range count, f (start + i)) / count := by
  have hsum (g : ℕ → ℝ) : ((List.range count).map g).sum = ∑ i ∈ Finset.range count, g i := rfl
  rw [average, List.length_map, List.length_range', List.range'_eq_map_range, List.map_map, hsum]
  rfl

/-- Over a run without a fourth harmonic the difference signal is half of the level. -/
lemma sum_idealDifference (t₀ w D : ℝ) {start count : ℕ}
    (hcos : ∑ i ∈ Finset.range count, cos (4 * pilotPhase t₀ w (start + i)) = 0) :
    ∑ i ∈ Finset.range count, idealDifference t₀ w D (start + i) = count * (D / 2) := by
  have hterm (i : ℕ) : idealDifference t₀ w D (start + i)
      = D / 2 - D / 2 * cos (4 * pilotPhase t₀ w (start + i)) := by
    have hfour : 4 * pilotPhase t₀ w (start + i) = 2 * (2 * pilotPhase t₀ w (start + i)) := by ring
    rw [idealDifference, subcarrier_eq, hfour, cos_two_mul, cos_sq']
    ring
  rw [Finset.sum_congr rfl fun i _ => hterm i, Finset.sum_sub_distrib, ← Finset.mul_sum, hcos,
    Finset.sum_const, Finset.card_range, nsmul_eq_mul, mul_zero, sub_zero]

/-- The frames that the matrix makes of a run of the difference signal, for a constant sum. -/
noncomputable def separate (sumSample : ℝ) (differences : List ℝ) (start count : ℕ) :
    List (ℝ × ℝ) :=
  ((differences.drop start).take count).map (fmStereoMatrix sumSample)

lemma separate_range' (sumSample : ℝ) (f : ℕ → ℝ) {start count total : ℕ}
    (hend : start + count ≤ total) :
    separate sumSample ((List.range' 0 total).map f) start count
      = (List.range' start count).map fun n => fmStereoMatrix sumSample (f n) := by
  have hrun : ((List.range' 0 total).drop start).take count = List.range' start count := by
    rw [List.drop_range', List.take_range'_of_length_ge (by omega), Nat.zero_add, Nat.mul_one]
  rw [separate, ← List.map_drop, ← List.map_take, hrun, List.map_map]
  rfl

/-- What the channels are on average: a quarter of each level is in the other channel. -/
lemma average_separate (t₀ w L R : ℝ) {start count total : ℕ} (hcount : 0 < count)
    (hend : start + count ≤ total)
    (hcos : ∑ i ∈ Finset.range count, cos (4 * pilotPhase t₀ w (start + i)) = 0)
    {frames : List (ℝ × ℝ)} (hframes : frames = separate ((L + R) / 2)
      ((List.range' 0 total).map (idealDifference t₀ w ((L - R) / 2))) start count) :
    average (frames.map Prod.fst) = (3 * L + R) / 4 ∧
      average (frames.map Prod.snd) = (L + 3 * R) / 4 := by
  have hne : (count : ℝ) ≠ 0 := Nat.cast_ne_zero.2 hcount.ne'
  have hsum := sum_idealDifference t₀ w ((L - R) / 2) hcos
  rw [hframes, separate_range' _ _ hend, List.map_map, List.map_map]
  constructor
  · refine (average_map_range' _ start count).trans ?_
    simp only [Function.comp_apply, fmStereoMatrix]
    rw [Finset.sum_add_distrib, hsum, Finset.sum_const, Finset.card_range, nsmul_eq_mul]
    field_simp
    ring
  · refine (average_map_range' _ start count).trans ?_
    simp only [Function.comp_apply, fmStereoMatrix]
    rw [Finset.sum_sub_distrib, hsum, Finset.sum_const, Finset.card_range, nsmul_eq_mul]
    field_simp
    ring

/-! ### Separation -/

/-- A doubler configured for the step `w`, that has seen the sample before the first. -/
noncomputable def startedDoubler (state : FmStereoState ℝ) (A t₀ w : ℝ) : FmStereoState ℝ :=
  { fmStereoConfigurePilotDoubler state sin cos w with prevPilotSample := A * sin (t₀ - w) }

/-- A signal in blocks. -/
lemma flatMap_ofFn {K : Type*} (f : ℕ → K) (blocks : ℕ) :
    (List.range blocks).flatMap (fun b => (MpxBlock.ofFn fun i =>
        f (b * fmPipelineDspBlockSamples + i)).samples)
      = (List.range' 0 (blocks * fmPipelineDspBlockSamples)).map f := by
  induction blocks with
  | zero =>
    rw [Nat.zero_mul]
    rfl
  | succ blocks ih =>
    have hblock : (MpxBlock.ofFn fun i => f (blocks * fmPipelineDspBlockSamples + i)).samples
        = (List.range' (blocks * fmPipelineDspBlockSamples) fmPipelineDspBlockSamples).map f := by
      rw [MpxBlock.ofFn, List.range'_eq_map_range, List.map_map, Function.comp_def]
    rw [List.range_succ, List.flatMap_append, ih, List.flatMap_singleton, hblock,
      ← List.map_append, Nat.succ_mul, ← List.range'_append_1, Nat.zero_add]

/-- The difference signal of a stream of blocks of the ideal multiplex. -/
lemma receive_idealBanks (hA : A ≠ 0) (hw : sin w ≠ 0) (state : FmStereoState ℝ) (t₀ D : ℝ)
    (blocks : ℕ) :
    ∃ next differences, Loop.calls fmStereoReceiveBlock (startedDoubler state A t₀ w)
        ((List.range blocks).map fun b => idealBank A t₀ w D (b * fmPipelineDspBlockSamples))
          = some (next, differences) ∧
      differences.flatten = (List.range' 0 (blocks * fmPipelineDspBlockSamples)).map
        (idealDifference t₀ w D) := by
  have hstart : (startedDoubler state A t₀ w).Tracks A t₀ w 0 := by
    refine ⟨rfl, rfl, ?_⟩
    rw [pilotPhase, Nat.cast_zero, zero_mul, add_zero]
    rfl
  obtain ⟨next, differences, doubled, hreceives, -, hdoubled, hdifferences⟩ :=
    fmStereoReceiveBlocks_doubled (startedDoubler state A t₀ w)
      ((List.range blocks).map fun b => idealBank A t₀ w D (b * fmPipelineDspBlockSamples))
  refine ⟨next, differences, hreceives, ?_⟩
  have hpilot := flatMap_ofFn (fun n => A * sin (pilotPhase t₀ w n)) blocks
  have hsubchannel := flatMap_ofFn (fun n => D * subcarrier t₀ w n) blocks
  rw [pilotStream, List.flatMap_map] at hdoubled
  rw [subchannelStream, List.flatMap_map] at hdifferences
  rw [hdifferences, hdoubled]
  dsimp only [idealBank]
  rw [hpilot, hsubchannel, hstart.doubleAll hA hw, List.zipWith_map, List.zipWith_self]
  refine List.map_congr_left fun n _ => ?_
  rw [idealDifference, pow_two, mul_assoc]

/-- **When the channels are separated.** Over every run of samples without a fourth harmonic, the
channels are on average the levels they were made of exactly when both levels are the same. -/
theorem fmStereo_separates_iff (state : FmStereoState ℝ) (A t₀ w L R : ℝ) (hA : A ≠ 0)
    (hw : sin w ≠ 0) (blocks start count : ℕ) (hcount : 0 < count)
    (hend : start + count ≤ blocks * fmPipelineDspBlockSamples)
    (hcos : ∑ i ∈ Finset.range count, cos (4 * pilotPhase t₀ w (start + i)) = 0) :
    ∃ next differences, Loop.calls fmStereoReceiveBlock (startedDoubler state A t₀ w)
        ((List.range blocks).map fun b =>
          idealBank A t₀ w ((L - R) / 2) (b * fmPipelineDspBlockSamples))
          = some (next, differences) ∧
      (average ((separate ((L + R) / 2) differences.flatten start count).map Prod.fst) = L ∧
          average ((separate ((L + R) / 2) differences.flatten start count).map Prod.snd) = R ↔
        L = R) := by
  obtain ⟨next, differences, hcalls, hdifferences⟩ :=
    receive_idealBanks hA hw state t₀ ((L - R) / 2) blocks
  obtain ⟨hleft, hright⟩ := average_separate t₀ w L R hcount hend hcos rfl
  refine ⟨next, differences, hcalls, ?_⟩
  rw [hdifferences, hleft, hright]
  constructor
  · rintro ⟨hL, -⟩
    linarith
  · rintro rfl
    constructor <;> ring

/-! ### A pilot of 19 kHz -/

/-- The step of the pilot at 240 kHz. -/
noncomputable def nominalStep : ℝ := ((2 : ℕ) : ℝ) * π * 19000 / 240000

lemma sin_nominalStep_ne_zero : sin nominalStep ≠ 0 := by
  have hpi := pi_pos
  have hpos : 0 < nominalStep := by
    unfold nominalStep
    positivity
  have hlt : nominalStep < π := by
    unfold nominalStep
    push_cast
    linarith
  exact (sin_pos_of_pos_of_lt_pi hpos hlt).ne'

/-- A sequence that changes sign after every `p` terms adds up to zero over pairs of them. -/
lemma sum_antiperiodic {f : ℕ → ℝ} {p : ℕ} (h : ∀ i, f (i + p) = -f i) (k : ℕ) :
    ∑ i ∈ Finset.range (k * (p + p)), f i = 0 := by
  induction k with
  | zero => simp
  | succ k ih =>
    have hpair (i : ℕ) : f (k * (p + p) + (p + i)) = -f (k * (p + p) + i) := by
      rw [← h, Nat.add_comm p i, Nat.add_assoc]
    rw [Nat.succ_mul, Finset.sum_range_add, ih, zero_add, Finset.sum_range_add,
      Finset.sum_congr rfl fun i _ => hpair i, Finset.sum_neg_distrib, add_neg_cancel]

/-- Any 240 samples are without a fourth harmonic. -/
lemma sum_cos_nominalStep (t₀ : ℝ) (start : ℕ) :
    ∑ i ∈ Finset.range 240, cos (4 * pilotPhase t₀ nominalStep (start + i)) = 0 := by
  refine sum_antiperiodic (p := 30) (fun i => ?_) 4
  have hshift : 4 * pilotPhase t₀ nominalStep (start + (i + 30))
      = 4 * pilotPhase t₀ nominalStep (start + i) + (19 : ℕ) * π := by
    unfold pilotPhase nominalStep
    push_cast
    ring
  rw [hshift, cos_add_nat_mul_pi]
  norm_num

theorem fmStereo_separates_iff_nominal :
    ∃ next differences,
      Loop.calls fmStereoReceiveBlock (startedDoubler fmStereoInit 1 0 nominalStep)
        ((List.range 1).map fun b =>
          idealBank 1 0 nominalStep ((1 - 0) / 2) (b * fmPipelineDspBlockSamples))
          = some (next, differences) ∧
      (average ((separate ((1 + 0) / 2) differences.flatten 0 240).map Prod.fst) = 1 ∧
          average ((separate ((1 + 0) / 2) differences.flatten 0 240).map Prod.snd) = 0 ↔
        (1 : ℝ) = 0) :=
  fmStereo_separates_iff fmStereoInit 1 0 nominalStep 1 0 one_ne_zero sin_nominalStep_ne_zero 1 0
    240 (by decide) (by decide) (sum_cos_nominalStep 0 0)

/-- With the left channel alone, a quarter of it comes out of the right one. -/
theorem fmStereo_leaks :
    sin nominalStep ≠ 0 ∧
      ∑ i ∈ Finset.range 240, cos (4 * pilotPhase 0 nominalStep (0 + i)) = 0 ∧
      ∃ next differences,
        Loop.calls fmStereoReceiveBlock (startedDoubler fmStereoInit 1 0 nominalStep)
          ((List.range 1).map fun b =>
            idealBank 1 0 nominalStep ((1 - 0) / 2) (b * fmPipelineDspBlockSamples))
            = some (next, differences) ∧
          average ((separate ((1 + 0) / 2) differences.flatten 0 240).map Prod.fst) ≠ 1 ∧
          average ((separate ((1 + 0) / 2) differences.flatten 0 240).map Prod.snd) ≠ 0 := by
  obtain ⟨next, differences, hcalls, hdifferences⟩ :=
    receive_idealBanks one_ne_zero sin_nominalStep_ne_zero fmStereoInit 0 ((1 - 0) / 2) 1
  obtain ⟨hleft, hright⟩ := average_separate 0 nominalStep 1 0 (by decide)
    (by decide : 0 + 240 ≤ 1 * fmPipelineDspBlockSamples) (sum_cos_nominalStep 0 0) rfl
  refine ⟨sin_nominalStep_ne_zero, sum_cos_nominalStep 0 0, next, differences, hcalls, ?_, ?_⟩
  · rw [hdifferences, hleft]
    norm_num
  · rw [hdifferences, hright]
    norm_num

end Mpxcast
