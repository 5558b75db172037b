import Mathlib
import Mpxcast.Core.OnePole
import Mpxcast.Dsp.FmQuality

/-!
# The readings of the quality monitor

With real functions and in exact arithmetic, a reading is the mean of the noise power over all the
time since the monitor was last disturbed, but for the time that its filter takes to settle. The
mean forgets with a time constant of half a second, however the samples are cut into blocks.
-/

namespace Mpxcast

open OnePole Real

noncomputable def realQualityMath : QualityMath ℝ := ⟨fun x => exp x - 1, logb 10⟩

/-! ### What the monitor has heard -/

variable {σ : Type*}

/-- What comes out of the filter, when all of it is finite. -/
def Iirfilt.filtered (iirfilt : Iirfilt σ ℝ) : σ → List (Option ℝ) → Option (σ × List ℝ)
  | filter, [] => some (filter, [])
  | _, none :: _ => none
  | filter, some sample :: mpx =>
    match iirfilt.execute filter sample with
    | (_, none) => none
    | (filter, some out) => (iirfilt.filtered filter mpx).map fun rest => (rest.1, out :: rest.2)

/-- The filter, and what came out of it since the monitor was last disturbed. -/
structure QualityHistory (σ : Type*) where
  filter : σ
  blocks : List (List ℝ)

/-- An empty block and a value that is not finite disturb the monitor, as a reset does. -/
def QualityHistory.call (iirfilt : Iirfilt σ ℝ) (history : QualityHistory σ) :
    FmQualityCall ℝ → QualityHistory σ
  | .processBlock mpx =>
    if mpx = [] then ⟨iirfilt.created, []⟩
    else
      match iirfilt.filtered history.filter mpx with
      | none => ⟨iirfilt.created, []⟩
      | some (filter, block) => ⟨filter, history.blocks ++ [block]⟩
  | .reset => ⟨iirfilt.created, []⟩
  | .report _ _ => history

/-- The length of a block and its mean power. -/
noncomputable def noise (block : List ℝ) : ℕ × ℝ :=
  (block.length, (block.map fun out => out * out).sum / block.length)

/-- The blocks that begin behind the first `count` samples. -/
def settled : ℕ → List (ℕ × ℝ) → List (ℕ × ℝ)
  | 0, blocks => blocks
  | _ + 1, [] => []
  | count + 1, block :: blocks => settled (count + 1 - block.1) blocks

/-- What is left after one sample of what the mean remembers. -/
noncomputable def remembered : ℝ := exp (-1 / 120000)

/-- The blocks that count: a tenth of a second is passed over. -/
noncomputable def measured (history : QualityHistory σ) : List (ℕ × ℝ) :=
  settled 24000 (history.blocks.map noise)

lemma fmQualityAlpha_eq (count : ℕ) :
    fmQualityAlpha realQualityMath count = 1 - remembered ^ count := by
  have hexponent : -(count : ℝ) / ((fmQualitySampleRateHz : ℝ) * fmQualityAverageSeconds)
      = count * (-1 / 120000) := by
    unfold fmQualitySampleRateHz fmQualityAverageSeconds
    push_cast
    ring
  rw [fmQualityAlpha, hexponent, remembered, ← exp_nat_mul]
  show -(exp _ - 1) = _
  ring

lemma remembered_pos : 0 < remembered := exp_pos _

lemma remembered_le_one : remembered ≤ 1 := by
  rw [remembered, exp_le_one_iff]
  norm_num

/-! ### The blocks that count -/

lemma settled_append (count : ℕ) (xs ys : List (ℕ × ℝ)) :
    settled count (xs ++ ys) = settled count xs ++ settled (count - duration xs) ys := by
  induction xs generalizing count with
  | nil =>
    have hnil : settled count [] = [] := by cases count <;> rfl
    rw [hnil]
    rfl
  | cons x xs ih =>
    cases count with
    | zero => simp only [settled, Nat.zero_sub]
    | succ count =>
      have hduration : duration (x :: xs) = x.1 + duration xs := rfl
      rw [List.cons_append, settled, settled, ih, hduration, Nat.sub_add_eq]

lemma settled_singleton (count : ℕ) (x : ℕ × ℝ) :
    settled count [x] = if count = 0 then [x] else [] := by
  cases count with
  | zero => rfl
  | succ count =>
    rw [settled, if_neg (Nat.succ_ne_zero count)]
    cases count + 1 - x.1 <;> rfl

/-- As long as the filter settles nothing counts. -/
lemma settled_eq_nil {count : ℕ} {xs : List (ℕ × ℝ)} (h : count - duration xs ≠ 0) :
    settled count xs = [] := by
  induction xs generalizing count with
  | nil => cases count <;> rfl
  | cons x xs ih =>
    have hduration : duration (x :: xs) = x.1 + duration xs := rfl
    cases count with
    | zero => exact absurd (Nat.zero_sub _) h
    | succ count =>
      rw [hduration, Nat.sub_add_eq] at h
      rw [settled]
      exact ih h

lemma mem_of_mem_settled {count : ℕ} {x : ℕ × ℝ} {xs : List (ℕ × ℝ)} (h : x ∈ settled count xs) :
    x ∈ xs := by
  induction xs generalizing count with
  | nil => cases count <;> exact h
  | cons y ys ih =>
    cases count with
    | zero => exact h
    | succ count => exact List.mem_cons_of_mem y (ih h)

lemma noise_nonneg (block : List ℝ) : 0 ≤ (noise block).2 := by
  refine div_nonneg (List.sum_nonneg fun power hpower => ?_) (Nat.cast_nonneg _)
  obtain ⟨out, -, rfl⟩ := List.mem_map.1 hpower
  exact mul_self_nonneg out

lemma lastingMean_measured_nonneg (history : QualityHistory σ) :
    0 ≤ lastingMean remembered (measured history) := by
  rcases eq_or_ne (measured history) [] with hnil | hne
  · rw [hnil]
    exact le_rfl
  · have hbound : ∀ x ∈ measured history, x.2 ∈ Set.Ici 0 := by
      intro x hx
      obtain ⟨block, -, rfl⟩ := List.mem_map.1 (mem_of_mem_settled hx)
      exact noise_nonneg block
    exact lastingMean_mem (convex_Ici 0) remembered_pos.le remembered_le_one hne hbound

/-! ### One call -/

lemma fmQualityFilterBlock_eq (iirfilt : Iirfilt σ ℝ) (mpx : List (Option ℝ)) :
    ∀ filter power, match iirfilt.filtered filter mpx with
      | none => (fmQualityFilterBlock iirfilt filter power mpx).2 = none
      | some (next, block) => fmQualityFilterBlock iirfilt filter power mpx
          = (next, some (power + (block.map fun out => out * out).sum)) ∧
        block.length = mpx.length := by
  induction mpx with
  | nil => exact fun filter power => ⟨by simp [fmQualityFilterBlock], rfl⟩
  | cons sample mpx ih =>
    intro filter power
    cases sample with
    | none => rfl
    | some sample =>
      rw [Iirfilt.filtered, fmQualityFilterBlock]
      rcases iirfilt.execute filter sample with ⟨next, _ | out⟩
      · rfl
      · have hrest := ih next (power + out * out)
        dsimp only
        cases hout : iirfilt.filtered next mpx with
        | none =>
          rw [hout] at hrest
          exact hrest
        | some rest =>
          rw [hout] at hrest
          obtain ⟨hfilter, hlength⟩ := hrest
          refine ⟨?_, congrArg Nat.succ hlength⟩
          rw [hfilter, List.map_cons, List.sum_cons, add_assoc]

/-- The state says what the history does. -/
structure Measures (state : FmQualityState σ ℝ) (history : QualityHistory σ) : Prop where
  filter_eq : state.filter = some history.filter
  settling_eq : state.settlingSamples = 24000 - duration (history.blocks.map noise)
  unmeasured : measured history = [] → state.result = ⟨false, none, none⟩
  reading : measured history ≠ [] →
    state.smoothedPower = lastingMean remembered (measured history) ∧
      state.result = fmQualityResultOf realQualityMath (lastingMean remembered (measured history))

lemma Measures.of_measuring {state next : FmQualityState σ ℝ} {history : QualityHistory σ}
    (h : Measures state history) (hnext : next.measuring = state.measuring) :
    Measures next history := by
  obtain ⟨hfilter, hrest⟩ := Prod.mk.inj hnext
  obtain ⟨hsettling, hrest⟩ := Prod.mk.inj hrest
  obtain ⟨hpower, hresult⟩ := Prod.mk.inj hrest
  constructor
  · exact hfilter.trans h.filter_eq
  · exact hsettling.trans h.settling_eq
  · exact fun hnil => hresult.trans (h.unmeasured hnil)
  · exact fun hne => ⟨hpower.trans (h.reading hne).1, hresult.trans (h.reading hne).2⟩

lemma measures_reset {iirfilt : Iirfilt σ ℝ} {state : FmQualityState σ ℝ} {filter : σ}
    (hfilter : state.filter = some filter) :
    Measures (fmQualityReset iirfilt state) ⟨iirfilt.created, []⟩ := by
  constructor
  · rw [fmQualityReset, hfilter, Option.map_some, iirfilt.reset_eq]
  · rfl
  · exact fun _ => rfl
  · exact fun hne => absurd rfl hne

lemma fmQualityProcessBlock_of_filtered {iirfilt : Iirfilt σ ℝ} {state : FmQualityState σ ℝ}
    {filter next : σ} {mpx : List (Option ℝ)} {block : List ℝ}
    (hfilter : state.filter = some filter) (hmpx : mpx ≠ [])
    (hblock : iirfilt.filtered filter mpx = some (next, block)) :
    fmQualityProcessBlock iirfilt realQualityMath state mpx
      = fmQualityUpdate iirfilt realQualityMath { state with filter := some next }
          (block.map fun out => out * out).sum block.length := by
  have hloop := fmQualityFilterBlock_eq iirfilt mpx filter 0
  rw [hblock] at hloop
  obtain ⟨hloop, hlength⟩ := hloop
  have hnonempty : mpx.length ≠ 0 := fun h => hmpx (List.length_eq_zero_iff.1 h)
  rw [fmQualityProcessBlock, hfilter]
  dsimp only
  rw [if_neg hnonempty, hloop, zero_add, hlength]

/-- A block that was filtered extends the history. -/
lemma Measures.update {iirfilt : Iirfilt σ ℝ} {state : FmQualityState σ ℝ}
    {history : QualityHistory σ} (h : Measures state history) (next : σ) (block : List ℝ) :
    Measures (fmQualityUpdate iirfilt realQualityMath { state with filter := some next }
        (block.map fun out => out * out).sum block.length)
      ⟨next, history.blocks ++ [block]⟩ := by
  have hduration : duration ((history.blocks ++ [block]).map noise)
      = duration (history.blocks.map noise) + block.length := by
    rw [List.map_append, duration_append]
    rfl
  have hmeasured : measured ⟨next, history.blocks ++ [block]⟩ = measured history
      ++ if state.settlingSamples = 0 then [noise block] else [] := by
    rw [measured, List.map_append, settled_append, ← h.settling_eq, List.map_singleton,
      settled_singleton]
    rfl
  by_cases hsettling : state.settlingSamples = 0
  · rw [if_pos hsettling] at hmeasured
    have hsmoothed : (if !state.result.valid then (noise block).2
        else state.smoothedPower + fmQualityAlpha realQualityMath block.length
          * ((noise block).2 - state.smoothedPower))
        = lastingMean remembered (measured ⟨next, history.blocks ++ [block]⟩) := by
      rw [hmeasured]
      rcases eq_or_ne (measured history) [] with hnil | hne
      · rw [hnil, h.unmeasured hnil]
        simp [lastingMean, weighted, duration, noise]
      · obtain ⟨hpower, hresult⟩ := h.reading hne
        rw [hresult, hpower, fmQualityAlpha_eq]
        exact (lastingMean_append hne block.length (noise block).2).symm
    have hupdate : fmQualityUpdate iirfilt realQualityMath { state with filter := some next }
          (block.map fun out => out * out).sum block.length
        = { state with
            filter := some next
            smoothedPower := lastingMean remembered (measured ⟨next, history.blocks ++ [block]⟩)
            result := fmQualityResultOf realQualityMath
              (lastingMean remembered (measured ⟨next, history.blocks ++ [block]⟩)) } := by
      have hnonneg := lastingMean_measured_nonneg ⟨next, history.blocks ++ [block]⟩
      rw [← hsmoothed] at hnonneg ⊢
      rw [fmQualityUpdate, if_neg (not_not.2 hsettling)]
      exact if_neg (not_lt.2 hnonneg)
    rw [hupdate]
    constructor
    · rfl
    · show state.settlingSamples = _
      rw [hduration, Nat.sub_add_eq, ← h.settling_eq, hsettling, Nat.zero_sub]
    · intro hnil
      rw [hmeasured] at hnil
      exact absurd hnil (List.append_ne_nil_of_right_ne_nil _ (List.cons_ne_nil _ _))
    · exact fun _ => ⟨rfl, rfl⟩
  · rw [if_neg hsettling, List.append_nil] at hmeasured
    have hnil : measured history = [] := settled_eq_nil (h.settling_eq ▸ hsettling)
    rw [fmQualityUpdate, if_pos hsettling]
    constructor
    · rfl
    · rw [hduration, Nat.sub_add_eq, ← h.settling_eq]
      dsimp only
      split_ifs with hcount
      · exact (Nat.sub_eq_zero_of_le hcount).symm
      · rfl
    · exact fun _ => h.unmeasured hnil
    · exact fun hne => absurd (hmeasured.trans hnil) hne

/-- Every call keeps the state in step with the history. -/
lemma Measures.call {iirfilt : Iirfilt σ ℝ} {run : FmQualityState σ ℝ × List (FmQualityEntry ℝ)}
    {history : QualityHistory σ} (h : Measures run.1 history) (call : FmQualityCall ℝ) :
    Measures (fmQualityCall iirfilt realQualityMath run call).1 (history.call iirfilt call) := by
  cases call with
  | reset => exact measures_reset h.filter_eq
  | report frequencyHz clock =>
    exact h.of_measuring (fmQualityReport_measuring run.1 frequencyHz clock)
  | processBlock mpx =>
    show Measures (fmQualityProcessBlock iirfilt realQualityMath run.1 mpx) _
    rw [QualityHistory.call]
    split_ifs with hmpx
    · rw [hmpx, fmQualityProcessBlock, h.filter_eq]
      exact measures_reset h.filter_eq
    · cases hblock : iirfilt.filtered history.filter mpx with
      | none =>
        have hloop := fmQualityFilterBlock_eq iirfilt mpx history.filter 0
        rw [hblock] at hloop
        have hnonempty : mpx.length ≠ 0 := fun h => hmpx (List.length_eq_zero_iff.1 h)
        have hreset : fmQualityProcessBlock iirfilt realQualityMath run.1 mpx
            = fmQualityReset iirfilt { run.1 with
                filter := some (fmQualityFilterBlock iirfilt history.filter 0 mpx).1 } := by
          rw [fmQualityProcessBlock, h.filter_eq]
          dsimp only
          rw [if_neg hnonempty]
          generalize fmQualityFilterBlock iirfilt history.filter 0 mpx = loop at hloop
          obtain ⟨filter, power⟩ := loop
          cases hloop
          rfl
        rw [hreset]
        exact measures_reset rfl
      | some rest =>
        rw [fmQualityProcessBlock_of_filtered h.filter_eq hmpx hblock]
        exact h.update rest.1 rest.2

end Mpxcast
