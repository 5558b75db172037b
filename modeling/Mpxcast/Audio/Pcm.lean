import Mathlib.Algebra.Order.Floor.Ring
import Mathlib.Tactic

/-!
# PCM samples

`audio/pcm.c`: samples are scaled, clamped to 16 bits and truncated. Samples are elements of an
ordered field `K` with a floor: products are exact, no scale is infinite, and no sample is `NAN`.
-/

namespace Mpxcast

def pcmFloatFullScale : ℕ := 32768

/-- `int16_t` samples reach from `INT16_MIN` to `INT16_MAX`. -/
def int16Min : ℤ := -32768

def int16Max : ℤ := 32767

variable {K : Type*} [Field K] [LinearOrder K] [FloorRing K]

/-- The conversion of a floating point number to an integer. -/
def truncate (x : K) : ℤ := if 0 ≤ x then ⌊x⌋ else ⌈x⌉

def pcmSaturateS16 (sample : K) : Int16 :=
  let clamped := min (int16Max : K) (max (int16Min : K) sample)
  Int16.ofInt (truncate clamped)

omit [LinearOrder K] [FloorRing K] in
def pcmBasebandVolume : K := ((4 : ℕ) : K) / ((10 : ℕ) : K)

omit [LinearOrder K] [FloorRing K] in
def pcmAudioOutputScale (volumeGain : K) : K :=
  (pcmFloatFullScale : K) * pcmBasebandVolume * volumeGain

def pcmConvertF32ToS16 (input : List K) (scale : K) : List Int16 :=
  input.map fun sample => pcmSaturateS16 (sample * scale)

/-- The frames, left before right. -/
def pcmConvertStereoF32ToS16 (left right : List K) (scale : K) : List Int16 :=
  (List.zipWith (fun leftSample rightSample =>
    [pcmSaturateS16 (leftSample * scale), pcmSaturateS16 (rightSample * scale)]) left right).flatten

/-- Frames have two samples. -/
lemma length_pcmConvertStereoF32ToS16 (left right : List K) (scale : K) :
    (pcmConvertStereoF32ToS16 left right scale).length = min left.length right.length * 2 := by
  unfold pcmConvertStereoF32ToS16
  induction left generalizing right with
  | nil => simp
  | cons l left ih =>
    cases right with
    | nil => simp
    | cons r right =>
      rw [List.zipWith_cons_cons, List.flatten_cons, List.length_append, ih, List.length_cons,
        List.length_cons, List.length_cons, List.length_cons, List.length_nil]
      omega

/-- Where the samples of a frame are. -/
lemma pcmConvertStereoF32ToS16_frame {left right : List K} {n : ℕ} {l r : K} (scale : K)
    (hleft : left[n]? = some l) (hright : right[n]? = some r) :
    (pcmConvertStereoF32ToS16 left right scale)[n * 2]? = some (pcmSaturateS16 (l * scale)) ∧
      (pcmConvertStereoF32ToS16 left right scale)[n * 2 + 1]?
        = some (pcmSaturateS16 (r * scale)) := by
  unfold pcmConvertStereoF32ToS16
  induction n generalizing left right with
  | zero =>
    cases left with
    | nil => simp at hleft
    | cons l' left =>
      cases right with
      | nil => simp at hright
      | cons r' right =>
        obtain rfl : l' = l := by simpa using hleft
        obtain rfl : r' = r := by simpa using hright
        exact ⟨rfl, rfl⟩
  | succ n ih =>
    cases left with
    | nil => simp at hleft
    | cons l' left =>
      cases right with
      | nil => simp at hright
      | cons r' right =>
        rw [Nat.succ_mul]
        exact ih hleft hright

/-! ### Quantisation -/

section

variable [IsStrictOrderedRing K]

lemma truncate_intCast (z : ℤ) : truncate (z : K) = z := by
  unfold truncate
  split_ifs
  · exact Int.floor_intCast z
  · exact Int.ceil_intCast z

omit [IsStrictOrderedRing K] in
/-- Truncation keeps the order. -/
lemma truncate_mono {x y : K} (h : x ≤ y) : truncate x ≤ truncate y := by
  unfold truncate
  split_ifs with hx hy hy
  · exact Int.floor_mono h
  · exact absurd (hx.trans h) hy
  · exact (Int.ceil_le.2 (by exact_mod_cast (not_le.1 hx).le)).trans (Int.floor_nonneg.2 hy)
  · exact Int.ceil_mono h

/-- The sample that is put out, as a number. -/
lemma pcmSaturateS16_toInt (sample : K) :
    (pcmSaturateS16 sample).toInt
      = truncate (min (int16Max : K) (max (int16Min : K) sample)) := by
  have hmin : (int16Min : K) ≤ min (int16Max : K) (max (int16Min : K) sample) :=
    le_min (by exact_mod_cast (by decide : int16Min ≤ int16Max)) (le_max_left _ _)
  have hlo := truncate_mono hmin
  have hhi := truncate_mono (min_le_left (int16Max : K) (max (int16Min : K) sample))
  rw [truncate_intCast] at hlo hhi
  unfold pcmSaturateS16
  exact Int16.toInt_ofInt_of_le hlo (lt_of_le_of_lt hhi (by decide : int16Max < 2 ^ 15))

/-- What is lost has the sign of the sample. -/
lemma truncate_error (x : K) :
    (0 ≤ x ∧ 0 ≤ x - truncate x ∧ x - truncate x < 1) ∨
      (x < 0 ∧ -1 < x - truncate x ∧ x - truncate x ≤ 0) := by
  unfold truncate
  split_ifs with hx
  · exact Or.inl ⟨hx, sub_nonneg.2 (Int.floor_le x), by linarith [Int.lt_floor_add_one x]⟩
  · exact Or.inr ⟨not_le.1 hx, by linarith [Int.ceil_lt_add_one x], sub_nonpos.2 (Int.le_ceil x)⟩

/-- Truncating two samples and truncating their mean. -/
lemma abs_truncate_add_sub_le {x y c : K} (hmean : x + y = c + c) :
    |truncate x + truncate y - 2 * truncate c| ≤ 2 := by
  have hbounds : (-3 : K) < truncate x + truncate y - 2 * truncate c ∧
      (truncate x + truncate y - 2 * truncate c : K) < 3 := by
    -- of samples with different signs the losses partly cancel
    rcases truncate_error x with ⟨hx, hx₀, hx₁⟩ | ⟨hx, hx₀, hx₁⟩ <;>
      rcases truncate_error y with ⟨hy, hy₀, hy₁⟩ | ⟨hy, hy₀, hy₁⟩ <;>
      rcases truncate_error c with ⟨hc, hc₀, hc₁⟩ | ⟨hc, hc₀, hc₁⟩ <;>
      constructor <;> linarith
  have hlo : (-3 : ℤ) < truncate x + truncate y - 2 * truncate c := by exact_mod_cast hbounds.1
  have hhi : truncate x + truncate y - 2 * truncate c < 3 := by exact_mod_cast hbounds.2
  rw [abs_le]
  omega

/-- A sample that fits is only truncated. -/
lemma pcmSaturateS16_toInt_of_mem {sample : K}
    (h : sample ∈ Set.Icc (int16Min : K) (int16Max : K)) :
    (pcmSaturateS16 sample).toInt = truncate sample := by
  rw [pcmSaturateS16_toInt, max_eq_right h.1, min_eq_right h.2]

/-- A sample that is put out short of the limits was not clamped. -/
lemma mem_of_pcmSaturateS16 {sample : K} (hlo : int16Min < (pcmSaturateS16 sample).toInt)
    (hhi : (pcmSaturateS16 sample).toInt < int16Max) :
    sample ∈ Set.Icc (int16Min : K) (int16Max : K) := by
  rw [pcmSaturateS16_toInt] at hlo hhi
  have hle : (int16Min : K) ≤ int16Max := by exact_mod_cast (by decide : int16Min ≤ int16Max)
  constructor
  · by_contra hbelow
    rw [max_eq_left (not_le.1 hbelow).le, min_eq_right hle, truncate_intCast] at hlo
    exact lt_irrefl _ hlo
  · by_contra habove
    have hmax : (int16Max : K) ≤ max (int16Min : K) sample :=
      (not_le.1 habove).le.trans (le_max_right _ _)
    rw [min_eq_left hmax, truncate_intCast] at hhi
    exact lt_irrefl _ hhi

end

end Mpxcast
