import Mathlib.Tactic

/-!
# Doubling a tone of unknown amplitude

Two successive samples of a tone, a known step apart, give its sine and its cosine up to one common
factor. Twice their product over the sum of their squares is the tone of twice the frequency, and
the factor cancels. Where both vanish there is no tone and the result is zero.
-/

namespace ToneDoubler

variable {K : Type*} [Field K] [LinearOrder K]

/-- Twice the product of the normalised components; zero without a direction. -/
def normalize (u v : K) : K :=
  if u * u + v * v ≤ 0 then 0 else ((2 : ℕ) : K) * u * v / (u * u + v * v)

/-- The doubled tone at a sample, from the sample before it and the sine and cosine of the step. -/
def double (sinStep cosStep prev sample : K) : K :=
  normalize (sample * sinStep) (sample * cosStep - prev)

/-- The doubled tone at every sample of a stream; `prev` is the sample before the first. -/
def doubleAll (sinStep cosStep prev : K) (samples : List K) : List K :=
  List.zipWith (double sinStep cosStep) (prev :: samples) samples

/-! ### One sample -/

section

variable [IsStrictOrderedRing K]

lemma mem_unitInterval_normalize (u v : K) : -1 ≤ normalize u v ∧ normalize u v ≤ 1 := by
  unfold normalize
  split_ifs with hsilent
  · constructor <;> norm_num
  · have hpos : 0 < u * u + v * v := not_le.1 hsilent
    have hplus : 0 ≤ (u + v) * (u + v) := mul_self_nonneg _
    have hminus : 0 ≤ (u - v) * (u - v) := mul_self_nonneg _
    rw [le_div_iff₀ hpos, div_le_one hpos]
    push_cast
    constructor <;> linarith

/-- A factor common to both components cancels. -/
lemma normalize_mul {a s c : K} (ha : a ≠ 0) (hunit : s ^ 2 + c ^ 2 = 1) :
    normalize (a * s) (a * c) = ((2 : ℕ) : K) * s * c := by
  have hdenom : a * s * (a * s) + a * c * (a * c) = a ^ 2 := by
    calc a * s * (a * s) + a * c * (a * c) = a ^ 2 * (s ^ 2 + c ^ 2) := by ring
      _ = a ^ 2 := by rw [hunit, mul_one]
  have hpos : 0 < a ^ 2 := by positivity
  unfold normalize
  rw [hdenom, if_neg (not_le.2 hpos), div_eq_iff hpos.ne']
  ring

/-- **A tone is doubled exactly**, whatever its amplitude: twice sine times cosine. -/
theorem double_tone {sinStep A s c : K} (cosStep : K) (hstep : sinStep ≠ 0) (hA : A ≠ 0)
    (hunit : s ^ 2 + c ^ 2 = 1) :
    double sinStep cosStep (A * (s * cosStep - c * sinStep)) (A * s)
      = ((2 : ℕ) : K) * s * c := by
  have hsine : A * s * sinStep = A * sinStep * s := by ring
  have hcosine : A * s * cosStep - A * (s * cosStep - c * sinStep) = A * sinStep * c := by ring
  rw [double, hsine, hcosine, normalize_mul (mul_ne_zero hA hstep) hunit]

lemma mem_unitInterval_doubleAll {sinStep cosStep prev d : K} {samples : List K}
    (hd : d ∈ doubleAll sinStep cosStep prev samples) : -1 ≤ d ∧ d ≤ 1 := by
  obtain ⟨n, hn⟩ := List.getElem?_of_mem hd
  obtain ⟨before, sample, -, -, rfl⟩ := List.getElem?_zipWith_eq_some.1 hn
  exact mem_unitInterval_normalize _ _

end

/-! ### Streams -/

variable (sinStep cosStep prev : K)

@[simp] lemma length_doubleAll (samples : List K) :
    (doubleAll sinStep cosStep prev samples).length = samples.length := by
  simp [doubleAll]

@[simp] lemma doubleAll_cons (sample : K) (samples : List K) :
    doubleAll sinStep cosStep prev (sample :: samples)
      = double sinStep cosStep prev sample :: doubleAll sinStep cosStep sample samples := rfl

/-- A stream may be cut anywhere: the last sample of the first part is kept for the second. -/
lemma doubleAll_append (xs ys : List K) :
    doubleAll sinStep cosStep prev (xs ++ ys)
      = doubleAll sinStep cosStep prev xs
        ++ doubleAll sinStep cosStep (xs.getLastD prev) ys := by
  induction xs generalizing prev with
  | nil => rfl
  | cons x xs ih =>
    rw [List.cons_append, doubleAll_cons, ih, doubleAll_cons, List.getLastD_cons, List.cons_append]

variable {sinStep cosStep prev}

lemma getElem?_doubleAll {samples : List K} {n : ℕ} {before sample : K}
    (hbefore : (prev :: samples)[n]? = some before) (hsample : samples[n]? = some sample) :
    (doubleAll sinStep cosStep prev samples)[n]? = some (double sinStep cosStep before sample) :=
  List.getElem?_zipWith_eq_some.2 ⟨before, sample, hbefore, hsample, rfl⟩

end ToneDoubler
