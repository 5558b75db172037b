import Mathlib.Analysis.Convex.Basic
import Mathlib.Data.List.GetD
import Mathlib.Tactic
import Mpxcast.Core.Causal

/-!
# Smoothing with one pole

A value that moves towards each sample by a fixed part of the distance. The value is a weighted mean
of where it started and of the samples, whose weights fall off geometrically. Samples may also last
differently long, and the mean is then over time.
-/

namespace OnePole

open Finset

variable {K : Type*}

section

variable [CommRing K]

def step (alpha value sample : K) : K := value + alpha * (sample - value)

/-- The values behind a start, one for each sample. -/
def smoothed (alpha : K) : K → List K → List K
  | _, [] => []
  | value, sample :: samples =>
    step alpha value sample :: smoothed alpha (step alpha value sample) samples

/-- The value behind the last sample. -/
def last (alpha value : K) (samples : List K) : K := samples.foldl (step alpha) value

variable {alpha : K}

@[simp] lemma length_smoothed (value : K) (samples : List K) :
    (smoothed alpha value samples).length = samples.length := by
  induction samples generalizing value with
  | nil => rfl
  | cons sample samples ih => rw [smoothed, List.length_cons, ih, List.length_cons]

@[simp] lemma last_append (value : K) (xs ys : List K) :
    last alpha value (xs ++ ys) = last alpha (last alpha value xs) ys :=
  List.foldl_append

/-- A stream may be cut anywhere. -/
lemma smoothed_append (value : K) (xs ys : List K) :
    smoothed alpha value (xs ++ ys)
      = smoothed alpha value xs ++ smoothed alpha (last alpha value xs) ys := by
  induction xs generalizing value with
  | nil => rfl
  | cons x xs ih =>
    rw [List.cons_append, smoothed, ih, smoothed]
    rfl

lemma causal_smoothed (alpha value : K) : Causal (smoothed alpha value) :=
  Causal.of_append fun xs ys => ⟨_, smoothed_append value xs ys⟩

lemma since_smoothed (alpha value : K) (history input : List K) :
    Causal.since (smoothed alpha value) history input
      = smoothed alpha (last alpha value history) input :=
  Causal.since_eq (smoothed_append value history input)

/-- Every value is the one behind the samples so far. -/
lemma smoothed_getElem? (value : K) {samples : List K} {n : ℕ} (hn : n < samples.length) :
    (smoothed alpha value samples)[n]? = some (last alpha value (samples.take (n + 1))) := by
  induction samples generalizing value n with
  | nil => exact absurd hn (Nat.not_lt_zero n)
  | cons sample samples ih =>
    cases n with
    | zero => rfl
    | succ n =>
      rw [smoothed, List.getElem?_cons_succ, ih _ (Nat.lt_of_succ_lt_succ hn)]
      rfl

/-- Smoothing is linear. -/
lemma smoothed_zipWith_add (v w : K) (xs ys : List K) :
    List.zipWith (· + ·) (smoothed alpha v xs) (smoothed alpha w ys)
      = smoothed alpha (v + w) (List.zipWith (· + ·) xs ys) := by
  induction xs generalizing v w ys with
  | nil => rfl
  | cons x xs ih =>
    cases ys with
    | nil => rfl
    | cons y ys =>
      have hstep : step alpha v x + step alpha w y = step alpha (v + w) (x + y) := by
        unfold step
        ring
      rw [smoothed, smoothed, List.zipWith_cons_cons, ih, hstep]
      rfl

lemma smoothed_mul (c v : K) (xs : List K) :
    smoothed alpha (c * v) (xs.map (c * ·)) = (smoothed alpha v xs).map (c * ·) := by
  induction xs generalizing v with
  | nil => rfl
  | cons x xs ih =>
    have hstep : step alpha (c * v) (c * x) = c * step alpha v x := by
      unfold step
      ring
    rw [List.map_cons, smoothed, hstep, ih, smoothed, List.map_cons]

/-- The weighted mean. -/
theorem last_eq_sum (value : K) (samples : List K) :
    last alpha value samples = (1 - alpha) ^ samples.length * value
      + ∑ k ∈ range samples.length,
          alpha * (1 - alpha) ^ k * samples.getD (samples.length - 1 - k) 0 := by
  induction samples using List.reverseRecOn with
  | nil => simp [last]
  | append_singleton xs x ih =>
    have hlast : last alpha value (xs ++ [x]) = step alpha (last alpha value xs) x :=
      last_append value xs [x]
    rw [hlast, ih, step, List.length_append, List.length_singleton, sum_range_succ']
    have hnewest : (xs ++ [x]).getD (xs.length + 1 - 1 - 0) 0 = x := by simp
    have holder : ∑ k ∈ range xs.length, alpha * (1 - alpha) ^ (k + 1) *
          (xs ++ [x]).getD (xs.length + 1 - 1 - (k + 1)) 0
        = (1 - alpha) * ∑ k ∈ range xs.length,
            alpha * (1 - alpha) ^ k * xs.getD (xs.length - 1 - k) 0 := by
      rw [mul_sum]
      refine sum_congr rfl fun k hk => ?_
      have hk := mem_range.1 hk
      rw [show xs.length + 1 - 1 - (k + 1) = xs.length - 1 - k by omega,
        List.getD_append _ _ _ _ (by omega)]
      ring
    rw [hnewest, holder]
    ring

/-- From rest, each value is a weighted sum of the samples so far. -/
theorem smoothed_zero_getElem? {samples : List K} {n : ℕ} (hn : n < samples.length) :
    (smoothed alpha 0 samples)[n]?
      = some (∑ k ∈ range (n + 1), alpha * (1 - alpha) ^ k * samples.getD (n - k) 0) := by
  have hlength : (samples.take (n + 1)).length = n + 1 := List.length_take_of_le hn
  rw [smoothed_getElem? 0 hn, last_eq_sum, mul_zero, zero_add, hlength]
  refine congrArg some (sum_congr rfl fun k hk => congrArg (alpha * (1 - alpha) ^ k * ·) ?_)
  have hk := mem_range.1 hk
  rw [Nat.add_sub_cancel, List.getD_eq_getElem?_getD, List.getElem?_take_of_lt (by omega),
    List.getD_eq_getElem?_getD]

end

/-! ### Samples that last -/

/-- The samples come with how long they last. -/
def duration (samples : List (ℕ × K)) : ℕ := (samples.map Prod.fst).sum

lemma duration_append (xs ys : List (ℕ × K)) :
    duration (xs ++ ys) = duration xs + duration ys := by
  rw [duration, List.map_append, List.sum_append]
  rfl

section

variable [CommRing K]

/-- What the samples weigh at the end, when a part of the weight is left after each moment. -/
def weighted (left : K) : List (ℕ × K) → K
  | [] => 0
  | (count, sample) :: samples =>
    left ^ duration samples * (1 - left ^ count) * sample + weighted left samples

/-- The mean over all the past, in which the first sample is taken to have lasted for ever. -/
def lastingMean (left : K) : List (ℕ × K) → K
  | [] => 0
  | (_, sample) :: samples => left ^ duration samples * sample + weighted left samples

variable {alpha left : K}

lemma weighted_append (xs : List (ℕ × K)) (count : ℕ) (sample : K) :
    weighted left (xs ++ [(count, sample)])
      = left ^ count * weighted left xs + (1 - left ^ count) * sample := by
  induction xs with
  | nil =>
    simp [weighted, duration]
  | cons x xs ih =>
    obtain ⟨n, x⟩ := x
    have hduration : duration (xs ++ [(count, sample)]) = duration xs + count :=
      duration_append xs _
    rw [List.cons_append, weighted, weighted, ih, hduration, pow_add]
    ring

/-- One step per sample computes the mean, when the part that a sample moves the value by is the
weight that is lost while it lasts. -/
theorem lastingMean_append {xs : List (ℕ × K)} (hxs : xs ≠ []) (count : ℕ) (sample : K) :
    lastingMean left (xs ++ [(count, sample)])
      = step (1 - left ^ count) (lastingMean left xs) sample := by
  cases xs with
  | nil => exact absurd rfl hxs
  | cons x xs =>
    obtain ⟨n, x⟩ := x
    have hduration : duration (xs ++ [(count, sample)]) = duration xs + count :=
      duration_append xs _
    rw [List.cons_append, lastingMean, lastingMean, weighted_append, hduration, pow_add, step]
    ring

variable [LinearOrder K] [IsStrictOrderedRing K]

lemma step_mem {s : Set K} (hs : Convex K s) (h0 : 0 ≤ alpha) (h1 : alpha ≤ 1) {value sample : K}
    (hvalue : value ∈ s) (hsample : sample ∈ s) : step alpha value sample ∈ s := by
  have hmean : step alpha value sample = (1 - alpha) • value + alpha • sample := by
    rw [step, smul_eq_mul, smul_eq_mul]
    ring
  rw [hmean]
  exact hs hvalue hsample (sub_nonneg.2 h1) h0 (sub_add_cancel 1 alpha)

/-- The mean stays where the samples are. -/
theorem lastingMean_mem {s : Set K} (hs : Convex K s) (h0 : 0 ≤ left) (h1 : left ≤ 1)
    {xs : List (ℕ × K)} (hxs : xs ≠ []) (hsamples : ∀ x ∈ xs, x.2 ∈ s) :
    lastingMean left xs ∈ s := by
  induction xs using List.reverseRecOn with
  | nil => exact absurd rfl hxs
  | append_singleton xs x ih =>
    have hx := hsamples x (List.mem_append_right xs List.mem_cons_self)
    rcases eq_or_ne xs [] with rfl | hne
    · simpa [lastingMean, weighted, duration] using hx
    · have hmean := ih hne fun y hy => hsamples y (List.mem_append_left [x] hy)
      rw [lastingMean_append hne]
      exact step_mem hs (sub_nonneg.2 (pow_le_one₀ h0 h1)) (sub_le_self 1 (pow_nonneg h0 x.1))
        hmean hx

end

end OnePole
