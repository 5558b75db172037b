import Mpxcast.Core.RecentWindow

/-!
# Convolution with a finite response

The output of a filter with finitely many taps, as a sum over the stream and as a sum over the
window of the last samples. When the taps are symmetric, samples at equal distance from the middle
share a multiplication.
-/

namespace Convolution

open Finset RecentWindow

variable {K : Type*} [CommRing K]

/-- `∑ taps[k] * xs[n - k]`, with zeros before the start of the stream. -/
def convolve (taps xs : List K) (n : ℕ) : K :=
  ∑ k ∈ range taps.length, taps.getD k 0 * if k ≤ n then xs.getD (n - k) 0 else 0

/-- The same over a window as long as the taps, its oldest sample in front. -/
def dot (taps window : List K) : K :=
  ∑ k ∈ range taps.length, taps.getD k 0 * window.getD (taps.length - 1 - k) 0

/-- The folded sum: a tap for each pair of samples, and one for a sample in the middle. -/
def folded (taps window : List K) : K :=
  ∑ k ∈ range (taps.length / 2),
      (window.getD k 0 + window.getD (taps.length - 1 - k) 0) * taps.getD k 0 +
    if taps.length % 2 = 1 then
      window.getD (taps.length / 2) 0 * taps.getD (taps.length / 2) 0
    else 0

/-- A sum from both ends to the middle. -/
lemma sum_from_both_ends (f : ℕ → K) (p m : ℕ) :
    ∑ k ∈ range (p + (m + p)), f k
      = ∑ k ∈ range p, (f k + f (p + (m + p) - 1 - k)) + ∑ k ∈ range m, f (p + k) := by
  have hback : ∑ k ∈ range p, f (p + (m + k)) = ∑ k ∈ range p, f (p + (m + p) - 1 - k) := by
    rw [← sum_range_reflect]
    refine sum_congr rfl fun k hk => congrArg f ?_
    have := mem_range.1 hk
    omega
  rw [sum_range_add, sum_range_add, hback, sum_add_distrib]
  ring

/-- Symmetric taps may be folded. -/
theorem dot_eq_folded {taps : List K} (hsymmetric : taps.reverse = taps) (window : List K) :
    dot taps window = folded taps window := by
  have hmirror : ∀ k < taps.length, taps.getD (taps.length - 1 - k) 0 = taps.getD k 0 := by
    intro k hk
    rw [List.getD_eq_getElem?_getD, ← List.getElem?_reverse hk, hsymmetric,
      ← List.getD_eq_getElem?_getD]
  obtain ⟨m, hm, hlength⟩ : ∃ m, m = taps.length % 2 ∧
      taps.length = taps.length / 2 + (m + taps.length / 2) := ⟨_, rfl, by omega⟩
  have hmiddle : (∑ k ∈ range m, taps.getD (taps.length / 2 + k) 0 *
        window.getD (taps.length - 1 - (taps.length / 2 + k)) 0)
      = if taps.length % 2 = 1 then
          window.getD (taps.length / 2) 0 * taps.getD (taps.length / 2) 0 else 0 := by
    rw [← hm]
    rcases (by omega : m = 0 ∨ m = 1) with rfl | rfl
    · simp
    · rw [sum_range_one, if_pos rfl, mul_comm, Nat.add_zero,
        show taps.length - 1 - taps.length / 2 = taps.length / 2 by omega]
  have hsum := sum_from_both_ends
    (fun k => taps.getD k 0 * window.getD (taps.length - 1 - k) 0) (taps.length / 2) m
  rw [← hlength, hmiddle] at hsum
  rw [dot, hsum, folded]
  congr 1
  refine sum_congr rfl fun k hk => ?_
  have hk : k < taps.length / 2 := mem_range.1 hk
  rw [hmirror k (by omega), show taps.length - 1 - (taps.length - 1 - k) = k by omega]
  ring

/-- The window of the last samples yields the convolution. -/
theorem dot_window (taps xs : List K) {n : ℕ} (hn : n < xs.length) :
    dot taps (window taps.length 0 (xs.take (n + 1))) = convolve taps xs n := by
  refine sum_congr rfl fun k hk => congrArg (taps.getD k 0 * ·) ?_
  have hk := mem_range.1 hk
  have hlength : (xs.take (n + 1)).length = n + 1 := by
    rw [List.length_take]
    omega
  rw [List.getD_eq_getElem?_getD, window_getElem?, hlength]
  split_ifs with hstarted hle hle
  · rw [show n + 1 + (taps.length - 1 - k) - taps.length = n - k by omega,
      List.getElem?_take_of_lt (by omega), List.getD_eq_getElem?_getD]
  · omega
  · omega
  · rfl

/-- The folded sum uses the first half of the taps only. -/
lemma folded_congr {taps taps' : List K} (hlength : taps.length = taps'.length)
    (h : ∀ k < (taps.length + 1) / 2, taps.getD k 0 = taps'.getD k 0) (window : List K) :
    folded taps window = folded taps' window := by
  rw [folded, folded, ← hlength]
  congr 1
  · refine sum_congr rfl fun k hk => ?_
    have := mem_range.1 hk
    rw [h k (by omega)]
  · split_ifs with hodd
    · rw [h _ (by omega)]
    · rfl

/-! ### Streams -/

/-- The convolution with a whole stream. -/
def convolved (taps xs : List K) : List K := (List.range xs.length).map (convolve taps xs)

/-- Every `factor`-th value. -/
def decimated (factor : ℕ) (xs : List K) : List K :=
  (List.range (xs.length / factor)).map fun j => xs.getD ((j + 1) * factor - 1) 0

@[simp] lemma length_convolved (taps xs : List K) : (convolved taps xs).length = xs.length := by
  simp [convolved]

@[simp] lemma length_decimated (factor : ℕ) (xs : List K) :
    (decimated factor xs).length = xs.length / factor := by
  simp [decimated]

lemma getD_convolved (taps xs : List K) {n : ℕ} (hn : n < xs.length) :
    (convolved taps xs).getD n 0 = convolve taps xs n := by
  rw [convolved, List.getD_eq_getElem?_getD, List.getElem?_map, List.getElem?_range hn]
  rfl

/-- The first half of the taps, and its mirror image. -/
def mirrored (taps : List K) : List K :=
  (List.range taps.length).map fun k => taps.getD (min k (taps.length - 1 - k)) 0

@[simp] lemma length_mirrored (taps : List K) : (mirrored taps).length = taps.length := by
  simp [mirrored]

lemma getElem?_mirrored (taps : List K) {k : ℕ} (hk : k < taps.length) :
    (mirrored taps)[k]? = some (taps.getD (min k (taps.length - 1 - k)) 0) := by
  rw [mirrored, List.getElem?_map, List.getElem?_range hk, Option.map_some]

lemma reverse_mirrored (taps : List K) : (mirrored taps).reverse = mirrored taps := by
  refine List.ext_getElem? fun k => ?_
  rcases lt_or_ge k taps.length with hk | hk
  · rw [List.getElem?_reverse (by rwa [length_mirrored]), length_mirrored,
      getElem?_mirrored taps (by omega), getElem?_mirrored taps hk, min_comm,
      show taps.length - 1 - (taps.length - 1 - k) = k by omega]
  · rw [List.getElem?_eq_none (by simpa using hk), List.getElem?_eq_none (by simpa using hk)]

/-- A folded sum does not tell taps from their mirrored first half. -/
theorem folded_eq_dot_mirrored (taps window : List K) :
    folded taps window = dot (mirrored taps) window := by
  rw [dot_eq_folded (reverse_mirrored taps)]
  refine folded_congr (length_mirrored taps).symm (fun k hk => ?_) window
  have hmirrored := getElem?_mirrored taps (k := k) (by omega)
  rw [min_eq_left (by omega)] at hmirrored
  exact (congrArg (Option.getD · 0) hmirrored).symm.trans
    List.getD_eq_getElem?_getD.symm

/-! ### Products written out -/

lemma mapM_of_forall_mem {α β : Type*} {f : α → Option β} {g : α → β} {xs : List α}
    (h : ∀ x ∈ xs, f x = some (g x)) : xs.mapM f = some (xs.map g) := by
  induction xs with
  | nil => rfl
  | cons x xs ih =>
    rw [List.mapM_cons, h x List.mem_cons_self, ih fun y hy => h y (List.mem_cons_of_mem x hy)]
    rfl

/-- The sum of products, each of a tap and of two samples. -/
def productSum (products : List (ℕ × ℕ × ℕ)) (tap sample : ℕ → Option K) : Option K := do
  let terms ← products.mapM fun product => do
    let tap ← tap product.1
    let front ← sample product.2.1
    let back ← sample product.2.2
    return tap * (front + back)
  return terms.sum

/-- Products from both ends to the middle are a folded sum. -/
theorem productSum_eq_folded (taps window : List K) {p : ℕ} (htaps : taps.length = 2 * p)
    {tap sample : ℕ → Option K} (htap : ∀ k < p, tap k = some (taps.getD k 0))
    (hsample : ∀ k < 2 * p, sample k = some (window.getD k 0)) :
    productSum ((List.range p).map fun k => (k, k, 2 * p - 1 - k)) tap sample
      = some (folded taps window) := by
  have hterms : ((List.range p).mapM fun k => do
      let tap ← tap k
      let front ← sample k
      let back ← sample (2 * p - 1 - k)
      return tap * (front + back)) = some ((List.range p).map fun k =>
        taps.getD k 0 * (window.getD k 0 + window.getD (2 * p - 1 - k) 0)) := by
    refine mapM_of_forall_mem fun k hk => ?_
    have hk := List.mem_range.1 hk
    rw [htap k hk, hsample k (by omega), hsample _ (by omega)]
    rfl
  have hsum (f : ℕ → K) : ((List.range p).map f).sum = ∑ k ∈ Finset.range p, f k := rfl
  unfold productSum
  rw [List.mapM_map, folded, htaps, if_neg (by omega), add_zero, Nat.mul_div_cancel_left p two_pos]
  refine Eq.trans (congrArg (fun terms : Option (List K) => do
    let terms ← terms
    return terms.sum) hterms) ?_
  refine congrArg some ((hsum _).trans (sum_congr rfl fun k _ => ?_))
  exact mul_comm _ _

end Convolution
