import Mathlib.Tactic

/-!
# Recovering a two-phase clock

Magnitudes arrive in two interleaved classes. After every window of `2 * half` of them the class
with the larger sum is selected, and a tie keeps the selection. Where one class carries a constant
that the other never exceeds, the first window with a gap in the other class settles the
selection.
-/

namespace ClockRecovery

open Finset

variable {K : Type*} [AddCommMonoid K] [LinearOrder K]

/-- The sum of one class over window `w`. -/
def windowSum (half : ℕ) (v : ℕ → K) (w p : ℕ) : K :=
  ∑ i ∈ range half, v (2 * half * w + 2 * i + p)

/-- The class with the larger sum, or else the one selected before. -/
def select (even odd : K) (p : ℕ) : ℕ :=
  if odd < even then 0 else if even < odd then 1 else p

/-- The class that is selected when window `w` begins. -/
def selected (half : ℕ) (v : ℕ → K) : ℕ → ℕ
  | 0 => 0
  | w + 1 => select (windowSum half v w 0) (windowSum half v w 1) (selected half v w)

/-- Class `p` carries the magnitude `a`, which the other class does not exceed. -/
structure Carried (v : ℕ → K) (a : K) (p : ℕ) : Prop where
  lt_two : p < 2
  carrier : ∀ j, j % 2 = p → v j = a
  other : ∀ j, j % 2 ≠ p → v j ≤ a

variable {v : ℕ → K} {a : K} {half p w j : ℕ}

variable [IsOrderedCancelAddMonoid K]

/-- The other class never has the larger sum. -/
lemma Carried.windowSum_other_le (h : Carried v a p) (half w : ℕ) :
    windowSum half v w (1 - p) ≤ windowSum half v w p := by
  refine sum_le_sum fun i _ => ?_
  have hlt := h.lt_two
  have hcarrier : v (2 * half * w + 2 * i + p) = a := by
    apply h.carrier
    rw [Nat.mul_assoc]
    omega
  rw [hcarrier]
  apply h.other
  rw [Nat.mul_assoc]
  omega

/-- In a window with a gap it has the smaller one. -/
lemma Carried.windowSum_other_lt (h : Carried v a p) (hhalf : 0 < half) (hother : j % 2 ≠ p)
    (hgap : v j < a) :
    windowSum half v (j / (2 * half)) (1 - p) < windowSum half v (j / (2 * half)) p := by
  have hlt := h.lt_two
  have hsplit := Nat.div_add_mod j (2 * half)
  have hmod := Nat.mod_lt j (Nat.mul_pos two_pos hhalf)
  have heven : 2 * half * (j / (2 * half)) % 2 = 0 := by
    rw [Nat.mul_assoc]
    exact Nat.mul_mod_right 2 _
  have hle : ∀ i ∈ range half, v (2 * half * (j / (2 * half)) + 2 * i + (1 - p))
      ≤ v (2 * half * (j / (2 * half)) + 2 * i + p) := by
    intro i _
    have hcarrier : v (2 * half * (j / (2 * half)) + 2 * i + p) = a := by
      apply h.carrier
      omega
    rw [hcarrier]
    apply h.other
    omega
  refine sum_lt_sum hle ⟨j % (2 * half) / 2, mem_range.2 (by omega), ?_⟩
  have hindex : 2 * half * (j / (2 * half)) + 2 * (j % (2 * half) / 2) + (1 - p) = j := by
    omega
  have hcarrier : v (2 * half * (j / (2 * half)) + 2 * (j % (2 * half) / 2) + p) = a := by
    apply h.carrier
    omega
  rw [hindex, hcarrier]
  exact hgap

omit [AddCommMonoid K] [IsOrderedCancelAddMonoid K] in
lemma select_eq {even odd : K} {p q : ℕ} (hp : p < 2)
    (hle : if p = 0 then odd ≤ even else even ≤ odd)
    (h : (if p = 0 then odd < even else even < odd) ∨ q = p) : select even odd q = p := by
  unfold select
  obtain rfl | rfl : p = 0 ∨ p = 1 := by omega
  · simp only [if_true] at hle h
    rcases h with hlt | rfl
    · rw [if_pos hlt]
    · rw [if_neg hle.not_gt]
      split_ifs <;> rfl
  · simp only [one_ne_zero, if_false] at hle h
    rw [if_neg hle.not_gt]
    rcases h with hlt | rfl
    · rw [if_pos hlt]
    · split_ifs <;> rfl

/-- The carrying class keeps being selected. -/
lemma Carried.selected_succ (h : Carried v a p) (hw : selected half v w = p) :
    selected half v (w + 1) = p := by
  have hle := h.windowSum_other_le half w
  refine select_eq h.lt_two ?_ (.inr hw)
  obtain rfl | rfl : p = 0 ∨ p = 1 := by
    have hlt := h.lt_two
    omega
  · exact hle
  · exact hle

/-- It is selected with the first window in which the other class has a gap. -/
theorem Carried.selected_eq (h : Carried v a p) (hhalf : 0 < half) (hother : j % 2 ≠ p)
    (hgap : v j < a) (hw : j / (2 * half) < w) : selected half v w = p := by
  induction w with
  | zero => exact absurd hw (Nat.not_lt_zero _)
  | succ w ih =>
    rcases (Nat.le_of_lt_succ hw).lt_or_eq with hlt | rfl
    · exact h.selected_succ (ih hlt)
    · have hle := h.windowSum_other_le half (j / (2 * half))
      have hsum := h.windowSum_other_lt hhalf hother hgap
      obtain rfl | rfl : p = 0 ∨ p = 1 := by
        have hlt := h.lt_two
        omega
      · exact select_eq h.lt_two hle (.inl hsum)
      · exact select_eq h.lt_two hle (.inl hsum)

end ClockRecovery
