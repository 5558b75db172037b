import Mathlib.Tactic

/-!
# Counting in a sliding window

A ring of the last `size` flags with the running number of the flags that are set. The ring
represents a history, newest flag first; its sum is the number of set flags among the `size` newest.
-/

namespace SlidingCount

structure Ring where
  slots : List Bool
  pos : ℕ
  count : ℕ
  sum : ℕ

variable {size : ℕ} {r : Ring} {history : List Bool}

def Ring.empty (size : ℕ) : Ring := ⟨List.replicate size false, 0, 0, 0⟩

/-- A full ring gives up its oldest flag for the new one. -/
def Ring.push (size : ℕ) (r : Ring) (b : Bool) : Ring where
  slots := r.slots.set r.pos b
  pos := (r.pos + 1) % size
  count := if r.count = size then size else r.count + 1
  sum := (if r.count = size then r.sum - (r.slots.getD r.pos false).toNat else r.sum) + b.toNat

/-- The set flags among the `size` newest. -/
def recent (size : ℕ) (history : List Bool) : ℕ := (history.take size).count true

lemma recent_cons (b : Bool) (history : List Bool) (size : ℕ) :
    recent (size + 1) (b :: history) = recent size history + b.toNat := by
  rw [recent, List.take_succ_cons, List.count_cons]
  cases b <;> rfl

lemma recent_succ (history : List Bool) (size : ℕ) :
    recent (size + 1) history = recent size history + (history[size]?.getD false).toNat := by
  rw [recent, List.take_add_one, List.count_append]
  cases history[size]? with
  | none => rfl
  | some b => cases b <;> rfl

lemma recent_le_count (size : ℕ) (history : List Bool) :
    recent size history ≤ history.count true :=
  (List.take_sublist size history).count_le true

/-- The ring holds the newest flags of the history, each in its slot. -/
structure Ring.Represents (size : ℕ) (r : Ring) (history : List Bool) : Prop where
  length_eq : r.slots.length = size
  pos_eq : r.pos = history.length % size
  count_eq : r.count = min size history.length
  sum_eq : r.sum = recent size history
  slot : ∀ j b, j < size → history[j]? = some b →
    r.slots[(history.length - 1 - j) % size]? = some b

lemma Ring.represents_empty (size : ℕ) : (Ring.empty size).Represents size [] where
  length_eq := List.length_replicate
  pos_eq := by simp [Ring.empty]
  count_eq := by simp [Ring.empty]
  sum_eq := by simp [Ring.empty, recent]
  slot := by simp

/-- The slot that is written next holds the oldest flag of a full ring. -/
lemma Ring.Represents.oldest (h : r.Represents (size + 1) history)
    (hfull : size + 1 ≤ history.length) :
    r.slots.getD r.pos false = history[size]?.getD false := by
  obtain ⟨b, hget⟩ : ∃ b, history[size]? = some b :=
    ⟨_, List.getElem?_eq_getElem (by omega)⟩
  have hslot := h.slot size _ (Nat.lt_succ_self size) hget
  have hpos : (history.length - 1 - size) % (size + 1) = r.pos := by
    rw [h.pos_eq, Nat.sub_sub, Nat.add_comm 1 size, ← Nat.mod_eq_sub_mod hfull]
  rw [hpos] at hslot
  rw [List.getD_eq_getElem?_getD, hslot, hget]

/-- The running sum never has to go below zero. -/
lemma Ring.Represents.oldest_le (h : r.Represents (size + 1) history)
    (hfull : r.count = size + 1) : (r.slots.getD r.pos false).toNat ≤ r.sum := by
  have hcount := h.count_eq
  rw [h.oldest (by omega), h.sum_eq, recent_succ]
  exact Nat.le_add_left _ _

/-- A push adds the newest flag to the history. -/
theorem Ring.Represents.push (h : r.Represents (size + 1) history) (b : Bool) :
    (r.push (size + 1) b).Represents (size + 1) (b :: history) where
  length_eq := by rw [Ring.push, List.length_set, h.length_eq]
  pos_eq := by rw [Ring.push, h.pos_eq, List.length_cons, Nat.mod_add_mod]
  count_eq := by
    have hcount := h.count_eq
    simp only [Ring.push, List.length_cons]
    split_ifs with hfull <;> omega
  sum_eq := by
    have hcount := h.count_eq
    rw [recent_cons]
    simp only [Ring.push]
    congr 1
    rw [h.sum_eq]
    split_ifs with hfull
    · rw [h.oldest (by omega), recent_succ, Nat.add_sub_cancel]
    · rw [recent_succ, List.getElem?_eq_none (by omega)]
      rfl
  slot := by
    intro j c hj hget
    have hpos : r.pos < r.slots.length := by
      rw [h.pos_eq, h.length_eq]
      exact Nat.mod_lt _ (Nat.succ_pos size)
    simp only [Ring.push, List.length_cons, Nat.add_sub_cancel]
    cases j with
    | zero =>
      obtain rfl : b = c := by simpa using hget
      rw [Nat.sub_zero, ← h.pos_eq, List.getElem?_set_self hpos]
    | succ j =>
      have hold : history[j]? = some c := by simpa using hget
      have hlt : j < history.length := (List.getElem?_eq_some_iff.1 hold).1
      have hslot := h.slot j c (by omega) hold
      have hindex : history.length - (j + 1) = history.length - 1 - j := by omega
      have hne : r.pos ≠ (history.length - 1 - j) % (size + 1) := by
        intro heq
        rw [h.pos_eq] at heq
        have hdvd : size + 1 ∣ history.length - (history.length - 1 - j) :=
          (Nat.modEq_iff_dvd' (by omega)).1 (Eq.symm heq)
        have hle := Nat.le_of_dvd (by omega) hdvd
        omega
      rw [hindex, List.getElem?_set_ne hne, hslot]

end SlidingCount
