import Mathlib.Tactic

/-!
# The last entries of a history

A buffer of `n` slots that starts out filled with one value and is shifted by one slot for each new
entry. It holds the last `n` entries of its history.
-/

namespace RecentWindow

variable {α : Type*} {n i : ℕ}

/-- The last `n` entries, filled up in front. -/
def window (n : ℕ) (fill : α) (history : List α) : List α :=
  (List.replicate n fill ++ history).drop history.length

@[simp] lemma window_nil (n : ℕ) (fill : α) : window n fill [] = List.replicate n fill := by
  simp [window]

@[simp] lemma length_window (n : ℕ) (fill : α) (history : List α) :
    (window n fill history).length = n := by
  rw [window, List.length_drop, List.length_append, List.length_replicate, Nat.add_sub_cancel]

/-- New entries behind a window make a longer one. -/
lemma window_append (n : ℕ) (fill : α) (history entries : List α) :
    window n fill history ++ entries
      = window (n + entries.length) fill (history ++ entries) := by
  have hle : history.length ≤ (List.replicate n fill ++ history).length := by
    rw [List.length_append]
    exact Nat.le_add_left _ _
  rw [window, window, ← List.drop_append_of_le_length hle, Nat.add_comm n, List.replicate_add,
    List.length_append, Nat.add_comm history.length, ← List.drop_drop, List.append_assoc,
    List.append_assoc, List.drop_left' List.length_replicate]

/-- The newest entries are a shorter window. -/
lemma window_drop (k n : ℕ) (fill : α) (history : List α) :
    (window (k + n) fill history).drop k = window n fill history := by
  rw [window, window, List.drop_drop, Nat.add_comm _ k, List.replicate_add, List.append_assoc,
    ← List.drop_drop, List.drop_left' List.length_replicate]

/-- Shifting the buffer appends to the history. -/
lemma window_push (hn : 0 < n) (fill x : α) (history : List α) :
    (window n fill history).tail ++ [x] = window n fill (history ++ [x]) := by
  have hle : history.length + 1 ≤ (List.replicate n fill ++ history).length := by
    rw [List.length_append, List.length_replicate]
    omega
  rw [window, window, List.tail_drop, List.length_append, List.length_singleton,
    ← List.append_assoc, List.drop_append_of_le_length hle]

/-- A slot holds the entry that was shifted in as many steps ago. -/
lemma window_getElem? (fill : α) (history : List α) (n i : ℕ) :
    (window n fill history)[i]? =
      if n ≤ history.length + i then history[history.length + i - n]? else some fill := by
  rw [window, List.getElem?_drop]
  split_ifs with h
  · rw [List.getElem?_append_right (by rw [List.length_replicate]; exact h), List.length_replicate]
  · rw [List.getElem?_append_left (by rw [List.length_replicate]; omega), List.getElem?_replicate,
      if_pos (not_le.1 h)]

/-- A slot that does not show the fill value holds an entry. -/
lemma window_getD_ne {fill : α} {history : List α}
    (h : (window n fill history).getD i fill ≠ fill) : n ≤ history.length + i := by
  by_contra hlt
  rw [List.getD_eq_getElem?_getD, window_getElem?, if_neg hlt] at h
  exact h rfl

end RecentWindow
