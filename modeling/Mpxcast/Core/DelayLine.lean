import Mathlib.Data.List.GetD
import Mpxcast.Core.CMemory
import Mpxcast.Core.Loop
import Mpxcast.Core.RecentWindow

/-!
# Delay lines

The last `n` samples of a stream, kept in a ring of `n` slots. The ring is stored twice, one copy
behind the other, so that the samples can be read without wrapping around. A decimating filter looks
at them once every few samples.
-/

namespace DelayLine

open RecentWindow

variable {α β : Type*}

/-! ### Doubled rings -/

/-- The memory holds the last `n` samples in two copies of a ring, the oldest of them at `w`. -/
structure Doubled (memory : List α) (n w : ℕ) (fill : α) (history : List α) : Prop where
  lt : w < n
  rings : ∃ ring rest, memory = ring ++ (ring ++ rest) ∧ ring.length = n ∧
    ring.drop w ++ ring.take w = window n fill history

variable {memory : List α} {n w : ℕ} {fill : α} {history : List α}

/-- A memory that is filled with one value has seen no sample. -/
lemma doubled_replicate (hn : 0 < n) {size : ℕ} (hsize : n + n ≤ size) (fill : α) :
    Doubled (List.replicate size fill) n 0 fill [] := by
  obtain ⟨m, rfl⟩ := Nat.exists_eq_add_of_le hsize
  refine ⟨hn, List.replicate n fill, List.replicate m fill, ?_, by simp, by simp⟩
  rw [List.replicate_append_replicate, List.replicate_append_replicate, Nat.add_assoc]

namespace Doubled

lemma length_le (h : Doubled memory n w fill history) : n + n ≤ memory.length := by
  obtain ⟨ring, rest, rfl, hlength, -⟩ := h.rings
  rw [List.length_append, List.length_append, hlength]
  omega

/-- From the oldest sample on, the samples are in order. -/
lemma window_eq (h : Doubled memory n w fill history) :
    (memory.drop w).take n = window n fill history := by
  obtain ⟨ring, rest, rfl, hlength, hwindow⟩ := h.rings
  have hle : w ≤ ring.length := hlength.symm ▸ h.lt.le
  have hsplit : n = (ring.drop w).length + w := by
    rw [List.length_drop, hlength, Nat.sub_add_cancel h.lt.le]
  rw [← hwindow, List.drop_append_of_le_length hle]
  conv_lhs => rw [hsplit]
  rw [List.take_length_add_append, List.take_append_of_le_length hle]

/-- A new sample takes the place of the oldest one in both copies. -/
theorem push (h : Doubled memory n w fill history) (x : α) :
    Doubled ((memory.set w x).set (w + n) x) n (if w + 1 = n then 0 else w + 1) fill
      (history ++ [x]) := by
  obtain ⟨ring, rest, rfl, hlength, hwindow⟩ := h.rings
  obtain ⟨front, y, back, rfl, hfront⟩ : ∃ front y back, ring = front ++ y :: back ∧
      front.length = w := by
    have hw : w < ring.length := hlength.symm ▸ h.lt
    refine ⟨ring.take w, ring[w], ring.drop (w + 1), ?_, by simp [hw.le]⟩
    rw [← List.drop_eq_getElem_cons hw, List.take_append_drop]
  subst hfront
  have hn : 0 < n := Nat.zero_lt_of_lt h.lt
  have hnext : window n fill (history ++ [x]) = back ++ (front ++ [x]) := by
    rw [← window_push hn, ← hwindow, List.drop_left, List.take_left, List.cons_append,
      List.tail_cons, List.append_assoc]
  refine ⟨by split_ifs with hwrap <;> have := h.lt <;> omega, front ++ x :: back, rest, ?_,
    by simpa using hlength, ?_⟩
  · have hfirst : (front ++ y :: back ++ (front ++ y :: back ++ rest)).set front.length x
        = (front ++ x :: back ++ front) ++ y :: (back ++ rest) := by simp
    have hsecond : front.length + n = (front ++ x :: back ++ front).length := by
      rw [← hlength]
      simp only [List.length_append, List.length_cons]
      omega
    rw [hfirst, hsecond, List.set_append_right _ _ le_rfl, Nat.sub_self, List.set_cons_zero]
    simp
  · rw [hnext]
    split_ifs with hwrap
    · obtain rfl : back = [] := by
        rw [List.length_append, List.length_cons] at hlength
        exact List.eq_nil_of_length_eq_zero (by omega)
      simp
    · rw [List.append_cons, List.drop_left' (by simp), List.take_left' (by simp)]

/-- Two stores make the update. -/
lemma store (h : Doubled memory n w fill history) (x : α) :
    ∃ first second, CMemory.store memory w x = some first ∧
      CMemory.store first (w + n) x = some second ∧
      Doubled second n (if w + 1 = n then 0 else w + 1) fill (history ++ [x]) := by
  have hlength := h.length_le
  have hlt := h.lt
  refine ⟨_, _, CMemory.store_of_lt (by omega) x, CMemory.store_of_lt ?_ x, h.push x⟩
  rw [List.length_set]
  omega

/-- The window is read from its oldest sample on. -/
lemma load (h : Doubled memory n w fill history) {k : ℕ} (hk : k < n) :
    memory[w + k]? = some ((window n fill history).getD k fill) := by
  have hwindow : k < (window n fill history).length := by rwa [length_window]
  rw [List.getD_eq_getElem _ _ hwindow, ← List.getElem?_eq_getElem hwindow, ← h.window_eq,
    List.getElem?_take_of_lt hk, List.getElem?_drop]

end Doubled

/-! ### Decimation -/

variable {factor : ℕ} {out : List α → β}

/-- What comes out while `input` follows the history, when every `factor`-th sample is answered. -/
def due (factor : ℕ) (out : List α → β) : List α → List α → List β
  | _, [] => []
  | history, x :: input =>
    (if factor ∣ history.length + 1 then [out (history ++ [x])] else []) ++
      due factor out (history ++ [x]) input

@[simp] lemma due_nil (history : List α) : due factor out history [] = [] := rfl

lemma due_append (history xs ys : List α) :
    due factor out history (xs ++ ys)
      = due factor out history xs ++ due factor out (history ++ xs) ys := by
  induction xs generalizing history with
  | nil => simp
  | cons x xs ih => simp [due, ih]

/-- Within a frame nothing is due. -/
lemma due_eq_nil (history : List α) {input : List α}
    (h : history.length % factor + input.length < factor) :
    due factor out history input = [] := by
  induction input generalizing history with
  | nil => rfl
  | cons x input ih =>
    rw [List.length_cons] at h
    have hmod : (history.length + 1) % factor = history.length % factor + 1 := by
      rw [Nat.add_mod, Nat.mod_eq_of_lt (by omega : 1 < factor), Nat.mod_eq_of_lt (by omega)]
    have hnot : ¬factor ∣ history.length + 1 := by
      rw [Nat.dvd_iff_mod_eq_zero, hmod]
      exact Nat.succ_ne_zero _
    rw [due, if_neg hnot, List.nil_append, ih]
    rw [List.length_append, List.length_singleton, hmod]
    omega

/-- The end of a frame is answered. -/
lemma due_frame (out : List α → β) (hfactor : 0 < factor) (history : List α) {input : List α}
    (h : history.length % factor + input.length = factor) :
    due factor out history input = [out (history ++ input)] := by
  have hne : input ≠ [] := by
    rintro rfl
    have := Nat.mod_lt history.length hfactor
    simp only [List.length_nil] at h
    omega
  obtain ⟨front, x, rfl⟩ := (List.eq_nil_or_concat input).resolve_left hne
  rw [List.length_concat] at h
  have hdvd : factor ∣ (history ++ front).length + 1 := by
    have hsplit := Nat.div_add_mod history.length factor
    refine ⟨history.length / factor + 1, ?_⟩
    rw [List.length_append, Nat.mul_succ]
    omega
  rw [List.concat_eq_append, due_append, due_eq_nil history (by omega), List.nil_append, due,
    if_pos hdvd, due_nil, List.append_nil, List.append_assoc]

/-- From the start of the stream on. -/
theorem due_start (factor : ℕ) (out : List α → β) (xs : List α) :
    due factor out [] xs
      = (List.range (xs.length / factor)).map fun j => out (xs.take ((j + 1) * factor)) := by
  induction xs using List.reverseRecOn with
  | nil => simp
  | append_singleton xs x ih =>
    have hkeep : ((List.range (xs.length / factor)).map fun j => out (xs.take ((j + 1) * factor)))
        = (List.range (xs.length / factor)).map fun j =>
            out ((xs ++ [x]).take ((j + 1) * factor)) := by
      refine List.map_congr_left fun j hj => ?_
      rw [List.take_append_of_le_length]
      exact (Nat.mul_le_mul_right factor (List.mem_range.1 hj)).trans (Nat.div_mul_le_self _ _)
    rw [due_append, ih, hkeep, List.nil_append, List.length_append, List.length_singleton,
      Nat.succ_div, due, due_nil, List.append_nil]
    split_ifs with hdvd
    · have hlast : (xs.length / factor + 1) * factor = xs.length + 1 := by
        have hdiv := Nat.succ_div_of_dvd hdvd
        rw [← hdiv]
        exact Nat.div_mul_cancel hdvd
      rw [List.range_succ, List.map_append, List.map_singleton, hlast, List.take_of_length_le]
      simp
    · simp

lemma length_due_start (factor : ℕ) (out : List α → β) (xs : List α) :
    (due factor out [] xs).length = xs.length / factor := by
  rw [due_start, List.length_map, List.length_range]

lemma length_due (factor : ℕ) (out : List α → β) (history input : List α) :
    (due factor out history input).length
      = (history.length + input.length) / factor - history.length / factor := by
  have hwhole := length_due_start factor out (history ++ input)
  rw [due_append, List.length_append, length_due_start, List.nil_append, List.length_append]
    at hwhole
  omega

/-- The answers to the blocks of a stream are the answers to the stream. -/
lemma flatten_answers_due (factor : ℕ) (out : List α → β) (blocks : List (List α)) :
    ∀ history : List α,
      (Loop.answers (due factor out) (· ++ ·) history blocks).flatten
        = due factor out history blocks.flatten := by
  induction blocks with
  | nil => exact fun _ => rfl
  | cons block blocks ih =>
    intro history
    rw [Loop.answers, List.flatten_cons, List.flatten_cons, due_append, ih]

end DelayLine
