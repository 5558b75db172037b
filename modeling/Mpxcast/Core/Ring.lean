import Mathlib.Data.List.DropRight
import Mathlib.Tactic

/-!
# Circular buffers

A memory read as a ring of `cap` cells: `window mem cap r n` is the list of the `n` cells that start
at index `r` and wrap around at `cap`. Reading contiguously from the front shortens the window, and
writing contiguously behind its end extends it; both hold for any split of a transfer at the wrap.

The queue such a buffer stands for keeps the last `cap` elements ever pushed and not yet taken.
-/

namespace Ring

variable {α : Type*}

/-- `memcpy` of `src` to offset `off`. -/
def copyIn (mem : ℕ → α) (off : ℕ) (src : List α) : ℕ → α := fun i =>
  if h : off ≤ i ∧ i - off < src.length then src.get ⟨i - off, h.2⟩ else mem i

/-- `memcpy` of `n` cells from offset `off`. -/
def copyOut (mem : ℕ → α) (off n : ℕ) : List α := (List.range n).map fun i => mem (off + i)

/-- The `n` cells from `r` on, modulo `cap`. -/
def window (mem : ℕ → α) (cap r n : ℕ) : List α :=
  (List.range n).map fun i => mem ((r + i) % cap)

variable {mem : ℕ → α} {cap r n : ℕ}

@[simp] lemma window_length : (window mem cap r n).length = n := by simp [window]

@[simp] lemma window_zero : window mem cap r 0 = [] := rfl

lemma window_add (m : ℕ) :
    window mem cap r (n + m) = window mem cap r n ++ window mem cap ((r + n) % cap) m := by
  simp [window, List.range_add, Nat.add_assoc]

lemma window_take {k : ℕ} (hk : k ≤ n) : (window mem cap r n).take k = window mem cap r k := by
  obtain ⟨m, rfl⟩ := Nat.exists_eq_add_of_le hk
  rw [window_add, List.take_left' window_length]

lemma window_drop {k : ℕ} (hk : k ≤ n) :
    (window mem cap r n).drop k = window mem cap ((r + k) % cap) (n - k) := by
  obtain ⟨m, rfl⟩ := Nat.exists_eq_add_of_le hk
  rw [window_add, List.drop_left' window_length, Nat.add_sub_cancel_left]

/-- A read that does not cross the end of the memory is a piece of the window. -/
lemma copyOut_eq_window (h : r + n ≤ cap) : copyOut mem r n = window mem cap r n := by
  apply List.map_congr_left
  intro i hi
  rw [Nat.mod_eq_of_lt]
  have := List.mem_range.mp hi
  omega

/-- Two different positions of a window of at most `cap` cells are different cells. -/
lemma mod_ne {i j : ℕ} (hij : i < j) (hj : j < i + cap) : (r + i) % cap ≠ (r + j) % cap := by
  intro h
  have hdvd : cap ∣ (r + j) - (r + i) := (Nat.modEq_iff_dvd' (by omega)).mp h
  have := Nat.le_of_dvd (by omega) hdvd
  omega

/-- Up to the end of the memory the cells behind the window are consecutive. -/
lemma mod_add {j : ℕ} (h : (r + n) % cap + j < cap) :
    (r + (n + j)) % cap = (r + n) % cap + j := by
  rw [← Nat.add_assoc, Nat.add_mod (r + n) j, Nat.mod_eq_of_lt (a := j) (by omega),
    Nat.mod_eq_of_lt h]

/-- Writing right behind the window, without crossing the end of the memory, extends it. -/
lemma window_copyIn (mem : ℕ → α) (cap r n : ℕ) (src : List α)
    (hw : (r + n) % cap + src.length ≤ cap)
    (hn : n + src.length ≤ cap) :
    window (copyIn mem ((r + n) % cap) src) cap r (n + src.length) =
      window mem cap r n ++ src := by
  rw [window_add]
  congr 1
  · apply List.map_congr_left
    intro i hi
    have hi := List.mem_range.mp hi
    rw [copyIn, dif_neg]
    rintro ⟨hle, hlt⟩
    -- the cell would be the window's position `i` and one behind the window at once
    obtain ⟨j, hj⟩ := Nat.exists_eq_add_of_le hle
    have hpos : (r + (n + j)) % cap = (r + n) % cap + j := mod_add (by omega)
    exact mod_ne (by omega) (by omega) (hj.trans hpos.symm)
  · apply List.ext_getElem (by simp)
    intro i hi hi'
    have hmod : ((r + n) % cap + i) % cap = (r + n) % cap + i := Nat.mod_eq_of_lt (by omega)
    simp only [window, List.getElem_map, List.getElem_range]
    rw [hmod, copyIn, dif_pos ⟨by omega, by omega⟩]
    simp

/-! ### The bounded queue -/

/-- Push onto a queue that only keeps its last `cap` elements. -/
def push (cap : ℕ) (q xs : List α) : List α := (q ++ xs).rtake cap

/-- An input that fills the queue on its own replaces it. -/
lemma push_of_le {q xs : List α} (h : cap ≤ xs.length) : push cap q xs = xs.rtake cap := by
  simp only [push, List.rtake, List.length_append]
  rw [show q.length + xs.length - cap = q.length + (xs.length - cap) by omega, List.drop_append]
  simp

/-- Otherwise just enough of the oldest elements make room. -/
lemma push_of_lt {q xs : List α} (h : xs.length ≤ cap) :
    push cap q xs = q.drop (q.length + xs.length - cap) ++ xs := by
  simp only [push, List.rtake, List.length_append]
  rw [List.drop_append_of_le_length (by omega)]

/-! ### Frames of a fixed size -/

/-- `q` is a sequence of frames of `k` elements, each of them one of `P`. -/
def Framed (P : List α → Prop) (k : ℕ) (q : List α) : Prop :=
  ∃ fs : List (List α), (∀ f ∈ fs, P f ∧ f.length = k) ∧ q = fs.flatten

variable {P : List α → Prop} {k : ℕ}

lemma Framed.nil : Framed P k [] := ⟨[], by simp, rfl⟩

lemma Framed.append {q q' : List α} (h : Framed P k q) (h' : Framed P k q') :
    Framed P k (q ++ q') := by
  obtain ⟨fs, hfs, rfl⟩ := h
  obtain ⟨fs', hfs', rfl⟩ := h'
  refine ⟨fs ++ fs', fun f hf => ?_, by simp⟩
  rcases List.mem_append.mp hf with hf | hf
  · exact hfs f hf
  · exact hfs' f hf

lemma Framed.mono {Q : List α → Prop} {q : List α} (h : Framed P k q) (hPQ : ∀ f, P f → Q f) :
    Framed Q k q := by
  obtain ⟨fs, hfs, rfl⟩ := h
  exact ⟨fs, fun f hf => ⟨hPQ f (hfs f hf).1, (hfs f hf).2⟩, rfl⟩

/-- A list of whole frames is the sequence of its own frames. -/
lemma Framed.of_dvd {l : List α} (h : k ∣ l.length) :
    Framed (fun f => ∃ i, f = (l.drop (k * i)).take k) k l := by
  obtain ⟨m, hm⟩ := h
  have hflat : ∀ n ≤ m, l.take (k * n) =
      ((List.range n).map fun i => (l.drop (k * i)).take k).flatten := by
    intro n hn
    induction n with
    | zero => simp
    | succ n ih =>
      rw [List.range_succ, List.map_append, List.flatten_append, ← ih (by omega), Nat.mul_succ,
        List.take_add]
      simp
  refine ⟨(List.range m).map fun i => (l.drop (k * i)).take k, fun f hf => ?_, ?_⟩
  · obtain ⟨i, hi, rfl⟩ := List.mem_map.mp hf
    refine ⟨⟨i, rfl⟩, ?_⟩
    have hle : k * (i + 1) ≤ k * m := Nat.mul_le_mul_left k (List.mem_range.mp hi)
    rw [Nat.mul_succ] at hle
    simp only [List.length_take, List.length_drop]
    omega
  · rw [← hflat m le_rfl, ← hm, List.take_length]

/-- Cutting at a frame boundary leaves frames on both sides. -/
lemma Framed.take_drop {q : List α} (h : Framed P k q) {n : ℕ} (hn : k ∣ n) :
    Framed P k (q.take n) ∧ Framed P k (q.drop n) := by
  obtain ⟨fs, hfs, rfl⟩ := h
  obtain ⟨m, rfl⟩ := hn
  induction fs generalizing m with
  | nil => simp [Framed.nil]
  | cons f fs ih =>
    have hf := hfs f (by simp)
    cases m with
    | zero => exact ⟨by simpa using Framed.nil, by simpa using ⟨f :: fs, hfs, by simp⟩⟩
    | succ m =>
      obtain ⟨htake, hdrop⟩ := ih (fun g hg => hfs g (by simp [hg])) m
      have hk : k * (m + 1) = f.length + k * m := by rw [hf.2]; ring
      refine ⟨?_, ?_⟩
      · rw [hk, List.flatten_cons, List.take_length_add_append]
        exact Framed.append ⟨[f], by simpa using hf, by simp⟩ htake
      · rw [hk, List.flatten_cons, List.drop_length_add_append]
        exact hdrop

lemma Framed.dvd_length {q : List α} (h : Framed P k q) : k ∣ q.length := by
  obtain ⟨fs, hfs, rfl⟩ := h
  rw [List.length_flatten]
  refine List.dvd_sum fun x hx => ?_
  obtain ⟨f, hf, rfl⟩ := List.mem_map.mp hx
  exact (hfs f hf).2 ▸ dvd_rfl

/-- Overflow drops whole frames when the capacity is a whole number of them. -/
lemma Framed.push {q xs : List α} (hq : Framed P k q) (hxs : Framed P k xs) (hcap : k ∣ cap) :
    Framed P k (push cap q xs) := by
  refine ((hq.append hxs).take_drop ?_).2
  exact Nat.dvd_sub (hq.append hxs).dvd_length hcap

end Ring
