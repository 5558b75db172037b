import Mathlib.Tactic

/-!
# Cutting a stream into frames

A stream is cut into consecutive frames of one size, and what does not fill a frame is kept for the
samples that come later. Whoever cuts a stream in parts, each time together with the rest of the
part before, cuts the whole stream.
-/

namespace Framing

variable {α : Type*}

/-- The consecutive frames of a stream. -/
def frames (size : ℕ) (xs : List α) : List (List α) :=
  (List.range (xs.length / size)).map fun j => (xs.drop (size * j)).take size

/-- What is left behind the last frame. -/
def rest (size : ℕ) (xs : List α) : List α := xs.drop (size * (xs.length / size))

variable {size : ℕ}

@[simp] lemma length_frames (xs : List α) : (frames size xs).length = xs.length / size := by
  simp [frames]

lemma frames_of_lt {xs : List α} (h : xs.length < size) : frames size xs = [] := by
  rw [frames, Nat.div_eq_of_lt h]
  rfl

lemma rest_of_lt {xs : List α} (h : xs.length < size) : rest size xs = xs := by
  rw [rest, Nat.div_eq_of_lt h]
  rfl

/-! ### A frame in front -/

section

variable {frame : List α}

lemma length_append_div (hsize : 0 < size) (hframe : frame.length = size) (xs : List α) :
    (frame ++ xs).length / size = xs.length / size + 1 := by
  rw [List.length_append, hframe, Nat.add_div_left _ hsize]

lemma drop_frame_append (hframe : frame.length = size) (xs : List α) (j : ℕ) :
    (frame ++ xs).drop (size * (j + 1)) = xs.drop (size * j) := by
  rw [Nat.mul_succ, Nat.add_comm, ← List.drop_drop, List.drop_left' hframe]

lemma frames_frame_append (hsize : 0 < size) (hframe : frame.length = size) (xs : List α) :
    frames size (frame ++ xs) = frame :: frames size xs := by
  rw [frames, length_append_div hsize hframe, List.range_succ_eq_map, List.map_cons, List.map_map]
  congr 1
  · rw [Nat.mul_zero, List.drop_zero, List.take_left' hframe]
  · refine List.map_congr_left fun j _ => ?_
    exact congrArg (List.take size) (drop_frame_append hframe xs j)

lemma rest_frame_append (hsize : 0 < size) (hframe : frame.length = size) (xs : List α) :
    rest size (frame ++ xs) = rest size xs := by
  rw [rest, length_append_div hsize hframe, drop_frame_append hframe]
  rfl

lemma frames_frame (hsize : 0 < size) (hframe : frame.length = size) :
    frames size frame = [frame] := by
  have hnil : frames size ([] : List α) = [] := frames_of_lt hsize
  have h := frames_frame_append hsize hframe []
  rwa [List.append_nil, hnil] at h

lemma rest_frame (hsize : 0 < size) (hframe : frame.length = size) : rest size frame = [] := by
  have hnil : rest size ([] : List α) = [] := rest_of_lt hsize
  have h := rest_frame_append hsize hframe []
  rwa [List.append_nil, hnil] at h

end

/-! ### Streams in parts -/

/-- Induction on a stream frame by frame. -/
theorem induction_frames (hsize : 0 < size) {P : List α → Prop}
    (hshort : ∀ xs : List α, xs.length < size → P xs)
    (hframe : ∀ frame xs : List α, frame.length = size → P xs → P (frame ++ xs)) :
    ∀ xs, P xs := by
  intro xs
  induction hn : xs.length using Nat.strong_induction_on generalizing xs with
  | h n ih =>
    rcases Nat.lt_or_ge xs.length size with hlt | hge
    · exact hshort xs hlt
    · have hlater : (xs.drop size).length < n := by
        rw [List.length_drop]
        omega
      have hP := hframe (xs.take size) (xs.drop size) (List.length_take_of_le hge)
        (ih _ hlater (xs.drop size) rfl)
      rwa [List.take_append_drop] at hP

lemma frames_append (hsize : 0 < size) (xs ys : List α) :
    frames size (xs ++ ys) = frames size xs ++ frames size (rest size xs ++ ys) := by
  induction xs using induction_frames hsize with
  | hshort xs hlt =>
    rw [frames_of_lt hlt, rest_of_lt hlt]
    rfl
  | hframe frame xs hframe ih =>
    rw [List.append_assoc, frames_frame_append hsize hframe, ih, frames_frame_append hsize hframe,
      rest_frame_append hsize hframe]
    rfl

lemma rest_append (hsize : 0 < size) (xs ys : List α) :
    rest size (xs ++ ys) = rest size (rest size xs ++ ys) := by
  induction xs using induction_frames hsize with
  | hshort xs hlt => rw [rest_of_lt hlt]
  | hframe frame xs hframe ih =>
    rw [List.append_assoc, rest_frame_append hsize hframe, ih, rest_frame_append hsize hframe]

/-- Nothing is lost. -/
theorem flatten_frames_append_rest (hsize : 0 < size) (xs : List α) :
    (frames size xs).flatten ++ rest size xs = xs := by
  induction xs using induction_frames hsize with
  | hshort xs hlt =>
    rw [frames_of_lt hlt, rest_of_lt hlt]
    rfl
  | hframe frame xs hframe ih =>
    rw [frames_frame_append hsize hframe, rest_frame_append hsize hframe, List.flatten_cons,
      List.append_assoc, ih]

end Framing
