import Mathlib.Data.List.GetD
import Mpxcast.Core.CMemory

/-!
# Scratch windows

A local array whose slots are `none` until they are written. Samples that follow each other in it
are read, extended and copied as a list.
-/

namespace ScratchWindow

open CMemory

variable {α : Type*}

/-- From slot `start` on, the array holds the samples. -/
def Holds (slots : List (Option α)) (start : ℕ) (samples : List α) : Prop :=
  ∃ before after, slots = before ++ (samples.map some ++ after) ∧ before.length = start

variable {slots : List (Option α)} {start : ℕ} {samples : List α}

/-- A sample is stored behind the others. -/
lemma Holds.store (h : Holds slots start samples) (hroom : start + samples.length < slots.length)
    (x : α) :
    ∃ next, CMemory.store slots (start + samples.length) (some x) = some next ∧
      next.length = slots.length ∧ Holds next start (samples ++ [x]) := by
  obtain ⟨before, after, rfl, rfl⟩ := h
  refine ⟨_, store_of_lt hroom _, List.length_set, before, after.drop 1, ?_, rfl⟩
  cases after with
  | nil =>
    simp only [List.length_append, List.length_map, List.append_nil] at hroom
    exact absurd hroom (lt_irrefl _)
  | cons y after =>
    rw [List.set_append_right _ _ (Nat.le_add_right _ _), Nat.add_sub_cancel_left,
      List.set_append_right _ _ (by rw [List.length_map]), List.length_map, Nat.sub_self]
    simp

lemma Holds.load (h : Holds slots start samples) {k : ℕ} (hk : k < samples.length) (fill : α) :
    slots[start + k]?.join = some (samples.getD k fill) := by
  obtain ⟨before, after, rfl, rfl⟩ := h
  rw [List.getElem?_append_right (Nat.le_add_right _ _), Nat.add_sub_cancel_left,
    List.getElem?_append_left (by rwa [List.length_map]), List.getElem?_map,
    List.getD_eq_getElem _ _ hk, List.getElem?_eq_getElem hk]
  rfl

/-- The newest samples. -/
lemma Holds.drop (h : Holds slots start samples) {k : ℕ} (hk : k ≤ samples.length) :
    Holds slots (start + k) (samples.drop k) := by
  obtain ⟨before, after, rfl, rfl⟩ := h
  refine ⟨before ++ (samples.take k).map some, after, ?_, ?_⟩
  · rw [List.append_assoc, ← List.append_assoc ((samples.take k).map some), ← List.map_append,
      List.take_append_drop]
  · rw [List.length_append, List.length_map, List.length_take, min_eq_left hk]

lemma Holds.slice (h : Holds slots start samples) :
    slice slots start samples.length = some (samples.map some) := by
  obtain ⟨before, after, rfl, rfl⟩ := h
  rw [slice_of_le (by simp), List.drop_left, List.take_left' (List.length_map _)]

/-- Samples that are copied to the start of the array. -/
lemma holds_memcpy (slots : List (Option α)) (samples : List α) :
    Holds (memcpy slots 0 (samples.map some)) 0 samples :=
  ⟨[], _, memcpy_zero _ _, rfl⟩

/-- Samples that were copied out have all been written. -/
lemma mapM_map_some (samples : List α) : (samples.map some).mapM id = some samples := by
  induction samples with
  | nil => rfl
  | cons x samples ih =>
    rw [List.map_cons, List.mapM_cons, ih]
    rfl

end ScratchWindow
